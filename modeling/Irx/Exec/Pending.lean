import Irx.Exec.Dispatch
import Irx.Exec.Resume

/-!
# The pending call

At a stop `getCurrentCallFunctionName` looks at the instruction that `run` noted, but
`getCurrentCallArgs` at the `Caller` of the topmost frame. A stop leaves the loop before the call is
visited, so `Caller` is what the frame left there before: nothing when it was just entered or returned
to, and otherwise the last call that it passed without executing it. `History` follows this call
through a run, `History.caller` shows that `Caller` holds it, and `pending_iff` says when the arguments
are those of the pending call.
-/

namespace Irx.Exec
open Irx.Lib
open Memory (dlistModule dlistState)

section Pending

variable {GV Mem : Type} (B : Base GV Mem) (G : ConstantGraph)

/-- The values of the arguments of a call. -/
def argValues (call : Instruction) (s : State GV Mem) : Except Abort (List GV) :=
  call.args.mapM fun V => getOperandValue B G V s.operands s.machine

/-- `getCurrentCallArgs`; a null `Caller` is dereferenced. -/
def getCurrentCallArgs (s : State GV Mem) : Except Abort (List GV) :=
  match s.machine.ecStack with
  | [] => .ok []
  | SF :: _ =>
    match s.runningInstruction with
    | none => .error .undefined
    | some I =>
      if I.opcode = .call then
        match SF.caller with
        | none => .error .undefined
        | some call => argValues B G call s
      else .ok []

/-- `getCurrentCallFunctionName`; a null function is dereferenced. -/
def getCurrentCallFunctionName (s : State GV Mem) : Except Abort String :=
  match s.runningInstruction with
  | none => .error .undefined
  | some I =>
    if I.opcode = .call then do
      let F ← getFunctionWithPtr B G I s.operands s.machine
      match F with
      | none => .error .undefined
      | some F => .ok F
    else .ok ""

/-- `visitCallBase` goes on to LLVM's interpreter: the call is by a name that is not ignored, or by a
pointer to a function. -/
def executes (call : Instruction) (ops : Operands) (m : Machine GV Mem) : Bool :=
  match call.calledFunction with
  | some F => !(startsWith F "llvm." && (startsWith F "llvm.dbg.declare" ||
      startsWith F "llvm.dbg.value" || startsWith F "llvm.experimental.noalias.scope.decl"))
  | none =>
    match getOperandValue B G call.calledOperand ops m with
    | .error _ => false
    | .ok V =>
      let V := B.vvptr2vptr m.memory V
      !B.isNull V && (B.findFunctionByVPtr V).isSome

/-- A call to a function of the stop or the skip list. -/
def listedCall (flow : FlowControl) (call : Instruction) (s : State GV Mem) : Bool :=
  match getFunctionWithPtr B G call s.operands s.machine with
  | .error _ => false
  | .ok F => F.any flow.shouldStop || F.any flow.shouldSkip

/-- What `getCurrentCallArgs` is to return at a stop: the arguments of the pending call. -/
def ArgsOf (call : Instruction) (s : State GV Mem) : Prop :=
  ∃ values, argValues B G call s = .ok values ∧ getCurrentCallArgs B G s = .ok values

end Pending

/-- `Caller` of the topmost frame. -/
def Machine.caller {GV Mem : Type} (m : Machine GV Mem) : Option Instruction :=
  m.ecStack.head?.bind ExecutionContext.caller

/-- A constant expression is evaluated from the values of the frame, not from `Caller`. -/
def Engine.CallerFree {GV Mem : Type} (E : Engine GV Mem) : Prop :=
  ∀ e ops m m' caller, (m.modifyBack fun SF => { SF with caller := caller }) = .ok m' →
    E.getConstantExprValue e ops m' = E.getConstantExprValue e ops m

/-- What LLVM's interpreter does with `Caller`. A frame is entered without one and returned to without
one. A call that is executed leaves none, and neither does an intrinsic that is lowered, as the instruction
is erased then; the intrinsics for variadic arguments are handled in place. -/
structure Engine.KeepsCaller {GV Mem : Type} (E : Engine GV Mem) (inPlace : Instruction → Bool) :
    Prop where
  quiet : ∀ I ops m m', I.isCallBase = false → E.visit I ops m = .ok m' →
    m'.caller = if m'.ecStack.length = m.ecStack.length then m.caller else none
  handled : ∀ I ops m m', I.isCallBase = true → inPlace I = true → E.visit I ops m = .ok m' →
    m'.ecStack.length = m.ecStack.length ∧ m'.caller = m.caller
  executed : ∀ I ops m m', I.isCallBase = true → inPlace I = false → E.visit I ops m = .ok m' →
    m'.caller = none
  callerFree : E.CallerFree

section History

variable {GV Mem : Type} (E : Engine GV Mem) (M : Memory.Module) (G : ConstantGraph)
variable (inPlace : Instruction → Bool)

/-- The last call that the topmost frame passed without executing it, after the instruction `I` was
fetched in `s` and led to `s'`, when it was `last` before. -/
def passed (a : Memory.MapAllocator) (flow : FlowControl) (I : Instruction) (s s' : State GV Mem)
    (last : Option Instruction) : Option Instruction :=
  if s'.machine.ecStack.length ≠ s.machine.ecStack.length then none
  else if I.opcode = .call then
    -- a stop and a skip come before `Caller` is set
    if listedCall (E.base M a G) G flow I s then last
    else if executes (E.base M a G) G I s.operands s.machine && !inPlace I then none
    else some I
  else if I.isCallBase && !inPlace I then none
  else last

/-- Runs of a client from a state in which the topmost frame was just entered: steps of the loop, also
beyond stops, with any allocator and any lists, and between them return values put and memory written.
With each state comes the last call that its topmost frame passed without executing it. -/
inductive History : State GV Mem → Option Instruction → Prop where
  | entered {s} : s.machine.caller = none → History s none
  | step {s s1 s' a flow I exit last} : History s last → fetch s = some (I, s1) →
      runBody (runInstruction (E.base M a G) G flow) s = .ok (exit, s') →
      History s' (passed E M G inPlace a flow I s1 s' last)
  | put {s s' r last} : History s last → putReturnValue r s = .ok s' → History s' last
  | wrote {s last} (memory) : History s last →
      History { s with machine := { s.machine with memory := memory } } last

end History

variable {GV Mem : Type} {E : Engine GV Mem} {M : Memory.Module} {a : Memory.MapAllocator}
variable {G : ConstantGraph} {flow : FlowControl} {inPlace : Instruction → Bool} {ops : Operands}
variable {m m' : Machine GV Mem} {s s1 s' : State GV Mem} {I : Instruction} {exit : Bool}
variable {last : Option Instruction}

/-! ### One instruction -/

/-- A change of the last context keeps the height of the stack. -/
lemma modifyBack_length {change : ExecutionContext GV → ExecutionContext GV}
    (e : m.modifyBack change = .ok m') : m'.ecStack.length = m.ecStack.length := by
  obtain ⟨SF, rest, stack, rfl⟩ := modifyBack_stack e
  rw [stack]
  rfl

/-- A change that keeps the caller of the last context keeps the caller. -/
lemma modifyBack_caller {change : ExecutionContext GV → ExecutionContext GV}
    (e : m.modifyBack change = .ok m') (same : ∀ SF, (change SF).caller = SF.caller) :
    m'.caller = m.caller := by
  obtain ⟨SF, rest, stack, rfl⟩ := modifyBack_stack e
  rw [Machine.caller, Machine.caller, stack]
  exact same SF

/-- The caller that is noted is the caller. -/
lemma noted_caller {caller : Option Instruction}
    (e : (m.modifyBack fun SF => { SF with caller := caller }) = .ok m') : m'.caller = caller := by
  obtain ⟨SF, rest, stack, rfl⟩ := modifyBack_stack e
  rfl

/-- Fetching keeps the height of the stack and the caller. -/
lemma fetch_machine (fetched : fetch s = some (I, s1)) :
    s1.machine.ecStack.length = s.machine.ecStack.length ∧ s1.machine.caller = s.machine.caller ∧
      s1.runningInstruction = some I := by
  obtain ⟨SF, next, rest, stack, rfl⟩ := fetch_stack fetched
  rw [Machine.caller, Machine.caller, stack]
  exact ⟨rfl, rfl, rfl⟩

/-- `Caller` is no operand. -/
lemma getOperandValue_noted (free : E.CallerFree) {caller : Option Instruction}
    (noted : (m.modifyBack fun SF => { SF with caller := caller }) = .ok m') (V : Value) :
    getOperandValue (E.base M a G) G V ops m' = getOperandValue (E.base M a G) G V ops m := by
  cases V with
  | register id => exact congrArg Except.ok (registerValue_modifyBack noted fun _ => rfl)
  | constant C =>
    cases C with
    | plain => rfl
    | globalAlias => rfl
    | constantExpr e =>
      have value := free e (withoutAliases e ops) m m' caller noted
      rw [getOperandValue, getOperandValue]
      exact congrArg (fun v => ite _ (Except.ok v) _) value

/-- Noting a caller changes no memory. -/
lemma noted_memory {caller : Option Instruction}
    (e : (m.modifyBack fun SF => { SF with caller := caller }) = .ok m') : m'.memory = m.memory := by
  obtain ⟨SF, rest, stack, rfl⟩ := modifyBack_stack e
  rfl

/-- A call that is not executed leaves itself in `Caller`; one that is executed goes through
`Interpreter::visit` with itself in `Caller`. -/
lemma visitCallBase_caller (keeps : E.KeepsCaller inPlace)
    (ran : visitCallBase (E.base M a G) G I ops m = .ok m') :
    if executes (E.base M a G) G I ops m then
      ∃ m2, m2.ecStack.length = m.ecStack.length ∧ m2.caller = some I ∧ E.visit I ops m2 = .ok m'
    else m'.ecStack.length = m.ecStack.length ∧ m'.caller = some I := by
  rw [visitCallBase] at ran
  obtain ⟨m1, noted, ran⟩ := bind_eq_ok.1 ran
  obtain ⟨_, _, ran⟩ := bind_eq_ok.1 ran
  have length := modifyBack_length noted
  have caller := noted_caller noted
  have kept : ∀ {change m2}, (m1.modifyBack change) = .ok m2 →
      (∀ SF, (change SF).caller = SF.caller) →
      m2.ecStack.length = m.ecStack.length ∧ m2.caller = some I := by
    intro change m2 e same
    exact ⟨(modifyBack_length e).trans length, (modifyBack_caller e same).trans caller⟩
  cases called : I.calledFunction with
  | some F =>
    simp only [called] at ran
    simp only [executes, called]
    cases llvm : startsWith F "llvm." with
    | false =>
      simp only [llvm, Bool.not_false, if_true] at ran
      exact ⟨m1, length, caller, ran⟩
    | true =>
      simp only [llvm, Bool.not_true, Bool.false_eq_true, if_false] at ran
      rw [Bool.true_and]
      split at ran
      case isTrue ignored =>
        cases ran
        simp only [ignored, Bool.true_or, Bool.not_true]
        exact ⟨length, caller⟩
      case isFalse notDeclare =>
        split at ran
        case isTrue ignored =>
          cases ran
          simp only [ignored, Bool.true_or, Bool.or_true, Bool.not_true]
          exact ⟨length, caller⟩
        case isFalse notValue =>
          split at ran
          case isTrue ignored =>
            cases ran
            simp only [ignored, Bool.or_true, Bool.not_true]
            exact ⟨length, caller⟩
          case isFalse notScope =>
            simp only [notDeclare, notValue, notScope, Bool.or_false, Bool.not_false, if_true]
            exact ⟨m1, length, caller, ran⟩
  | none =>
    simp only [called] at ran
    simp only [executes, called]
    obtain ⟨V, evaluated, ran⟩ := bind_eq_ok.1 ran
    rw [getOperandValue_noted keeps.callerFree noted] at evaluated
    rw [noted_memory noted] at ran
    simp only [evaluated]
    split at ran
    case isTrue address =>
      obtain ⟨m2, stored, ran⟩ := bind_eq_ok.1 ran
      have after := kept stored fun _ => rfl
      rw [address, Bool.true_and]
      split at ran
      case h_1 F found =>
        rw [found]
        exact ⟨m2, after.1, after.2, ran⟩
      case h_2 unknown =>
        cases ran
        rw [unknown]
        exact after
    case isFalse null =>
      rw [Bool.not_eq_true] at null
      rw [null, Bool.false_and]
      split at ran
      · cases ran
        exact ⟨length, caller⟩
      · split at ran
        · exact kept ran fun _ => rfl
        · cases ran
          exact ⟨length, caller⟩

/-- Visiting an instruction leaves a caller behind for a call only. -/
lemma visit_caller (keeps : E.KeepsCaller inPlace) (e : E.visit I ops m = .ok m') :
    m'.caller = if m'.ecStack.length ≠ m.ecStack.length then none
      else if I.isCallBase && !inPlace I then none else m.caller := by
  cases callBase : I.isCallBase with
  | false =>
    rw [keeps.quiet I ops m m' callBase e, Bool.false_and]
    by_cases same : m'.ecStack.length = m.ecStack.length
    · rw [if_pos same, if_neg (not_not.2 same), if_neg Bool.false_ne_true]
    · rw [if_neg same, if_pos same]
  | true =>
    cases handled : inPlace I with
    | true =>
      obtain ⟨length, caller⟩ := keeps.handled I ops m m' callBase handled e
      rw [if_neg (not_not.2 length), caller]
      rfl
    | false =>
      rw [keeps.executed I ops m m' callBase handled e]
      exact (ite_self none).symm

/-- So does running one. -/
lemma runOther_caller (keeps : E.KeepsCaller inPlace)
    (e : runOther (E.base M a G) I ops m = .ok m') :
    m'.caller = if m'.ecStack.length ≠ m.ecStack.length then none
      else if I.isCallBase && !inPlace I then none else m.caller := by
  have kept : I.isCallBase = false → m'.ecStack.length = m.ecStack.length →
      m'.caller = m.caller → m'.caller = if m'.ecStack.length ≠ m.ecStack.length then none
        else if I.isCallBase && !inPlace I then none else m.caller := by
    intro callBase length caller
    rw [if_neg (not_not.2 length), callBase, Bool.false_and, if_neg Bool.false_ne_true, caller]
  have plain : ∀ op, I.opcode = op → op ≠ .call → op ≠ .other 5 → op ≠ .other 11 →
      I.isCallBase = false := by
    rintro op rfl call invoke callBr
    rw [Instruction.isCallBase, decide_eq_false call, decide_eq_false invoke, decide_eq_false callBr]
    rfl
  rw [runOther] at e
  split at e
  case h_1 load =>
    obtain ⟨SRC, _, e⟩ := bind_eq_ok.1 e
    obtain ⟨Result, _, e⟩ := bind_eq_ok.1 e
    refine kept (plain _ load ?_ ?_ ?_) (modifyBack_length e) (modifyBack_caller e fun _ => rfl)
    all_goals decide
  case h_2 store =>
    obtain ⟨Val, _, e⟩ := bind_eq_ok.1 e
    obtain ⟨SRC, _, e⟩ := bind_eq_ok.1 e
    obtain ⟨memory, _, e⟩ := bind_eq_ok.1 e
    cases e
    refine kept (plain _ store ?_ ?_ ?_) rfl rfl
    all_goals decide
  case h_3 fence =>
    cases e
    refine kept (plain _ fence ?_ ?_ ?_) rfl rfl
    all_goals decide
  case h_4 => exact visit_caller keeps e

/-- What `listedCall` decides: a listed function is not entered and nothing changes, any other is called. -/
lemma runInstruction_listedCall {B : Base GV Mem} (call : I.opcode = .call)
    (ran : runInstruction B G flow I s = .ok (exit, s')) :
    listedCall B G flow I s = true ∧ s' = s ∨
      listedCall B G flow I s = false ∧ exit = false ∧
        ∃ m, visitCallBase B G I s.operands s.machine = .ok m ∧ s' = { s with machine := m } := by
  obtain ⟨F, found, cases⟩ := runInstruction_call call ran
  have listed : listedCall B G flow I s = (F.any flow.shouldStop || F.any flow.shouldSkip) := by
    rw [listedCall, found]
  rw [listed]
  exact cases.imp_left fun ⟨either, _, same⟩ => ⟨either, same⟩

/-- `Caller` after an instruction is the last call that the frame passed. -/
lemma runInstruction_caller (keeps : E.KeepsCaller inPlace)
    (ran : runInstruction (E.base M a G) G flow I s = .ok (exit, s')) :
    s'.machine.caller = passed E M G inPlace a flow I s s' s.machine.caller := by
  rw [passed]
  by_cases call : I.opcode = .call
  case pos =>
    rw [if_pos call]
    obtain ⟨listed, rfl⟩ | ⟨unlisted, _, m, visited, rfl⟩ := runInstruction_listedCall call ran
    · rw [listed, if_pos rfl, ite_cond_eq_false _ _ (by simp)]
    · have callBase : I.isCallBase = true := by
        rw [Instruction.isCallBase, call]
        rfl
      have outcome := visitCallBase_caller keeps visited
      rw [unlisted, if_neg Bool.false_ne_true]
      cases reached : executes (E.base M a G) G I s.operands s.machine with
      | false =>
        simp only [reached, Bool.false_eq_true, if_false] at outcome
        rw [Bool.false_and, if_neg (not_not.2 outcome.1), if_neg Bool.false_ne_true]
        exact outcome.2
      | true =>
        simp only [reached, if_true] at outcome
        obtain ⟨m2, length, caller, e⟩ := outcome
        have after := visit_caller keeps e
        rw [callBase, length, caller] at after
        exact after
  case neg =>
    obtain ⟨_, fixed, m, ops, _, other, _, rfl⟩ := runInstruction_other call ran
    rw [if_neg call]
    exact runOther_caller keeps other

/-! ### Runs -/

/-- At every point of a run `Caller` of the topmost frame is the last call that the frame passed without
executing it. -/
lemma History.caller (keeps : E.KeepsCaller inPlace) (history : History E M G inPlace s last) :
    s.machine.caller = last := by
  induction history with
  | entered fresh => exact fresh
  | @step s s1 s' a flow I exit last _ fetched ran ih =>
    rw [runBody_eq, fetched] at ran
    rw [runInstruction_caller keeps ran, (fetch_machine fetched).2.1, ih]
  | @put s s' r last _ put ih =>
    rw [putReturnValue] at put
    split at put
    case h_1 => cases put
    case h_2 I _ =>
      obtain ⟨m, assigned, e⟩ := bind_eq_ok.1 put
      cases e
      exact (modifyBack_caller assigned fun _ => rfl).trans ih
  | wrote memory _ ih => exact ih

/-- The state at a stop: the instruction is fetched, and it is a call to a function of the stop list. -/
lemma runBody_stopped {B : Base GV Mem} (fetched : fetch s = some (I, s1))
    (stop : runBody (runInstruction B G flow) s = .ok (true, s')) :
    s' = s1 ∧ I.opcode = .call ∧
      ∃ F ∈ flow.stop, getFunctionWithPtr B G I s1.operands s1.machine = .ok (some F) := by
  rw [runBody_eq, fetched] at stop
  obtain ⟨unchanged, call⟩ := runInstruction_stop stop
  refine ⟨unchanged, call, ?_⟩
  obtain ⟨F, found, ⟨_, listed, _⟩ | ⟨_, last, _⟩⟩ := runInstruction_call call stop
  · obtain ⟨F, rfl, stops⟩ := (Option.any_eq_true _ _).1 listed.symm
    exact ⟨F, List.contains_iff_mem.1 stops, found⟩
  · cases last

/-- `getCurrentCallArgs` at a pending call reads the arguments of `Caller`. -/
lemma getCurrentCallArgs_eq {B : Base GV Mem} (running : s.runningInstruction = some I)
    (call : I.opcode = .call) (runnable : s.machine.ecStack ≠ []) :
    getCurrentCallArgs B G s = match s.machine.caller with
      | none => .error .undefined
      | some caller => argValues B G caller s := by
  rw [getCurrentCallArgs, Machine.caller, running]
  cases stack : s.machine.ecStack with
  | nil => exact absurd stack runnable
  | cons SF rest => simp only [List.head?_cons, Option.bind_some, if_pos call]

/-- At every stop of every run the name is that of the function that the pending call goes to. The
arguments are those of the pending call exactly if the frame has passed a call without executing it since
it was entered or last returned to, and the last such call has as many arguments with the same values. -/
theorem pending_iff {GV Mem : Type} {E : Engine GV Mem} {M : Memory.Module}
    {a : Memory.MapAllocator} {G : ConstantGraph} {flow : FlowControl}
    {inPlace : Instruction → Bool} {s s1 s' : State GV Mem} {I : Instruction}
    {last : Option Instruction} (keeps : E.KeepsCaller inPlace)
    (history : History E M G inPlace s last) (fetched : fetch s = some (I, s1))
    (stop : runBody (runInstruction (E.base M a G) G flow) s = .ok (true, s')) :
    (∃ F ∈ flow.stop, getFunctionWithPtr (E.base M a G) G I s'.operands s'.machine = .ok (some F) ∧
      getCurrentCallFunctionName (E.base M a G) G s' = .ok F) ∧
    (ArgsOf (E.base M a G) G I s' ↔ ∃ passed values, last = some passed ∧
      argValues (E.base M a G) G passed s' = .ok values ∧
      argValues (E.base M a G) G I s' = .ok values) := by
  obtain ⟨rfl, call, F, stops, found⟩ := runBody_stopped fetched stop
  have running := (fetch_machine fetched).2.2
  have caller : s'.machine.caller = last :=
    (fetch_machine fetched).2.1.trans (history.caller keeps)
  have runnable : s'.machine.ecStack ≠ [] := by
    intro empty
    have alive := runBody_stop stop
    rw [State.isRunnable, empty] at alive
    cases alive
  constructor
  · refine ⟨F, stops, found, ?_⟩
    simp only [getCurrentCallFunctionName, running, if_pos call, found, ok_bind]
  · rw [ArgsOf, getCurrentCallArgs_eq running call runnable, caller]
    constructor
    · rintro ⟨values, pending, returned⟩
      cases last with
      | none => cases returned
      | some passed => exact ⟨passed, values, rfl, returned, pending⟩
    · rintro ⟨passed, values, rfl, returned, pending⟩
      exact ⟨values, pending, returned⟩

/-- An engine that enters a function for every call. -/
def callEngine : Engine Nat Unit :=
  { dlistEngine with
    visit := fun I _ m =>
      if I.isCallBase then
        .ok { m with ecStack := ⟨"callee", 0, [], none, fun _ => none, [], []⟩ :: m.ecStack }
      else .ok m }

/-- The engine keeps the caller. -/
lemma callEngine_keepsCaller : callEngine.KeepsCaller fun _ => false where
  quiet I ops m m' other e := by
    simp only [callEngine, other] at e
    cases e
    exact (if_pos rfl).symm
  handled _ _ _ _ _ handled _ := by cases handled
  executed I ops m m' callBase _ e := by
    simp only [callEngine, callBase, if_true] at e
    cases e
    rfl
  callerFree _ _ _ _ _ _ := rfl

/-- A call of `init` with register `7`, and a debug intrinsic with the given argument. -/
def callInit : Instruction :=
  ⟨2, .call, [.register 7], [.register 7], some "init", .constant (.plain "init"), false, none⟩

/-- A call of `llvm.dbg.value` with a value. -/
def debugValue (V : Value) : Instruction :=
  ⟨1, .call, [V], [V], some "llvm.dbg.value", .constant (.plain "llvm.dbg.value"), false, none⟩

/-- `main` before two instructions, register `7` holding `42`. -/
def beforeTwo (I J : Instruction) : State Nat Unit where
  machine := {
    ecStack := [⟨"main", 0, [I, J], none, fun V => if V = .register 7 then some 42 else none, [], []⟩]
    exitValue := 0
    memory := () }
  operands := fun _ => none
  runningInstruction := none

/-- `main` after the instruction. -/
def afterOne (I J : Instruction) : State Nat Unit where
  machine := {
    ecStack := [⟨"main", 0, [J], some I, fun V => if V = .register 7 then some 42 else none, [], []⟩]
    exitValue := 0
    memory := () }
  operands := fun _ => none
  runningInstruction := some I

/-- A step of `callEngine` that stops at `init`. -/
def stopAtInit (s : State Nat Unit) : Except Abort (Bool × State Nat Unit) :=
  runBody (runInstruction (callEngine.base dlistModule dlistState.allocator noConstants) noConstants
    ⟨["init"], []⟩) s

/-- After a debug intrinsic with the same argument a stop at `init` returns the argument of `init`. -/
theorem pending_iff_debugValue :
    ∃ s', stopAtInit (afterOne (debugValue (.register 7)) callInit) = .ok (true, s') ∧
      ArgsOf (callEngine.base dlistModule dlistState.allocator noConstants) noConstants callInit s' := by
  have passed : stopAtInit (beforeTwo (debugValue (.register 7)) callInit) =
      .ok (false, afterOne (debugValue (.register 7)) callInit) := rfl
  have history : History callEngine dlistModule noConstants (fun _ => false)
      (afterOne (debugValue (.register 7)) callInit) (some (debugValue (.register 7))) :=
    .step (.entered (s := beforeTwo (debugValue (.register 7)) callInit) rfl) rfl passed
  obtain ⟨s', stop⟩ : ∃ s', stopAtInit (afterOne (debugValue (.register 7)) callInit) =
      .ok (true, s') := ⟨_, rfl⟩
  have iff := (pending_iff callEngine_keepsCaller history rfl stop).2
  cases stop
  exact ⟨_, rfl, iff.2 ⟨_, [42], rfl, rfl, rfl⟩⟩

/-- A stop at the first call of a function finds no `Caller`, and one after a debug intrinsic finds the
arguments of the intrinsic. -/
theorem pending_differs :
    (∃ s', stopAtInit (before callInit 42) = .ok (true, s') ∧
      argValues (callEngine.base dlistModule dlistState.allocator noConstants) noConstants callInit s' =
        .ok [42] ∧
      getCurrentCallArgs (callEngine.base dlistModule dlistState.allocator noConstants) noConstants s' =
        .error .undefined) ∧
    stopAtInit (beforeTwo (debugValue (.constant (.plain "value"))) callInit) =
      .ok (false, afterOne (debugValue (.constant (.plain "value"))) callInit) ∧
    ∃ s', stopAtInit (afterOne (debugValue (.constant (.plain "value"))) callInit) = .ok (true, s') ∧
      argValues (callEngine.base dlistModule dlistState.allocator noConstants) noConstants callInit s' =
        .ok [42] ∧
      getCurrentCallArgs (callEngine.base dlistModule dlistState.allocator noConstants) noConstants s' =
        .ok [0] :=
  ⟨⟨_, rfl, rfl, rfl⟩, rfl, _, rfl, rfl, rfl⟩

end Irx.Exec
