import Irx.Exec.Widths

/-!
# The registers of a calling frame

While a call is executed its frame stays on the stack under those of the callees, and LLVM's interpreter
writes to it once, at the return. `visitCallBase` itself puts the translated callee pointer into the
register of the callee. `registers_kept_iff` says when a call through a register leaves all values of its
frame but its own result, from the call until its return.
-/

namespace Irx.Exec
open Irx.Lib
open Memory (dlistModule dlistState)

section Frames

variable {GV Mem : Type}

/-- What an instruction does to the stack: it changes the topmost frame, enters a function from it, or
leaves it. A return to a frame that is at a call writes to the result of the call. -/
inductive Steps : List (ExecutionContext GV) → List (ExecutionContext GV) → Prop where
  | within {T T' below} : Steps (T :: below) (T' :: below)
  | enters {T T' callee below} : Steps (T :: below) (callee :: T' :: below)
  | exits {T} : Steps [T] []
  | returns {T U U' below} : (∀ call, U.caller = some call → call.opcode = .call →
      ∀ V ≠ .register call.id, U'.values V = U.values V) → Steps (T :: U :: below) (U' :: below)

variable (E : Engine GV Mem)

/-- The value that is read from a frame. -/
def Engine.read (SF : ExecutionContext GV) (V : Value) : GV := (SF.values V).getD E.GenericValue

/-- What LLVM's interpreter does with frames. A call enters a function or has its result at once. -/
structure Engine.KeepsFrames : Prop where
  callerFree : E.CallerFree
  pointerVal : ∀ v p, E.PointerVal (E.setPointerVal v p) = p
  setPointerVal : ∀ v, E.setPointerVal v (E.PointerVal v) = v
  visit : ∀ I ops m m', m.ecStack ≠ [] → E.visit I ops m = .ok m' → Steps m.ecStack m'.ecStack
  call : ∀ I ops m m' SF rest, I.opcode = .call → m.ecStack = SF :: rest →
    E.visit I ops m = .ok m' → ∃ above SF', m'.ecStack = above ++ SF' :: rest ∧
      (∀ V ≠ .register I.id, SF'.values V = SF.values V) ∧ (above = [] ∨ SF'.caller = some I)

/-- The frame above `rest` has the values of `SF` but for the result of the call. -/
def FrameKept (call : Instruction) (SF : ExecutionContext GV) (rest stack : List (ExecutionContext GV)) :
    Prop :=
  ∃ above SF', stack = above ++ SF' :: rest ∧
    ∀ V ≠ .register call.id, E.read SF' V = E.read SF V

variable (M : Memory.Module) (G : ConstantGraph)

/-- The states from the one after a call on until its frame is the topmost one again: steps of the loop,
also beyond stops, with return values put and memory written between them. -/
inductive Executing (depth : Nat) (start : State GV Mem) : State GV Mem → Prop where
  | called : Executing depth start start
  | step {s s' a flow exit} : Executing depth start s → depth < s.machine.ecStack.length →
      runBody (runInstruction (E.base M a G) G flow) s = .ok (exit, s') → Executing depth start s'
  | put {s s' r} : Executing depth start s → depth < s.machine.ecStack.length →
      putReturnValue r s = .ok s' → Executing depth start s'
  | wrote {s} (memory) : Executing depth start s →
      Executing depth start { s with machine := { s.machine with memory := memory } }

end Frames

variable {GV Mem : Type} {E : Engine GV Mem} {M : Memory.Module} {a : Memory.MapAllocator}
variable {G : ConstantGraph} {flow : FlowControl} {ops : Operands} {m m' : Machine GV Mem}
variable {s s' : State GV Mem} {I : Instruction} {exit : Bool} {id : Nat}
variable {SF T T' : ExecutionContext GV} {rest below stack stack' : List (ExecutionContext GV)}

/-! ### The stack -/

/-- It does not matter what the topmost frame was. -/
lemma Steps.top (steps : Steps (T' :: below) stack) : Steps (T :: below) stack := by
  cases steps with
  | within => exact .within
  | enters => exact .enters
  | exits => exact .exits
  | returns kept => exact .returns kept

/-- A change of the last context can be the first step. -/
lemma Steps.after_modifyBack {change : ExecutionContext GV → ExecutionContext GV}
    (e : m.modifyBack change = .ok m') (steps : Steps m'.ecStack stack) : Steps m.ecStack stack := by
  obtain ⟨SF, rest, before, rfl⟩ := modifyBack_stack e
  rw [before]
  exact steps.top

/-- A change of the last context is a step. -/
lemma Steps.of_modifyBack {change : ExecutionContext GV → ExecutionContext GV}
    (e : m.modifyBack change = .ok m') : Steps m.ecStack m'.ecStack := by
  obtain ⟨SF, rest, before, rfl⟩ := modifyBack_stack e
  rw [before]
  exact .within

/-- There is a context behind the change. -/
lemma modifyBack_ne_nil {change : ExecutionContext GV → ExecutionContext GV}
    (e : m.modifyBack change = .ok m') : m'.ecStack ≠ [] := by
  obtain ⟨SF, rest, before, rfl⟩ := modifyBack_stack e
  exact List.cons_ne_nil (change SF) rest

/-- Visiting a call only changes the stack in steps. -/
lemma visitCallBase_steps (frames : E.KeepsFrames)
    (ran : visitCallBase (E.base M a G) G I ops m = .ok m') : Steps m.ecStack m'.ecStack := by
  rw [visitCallBase] at ran
  obtain ⟨m1, noted, ran⟩ := bind_eq_ok.1 ran
  obtain ⟨_, _, ran⟩ := bind_eq_ok.1 ran
  refine Steps.after_modifyBack noted ?_
  have runnable := modifyBack_ne_nil noted
  have same : Steps m1.ecStack m1.ecStack := by
    obtain ⟨SF, rest, before, rfl⟩ := modifyBack_stack noted
    exact .within
  have visited : E.visit I ops m1 = .ok m' → Steps m1.ecStack m'.ecStack :=
    frames.visit I ops m1 m' runnable
  cases called : I.calledFunction with
  | some F =>
    simp only [called] at ran
    split at ran
    · exact visited ran
    · split at ran
      · cases ran
        exact same
      · split at ran
        · cases ran
          exact same
        · split at ran
          · cases ran
            exact same
          · exact visited ran
  | none =>
    simp only [called] at ran
    obtain ⟨V, evaluated, ran⟩ := bind_eq_ok.1 ran
    split at ran
    · obtain ⟨m2, stored, ran⟩ := bind_eq_ok.1 ran
      split at ran
      · exact .after_modifyBack stored (frames.visit I ops m2 m' (modifyBack_ne_nil stored) ran)
      · cases ran
        exact .of_modifyBack stored
    · split at ran
      · cases ran
        exact same
      · split at ran
        · exact .of_modifyBack ran
        · cases ran
          exact same

/-- So does running an instruction. -/
lemma runOther_steps (frames : E.KeepsFrames) (runnable : m.ecStack ≠ [])
    (e : runOther (E.base M a G) I ops m = .ok m') : Steps m.ecStack m'.ecStack := by
  obtain ⟨T, below, stack⟩ := List.exists_cons_of_ne_nil runnable
  rw [runOther] at e
  split at e
  case h_1 =>
    obtain ⟨SRC, _, e⟩ := bind_eq_ok.1 e
    obtain ⟨Result, _, e⟩ := bind_eq_ok.1 e
    exact .of_modifyBack e
  case h_2 =>
    obtain ⟨Val, _, e⟩ := bind_eq_ok.1 e
    obtain ⟨SRC, _, e⟩ := bind_eq_ok.1 e
    obtain ⟨memory, _, e⟩ := bind_eq_ok.1 e
    cases e
    rw [stack]
    exact .within
  case h_3 =>
    cases e
    rw [stack]
    exact .within
  case h_4 => exact frames.visit I ops m m' runnable e

/-- So does running one under the lists. -/
lemma runInstruction_steps (frames : E.KeepsFrames) (runnable : s.machine.ecStack ≠ [])
    (ran : runInstruction (E.base M a G) G flow I s = .ok (exit, s')) :
    Steps s.machine.ecStack s'.machine.ecStack := by
  have same : Steps s.machine.ecStack s.machine.ecStack := by
    obtain ⟨T, below, stack⟩ := List.exists_cons_of_ne_nil runnable
    rw [stack]
    exact .within
  by_cases call : I.opcode = .call
  case pos =>
    obtain ⟨F, _, ⟨_, _, rfl⟩ | ⟨_, _, m, visited, rfl⟩⟩ := runInstruction_call call ran
    · exact same
    · exact visitCallBase_steps frames visited
  case neg =>
    obtain ⟨_, fixed, m, ops, _, other, _, rfl⟩ := runInstruction_other call ran
    exact runOther_steps frames runnable other

/-- So does a round of the interpreter. -/
lemma runBody_steps (frames : E.KeepsFrames)
    (ran : runBody (runInstruction (E.base M a G) G flow) s = .ok (exit, s')) :
    Steps s.machine.ecStack s'.machine.ecStack := by
  rw [runBody] at ran
  cases stack : s.machine.ecStack with
  | nil =>
    rw [stack] at ran
    cases ran
  | cons SF rest =>
    cases current : SF.curInst with
    | nil =>
      simp only [stack, current] at ran
      cases ran
    | cons I next =>
      simp only [stack, current] at ran
      refine (runInstruction_steps frames ?_ ran).top
      exact List.cons_ne_nil { SF with curInst := next } rest

/-! ### The calling frame -/

/-- The frame above `rest` is at the call, under at least one other, or it is the topmost one; it has the
values of `SF` but for the result of the call. -/
def Under (E : Engine GV Mem) (call : Instruction) (SF : ExecutionContext GV)
    (rest stack : List (ExecutionContext GV)) : Prop :=
  ∃ above SF', stack = above ++ SF' :: rest ∧ (above = [] ∨ SF'.caller = some call) ∧
    ∀ V ≠ .register call.id, E.read SF' V = E.read SF V

/-- The frame is kept. -/
lemma Under.kept (under : Under E I SF rest stack) : FrameKept E I SF rest stack := by
  obtain ⟨above, SF', e, _, same⟩ := under
  exact ⟨above, SF', e, same⟩

/-- A step of a callee leaves the calling frame, and a return writes to the result of the call. -/
lemma Under.steps (call : I.opcode = .call) (under : Under E I SF rest stack)
    (active : rest.length + 1 < stack.length) (steps : Steps stack stack') :
    Under E I SF rest stack' := by
  obtain ⟨above, SF', rfl, pending, same⟩ := under
  cases above with
  | nil => exact absurd active (lt_irrefl _)
  | cons T above =>
    have waiting : SF'.caller = some I := pending.resolve_left (List.cons_ne_nil T above)
    cases above with
    | nil =>
      cases steps with
      | within => exact ⟨[_], SF', rfl, .inr waiting, same⟩
      | enters => exact ⟨[_, _], SF', rfl, .inr waiting, same⟩
      | @returns _ _ U' _ kept =>
        refine ⟨[], U', rfl, .inl rfl, fun V other => ?_⟩
        have value := kept I waiting call V other
        rw [← same V other, Engine.read, Engine.read, value]
    | cons T2 above =>
      cases steps with
      | within => exact ⟨_ :: T2 :: above, SF', rfl, .inr waiting, same⟩
      | enters => exact ⟨_ :: _ :: T2 :: above, SF', rfl, .inr waiting, same⟩
      | returns => exact ⟨_ :: above, SF', rfl, .inr waiting, same⟩

/-- From a call on until its return the calling frame is under the callees. -/
lemma Executing.under (frames : E.KeepsFrames) (call : I.opcode = .call) {t : State GV Mem}
    (after : Under E I SF rest s'.machine.ecStack)
    (executing : Executing E M G (rest.length + 1) s' t) : Under E I SF rest t.machine.ecStack := by
  induction executing with
  | called => exact after
  | step _ active ran ih => exact ih.steps call active (runBody_steps frames ran)
  | @put s s' r _ active put ih =>
    rw [putReturnValue] at put
    split at put
    case h_1 => cases put
    case h_2 J _ =>
      obtain ⟨m, assigned, e⟩ := bind_eq_ok.1 put
      cases e
      exact ih.steps call active (.of_modifyBack assigned)
  | wrote memory _ ih => exact ih

/-- A frame is under none. -/
lemma Under.refl : Under E I SF rest (SF :: rest) := ⟨[], SF, rfl, .inl rfl, fun _ _ => rfl⟩

/-- The frames above a stack of fixed length are determined. -/
lemma frame_unique {above above' : List (ExecutionContext GV)} {SF' : ExecutionContext GV}
    (e : above ++ SF :: rest = above' ++ SF' :: rest) : SF = SF' := by
  have length := congrArg List.length e
  simp only [List.length_append, List.length_cons] at length
  have same := List.append_inj_right e (by omega)
  exact (List.cons.inj same).1

/-- A translated pointer is null exactly if the translation is. -/
lemma isNull_iff (frames : E.KeepsFrames) {memory : Mem} {v : GV} :
    (E.base M a G).isNull ((E.base M a G).vvptr2vptr memory v) = true ↔
      hostAddress a (E.PointerVal v) = 0 := by
  show decide (E.PointerVal (E.setPointerVal v (hostAddress a (E.PointerVal v))) = 0) = true ↔ _
  rw [frames.pointerVal, decide_eq_true_iff]

/-- What a call through a register leaves of its frame: the callee register holds the translation of what
it held, unless that is null, and but for the result all other values are as before. -/
lemma visitCallBase_register (frames : E.KeepsFrames) (call : I.opcode = .call)
    (direct : I.calledFunction = none) (operand : I.calledOperand = .register id) (ssa : id ≠ I.id)
    (stack : m.ecStack = SF :: rest)
    (ran : visitCallBase (E.base M a G) G I ops m = .ok m') :
    ∃ above SF', m'.ecStack = above ++ SF' :: rest ∧ (above = [] ∨ SF'.caller = some I) ∧
      (∀ V ≠ .register I.id, V ≠ .register id → E.read SF' V = E.read SF V) ∧
      E.read SF' (.register id) =
        if hostAddress a (E.PointerVal (E.read SF (.register id))) = 0 then E.read SF (.register id)
        else E.setPointerVal (E.read SF (.register id))
          (hostAddress a (E.PointerVal (E.read SF (.register id)))) := by
  have isResult : Value.register id ≠ .register I.id := fun e => ssa (Value.register.inj e)
  rw [visitCallBase] at ran
  obtain ⟨m1, noted, ran⟩ := bind_eq_ok.1 ran
  obtain ⟨_, _, ran⟩ := bind_eq_ok.1 ran
  obtain ⟨SF1, rest1, stack1, rfl⟩ := modifyBack_stack noted
  cases stack1.symm.trans stack
  simp only [direct, operand] at ran
  obtain ⟨V, evaluated, ran⟩ := bind_eq_ok.1 ran
  cases evaluated
  split at ran
  case isTrue address =>
    have notNull : hostAddress a (E.PointerVal (E.read SF (.register id))) ≠ 0 := by
      intro null
      rw [Bool.not_eq_true', Bool.eq_false_iff] at address
      exact address ((isNull_iff frames).2 null)
    obtain ⟨m2, stored, ran⟩ := bind_eq_ok.1 ran
    obtain ⟨SF2, rest2, stack2, rfl⟩ := modifyBack_stack stored
    cases stack2
    rw [if_neg notNull]
    split at ran
    case h_1 =>
      obtain ⟨above, SF', e, same, pending⟩ := frames.call I ops _ m' _ rest call rfl ran
      refine ⟨above, SF', e, pending, fun V other notCallee => ?_, ?_⟩
      · rw [Engine.read, same V other]
        exact congrArg (Option.getD · _) (Function.update_of_ne notCallee _ SF.values)
      · rw [Engine.read, same _ isResult]
        exact congrArg (Option.getD · _) (Function.update_self (Value.register id) _ SF.values)
    case h_2 =>
      cases ran
      refine ⟨[], _, rfl, .inl rfl, fun V _ notCallee => ?_, ?_⟩
      · exact congrArg (Option.getD · _) (Function.update_of_ne notCallee _ SF.values)
      · exact congrArg (Option.getD · _) (Function.update_self (Value.register id) _ SF.values)
  case isFalse notNull =>
    have null : hostAddress a (E.PointerVal (E.read SF (.register id))) = 0 := by
      rw [Bool.not_eq_true', Bool.not_eq_false] at notNull
      exact (isNull_iff frames).1 notNull
    rw [if_pos null]
    split at ran
    · cases ran
      exact ⟨[], _, rfl, .inl rfl, fun _ _ _ => rfl, rfl⟩
    · split at ran
      · obtain ⟨SF2, rest2, stack2, rfl⟩ := modifyBack_stack ran
        cases stack2
        refine ⟨[], _, rfl, .inl rfl, fun V other _ => ?_, ?_⟩
        · exact congrArg (Option.getD · _) (Function.update_of_ne other _ SF.values)
        · exact congrArg (Option.getD · _) (Function.update_of_ne isResult _ SF.values)
      · cases ran
        exact ⟨[], _, rfl, .inl rfl, fun _ _ _ => rfl, rfl⟩

/-- The pointer in a register is null or its own translation. -/
def TranslatesToItself (E : Engine GV Mem) (a : Memory.MapAllocator) (id : Nat)
    (SF : ExecutionContext GV) : Prop :=
  hostAddress a (E.PointerVal (E.read SF (.register id))) = 0 ∨
    hostAddress a (E.PointerVal (E.read SF (.register id))) = E.PointerVal (E.read SF (.register id))

/-- From a call through a register until its return every value of the calling frame but the call's own
result stays as it was exactly if the call is stopped or skipped, or the pointer in the register is null
or its own translation. -/
theorem registers_kept_iff {GV Mem : Type} {E : Engine GV Mem} {M : Memory.Module}
    {a : Memory.MapAllocator} {G : ConstantGraph} {flow : FlowControl} {s s' : State GV Mem}
    {I : Instruction} {exit : Bool} {id : Nat} {SF : ExecutionContext GV}
    {rest : List (ExecutionContext GV)} (frames : E.KeepsFrames) (call : I.opcode = .call)
    (direct : I.calledFunction = none) (operand : I.calledOperand = .register id) (ssa : id ≠ I.id)
    (stack : s.machine.ecStack = SF :: rest)
    (ran : runInstruction (E.base M a G) G flow I s = .ok (exit, s')) :
    (∀ t, Executing E M G (rest.length + 1) s' t → FrameKept E I SF rest t.machine.ecStack) ↔
      listedCall (E.base M a G) G flow I s = true ∨ TranslatesToItself E a id SF := by
  have isResult : Value.register id ≠ .register I.id := fun e => ssa (Value.register.inj e)
  obtain ⟨listed, rfl⟩ | ⟨unlisted, _, m, visited, rfl⟩ := runInstruction_listedCall call ran
  · have unchanged : Under E I SF rest s'.machine.ecStack := by
      rw [stack]
      exact .refl
    exact iff_of_true (fun t executing => (executing.under frames call unchanged).kept) (.inl listed)
  · obtain ⟨above, SF', after, pending, same, register⟩ :=
      visitCallBase_register frames call direct operand ssa stack visited
    rw [unlisted, or_iff_right Bool.false_ne_true]
    constructor
    · -- the state right after the call shows what became of the register
      intro kept
      obtain ⟨above', SF1, after', values⟩ := kept _ .called
      cases frame_unique (after.symm.trans after')
      rw [values _ isResult] at register
      by_cases null : hostAddress a (E.PointerVal (E.read SF (.register id))) = 0
      · exact .inl null
      · rw [if_neg null] at register
        have pointer := congrArg E.PointerVal register
        rw [frames.pointerVal] at pointer
        exact .inr pointer.symm
    · intro itself t executing
      refine (executing.under frames call ⟨above, SF', after, pending, fun V other => ?_⟩).kept
      by_cases callee : V = .register id
      · rw [callee, register]
        obtain null | identity := itself
        · rw [if_pos null]
        · rw [identity, frames.setPointerVal, ite_self]
      · exact same V other callee

/-- An engine that enters a function for every call and does nothing for any other instruction. -/
def frameEngine : Engine Nat Unit :=
  { dlistEngine with
    visit := fun I _ m =>
      if I.opcode = .call then do
        let m ← m.modifyBack fun SF => { SF with caller := some I }
        .ok { m with ecStack := ⟨"callee", 0, [], none, fun _ => none, [], []⟩ :: m.ecStack }
      else .ok m }

/-- The engine keeps the frames. -/
lemma frameEngine_keepsFrames : frameEngine.KeepsFrames where
  callerFree _ _ _ _ _ _ := rfl
  pointerVal _ _ := rfl
  setPointerVal _ := rfl
  visit I ops m m' runnable e := by
    obtain ⟨T, below, stack⟩ := List.exists_cons_of_ne_nil runnable
    simp only [frameEngine] at e
    split at e
    · obtain ⟨m1, noted, e⟩ := bind_eq_ok.1 e
      obtain ⟨SF, rest, before, rfl⟩ := modifyBack_stack noted
      cases e
      rw [before]
      exact .enters
    · cases e
      rw [stack]
      exact .within
  call I ops m m' SF rest call stack e := by
    simp only [frameEngine, call, if_true] at e
    obtain ⟨m1, noted, e⟩ := bind_eq_ok.1 e
    obtain ⟨SF1, rest1, before, rfl⟩ := modifyBack_stack noted
    cases before.symm.trans stack
    cases e
    exact ⟨[_], _, rfl, fun _ _ => rfl, .inr rfl⟩

/-- `main` at a call through register `7`; register `8` holds the same pointer. -/
def loadedTwice (pointer : Nat) : State Nat Unit where
  machine := {
    ecStack := [⟨"main", 0, [], none,
      fun V => if V = .register 7 ∨ V = .register 8 then some pointer else none, [], []⟩]
    exitValue := 0
    memory := () }
  operands := fun _ => none
  runningInstruction := some callPointer

/-- The call of `loadedTwice`. -/
def callLoaded (pointer : Nat) : Except Abort (Bool × State Nat Unit) :=
  runInstruction (frameEngine.base dlistModule dlistState.allocator noConstants) noConstants ⟨[], []⟩
    callPointer (loadedTwice pointer)

/-- A call of `init` through its host address leaves both registers. -/
theorem registers_kept_iff_host : ∃ s', callLoaded 0x7f0000002000 = .ok (false, s') ∧
    s'.machine.functions = ["callee", "main"] ∧
    ∀ t, Executing frameEngine dlistModule noConstants 1 s' t →
      ∃ above SF', t.machine.ecStack = above ++ [SF'] ∧
        frameEngine.read SF' (.register 7) = frameEngine.read SF' (.register 8) := by
  obtain ⟨s', ran, functions⟩ : ∃ s', callLoaded 0x7f0000002000 = .ok (false, s') ∧
      s'.machine.functions = ["callee", "main"] := ⟨_, rfl, rfl⟩
  refine ⟨s', ran, functions, fun t executing => ?_⟩
  have kept := (registers_kept_iff frameEngine_keepsFrames rfl rfl rfl (by decide) rfl ran).2
    (.inr (.inr rfl))
  obtain ⟨above, SF', e, same⟩ := kept t executing
  exact ⟨above, SF', e, (same (.register 7) (by decide)).trans (same (.register 8) (by decide)).symm⟩

/-- After a call of `init` through its interpreter address the callee register holds the host address,
and the other one still the interpreter's. -/
theorem registers_differ : ∃ s', callLoaded 0x50000124 = .ok (false, s') ∧
    ((loadedTwice 0x50000124).machine.ecStack.map fun SF =>
      (frameEngine.read SF (.register 7), frameEngine.read SF (.register 8))) =
        [(0x50000124, 0x50000124)] ∧
    (s'.machine.ecStack.map fun SF =>
      (frameEngine.read SF (.register 7), frameEngine.read SF (.register 8))) =
        [(0, 0), (0x7f0000002000, 0x50000124)] :=
  ⟨_, rfl, rfl, rfl⟩

end Irx.Exec
