import Irx.Exec.Callee

/-!
# Stopped and skipped functions

The stop and skip lists are checked for instructions of the opcode `call` only. While no invoke or
callbr transfers control to a listed function, every transfer to one stops the run or is passed over
before a frame is pushed, and the frames of listed functions in any state of a run are frames it started
with (`lists_respected`). An invoke is executed without the check.
-/

namespace Irx.Exec
open Irx.Lib System
open Memory (dlistModule dlistState)

section Lists

variable {GV Mem : Type} (E : Engine GV Mem) (M : Memory.Module) (a : Memory.MapAllocator)
variable (G : ConstantGraph) (flow : FlowControl)

/-- The next instruction, and the state after it was fetched. -/
def fetch (s : State GV Mem) : Option (Instruction × State GV Mem) :=
  match s.machine.ecStack with
  | [] => none
  | SF :: rest =>
    match SF.curInst with
    | [] => none
    | I :: next => some (I, { s with
        machine := { s.machine with ecStack := { SF with curInst := next } :: rest }
        runningInstruction := some I })

/-- A defined function of the stop or the skip list. -/
def Listed (F : String) : Prop :=
  (flow.shouldStop F || flow.shouldSkip F) = true ∧ ∃ f ∈ M.functions, f.name = F ∧ f.mapped = true

instance (F : String) : Decidable (Listed M flow F) := inferInstanceAs (Decidable (_ ∧ _))

/-- The frames of listed functions. -/
def Machine.listed (m : Machine GV Mem) : List String := m.functions.filter (Listed M flow ·)

/-- No transfer to a listed function pushes a frame: the step changes nothing but the instruction
pointer, and the run stops if the function is in the stop list and else goes on. -/
def Respected (s : State GV Mem) : Prop :=
  ∀ I s1, fetch s = some (I, s1) → ∀ f ∈ M.functions, Listed M flow f.name →
    Transfers E a I s1.operands s1.machine f →
      runBody (runInstruction (E.base M a G) G flow) s = .ok (flow.shouldStop f.name, s1)

/-- The next instruction transfers control to a listed function only if it is a call. -/
def OnlyCalls (s : State GV Mem) : Prop :=
  ∀ I s1, fetch s = some (I, s1) → ∀ f ∈ M.functions, Listed M flow f.name →
    Transfers E a I s1.operands s1.machine f → I.opcode = .call

end Lists

variable {GV Mem : Type} {E : Engine GV Mem} {M : Memory.Module} {state : Memory.MyInterpreter}
variable {a : Memory.MapAllocator} {G : ConstantGraph} {flow : FlowControl} {ops : Operands}
variable {m m' : Machine GV Mem} {s s1 s' : State GV Mem} {I : Instruction} {F : String}
variable {f : Memory.Function} {exit : Bool}

/-- A round fetches an instruction and runs it. -/
lemma runBody_eq {exec : Instruction → State GV Mem → Except Abort (Bool × State GV Mem)} :
    runBody exec s = match fetch s with
      | none => .error .undefined
      | some (I, s1) => exec I s1 := by
  rw [runBody, fetch]
  cases s.machine.ecStack with
  | nil => rfl
  | cons SF rest =>
    cases current : SF.curInst with
    | nil => simp only [current]
    | cons I next => simp only [current]

/-- Fetching takes the next instruction of the topmost frame, and changes nothing else but to note it. -/
lemma fetch_stack (fetched : fetch s = some (I, s1)) :
    ∃ SF next rest, s.machine.ecStack = SF :: rest ∧ s1 = { s with
      machine := { s.machine with ecStack := { SF with curInst := next } :: rest }
      runningInstruction := some I } := by
  rw [fetch] at fetched
  cases stack : s.machine.ecStack with
  | nil =>
    rw [stack] at fetched
    cases fetched
  | cons SF rest =>
    cases current : SF.curInst with
    | nil =>
      simp only [stack, current] at fetched
      cases fetched
    | cons J next =>
      simp only [stack, current] at fetched
      cases fetched
      exact ⟨SF, next, rest, rfl, rfl⟩

/-- Fetching changes no function on the stack. -/
lemma fetch_functions (fetched : fetch s = some (I, s1)) :
    s1.machine.functions = s.machine.functions := by
  obtain ⟨SF, next, rest, stack, rfl⟩ := fetch_stack fetched
  rw [Machine.functions, Machine.functions, stack]
  rfl

/-- Only the topmost frame is changed. -/
lemma modifyBack_stack {change : ExecutionContext GV → ExecutionContext GV}
    (e : m.modifyBack change = .ok m') :
    ∃ SF rest, m.ecStack = SF :: rest ∧ m' = { m with ecStack := change SF :: rest } := by
  rw [Machine.modifyBack] at e
  cases stack : m.ecStack with
  | nil =>
    rw [stack] at e
    cases e
  | cons SF rest =>
    rw [stack] at e
    cases e
    exact ⟨SF, rest, rfl, rfl⟩

/-- A change of the last context that keeps its function changes no function. -/
lemma modifyBack_functions {change : ExecutionContext GV → ExecutionContext GV}
    (e : m.modifyBack change = .ok m') (same : ∀ SF, (change SF).curFunction = SF.curFunction) :
    m'.functions = m.functions := by
  obtain ⟨SF, rest, stack, rfl⟩ := modifyBack_stack e
  rw [Machine.functions, Machine.functions, stack, List.map_cons, same]
  rfl

/-- Of fewer functions fewer are listed. -/
lemma listed_suffix (suffix : m'.functions <:+ m.functions) :
    m'.listed M flow <:+ m.listed M flow := suffix.filter _

/-- A function that is not listed changes nothing. -/
lemma listed_push (push : m'.functions = F :: m.functions) (unlisted : ¬ Listed M flow F) :
    m'.listed M flow = m.listed M flow := by
  rw [Machine.listed, push, List.filter_cons_of_neg (by simpa using unlisted), Machine.listed]

/-- A defined function in a list is known to the module. -/
lemma Listed.function (listed : Listed M flow F) :
    ∃ f ∈ M.functions, f.name = F ∧ f.mapped = true := listed.2

/-- A listed function has an address. -/
lemma Listed.mapped (linked : Linked M) (mem : f ∈ M.functions) (listed : Listed M flow f.name) :
    f.mapped = true := by
  obtain ⟨f', mem', same, mapped⟩ := listed.2
  rwa [function_unique linked mem mem' same.symm]

/-- A call to a listed function stops the run or is passed over. -/
lemma runInstruction_listed (lawful : E.Lawful M G) (linked : Linked M)
    (run : (Memory.api M).Outcome (.ok state)) (call : I.opcode = .call) (mem : f ∈ M.functions)
    (listed : Listed M flow f.name)
    (transfers : Transfers E state.allocator I s.operands s.machine f) :
    runInstruction (E.base M state.allocator G) G flow I s = .ok (flow.shouldStop f.name, s) := by
  have called := getFunctionWithPtr_of_transfers lawful linked run mem (listed.mapped linked mem)
    transfers
  have either := listed.1
  rw [runInstruction, if_pos call, runCall, called]
  cases stop : flow.shouldStop f.name with
  | true =>
    simp only [ok_bind, Option.any_some, stop, if_true]
  | false =>
    rw [stop, Bool.false_or] at either
    simp only [ok_bind, Option.any_some, stop, either, Bool.false_eq_true, if_false, if_true]

/-! ### Frames -/

/-- A change of the last context that keeps its registers changes no register. -/
lemma registerValue_modifyBack {id : Nat} {change : ExecutionContext GV → ExecutionContext GV}
    (e : m.modifyBack change = .ok m') (same : ∀ SF, (change SF).values = SF.values) :
    E.registerValue id m' = E.registerValue id m := by
  obtain ⟨SF, rest, stack, rfl⟩ := modifyBack_stack e
  rw [Engine.registerValue, Engine.registerValue, stack, List.head?_cons, List.head?_cons,
    Option.bind_some, Option.bind_some, same]

/-- A register has the value that was set. -/
lemma registerValue_setValue {id : Nat} {V : GV}
    (e : (m.modifyBack fun SF => SF.setValue (.register id) V) = .ok m') :
    E.registerValue id m' = V := by
  obtain ⟨SF, rest, stack, rfl⟩ := modifyBack_stack e
  rw [Engine.registerValue, List.head?_cons, Option.bind_some, ExecutionContext.setValue]
  have value := Function.update_self (Value.register id) (some V) SF.values
  exact congrArg (Option.getD · E.GenericValue) value

/-- A visit that calls no listed function pushes no frame of one. -/
lemma visit_listed (lawful : E.Lawful M G) (e : E.visit I ops m = .ok m')
    (unlisted : I.isCallBase = true → ∀ F, Calls E M I ops m F → ¬ Listed M flow F) :
    m'.listed M flow <:+ m.listed M flow := by
  cases callBase : I.isCallBase with
  | false => exact listed_suffix (lawful.visit_other I ops m m' callBase e)
  | true =>
    obtain suffix | ⟨F, push, calls⟩ := lawful.visit_call I ops m m' callBase e
    · exact listed_suffix suffix
    · rw [listed_push push (unlisted callBase F calls)]

/-- What LLVM's interpreter calls, the instruction transfers control to. -/
lemma transfers_of_calls (linked : Linked M) (run : (Memory.api M).Outcome (.ok state))
    (callBase : I.isCallBase = true) (calls : Calls E M I ops m F) (listed : Listed M flow F) :
    ∃ f ∈ M.functions, f.name = F ∧ Transfers E state.allocator I ops m f := by
  obtain ⟨f, mem, rfl, _⟩ := listed.function
  refine ⟨f, mem, rfl, callBase, ?_⟩
  rw [Calls] at calls
  cases called : I.calledFunction with
  | some F' =>
    simp only [called] at calls
    exact calls
  | none =>
    cases operand : I.calledOperand with
    | constant C =>
      simp only [called, operand] at calls
      exact calls
    | register id =>
      simp only [called, operand] at calls
      obtain ⟨f', mem', same, address⟩ := calls
      cases function_unique linked mem' mem same
      show hostAddress state.allocator (E.PointerVal (E.registerValue id m)) = _
      rw [address, hostAddress_address linked run mem']

/-- A visited call whose operand was translated before transfers control to what it calls. -/
lemma transfers_of_translated (lawful : E.Lawful M G) (linked : Linked M)
    (run : (Memory.api M).Outcome (.ok state)) (callBase : I.isCallBase = true)
    (direct : I.calledFunction = none) {m1 m2 : Machine GV Mem} {V : GV}
    (noted : (m.modifyBack fun SF => { SF with caller := some I }) = .ok m1)
    (evaluated : getOperandValue (E.base M state.allocator G) G I.calledOperand ops m1 = .ok V)
    (stored : (m1.modifyBack fun SF => SF.setValue I.calledOperand
      (E.setPointerVal V (hostAddress state.allocator (E.PointerVal V)))) = .ok m2)
    (calls : Calls E M I ops m2 F) (listed : Listed M flow F) :
    ∃ f ∈ M.functions, f.name = F ∧ Transfers E state.allocator I ops m f := by
  cases operand : I.calledOperand with
  | constant C =>
    have here : Calls E M I ops m F := by
      rw [Calls, direct, operand] at calls ⊢
      exact calls
    exact transfers_of_calls linked run callBase here listed
  | register id =>
    obtain ⟨f, mem, rfl, _⟩ := listed.function
    refine ⟨f, mem, rfl, callBase, ?_⟩
    rw [Calls, direct, operand] at calls
    obtain ⟨f', mem', same, address⟩ := calls
    cases function_unique linked mem' mem same
    rw [operand] at evaluated stored
    cases evaluated
    -- the register now holds the translation of what it held before
    rw [registerValue_setValue stored, lawful.pointerVal] at address
    have before : E.registerValue id m1 = E.registerValue id m :=
      registerValue_modifyBack noted fun _ => rfl
    rw [direct, operand]
    show hostAddress state.allocator (E.PointerVal (E.registerValue id m)) = _
    rw [← before]
    exact address

/-- Without the aliases of its operands an instruction transfers control as with them. -/
lemma Transfers.unresolved {ops' : Operands} (transfers : Transfers E a I ops' m f)
    (resolved : Resolved ops ops') : Transfers E a I ops m f := by
  obtain ⟨callBase, stands⟩ := transfers
  refine ⟨callBase, ?_⟩
  cases called : I.calledFunction with
  | some F =>
    rw [called] at stands
    exact stands
  | none =>
    cases operand : I.calledOperand with
    | constant C =>
      rw [called, operand] at stands
      exact StandsFor.unresolved stands resolved
    | register id =>
      rw [called, operand] at stands
      exact stands

/-- A call that transfers control to no listed function pushes no frame of one. -/
lemma visitCallBase_listed (lawful : E.Lawful M G) (linked : Linked M)
    (run : (Memory.api M).Outcome (.ok state)) (callBase : I.isCallBase = true)
    (unlisted : ∀ f ∈ M.functions, Listed M flow f.name →
      ¬ Transfers E state.allocator I ops m f)
    (e : visitCallBase (E.base M state.allocator G) G I ops m = .ok m') :
    m'.listed M flow <:+ m.listed M flow := by
  rw [visitCallBase] at e
  obtain ⟨m1, noted, e⟩ := bind_eq_ok.1 e
  obtain ⟨_, _, e⟩ := bind_eq_ok.1 e
  have frames : m1.listed M flow = m.listed M flow := by
    rw [Machine.listed, Machine.listed, modifyBack_functions noted fun _ => rfl]
  have visited : ∀ m2, m2.functions = m1.functions →
      (∀ F, Calls E M I ops m2 F → ¬ Listed M flow F) → E.visit I ops m2 = .ok m' →
      m'.listed M flow <:+ m.listed M flow := by
    intro m2 same none e
    have suffix : m'.listed M flow <:+ m2.listed M flow := visit_listed lawful e fun _ => none
    rwa [Machine.listed, Machine.listed, same, ← Machine.listed, ← Machine.listed, frames] at suffix
  have kept : m'.functions = m1.functions → m'.listed M flow <:+ m.listed M flow := by
    intro same
    rw [← frames, Machine.listed, Machine.listed, same]
  cases called : I.calledFunction with
  | some F =>
    simp only [called] at e
    have direct : E.visit I ops m1 = .ok m' → m'.listed M flow <:+ m.listed M flow := by
      refine visited m1 rfl fun F' calls listed => ?_
      have calls' : Calls E M I ops m F' := by
        rw [Calls, called] at calls ⊢
        exact calls
      obtain ⟨f, mem, rfl, transfers⟩ := transfers_of_calls linked run callBase calls' listed
      exact unlisted f mem listed transfers
    split at e
    · exact direct e
    · split at e
      · exact kept (by cases e; rfl)
      · split at e
        · exact kept (by cases e; rfl)
        · split at e
          · exact kept (by cases e; rfl)
          · exact direct e
  | none =>
    simp only [called] at e
    obtain ⟨V, evaluated, e⟩ := bind_eq_ok.1 e
    split at e
    · obtain ⟨m2, stored, e⟩ := bind_eq_ok.1 e
      have same := modifyBack_functions stored fun _ => rfl
      split at e
      · refine visited m2 same (fun F' calls listed => ?_) e
        obtain ⟨f, mem, rfl, transfers⟩ := transfers_of_translated lawful linked run callBase called
          noted evaluated stored calls listed
        exact unlisted f mem listed transfers
      · cases e
        exact kept same
    · split at e
      · exact kept (by cases e; rfl)
      · split at e
        · exact kept (modifyBack_functions e fun _ => rfl)
        · exact kept (by cases e; rfl)

/-- An instruction that does not transfer control to a listed function keeps the listed ones. -/
lemma runOther_listed (lawful : E.Lawful M G) (linked : Linked M)
    (run : (Memory.api M).Outcome (.ok state)) {ops' : Operands} (resolved : Resolved ops ops')
    (unlisted : ∀ f ∈ M.functions, Listed M flow f.name →
      ¬ Transfers E state.allocator I ops m f)
    (e : runOther (E.base M state.allocator G) I ops' m = .ok m') :
    m'.listed M flow <:+ m.listed M flow := by
  have visited : E.visit I ops' m = .ok m' → m'.listed M flow <:+ m.listed M flow := by
    intro e
    refine visit_listed lawful e fun callBase F calls listed => ?_
    obtain ⟨f, mem, rfl, transfers⟩ := transfers_of_calls linked run callBase calls listed
    exact unlisted f mem listed (transfers.unresolved resolved)
  have kept : m'.functions = m.functions → m'.listed M flow <:+ m.listed M flow := by
    intro same
    rw [Machine.listed, Machine.listed, same]
  rw [runOther] at e
  split at e
  case h_1 =>
    obtain ⟨SRC, _, e⟩ := bind_eq_ok.1 e
    obtain ⟨Result, _, e⟩ := bind_eq_ok.1 e
    exact kept (modifyBack_functions e fun _ => rfl)
  case h_2 =>
    obtain ⟨Val, _, e⟩ := bind_eq_ok.1 e
    obtain ⟨SRC, _, e⟩ := bind_eq_ok.1 e
    obtain ⟨memory, _, e⟩ := bind_eq_ok.1 e
    cases e
    exact kept rfl
  case h_3 =>
    cases e
    exact kept rfl
  case h_4 => exact visited e

/-- An instruction that transfers control to no listed function pushes no frame of one. -/
lemma runInstruction_unlisted (lawful : E.Lawful M G) (linked : Linked M)
    (run : (Memory.api M).Outcome (.ok state))
    (unlisted : ∀ f ∈ M.functions, Listed M flow f.name →
      ¬ Transfers E state.allocator I s.operands s.machine f)
    (ran : runInstruction (E.base M state.allocator G) G flow I s = .ok (exit, s')) :
    s'.machine.listed M flow <:+ s.machine.listed M flow := by
  by_cases call : I.opcode = .call
  case pos =>
    obtain ⟨F, _, ⟨_, _, rfl⟩ | ⟨_, _, m, visited, rfl⟩⟩ := runInstruction_call call ran
    · exact List.suffix_rfl
    · have callBase : I.isCallBase = true := by
        rw [Instruction.isCallBase, call]
        rfl
      exact visitCallBase_listed lawful linked run callBase unlisted visited
  case neg =>
    obtain ⟨_, fixed, m, ops, replaced, other, _, rfl⟩ := runInstruction_other call ran
    exact runOther_listed lawful linked run (fixOperands_resolved replaced) unlisted other

/-! ### Runs -/

/-- If only calls transfer control to listed functions, the lists are respected. -/
lemma respected_of_onlyCalls (lawful : E.Lawful M G) (linked : Linked M)
    (run : (Memory.api M).Outcome (.ok state)) (only : OnlyCalls E M state.allocator flow s) :
    Respected E M state.allocator G flow s := by
  intro I s1 fetched f mem listed transfers
  have call := only I s1 fetched f mem listed transfers
  rw [runBody_eq, fetched]
  exact runInstruction_listed lawful linked run call mem listed transfers

/-- A step that meets the condition pushes no frame of a listed function. -/
lemma runBody_listed (lawful : E.Lawful M G) (linked : Linked M)
    (run : (Memory.api M).Outcome (.ok state)) (only : OnlyCalls E M state.allocator flow s)
    (ran : runBody (runInstruction (E.base M state.allocator G) G flow) s = .ok (exit, s')) :
    s'.machine.listed M flow <:+ s.machine.listed M flow := by
  rw [runBody_eq] at ran
  cases fetched : fetch s with
  | none =>
    rw [fetched] at ran
    cases ran
  | some next =>
    obtain ⟨I, s1⟩ := next
    simp only [fetched] at ran
    have same : s1.machine.listed M flow = s.machine.listed M flow := by
      rw [Machine.listed, Machine.listed, fetch_functions fetched]
    rw [← same]
    by_cases none : ∀ f ∈ M.functions, Listed M flow f.name →
        ¬ Transfers E state.allocator I s1.operands s1.machine f
    case pos => exact runInstruction_unlisted lawful linked run none ran
    case neg =>
      push Not at none
      obtain ⟨f, mem, listed, transfers⟩ := none
      have call := only I s1 fetched f mem listed transfers
      cases (runInstruction_listed lawful linked run call mem listed transfers).symm.trans ran
      exact List.suffix_rfl

/-- Every transfer to a function of the stop or skip list stops the run or is passed over, in every run
in which only calls go to such functions; and no state of the run has a frame of one that was not there
at its start. -/
theorem lists_respected {GV Mem : Type} {E : Engine GV Mem} {M : Memory.Module}
    {state : Memory.MyInterpreter} {G : ConstantGraph} {flow : FlowControl} {n : Nat}
    {s0 : State GV Mem} (lawful : E.Lawful M G) (linked : Linked M)
    (reached : (Memory.api M).Outcome (.ok state))
    (only : ∀ s ∈ (run (E.base M state.allocator G) G flow n s0).path,
      OnlyCalls E M state.allocator flow s) :
    (∀ s ∈ (run (E.base M state.allocator G) G flow n s0).path,
      Respected E M state.allocator G flow s) ∧
    ∀ s ∈ (run (E.base M state.allocator G) G flow n s0).states,
      s.machine.listed M flow <:+ s0.machine.listed M flow := by
  constructor
  · intro s mem
    exact respected_of_onlyCalls lawful linked reached (only s mem)
  · refine loop_keeps (C := OnlyCalls E M state.allocator flow) ?_ List.suffix_rfl only
    intro s r s' before met ran
    exact (runBody_listed lawful linked reached met ran).trans before

/-- An engine whose pointers are numbers and whose memory is not used. -/
def dlistEngine : Engine Nat Unit where
  visit := fun I _ m =>
    match I.isCallBase, I.calledFunction with
    | true, some F => .ok { m with ecStack := ⟨F, 0, [], none, fun _ => none, [], []⟩ :: m.ecStack }
    | _, _ => .ok m
  getConstantExprValue := fun _ _ _ => 0
  getConstantValue := fun _ _ => 0
  LoadValueFromMemory := fun _ _ _ => .ok 0
  StoreValueToMemory := fun _ mem _ _ => .ok mem
  storesFunctionPointer := fun _ => false
  isCast := fun _ => false
  PointerVal := id
  setPointerVal := fun _ p => p
  GenericValue := 0
  zero := fun _ => 0

/-- A module without constant expressions. -/
def noConstants : ConstantGraph where
  numOperands := fun _ => 0
  operand := fun _ => .plain ""
  rank := fun _ => 0
  acyclic := fun _ _ _ few => absurd few (Nat.not_lt_zero _)

/-- `main` before an instruction that transfers control, register `7` holding a value. -/
def before (I : Instruction) (held : Nat) : State Nat Unit where
  machine := {
    ecStack := [⟨"main", 0, [I], none, fun V => if V = .register 7 then some held else none, [], []⟩]
    exitValue := 0
    memory := () }
  operands := fun _ => none
  runningInstruction := none

/-- A call through register `7`. -/
def callPointer : Instruction := ⟨1, .call, [.register 7], [], none, .register 7, false, none⟩

/-- An invoke of `init` by its name. -/
def invokeInit : Instruction :=
  ⟨1, .other 5, [.constant (.plain "init")], [], some "init", .constant (.plain "init"), false, none⟩

/-- The engine is lawful. -/
lemma dlistEngine_lawful : dlistEngine.Lawful dlistModule noConstants where
  pointerVal _ _ := rfl
  cast _ cast := by cases cast
  constantExpr e ops m f _ stands := by
    cases stands with
    | cast cast => cases cast
  constant e ops f _ stands := by
    cases stands with
    | cast cast => cases cast
  visit_other I ops m m' other ran := by
    simp only [dlistEngine, other] at ran
    cases ran
    exact List.suffix_rfl
  visit_call I ops m m' call ran := by
    simp only [dlistEngine, call] at ran
    cases called : I.calledFunction with
    | none =>
      simp only [called] at ran
      cases ran
      exact .inl List.suffix_rfl
    | some F =>
      simp only [called] at ran
      cases ran
      refine .inr ⟨F, rfl, ?_⟩
      rw [Calls, called]

/-- The module is linked. -/
lemma dlist_linked : Linked dlistModule := ⟨by decide, by decide⟩

/-- A call of `init` through its interpreter address stops. -/
theorem lists_respected_pointer :
    Transfers dlistEngine dlistState.allocator callPointer (fun _ => none)
        (before callPointer 0x50000124).machine ⟨"init", false, 0x7f0000002000⟩ ∧
      Respected dlistEngine dlistModule dlistState.allocator noConstants ⟨["init"], []⟩
        (before callPointer 0x50000124) := by
  have path : (run (dlistEngine.base dlistModule dlistState.allocator noConstants) noConstants
      ⟨["init"], []⟩ 1 (before callPointer 0x50000124)).path = [before callPointer 0x50000124] := rfl
  have only : ∀ s ∈ (run (dlistEngine.base dlistModule dlistState.allocator noConstants) noConstants
      ⟨["init"], []⟩ 1 (before callPointer 0x50000124)).path,
      OnlyCalls dlistEngine dlistModule dlistState.allocator ⟨["init"], []⟩ s := by
    rw [path]
    intro s mem I s1 fetched f _ _ _
    cases List.mem_singleton.1 mem
    cases fetched
    rfl
  have respected := (lists_respected dlistEngine_lawful dlist_linked Memory.dlist_run only).1
  exact ⟨⟨rfl, rfl⟩, respected _ (path ▸ .head _)⟩

/-- An invoke of `init` pushes a frame for it although `init` is in the stop list. -/
theorem invoke_not_stopped :
    Transfers dlistEngine dlistState.allocator invokeInit (fun _ => none)
        (before invokeInit 0).machine ⟨"init", false, 0x7f0000002000⟩ ∧
      ((run (dlistEngine.base dlistModule dlistState.allocator noConstants) noConstants
        ⟨["init"], []⟩ 1 (before invokeInit 0)).states.map fun s => s.machine.functions) =
          [["main"], ["init", "main"]] := by
  exact ⟨⟨rfl, rfl⟩, rfl⟩

end Irx.Exec
