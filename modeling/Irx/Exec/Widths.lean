import Irx.Exec.Pending

/-!
# The width of a result that was not computed

A call may be passed without entering a callee: its function is in the skip list, or its pointer is null
or that of no function. Only the path for a null pointer that is not inline assembly writes an integer
result; the others leave in the frame what it held before. `passed_width_iff` says when the result has the
width of its type.
-/

namespace Irx.Exec
open Irx.Lib
open Memory (dlistModule dlistState)

section Widths

variable {GV Mem : Type} (B : Base GV Mem) (G : ConstantGraph) (flow : FlowControl)

/-- The call is passed without entering a callee: it is skipped, or it goes through a pointer that is null
or that of no function. -/
def PassedOver (call : Instruction) (s : State GV Mem) : Prop :=
  call.opcode = .call ∧
  ((∃ F, getFunctionWithPtr B G call s.operands s.machine = .ok (some F) ∧
      flow.shouldStop F = false ∧ flow.shouldSkip F = true) ∨
    (call.calledFunction = none ∧ listedCall B G flow call s = false ∧
      executes B G call s.operands s.machine = false))

/-- The call goes through a null pointer and is no inline assembly. -/
def NullCall (call : Instruction) (ops : Operands) (m : Machine GV Mem) : Prop :=
  call.calledFunction = none ∧ call.isInlineAsm = false ∧
    ∃ V, getOperandValue B G call.calledOperand ops m = .ok V ∧
      B.isNull (B.vvptr2vptr m.memory V) = true

end Widths

/-- The widths of integers in a `GenericValue`: a default one has width 1, and the pointer is kept beside
the integer. -/
structure Engine.Widths {GV Mem : Type} (E : Engine GV Mem) (width : GV → Nat) : Prop where
  default : width E.GenericValue = 1
  zero : ∀ n, width (E.zero n) = n
  pointer : ∀ v p, width (E.setPointerVal v p) = width v

variable {GV Mem : Type} {E : Engine GV Mem} {M : Memory.Module} {a : Memory.MapAllocator}
variable {G : ConstantGraph} {flow : FlowControl} {width : GV → Nat} {ops : Operands}
variable {m m' : Machine GV Mem} {s s' : State GV Mem} {I : Instruction} {exit : Bool} {N id : Nat}

/-- Other registers keep their values. -/
lemma registerValue_setValue_of_ne {V : Value} {v : GV} (other : .register id ≠ V)
    (e : (m.modifyBack fun SF => SF.setValue V v) = .ok m') :
    E.registerValue id m' = E.registerValue id m := by
  obtain ⟨SF, rest, stack, rfl⟩ := modifyBack_stack e
  have value := Function.update_of_ne other (some v) SF.values
  rw [Engine.registerValue, Engine.registerValue, stack]
  exact congrArg (Option.getD · E.GenericValue) value

/-- The translated pointer that is put back into the callee operand has the width of the operand. -/
lemma callee_width (id : Nat) (widths : E.Widths width) {V : Value} {v : GV} {p : Nat}
    (evaluated : getOperandValue (E.base M a G) G V ops m = .ok v)
    (stored : (m.modifyBack fun SF => SF.setValue V (E.setPointerVal v p)) = .ok m') :
    width (E.registerValue id m') = width (E.registerValue id m) := by
  by_cases same : V = .register id
  case pos =>
    subst same
    cases evaluated
    rw [registerValue_setValue stored, widths.pointer]
    rfl
  case neg => rw [registerValue_setValue_of_ne (Ne.symm same) stored]

/-- A call through a pointer to no function sets its result only for a null pointer. -/
lemma visitCallBase_width (free : E.CallerFree) (widths : E.Widths width)
    (direct : I.calledFunction = none) (type : I.integerWidth = some N)
    (unknown : executes (E.base M a G) G I ops m = false)
    (ran : visitCallBase (E.base M a G) G I ops m = .ok m') :
    width (E.registerValue I.id m') = N ↔
      NullCall (E.base M a G) G I ops m ∨ width (E.registerValue I.id m) = N := by
  rw [visitCallBase] at ran
  obtain ⟨m1, noted, ran⟩ := bind_eq_ok.1 ran
  obtain ⟨_, _, ran⟩ := bind_eq_ok.1 ran
  simp only [direct] at ran
  obtain ⟨V, evaluated, ran⟩ := bind_eq_ok.1 ran
  have before : E.registerValue I.id m1 = E.registerValue I.id m :=
    registerValue_modifyBack noted fun _ => rfl
  have evaluated' := evaluated
  rw [getOperandValue_noted free noted] at evaluated'
  rw [noted_memory noted] at ran
  simp only [executes, direct, evaluated'] at unknown
  split at ran
  case isTrue address =>
    obtain ⟨m2, stored, ran⟩ := bind_eq_ok.1 ran
    rw [address, Bool.true_and] at unknown
    have after := callee_width I.id widths evaluated stored
    split at ran
    case h_1 F found =>
      rw [found] at unknown
      cases unknown
    case h_2 =>
      cases ran
      rw [after, before, or_iff_right]
      rintro ⟨_, _, V', evaluated1, null⟩
      cases evaluated'.symm.trans evaluated1
      rw [null] at address
      cases address
  case isFalse null =>
    rw [Bool.not_eq_true, Bool.not_eq_false'] at null
    split at ran
    case isTrue inlineAsm =>
      cases ran
      rw [before, or_iff_right]
      rintro ⟨_, other, _⟩
      rw [inlineAsm] at other
      cases other
    case isFalse notAsm =>
      simp only [type] at ran
      rw [registerValue_setValue ran]
      exact iff_of_true (widths.zero N)
        (.inl ⟨direct, Bool.eq_false_iff.2 notAsm, V, evaluated', null⟩)

/-- After a call of type `iN` that is passed without entering a callee the frame holds a value of width
`N` for it exactly if the call goes through a null pointer, is not skipped and is no inline assembly, or
if the frame held such a value before. -/
theorem passed_width_iff {GV Mem : Type} {E : Engine GV Mem} {M : Memory.Module}
    {a : Memory.MapAllocator} {G : ConstantGraph} {flow : FlowControl} {width : GV → Nat}
    {s s' : State GV Mem} {I : Instruction} {exit : Bool} {N : Nat} (free : E.CallerFree)
    (widths : E.Widths width) (type : I.integerWidth = some N)
    (passed : PassedOver (E.base M a G) G flow I s)
    (ran : runInstruction (E.base M a G) G flow I s = .ok (exit, s')) :
    exit = false ∧ (width (E.registerValue I.id s'.machine) = N ↔
      (listedCall (E.base M a G) G flow I s = false ∧
        NullCall (E.base M a G) G I s.operands s.machine) ∨
      width (E.registerValue I.id s.machine) = N) := by
  obtain ⟨call, ⟨F, found, notStop, skip⟩ | ⟨direct, unlisted, unknown⟩⟩ := passed
  case inl =>
    have listed : listedCall (E.base M a G) G flow I s = true := by
      simp only [listedCall, found, Option.any_some, skip, Bool.or_true]
    rw [runInstruction, if_pos call, runCall, found] at ran
    simp only [ok_bind, Option.any_some, notStop, skip, Bool.false_eq_true, if_false, if_true] at ran
    cases ran
    rw [listed]
    exact ⟨rfl, (or_iff_right fun other => Bool.noConfusion other.1).symm⟩
  case inr =>
    obtain ⟨listed, _⟩ | ⟨_, last, m, visited, rfl⟩ := runInstruction_listedCall call ran
    · rw [unlisted] at listed
      cases listed
    · rw [unlisted, visitCallBase_width free widths direct type unknown visited]
      exact ⟨last, or_congr_left (and_iff_right rfl).symm⟩

/-- A client that answers a stop gives the result the width of its answer. -/
lemma putReturnValue_width {r : GV} (running : s.runningInstruction = some I)
    (put : putReturnValue r s = .ok s') : width (E.registerValue I.id s'.machine) = width r := by
  rw [putReturnValue, running] at put
  obtain ⟨m, stored, e⟩ := bind_eq_ok.1 put
  cases e
  exact congrArg width (registerValue_setValue stored)

/-- An engine whose values are an integer's width and a pointer. -/
def widthEngine : Engine (Nat × Nat) Unit where
  visit := fun _ _ m => .ok m
  getConstantExprValue := fun _ _ _ => (1, 0)
  getConstantValue := fun _ _ => (1, 0)
  LoadValueFromMemory := fun _ _ _ => .ok (1, 0)
  StoreValueToMemory := fun _ mem _ _ => .ok mem
  storesFunctionPointer := fun _ => false
  isCast := fun _ => false
  PointerVal := Prod.snd
  setPointerVal := fun v p => (v.1, p)
  GenericValue := (1, 0)
  zero := fun n => (n, 0)

/-- The engine notes the widths. -/
lemma widthEngine_widths : widthEngine.Widths Prod.fst where
  default := rfl
  zero _ := rfl
  pointer _ _ := rfl

/-- `main` at a call of type `i32` through register `7`. -/
def call32 : Instruction := ⟨1, .call, [.register 7], [], none, .register 7, false, some 32⟩

/-- `main` at the call, with this pointer in the register. -/
def at32 (pointer : Nat) : State (Nat × Nat) Unit where
  machine := {
    ecStack := [⟨"main", 0, [], none,
      fun V => if V = .register 7 then some (1, pointer) else none, [], []⟩]
    exitValue := (1, 0)
    memory := () }
  operands := fun _ => none
  runningInstruction := some call32

/-- A call at `at32` with a skip list, and the width of its result after it. -/
def passing (skip : List String) (pointer : Nat) : Except Abort (Bool × Nat) := do
  let (exit, s) ← runInstruction (widthEngine.base dlistModule dlistState.allocator noConstants)
    noConstants ⟨[], skip⟩ call32 (at32 pointer)
  .ok (exit, (widthEngine.registerValue 1 s.machine).1)

/-- A call of type `i32` through a null pointer leaves a value of width 32. -/
theorem passed_width_iff_null : passing [] 0 = .ok (false, 32) := by
  obtain ⟨s', ran⟩ : ∃ s', runInstruction
      (widthEngine.base dlistModule dlistState.allocator noConstants) noConstants ⟨[], []⟩ call32
      (at32 0) = .ok (false, s') := ⟨_, rfl⟩
  have passed : PassedOver (widthEngine.base dlistModule dlistState.allocator noConstants)
      noConstants ⟨[], []⟩ call32 (at32 0) := ⟨rfl, .inr ⟨rfl, rfl, rfl⟩⟩
  have width := (passed_width_iff (fun _ _ _ _ _ _ => rfl) widthEngine_widths rfl passed ran).2.2
    (.inl ⟨rfl, rfl, rfl, _, rfl, rfl⟩)
  simp only [passing, ran, ok_bind]
  exact congrArg (fun w => Except.ok (false, w)) width

/-- A skipped call of type `i32`, and one through a pointer to no function, leave no value of width 32. -/
theorem skipped_width :
    PassedOver (widthEngine.base dlistModule dlistState.allocator noConstants) noConstants
      ⟨[], ["init"]⟩ call32 (at32 0x50000124) ∧
    passing ["init"] 0x50000124 = .ok (false, 1) ∧
    PassedOver (widthEngine.base dlistModule dlistState.allocator noConstants) noConstants
      ⟨[], []⟩ call32 (at32 4096) ∧
    passing [] 4096 = .ok (false, 1) :=
  ⟨⟨rfl, .inl ⟨"init", rfl, rfl, rfl⟩⟩, rfl, ⟨rfl, .inr ⟨rfl, rfl, rfl⟩⟩, rfl⟩

end Irx.Exec
