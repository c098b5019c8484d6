import Irx.Exec.Registers
import Irx.Memory.RoundTrip
import Irx.Debug.Access

/-!
# Pointers that are already translated

Callers of `vvptr2vptr` pass addresses of either side. A pointer that has been translated is translated to
itself, so a structure is reached by its host address as by its interpreter address, and a call through a
register goes the same way after `visitCallBase` has put the translated pointer there
(`translated_access`).
-/

namespace Irx.Exec
open Irx.Lib
open Memory (dlistModule dlistState dlist_run)

variable {GV Mem : Type} {E : Engine GV Mem} {M : Memory.Module} {a : Memory.MapAllocator}
variable {G : ConstantGraph} {ops : Operands} {m m' : Machine GV Mem} {I : Instruction} {id : Nat}
variable {SF : ExecutionContext GV} {rest : List (ExecutionContext GV)}

/-- Whether an operand can be evaluated does not depend on the frames. -/
lemma getOperandValue_checked {B : Base GV Mem} (V : Value) (m m' : Machine GV Mem) :
    (getOperandValue B G V ops m).map (fun _ => ()) = (getOperandValue B G V ops m').map fun _ => () := by
  cases V with
  | register => rfl
  | constant C =>
    cases C with
    | plain => rfl
    | globalAlias => rfl
    | constantExpr e =>
      rw [getOperandValue, getOperandValue]
      split_ifs
      · rfl
      · rfl

/-- The evaluation of arguments whose values are not used. -/
lemma arguments_checked {B : Base GV Mem} {α : Type} (args : List Value) (m m' : Machine GV Mem)
    (next : Except Abort α) :
    (args.mapM (fun V => getOperandValue B G V ops m) >>= fun _ => next) =
      args.mapM (fun V => getOperandValue B G V ops m') >>= fun _ => next := by
  induction args with
  | nil => rfl
  | cons V args ih =>
    have checked : (getOperandValue B G V ops m).map (fun _ => ()) =
        (getOperandValue B G V ops m').map fun _ => () := getOperandValue_checked V m m'
    rw [List.mapM_cons, List.mapM_cons]
    cases first : getOperandValue B G V ops m with
    | error e =>
      cases first' : getOperandValue B G V ops m' with
      | error e' =>
        rw [first, first'] at checked
        cases checked
        rfl
      | ok v =>
        rw [first, first'] at checked
        cases checked
    | ok v =>
      cases first' : getOperandValue B G V ops m' with
      | error e' =>
        rw [first, first'] at checked
        cases checked
      | ok v' =>
        simp only [ok_bind, bind_assoc, pure_bind]
        exact ih

/-- The pointer in a register, translated. -/
def translatedRegister (E : Engine GV Mem) (a : Memory.MapAllocator) (id : Nat) (m : Machine GV Mem) :
    GV :=
  E.setPointerVal (E.registerValue id m) (hostAddress a (E.PointerVal (E.registerValue id m)))

/-- The frame `SF` on the stack with a value put into one of its registers. -/
def withRegister (id : Nat) (V : GV) (SF : ExecutionContext GV) (m : Machine GV Mem) :
    Machine GV Mem :=
  { m with ecStack := SF.setValue (.register id) V :: m.ecStack.tail }

/-- The register has its value. -/
lemma registerValue_withRegister {V : GV} : E.registerValue id (withRegister id V SF m) = V :=
  congrArg (Option.getD · _) (Function.update_self (Value.register id) _ SF.values)

/-- Where the callee register does not translate to null, `visitCallBase` checks the arguments, puts the
translated pointer into the register and visits the call if a function is there. -/
lemma visitCallBase_address (direct : I.calledFunction = none)
    (operand : I.calledOperand = .register id) (stack : m.ecStack = SF :: rest)
    (address : (E.base M a G).isNull (translatedRegister E a id m) = false) :
    let next := withRegister id (translatedRegister E a id m) { SF with caller := some I } m
    visitCallBase (E.base M a G) G I ops m =
      I.args.mapM (fun V => getOperandValue (E.base M a G) G V ops m) >>= fun _ =>
        if ((E.base M a G).findFunctionByVPtr (translatedRegister E a id m)).isSome then
          (E.base M a G).visit I ops next
        else .ok next := by
  intro next
  let noted : Machine GV Mem := { m with ecStack := { SF with caller := some I } :: rest }
  have caller : m.modifyBack (fun SF => { SF with caller := some I }) = .ok noted := by
    rw [Machine.modifyBack, stack]
  have register : translatedRegister E a id noted = translatedRegister E a id m := by
    rw [translatedRegister, translatedRegister, Engine.registerValue, Engine.registerValue, stack]
    rfl
  have stored : noted.modifyBack (fun SF => SF.setValue (.register id) (translatedRegister E a id m)) =
      .ok next := by
    rw [Machine.modifyBack]
    show Except.ok _ = Except.ok (withRegister _ _ _ m)
    rw [withRegister, stack]
    rfl
  rw [visitCallBase, bind_ok caller, arguments_checked I.args noted m]
  refine congrArg (_ >>= ·) (funext fun _ => ?_)
  simp only [direct, operand]
  show (if (!(E.base M a G).isNull (translatedRegister E a id noted)) = true then
    noted.modifyBack (fun SF => SF.setValue (.register id) (translatedRegister E a id noted)) >>= _
    else _) = _
  have found : (E.base M a G).findFunctionByVPtr ((E.base M a G).vvptr2vptr noted.memory
      ((E.base M a G).registerValue id noted)) =
      (E.base M a G).findFunctionByVPtr (translatedRegister E a id m) := congrArg _ register
  rw [register, address, Bool.not_false, if_pos rfl, bind_ok stored]
  cases F : (E.base M a G).findFunctionByVPtr (translatedRegister E a id m) with
  | none => simp only [found, F, Option.isSome_none, Bool.false_eq_true, if_false]
  | some name => simp only [found, F, Option.isSome_some, if_true]

section Calls

variable (pointerVal : ∀ v p, E.PointerVal (E.setPointerVal v p) = p)
variable (setPointerVal : ∀ v, E.setPointerVal v (E.PointerVal v) = v)
variable (twice : ∀ k, hostAddress a (hostAddress a k) = hostAddress a k)
include pointerVal setPointerVal twice

/-- A translated pointer is translated to itself, also within its value. -/
lemma translatedRegister_twice :
    translatedRegister E a id (withRegister id (translatedRegister E a id m) SF m) =
      translatedRegister E a id m := by
  have same := setPointerVal (translatedRegister E a id m)
  rw [translatedRegister, registerValue_withRegister]
  rw [translatedRegister, pointerVal] at same ⊢
  rw [twice]
  exact same

/-- A register that holds a translated pointer names the same function. -/
lemma getFunctionWithPtr_twice (direct : I.calledFunction = none)
    (operand : I.calledOperand = .register id) :
    getFunctionWithPtr (E.base M a G) G I ops
        (withRegister id (translatedRegister E a id m) SF m) =
      getFunctionWithPtr (E.base M a G) G I ops m := by
  have again : translatedRegister E a id (withRegister id (translatedRegister E a id m) SF m) =
      translatedRegister E a id m := translatedRegister_twice pointerVal setPointerVal twice
  rw [getFunctionWithPtr, getFunctionWithPtr, direct, operand]
  show Except.ok (findFunctionByVPtr M (E.PointerVal (translatedRegister E a id
    (withRegister id (translatedRegister E a id m) SF m)))) = _
  rw [again]
  rfl

/-- A call through a register that already holds the translated pointer does what the call does that
puts it there. -/
lemma visitCallBase_twice (direct : I.calledFunction = none)
    (operand : I.calledOperand = .register id) (stack : m.ecStack = SF :: rest)
    (address : (E.base M a G).isNull (translatedRegister E a id m) = false) :
    visitCallBase (E.base M a G) G I ops (withRegister id (translatedRegister E a id m) SF m) =
      visitCallBase (E.base M a G) G I ops m := by
  have again : translatedRegister E a id (withRegister id (translatedRegister E a id m) SF m) =
      translatedRegister E a id m := translatedRegister_twice pointerVal setPointerVal twice
  have idem : ({ SF.setValue (.register id) (translatedRegister E a id m) with
      caller := some I } : ExecutionContext GV).setValue (.register id) (translatedRegister E a id m) =
      ({ SF with caller := some I } : ExecutionContext GV).setValue (.register id)
        (translatedRegister E a id m) := by
    simp only [ExecutionContext.setValue, Function.update_idem]
  have address' : (E.base M a G).isNull (translatedRegister E a id
      (withRegister id (translatedRegister E a id m) SF m)) = false := by
    rw [again]
    exact address
  rw [visitCallBase_address direct operand stack address,
    visitCallBase_address direct operand rfl address', again,
    arguments_checked I.args (withRegister id (translatedRegister E a id m) SF m) m]
  simp only [withRegister, idem, List.tail_cons]

end Calls

/-- Translation is idempotent where no host address of a block, its end included, is one of the
interpreter's: in every reachable state every address is translated, and what it is translated to stays
as it is. So a structure is read and written at the same place through the host address of its block as
through its interpreter address, and a register that holds an already translated callee leads to the same
function and to the same call. -/
theorem translated_access {GV Mem : Type} {E : Engine GV Mem} {M : Memory.Module}
    {s : Memory.MyInterpreter} (run : (Memory.api M).Outcome (.ok s))
    (outside : s.allocator.HostOutside)
    (pointerVal : ∀ v p, E.PointerVal (E.setPointerVal v p) = p)
    (setPointerVal : ∀ v, E.setPointerVal v (E.PointerVal v) = v) :
    (∀ k, ∃ p, Memory.vvptr2vptr s.allocator k = .ok p ∧ Memory.vvptr2vptr s.allocator p = .ok p) ∧
    (∀ b, s.allocator.Live b → ∀ IR name path,
      Debug.irx_struct_set IR s.allocator name b.vptr path =
        Debug.irx_struct_set IR s.allocator name b.vvptr path ∧
      Debug.irx_struct_get IR s.allocator name b.vptr path =
        Debug.irx_struct_get IR s.allocator name b.vvptr path) ∧
    ∀ (G : ConstantGraph) (I : Instruction) (id : Nat) (ops : Operands) (m : Machine GV Mem) SF rest,
      I.calledFunction = none → I.calledOperand = .register id → m.ecStack = SF :: rest →
      let V := translatedRegister E s.allocator id m
      getFunctionWithPtr (E.base M s.allocator G) G I ops (withRegister id V SF m) =
          getFunctionWithPtr (E.base M s.allocator G) G I ops m ∧
        (E.PointerVal V ≠ 0 →
          visitCallBase (E.base M s.allocator G) G I ops (withRegister id V SF m) =
            visitCallBase (E.base M s.allocator G) G I ops m) := by
  obtain ⟨base, mark, A, extra, inv⟩ := Memory.outcome_invariant run
  have translated := inv.rep.translated_twice outside
  have twice : ∀ k, hostAddress s.allocator (hostAddress s.allocator k) = hostAddress s.allocator k := by
    intro k
    obtain ⟨p, e, again⟩ := translated k
    have first : hostAddress s.allocator k = p := by
      rw [hostAddress, e]
      rfl
    rw [first, hostAddress, again]
    rfl
  refine ⟨translated, fun b live IR name path => ?_, ?_⟩
  · have base := inv.rep.vvptr2vptr_inside (inv.rep.live_iff.1 live) le_rfl (Nat.le_add_right _ _)
    rw [Nat.sub_self, Nat.add_zero] at base
    obtain ⟨p, e, again⟩ := translated b.vvptr
    cases base.symm.trans e
    have place : Debug.fieldAddress IR s.allocator name b.vptr path =
        Debug.fieldAddress IR s.allocator name b.vvptr path := by
      funext caches
      rw [Debug.fieldAddress, Debug.fieldAddress, e, again]
    constructor
    · funext value mem caches
      rw [Debug.irx_struct_set, Debug.irx_struct_set, place]
    · funext len mem caches
      rw [Debug.irx_struct_get, Debug.irx_struct_get, place]
  · intro G I id ops m SF rest direct operand stack V
    refine ⟨getFunctionWithPtr_twice pointerVal setPointerVal twice direct operand, fun address => ?_⟩
    exact visitCallBase_twice pointerVal setPointerVal twice direct operand stack
      (decide_eq_false address)

/-- The block of a `structAlloc`, and a call of `init` that finds its host address in register `7`. -/
theorem translated_access_dlist :
    (∃ p, Memory.vvptr2vptr dlistState.allocator 0x5000012c = .ok p ∧
      Memory.vvptr2vptr dlistState.allocator p = .ok p) ∧
    ∃ m : Machine Nat Unit,
      m.ecStack.map (fun SF => frameEngine.read SF (.register 7)) = [0x7f0000002000] ∧
      getFunctionWithPtr (frameEngine.base dlistModule dlistState.allocator noConstants) noConstants
        callPointer (fun _ => none) m = .ok (some "init") := by
  have found : getFunctionWithPtr (frameEngine.base dlistModule dlistState.allocator noConstants)
      noConstants callPointer (fun _ => none) (loadedTwice 0x50000124).machine = .ok (some "init") := rfl
  have stack : (loadedTwice 0x50000124).machine.ecStack = [⟨"main", 0, [], none,
      fun V => if V = .register 7 ∨ V = .register 8 then some 0x50000124 else none, [], []⟩] := rfl
  obtain ⟨translated, _, calls⟩ := translated_access (E := frameEngine) dlist_run
    Memory.dlist_hostOutside (fun _ _ => rfl) (fun _ => rfl)
  have again := (calls noConstants callPointer 7 (fun _ => none) _ _ _ rfl rfl stack).1
  exact ⟨translated 0x5000012c, _, rfl, again.trans found⟩

/-- A global of 16 bytes that ends right below the interpreter's addresses. -/
def edgeGlobal : Memory.GlobalVariable := ⟨"g", false, 16, 0x4FFFFFF0⟩

/-- The global fits below the end. -/
lemma edge_fits : ∀ g ∈ [edgeGlobal], g.mapped = true →
    g.allocSize < 9223372036854775808 ∧ g.pointer + g.allocSize < 18446744073709551616 := by decide

/-- No address is there twice. -/
lemma edge_distinct : (([edgeGlobal].filter Memory.GlobalVariable.mapped).map
    Memory.GlobalVariable.pointer ++ []).Nodup := by decide

/-- There are no functions. -/
lemma edge_fits_function : ∀ f ∈ ([] : List Memory.Function), f.mapped = true →
    f.address + 1 < 18446744073709551616 := by decide

/-- The module of this global. -/
def edgeModule : Memory.Module where
  globals := [edgeGlobal]
  functions := []
  structSize := fun _ => 0
  fits := edge_fits
  fits_function := edge_fits_function
  distinct := edge_distinct

/-- Its interpreter after creation. -/
def edgeState : Memory.MyInterpreter :=
  match Memory.createInterpreter edgeModule with
  | .error _ => ⟨{}, [], []⟩
  | .ok s => s

/-- The last byte of the global is right below the interpreter's addresses. The address past the end of
its block is translated to the first one of them, and that one to the start of the global. -/
theorem past_end_translated_again :
    (Memory.api edgeModule).Outcome (.ok edgeState) ∧
      (∀ b, edgeState.allocator.Live b → ∀ h, b.vptr ≤ h → h < b.vptr + b.size →
        h < Memory.startAddr ∨ Memory.endAddr < h) ∧
      Memory.vvptr2vptr edgeState.allocator 0x50000010 = .ok 0x50000000 ∧
      Memory.vvptr2vptr edgeState.allocator 0x50000000 = .ok 0x4FFFFFF0 := by
  have run : (Memory.api edgeModule).Outcome (.ok edgeState) := .start
  refine ⟨run, fun b live h lo hi => ?_, rfl, rfl⟩
  obtain ⟨_, _, A, _, inv⟩ := Memory.outcome_invariant run
  have held := inv.rep.held (inv.rep.live_iff.1 live)
  have nodes : ∀ n ∈ edgeState.allocator.allocationsHolder,
      n.data.vptr + n.data.size ≤ Memory.startAddr := by decide
  have le : b.vptr + b.size ≤ Memory.startAddr := nodes _ held
  exact .inl (hi.trans_le le)

end Irx.Exec
