import Irx.Exec.Interpreter
import Irx.Memory.Functions

/-!
# The functions that calls go to

Here the base of `MyInterpreter` is taken apart: `Engine` is what LLVM's interpreter and execution engine
do, and `Engine.base` is what `MyInterpreter` makes of it, with its own `getConstantValue`, loads, stores
and translation of pointers. `Transfers` says which function a call, an invoke or a callbr stands for,
whether it is named directly, by an alias or a cast, or by a pointer in a register. In every reachable
state of the allocator `getFunctionWithPtr` finds this function (`getFunctionWithPtr_of_transfers`).
-/

namespace Irx.Exec
open Irx.Lib System

/-- LLVM's interpreter and execution engine, the memory, and what the types of a module say. -/
structure Engine (GV Mem : Type) where
  visit : Instruction → Operands → Machine GV Mem → Except Abort (Machine GV Mem)
  getConstantExprValue : Nat → Operands → Machine GV Mem → GV
  getConstantValue : Constant → Operands → GV
  LoadValueFromMemory : Instruction → Mem → Nat → Except Abort GV
  StoreValueToMemory : Instruction → Mem → GV → Nat → Except Abort Mem
  storesFunctionPointer : Instruction → Bool
  isCast : Nat → Bool
  PointerVal : GV → Nat
  setPointerVal : GV → Nat → GV
  GenericValue : GV
  zero : Nat → GV

/-- The instructions that are a `CallBase`: call, invoke and callbr. -/
def Instruction.isCallBase (I : Instruction) : Bool :=
  I.opcode = .call || I.opcode = .other 5 || I.opcode = .other 11

/-- The functions of the frames. -/
def Machine.functions {GV Mem : Type} (m : Machine GV Mem) : List String :=
  m.ecStack.map ExecutionContext.curFunction

section Embedding

variable {GV Mem : Type} (E : Engine GV Mem) (M : Memory.Module) (a : Memory.MapAllocator)
variable (G : ConstantGraph)

/-- `vvptr2vptr`, which does not fail in a reachable allocator. -/
def hostAddress (vvptr : Nat) : Nat := (Memory.vvptr2vptr a vvptr).toOption.getD 0

/-- `vptr2vvptr`, which does not fail in a reachable allocator. -/
def guestAddress (vptr : Nat) : Nat := (a.vptr2vvptr vptr).toOption.getD 0

/-- `findFunctionByVPtr`: the first defined function at the address. -/
def findFunctionByVPtr (vptr : Nat) : Option String :=
  (M.functions.find? fun F => !F.isDeclaration && F.address == vptr).map Memory.Function.name

/-- `getConstantValue` of a constant that is no constant expression. -/
def Engine.getConstantValue' (C : Constant) (ops : Operands) : GV :=
  match resolveAliasesOperand C with
  | .plain name =>
    match M.functions.find? fun F => F.name = name with
    | some F => E.setPointerVal E.GenericValue (guestAddress a F.address)
    | none => E.getConstantValue (.plain name) ops
  | C => E.getConstantValue C ops

/-- The value of a register in the topmost frame. -/
def Engine.registerValue (id : Nat) (m : Machine GV Mem) : GV :=
  (m.ecStack.head?.bind fun SF => SF.values (.register id)).getD E.GenericValue

/-- The base without loads and stores, for the evaluation of operands. -/
def Engine.operandBase : Base GV Mem where
  visit := E.visit
  visitLoadInst := fun _ _ _ => .error .undefined
  visitStoreInst := fun _ _ _ => .error .undefined
  constantExprValue := E.getConstantExprValue
  constantValue := fun C ops _ => E.getConstantValue' M a C ops
  registerValue := E.registerValue
  vvptr2vptr := fun _ v => E.setPointerVal v (hostAddress a (E.PointerVal v))
  isNull := fun v => E.PointerVal v = 0
  findFunctionByVPtr := fun v => findFunctionByVPtr M (E.PointerVal v)
  zero := E.zero

/-- The value of an operand of an instruction. -/
def Engine.operand (I : Instruction) (i : Nat) (ops : Operands) (m : Machine GV Mem) :
    Except Abort GV :=
  match I.operands[i]? with
  | none => .error .undefined
  | some V => getOperandValue (E.operandBase M a) G V ops m

/-- `visitLoadInst`: what is at the host address of the pointer is put into the register. -/
def Engine.visitLoadInst (LI : Instruction) (ops : Operands) (m : Machine GV Mem) :
    Except Abort (Machine GV Mem) := do
  let SRC ← E.operand M a G LI 0 ops m
  let Result ← E.LoadValueFromMemory LI m.memory (hostAddress a (E.PointerVal SRC))
  m.modifyBack fun SF => SF.setValue (.register LI.id) Result

/-- `visitStoreInst`: a function pointer is stored as the interpreter's address. -/
def Engine.visitStoreInst (SI : Instruction) (ops : Operands) (m : Machine GV Mem) :
    Except Abort (Machine GV Mem) := do
  let Val ← E.operand M a G SI 0 ops m
  let SRC ← E.operand M a G SI 1 ops m
  let vvptr := guestAddress a (E.PointerVal Val)
  let Val := if E.storesFunctionPointer SI && vvptr != 0 then E.setPointerVal Val vvptr else Val
  let memory ← E.StoreValueToMemory SI m.memory Val (hostAddress a (E.PointerVal SRC))
  .ok { m with memory := memory }

/-- The base of `MyInterpreter`. -/
def Engine.base : Base GV Mem :=
  { E.operandBase M a with
    visitLoadInst := E.visitLoadInst M a G
    visitStoreInst := E.visitStoreInst M a G }

/-- The function that a constant stands for, by name, as an alias or as a cast. -/
inductive StandsFor (ops : Operands) : Constant → String → Prop where
  | function (name) : StandsFor ops (.plain name) name
  | globalAlias {name C F} : StandsFor ops C F → StandsFor ops (.globalAlias name C) F
  | cast {e C F} : E.isCast e = true → ops (e, 0) = some C → StandsFor ops C F →
    StandsFor ops (.constantExpr e) F

/-- The instruction transfers control to the function. A pointer in a register is the host address of
the function or one that is translated to it. -/
def Transfers (I : Instruction) (ops : Operands) (m : Machine GV Mem) (f : Memory.Function) : Prop :=
  I.isCallBase = true ∧
  match I.calledFunction, I.calledOperand with
  | some F, _ => F = f.name
  | none, .constant C => StandsFor E ops C f.name
  | none, .register id => hostAddress a (E.PointerVal (E.registerValue id m)) = f.address

/-- The function that LLVM's interpreter calls for an instruction: it takes the value of the operand
for the host address. -/
def Calls (I : Instruction) (ops : Operands) (m : Machine GV Mem) (F : String) : Prop :=
  match I.calledFunction, I.calledOperand with
  | some F', _ => F' = F
  | none, .constant C => StandsFor E ops C F
  | none, .register id => ∃ f ∈ M.functions, f.name = F ∧ E.PointerVal (E.registerValue id m) = f.address

/-- What is known of LLVM's interpreter and execution engine: a cast has one operand, a cast of a function
has the address of the function, and no frame is pushed but by a call, invoke or callbr, for the function
it calls. -/
structure Engine.Lawful : Prop where
  pointerVal : ∀ v p, E.PointerVal (E.setPointerVal v p) = p
  cast : ∀ e, E.isCast e = true → G.numOperands e = 1
  constantExpr : ∀ e ops m, ∀ f ∈ M.functions, StandsFor E ops (.constantExpr e) f.name →
    E.PointerVal (E.getConstantExprValue e ops m) = f.address
  constant : ∀ e ops, ∀ f ∈ M.functions, StandsFor E ops (.constantExpr e) f.name →
    E.PointerVal (E.getConstantValue (.constantExpr e) ops) = f.address
  visit_other : ∀ I ops m m', I.isCallBase = false → E.visit I ops m = .ok m' →
    m'.functions <:+ m.functions
  visit_call : ∀ I ops m m', I.isCallBase = true → E.visit I ops m = .ok m' →
    m'.functions <:+ m.functions ∨ ∃ F, m'.functions = F :: m.functions ∧ Calls E M I ops m F

/-- What is known of a module in the host: functions have different names, and the `Function` objects
lie outside the interpreter's addresses. -/
structure Linked : Prop where
  names : (M.functions.map Memory.Function.name).Nodup
  outside : ∀ f ∈ M.functions, f.address < Memory.startAddr ∨ Memory.endAddr < f.address

end Embedding

variable {GV Mem : Type} {E : Engine GV Mem} {M : Memory.Module} {state : Memory.MyInterpreter}
variable {a : Memory.MapAllocator} {G : ConstantGraph} {C : Constant} {ops ops' : Operands}
variable {m : Machine GV Mem} {f : Memory.Function} {F : String} {I : Instruction}

/-! ### Constants -/

/-- Some operands were replaced by what their aliases stand for. -/
def Resolved (ops ops' : Operands) : Prop :=
  ∀ u, ops' u = ops u ∨ ops' u = (ops u).map resolveAliasesOperand

/-- What stands for a function does so behind its aliases. -/
lemma standsFor_resolve_iff :
    StandsFor E ops (resolveAliasesOperand C) F ↔ StandsFor E ops C F := by
  induction C with
  | plain => rfl
  | constantExpr => rfl
  | globalAlias name aliasee ih =>
    refine ih.trans ⟨.globalAlias, fun stands => ?_⟩
    cases stands with
    | globalAlias stands => exact stands

/-- A constant stands for the same function when aliases are replaced. -/
lemma StandsFor.resolved (stands : StandsFor E ops C F) (resolved : Resolved ops ops') :
    StandsFor E ops' C F := by
  induction stands with
  | function => exact .function _
  | globalAlias _ ih => exact .globalAlias ih
  | @cast e C F cast operand _ ih =>
    obtain same | replaced := resolved (e, 0)
    · exact .cast cast (same.trans operand) ih
    · rw [operand] at replaced
      exact .cast cast replaced (standsFor_resolve_iff.2 ih)

/-- What stands for a function after operands were resolved did so before. -/
lemma StandsFor.unresolved (stands : StandsFor E ops' C F) (resolved : Resolved ops ops') :
    StandsFor E ops C F := by
  induction stands with
  | function => exact .function _
  | globalAlias _ ih => exact .globalAlias ih
  | @cast e C F cast operand _ ih =>
    obtain same | replaced := resolved (e, 0)
    · exact .cast cast (same.symm.trans operand) ih
    · obtain ⟨D, original, rfl⟩ := Option.map_eq_some_iff.1 (replaced.symm.trans operand)
      exact .cast cast original (standsFor_resolve_iff.1 ih)

/-- Operands without aliases are resolved ones. -/
lemma resolved_withoutAliases (e : Nat) (ops : Operands) : Resolved ops (withoutAliases e ops) := by
  intro u
  rw [withoutAliases]
  split
  · exact .inr rfl
  · exact .inl rfl

/-- Resolving twice is resolving. -/
lemma Resolved.trans {ops1 : Operands} (first : Resolved ops ops1) (second : Resolved ops1 ops') :
    Resolved ops ops' := by
  have twice : ∀ C : Option Constant, (C.map resolveAliasesOperand).map resolveAliasesOperand =
      C.map resolveAliasesOperand := by
    intro C
    rw [Option.map_map]
    exact congrArg (Option.map · C) (funext resolve_resolve)
  intro u
  obtain e | e := second u
  · rw [e]
    exact first u
  · right
    obtain e' | e' := first u
    · rw [e, e']
    · rw [e, e', twice]

/-- The pass before an instruction only replaces aliases. -/
lemma fixAliasesOperands_resolved {depth : Nat} {s s' : Rewrite}
    (ran : fixAliasesOperands G depth C s = .ok s') : Resolved s.operand s'.operand := by
  induction depth generalizing C s s' with
  | zero =>
    cases C with
    | constantExpr => cases ran
    | plain =>
      cases ran
      exact fun _ => .inl rfl
    | globalAlias =>
      cases ran
      exact fun _ => .inl rfl
  | succ depth ih =>
    cases C with
    | plain =>
      cases ran
      exact fun _ => .inl rfl
    | globalAlias =>
      cases ran
      exact fun _ => .inl rfl
    | constantExpr e =>
      refine foldlM_keeps (P := fun s' => Resolved s.operand s'.operand) ?_ (fun _ => .inl rfl) ran
      intro s1 i _ s2 before step
      rw [fixOperand] at step
      cases operand : s1.operand (e, i) with
      | none =>
        rw [operand] at step
        cases step
      | some C =>
        simp only [operand] at step
        refine before.trans (Resolved.trans (fun u => ?_) (ih step))
        by_cases here : u = (e, i)
        · subst here
          right
          rw [operand]
          exact Function.update_self ..
        · exact .inl (Function.update_of_ne here ..)

/-- The first pass resolves operands. -/
lemma fixOperands_resolved {s s' : Rewrite} (ran : fixOperands G I s = .ok s') :
    Resolved s.operand s'.operand := by
  refine foldlM_keeps (P := fun s' => Resolved s.operand s'.operand) ?_ (fun _ => .inl rfl) ran
  intro s1 V _ s2 before step
  cases V with
  | constant C => exact before.trans (fixAliasesOperands_resolved step)
  | register id =>
    cases step
    exact before

/-! ### Addresses -/

/-- The functions of a linked module have different names. -/
lemma function_unique (linked : Linked M) {f' : Memory.Function} (mem : f ∈ M.functions)
    (mem' : f' ∈ M.functions) (same : f.name = f'.name) : f = f' :=
  List.inj_on_of_nodup_map linked.names mem mem' same

/-- A function is found by its host address. -/
lemma findFunctionByVPtr_of_mem (mem : f ∈ M.functions) (mapped : f.mapped = true) :
    findFunctionByVPtr M f.address = some f.name := by
  have found : ∃ f', (M.functions.find? fun F => !F.isDeclaration && F.address == f.address) = some f' := by
    apply Option.isSome_iff_exists.1
    rw [List.find?_isSome]
    refine ⟨f, mem, ?_⟩
    rw [Memory.Function.mapped, Bool.and_eq_true] at mapped
    rw [Bool.and_eq_true]
    exact ⟨mapped.1, beq_self_eq_true _⟩
  obtain ⟨f', e⟩ := found
  have here := List.find?_some e
  have mem' := List.mem_of_find?_eq_some e
  rw [Bool.and_eq_true, beq_iff_eq] at here
  have mapped' : f'.mapped = true := by
    rw [Memory.Function.mapped, Bool.and_eq_true] at mapped ⊢
    exact ⟨here.1, here.2 ▸ mapped.2⟩
  have nodup := (List.nodup_append.1 M.distinct).2.1
  have same := List.inj_on_of_nodup_map nodup (List.mem_filter.2 ⟨mem', mapped'⟩)
    (List.mem_filter.2 ⟨mem, mapped⟩) here.2
  rw [findFunctionByVPtr, e, Option.map_some, same]

/-- The host address of a function is its own translation. -/
lemma hostAddress_address (linked : Linked M) (run : (Memory.api M).Outcome (.ok state))
    (mem : f ∈ M.functions) : hostAddress state.allocator f.address = f.address := by
  obtain ⟨base, mark, A, extra, inv⟩ := Memory.outcome_invariant run
  rw [hostAddress, inv.rep.vvptr2vptr_outside (linked.outside f mem)]
  rfl

/-- The interpreter address of a function leads back to its host address. -/
lemma hostAddress_guestAddress (run : (Memory.api M).Outcome (.ok state)) (mem : f ∈ M.functions)
    (mapped : f.mapped = true) :
    hostAddress state.allocator (guestAddress state.allocator f.address) = f.address := by
  obtain ⟨vvptr, there, back⟩ := Memory.function_translate run mem mapped
  rw [guestAddress, there, hostAddress]
  show (Memory.vvptr2vptr state.allocator vvptr).toOption.getD 0 = _
  rw [back]
  rfl

/-- What is resolved is no alias. -/
lemma resolve_ne_globalAlias {name : String} {aliasee : Constant} :
    resolveAliasesOperand C ≠ .globalAlias name aliasee := by
  induction C with
  | plain => exact nofun
  | globalAlias _ _ ih => exact ih
  | constantExpr => exact nofun

/-- The value of a constant that stands for a function is an address of the function. -/
lemma getConstantValue_of_standsFor (lawful : E.Lawful M G) (linked : Linked M)
    (run : (Memory.api M).Outcome (.ok state)) (mem : f ∈ M.functions) (mapped : f.mapped = true)
    (stands : StandsFor E ops C f.name) :
    hostAddress state.allocator (E.PointerVal (E.getConstantValue' M state.allocator C ops)) =
      f.address := by
  rw [← standsFor_resolve_iff] at stands
  rw [Engine.getConstantValue']
  cases resolved : resolveAliasesOperand C with
  | plain name =>
    rw [resolved] at stands
    cases stands
    have found : (M.functions.find? fun F => F.name = f.name) = some f :=
      find?_of_nodup linked.names mem
    simp only [found]
    rw [lawful.pointerVal, hostAddress_guestAddress run mem mapped]
  | globalAlias => exact absurd resolved resolve_ne_globalAlias
  | constantExpr e =>
    rw [resolved] at stands
    show hostAddress _ (E.PointerVal (E.getConstantValue (.constantExpr e) ops)) = _
    rw [lawful.constant e ops f mem stands, hostAddress_address linked run mem]

/-- An operand that stands for a function has a value, an address of the function. -/
lemma getOperandValue_of_standsFor (lawful : E.Lawful M G) (linked : Linked M)
    (run : (Memory.api M).Outcome (.ok state)) (mem : f ∈ M.functions) (mapped : f.mapped = true)
    (stands : StandsFor E ops C f.name) :
    ∃ v, getOperandValue (E.base M state.allocator G) G (.constant C) ops m = .ok v ∧
      hostAddress state.allocator (E.PointerVal v) = f.address := by
  have other : ∀ C, StandsFor E ops C f.name →
      ∃ v, Except.ok (E.getConstantValue' M state.allocator C ops) = Except.ok (ε := Abort) v ∧
        hostAddress state.allocator (E.PointerVal v) = f.address := by
    intro C stands
    have value := getConstantValue_of_standsFor lawful linked run mem mapped stands
    exact ⟨E.getConstantValue' M state.allocator C ops, rfl, value⟩
  cases C with
  | plain name => exact other _ stands
  | globalAlias name aliasee => exact other _ stands
  | constantExpr e =>
    have operands : ((List.range (G.numOperands e)).all fun i => (ops (e, i)).isSome) = true := by
      cases stands with
      | cast cast operand =>
        rw [lawful.cast e cast, List.range_one, List.all_cons, operand]
        rfl
    refine ⟨_, if_pos operands, ?_⟩
    have value := lawful.constantExpr e (withoutAliases e ops) m f mem
      (stands.resolved (resolved_withoutAliases e ops))
    show hostAddress _ (E.PointerVal (E.getConstantExprValue e (withoutAliases e ops) m)) = _
    rw [value, hostAddress_address linked run mem]

/-- `getFunctionWithPtr` finds the function that a call transfers control to. -/
lemma getFunctionWithPtr_of_transfers (lawful : E.Lawful M G) (linked : Linked M)
    (run : (Memory.api M).Outcome (.ok state)) (mem : f ∈ M.functions) (mapped : f.mapped = true)
    (transfers : Transfers E state.allocator I ops m f) :
    getFunctionWithPtr (E.base M state.allocator G) G I ops m = .ok (some f.name) := by
  obtain ⟨_, stands⟩ := transfers
  have pointer : ∀ v, hostAddress state.allocator (E.PointerVal v) = f.address →
      findFunctionByVPtr M (E.PointerVal (E.setPointerVal v
        (hostAddress state.allocator (E.PointerVal v)))) = some f.name := by
    intro v address
    rw [lawful.pointerVal, address, findFunctionByVPtr_of_mem mem mapped]
  rw [getFunctionWithPtr]
  cases called : I.calledFunction with
  | some F =>
    simp only [called] at stands
    exact congrArg (Except.ok ∘ some) stands
  | none =>
    simp only [called] at stands
    cases operand : I.calledOperand with
    | constant C =>
      simp only [operand] at stands
      obtain ⟨v, evaluated, address⟩ :=
        getOperandValue_of_standsFor (m := m) lawful linked run mem mapped stands
      show (getOperandValue _ G (.constant C) ops m >>= _) = _
      rw [evaluated]
      exact congrArg Except.ok (pointer v address)
    | register id =>
      simp only [operand] at stands
      exact congrArg Except.ok (pointer _ stands)

end Irx.Exec
