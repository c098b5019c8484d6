import Irx.Exec.Restart

/-!
# Function pointers in initializers

What an initializer says at a place is what its global holds there once the interpreter is created,
provided the places do not overlap (`createInterpreter_at`). For the address of a function this is the
interpreter address only if `getConstantValue` gets to see the function: it does through expressions that
are getelementptr and through aliases, and leaves every other expression to the execution engine, which
knows host addresses only. `initialized_pointer_iff` says when the pointer is right.
-/

namespace Irx.Exec
open Irx.Lib System
open Memory (dlistModule)

section Embedding

variable {Ty GV Mem : Type} (T : Target Ty GV) (E : Engine GV Mem) (P : Program Ty) (ops : Operands)

/-- The initializer has the constant at the offset. -/
inductive Init.At : Init Ty → Nat → Ty → Constant → Prop where
  | value {ty C} : At (.value ty C) 0 ty C
  | vector {elem operands i init off ty C} : operands[i]? = some init → At init off ty C →
    At (.vector elem operands) (elementPlace T elem i + off) ty C
  | array {elem operands i init off ty C} : operands[i]? = some init → At init off ty C →
    At (.array elem operands) (elementPlace T elem i + off) ty C
  | struct {whole operands i init off ty C} : operands[i]? = some init → At init off ty C →
    At (.struct whole operands) (T.getElementOffset whole i + off) ty C

mutual

/-- The operands of every aggregate have bytes of their own. -/
def Init.LaidOut : Init Ty → Nat → Prop
  | .vector elem operands, Addr => OperandsLaidOut (Addr + elementPlace T elem ·) 0 operands
  | .array elem operands, Addr => OperandsLaidOut (Addr + elementPlace T elem ·) 0 operands
  | .struct ty operands, Addr => OperandsLaidOut (Addr + T.getElementOffset ty ·) 0 operands
  | .undef, _ => True
  | .aggregateZero _, _ => True
  | .dataSequential _, _ => True
  | .value _ _, _ => True

/-- The same for the operands of an aggregate from the `i`-th one on. -/
def OperandsLaidOut (place : Nat → Nat) : Nat → List (Init Ty) → Prop
  | _, [] => True
  | i, init :: operands => init.LaidOut (place i) ∧
      Disjoint (init.cells T (place i)) (operandCells T place (i + 1) operands) ∧
      OperandsLaidOut place (i + 1) operands

end

/-- What the data layout and the host promise: the parts of an initializer do not overlap, and neither do
the globals. -/
structure Program.LaidOut : Prop where
  parts : ∀ (i : Nat) (g : Memory.GlobalVariable) (d : Definition Ty) (init : Init Ty),
    P.module.globals[i]? = some g → P.definitions[i]? = some d → d.initializer = some init →
    init.LaidOut T g.pointer
  globals : ∀ (i j : Nat) (g g' : Memory.GlobalVariable) (d d' : Definition Ty) (init init' : Init Ty),
    i ≠ j → P.module.globals[i]? = some g → P.module.globals[j]? = some g' → g.mapped = true →
    g'.mapped = true → P.definitions[i]? = some d → P.definitions[j]? = some d' →
    d.initializer = some init → d'.initializer = some init' →
    Disjoint (init.cells T g.pointer) (init'.cells T g'.pointer)

variable (M : Memory.Module) (G : ConstantGraph)

/-- The constant is the address of the function plus an offset. -/
inductive Denotes : Constant → String → Int → Prop where
  | function (name) : Denotes (.plain name) name 0
  | globalAlias {name C F off} : Denotes C F off → Denotes (.globalAlias name C) F off
  | bitcast {e C F off} : E.isCast e = true → ops (e, 0) = some C → Denotes C F off →
    Denotes (.constantExpr e) F off
  | getElementPtr {e C F off} : T.isGetElementPtr e = true → ops (e, 0) = some C → Denotes C F off →
    Denotes (.constantExpr e) F (off + T.accumulateConstantOffset e ops)

/-- The address that the execution engine computes for a constant. It evaluates an operand by calling
itself, takes the host address of a function, and has no value for an alias of an expression. -/
inductive EngineValue : Constant → Int → Prop where
  | function {C f} : f ∈ M.functions → resolveAliasesOperand C = .plain f.name →
    EngineValue C f.address
  | bitcast {e C p} : E.isCast e = true → ops (e, 0) = some C → EngineValue C p →
    EngineValue (.constantExpr e) p
  | getElementPtr {e C p} : T.isGetElementPtr e = true → ops (e, 0) = some C → EngineValue C p →
    EngineValue (.constantExpr e) ((p + T.accumulateConstantOffset e ops) % 18446744073709551616)

/-- The evaluation of the constant comes to no alias for which the engine has no value. -/
inductive Evaluable : Constant → Prop where
  | function {C F} : resolveAliasesOperand C = .plain F → Evaluable C
  | engine {C e p} : resolveAliasesOperand C = .constantExpr e →
    EngineValue T E ops M (.constantExpr e) p → Evaluable C
  | getElementPtr {e C} : T.isGetElementPtr e = true → ops (e, 0) = some C → Evaluable C →
    Evaluable (.constantExpr e)

/-- Between the constant and the function there are only getelementptr expressions and, below them, only
aliases. -/
inductive Direct : Constant → Prop where
  | function {C F} : resolveAliasesOperand C = .plain F → Direct C
  | getElementPtr {e C} : T.isGetElementPtr e = true → ops (e, 0) = some C → Direct C →
    Direct (.constantExpr e)

/-- What is known of the engine: it computes the addresses above. An expression is a cast or a
getelementptr, and the latter has an operand. -/
structure Engine.Evaluates : Prop where
  pointerVal : ∀ v p, E.PointerVal (E.setPointerVal v p) = p
  value : ∀ ops C p, EngineValue T E ops M C p → (E.PointerVal (E.getConstantValue C ops) : Int) = p
  cast : ∀ e, E.isCast e = true → T.isGetElementPtr e = false
  operand : ∀ e, T.isGetElementPtr e = true → 0 < G.numOperands e

/-- A type of pointers of `k` bytes, on a 32- or a 64-bit target. The engine stores a wide pointer as it
is. -/
structure PointerType (ty : Ty) (k : Nat) : Prop where
  isPointerTy : T.isPointerTy ty = true
  storeSize : T.getTypeStoreSize ty = k
  width : k = 4 ∨ k = 8
  wide : k = 8 → ∀ Val, (T.StoreValueToMemory Val ty).1 = littleEndian 8 (E.PointerVal Val)

/-- The pointer at the address is the interpreter address of the function, and leads back to it. -/
structure PointsTo (k x : Nat) (f : Memory.Function) (p : Process Ty) : Prop where
  bytes : read p.memory x k = littleEndian k (guestAddress p.interpreter.allocator f.address)
  found : findFunctionByVPtr P.module
    (hostAddress p.interpreter.allocator (unsigned p.memory x k)) = some f.name

end Embedding

variable {Ty GV Mem : Type} {T : Target Ty GV} {E : Engine GV Mem} {P : Program Ty}
variable {value : Constant → Except Abort GV} {m m1 : Bytes} {off : Nat} {ty : Ty} {C : Constant}

/-! ### What an initializer leaves -/

/-- What is in an initializer covers its bytes. -/
lemma Init.At.covers {init : Init Ty} (there : init.At T off ty C) {x : Nat} (lt : x < T.storedBytes ty) :
    init.Covers T (off + x) := by
  induction there with
  | value =>
    rw [Nat.zero_add]
    exact .value lt
  | vector operand _ ih =>
    rw [Nat.add_assoc]
    exact .vector operand (ih lt)
  | array operand _ ih =>
    rw [Nat.add_assoc]
    exact .array operand (ih lt)
  | struct operand _ ih =>
    rw [Nat.add_assoc]
    exact .struct operand (ih lt)

mutual

/-- The bytes of a constant are its value. -/
lemma InitializeMemory_at : ∀ (init : Init Ty) {Addr off : Nat} {m m1 : Bytes},
    init.LaidOut T Addr → init.At T off ty C → InitializeMemory T E value init Addr m = .ok m1 →
    ∃ Val, value C = .ok Val ∧ read m1 (Addr + off) (T.storedBytes ty) = storedBytes T E Val ty
  | .vector elem operands, Addr, _, m, m1, laid, there, e => by
    cases there with
    | @vector _ _ i init off ty C operand there =>
      have := InitializeOperands_at operands laid operand there e
      rwa [Nat.zero_add, Nat.add_assoc] at this
  | .array elem operands, Addr, _, m, m1, laid, there, e => by
    cases there with
    | @array _ _ i init off ty C operand there =>
      have := InitializeOperands_at operands laid operand there e
      rwa [Nat.zero_add, Nat.add_assoc] at this
  | .struct ty operands, Addr, _, m, m1, laid, there, e => by
    cases there with
    | @struct _ _ i init off ty C operand there =>
      have := InitializeOperands_at operands laid operand there e
      rwa [Nat.zero_add, Nat.add_assoc] at this
  | .undef, _, _, _, _, _, there, _ => nomatch there
  | .aggregateZero _, _, _, _, _, _, there, _ => nomatch there
  | .dataSequential _, _, _, _, _, _, there, _ => nomatch there
  | .value ty C, Addr, _, m, m1, _, there, e => by
    cases there
    rw [InitializeMemory] at e
    split at e
    case isTrue =>
      obtain ⟨Val, evaluated, e⟩ := bind_eq_ok.1 e
      cases e
      refine ⟨Val, evaluated, ?_⟩
      have here := read_write m Addr (storedBytes T E Val ty)
      rwa [length_storedBytes] at here
    case isFalse => cases e

/-- The same for an operand of an aggregate: those behind it leave its bytes alone. -/
lemma InitializeOperands_at {place : Nat → Nat} : ∀ (operands : List (Init Ty)) {i k off : Nat}
    {init : Init Ty} {m m1 : Bytes}, OperandsLaidOut T place i operands → operands[k]? = some init →
    init.At T off ty C → InitializeOperands T E value place i operands m = .ok m1 →
    ∃ Val, value C = .ok Val ∧
      read m1 (place (i + k) + off) (T.storedBytes ty) = storedBytes T E Val ty
  | [], _, _, _, _, _, _, _, operand, _, _ => nomatch operand
  | init :: operands, i, k, off, init', m, m1, laid, operand, there, e => by
    obtain ⟨here, apart, behind⟩ := laid
    rw [InitializeOperands] at e
    obtain ⟨m2, first, rest⟩ := bind_eq_ok.1 e
    cases k with
    | zero =>
      cases operand
      obtain ⟨Val, evaluated, bytes⟩ := InitializeMemory_at init here there first
      refine ⟨Val, evaluated, ?_⟩
      rw [← bytes]
      refine (InitializeOperands_overwrites operands rest).read rest fun x lt mem => ?_
      rw [Nat.add_assoc] at mem
      exact Set.disjoint_left.1 apart ⟨off + x, there.covers lt, rfl⟩ mem
    | succ k =>
      have := InitializeOperands_at operands behind operand there rest
      rwa [Nat.add_right_comm] at this

end

variable {a : Memory.MapAllocator} {gs : List Memory.GlobalVariable} {ds ds1 : List (Definition Ty)}
variable {g : Memory.GlobalVariable} {d : Definition Ty} {init : Init Ty} {GA i : Nat}

/-- The bytes of a constant in a global that is initialized. -/
lemma InitializeGlobals_at
    (e : InitializeGlobals T E a value (fun _ => none) gs ds m = .ok (ds1, m1))
    (eg : gs[i]? = some g) (ed : ds[i]? = some d) (initializer : d.initializer = some init)
    (found : Found a g GA) (own : d.isThreadLocal = false) (laid : init.LaidOut T GA)
    (there : init.At T off ty C)
    (apart : ∀ (j : Nat) (g' : Memory.GlobalVariable) (d' : Definition Ty) (init' : Init Ty) (GA' : Nat),
      i ≠ j → gs[j]? = some g' → ds[j]? = some d' → d'.initializer = some init' → Found a g' GA' →
      Disjoint (init.cells T GA) (init'.cells T GA')) :
    ∃ Val, value C = .ok Val ∧ read m1 (GA + off) (T.storedBytes ty) = storedBytes T E Val ty := by
  induction gs generalizing ds ds1 m i with
  | nil => cases eg
  | cons g1 gs ih =>
    cases ds with
    | nil => cases ed
    | cons d1 ds =>
      rw [InitializeGlobals] at e
      obtain ⟨⟨d2, m2⟩, first, e⟩ := bind_eq_ok.1 e
      obtain ⟨⟨ds2, m3⟩, later, e⟩ := bind_eq_ok.1 e
      cases e
      cases i with
      | zero =>
        cases eg
        cases ed
        rw [initializeGlobal_found initializer found] at first
        have flag : (d.restored (fun _ => none) g.name).isThreadLocal = false := own
        rw [flag, if_neg Bool.false_ne_true] at first
        obtain ⟨written, rfl⟩ : InitializeMemory T E value init GA m = .ok m2 ∧
            d.restored (fun _ => none) g.name = d2 := by
          cases written : InitializeMemory T E value init GA m with
          | error =>
            rw [written] at first
            cases first
          | ok m2 =>
            rw [written] at first
            cases first
            exact ⟨rfl, rfl⟩
        obtain ⟨Val, evaluated, bytes⟩ := InitializeMemory_at init laid there written
        refine ⟨Val, evaluated, ?_⟩
        -- the globals behind this one do not touch its bytes
        have rest := InitializeGlobals_overwrites later
        have ran : initializeAgain T E a value gs ds m2 = .ok m1 := congrArg (Except.map Prod.snd) later
        rw [← bytes]
        refine rest.read ran fun x lt mem => ?_
        obtain ⟨j, g', d', init', GA', eg', ed', initializer', _, found', inside⟩ := mem
        rw [Nat.add_assoc] at inside
        exact Set.disjoint_left.1
          (apart (j + 1) g' d' init' GA' (Nat.succ_ne_zero j).symm eg' ed' initializer' found')
          ⟨off + x, there.covers lt, rfl⟩ inside
      | succ i =>
        refine ih later eg ed fun j g' d' init' GA' ne => ?_
        exact apart (j + 1) g' d' init' GA' fun same => ne (Nat.succ.inj same)

/-- Whether a global can be initialized does not depend on what is in the memory. -/
lemma initializeGlobal_anywhere {flags : Flags} {d1 : Definition Ty} (m' : Bytes)
    (e : initializeGlobal T E a value flags g d m = .ok (d1, m1)) :
    ∃ m1', initializeGlobal T E a value flags g d m' = .ok (d1, m1') := by
  obtain ⟨init, GA, initializer, found⟩ | ⟨_, rfl, skipped⟩ := initializeGlobal_cases e
  · rw [initializeGlobal_found initializer found] at e ⊢
    split
    case isTrue local' =>
      rw [if_pos local'] at e
      cases e
      exact ⟨m', rfl⟩
    case isFalse own =>
      rw [if_neg own] at e
      cases written : InitializeMemory T E value init GA m with
      | error =>
        rw [written] at e
        cases e
      | ok m2 =>
        rw [written] at e
        cases e
        obtain ⟨contents, ran⟩ := InitializeMemory_overwrites init written
        obtain ⟨m1', e', _⟩ := ran m'
        exact ⟨m1', by rw [e']; rfl⟩
  · exact ⟨m', skipped flags m'⟩

/-- Whether the globals can be initialized does not depend on the memory. -/
lemma InitializeGlobals_anywhere {flags : Flags} (m' : Bytes)
    (e : InitializeGlobals T E a value flags gs ds m = .ok (ds1, m1)) :
    ∃ m1', InitializeGlobals T E a value flags gs ds m' = .ok (ds1, m1') := by
  induction gs generalizing ds ds1 m m' with
  | nil =>
    cases ds <;> cases e <;> exact ⟨m', rfl⟩
  | cons g gs ih =>
    cases ds with
    | nil =>
      cases e
      exact ⟨m', rfl⟩
    | cons d ds =>
      rw [InitializeGlobals] at e
      obtain ⟨⟨d1, m2⟩, first, e⟩ := bind_eq_ok.1 e
      obtain ⟨⟨ds2, m3⟩, later, e⟩ := bind_eq_ok.1 e
      cases e
      obtain ⟨m2', first'⟩ := initializeGlobal_anywhere m' first
      obtain ⟨m3', later'⟩ := ih m2' later
      refine ⟨m3', ?_⟩
      rw [InitializeGlobals]
      exact (bind_ok first' _).trans (bind_ok later' _)

variable {p0 : Process Ty} {m0 : Bytes} {flag : Bool}

/-- The interpreter can be created on any memory, and it is the same one. -/
lemma createInterpreter_anywhere (created : createInterpreter T E P m0 = .ok p0) (m' : Bytes) :
    ∃ memory, createInterpreter T E P m' = .ok { p0 with memory := memory } := by
  rw [createInterpreter] at created
  obtain ⟨I, e, created⟩ := bind_eq_ok.1 created
  obtain ⟨⟨definitions, memory⟩, initialized, created⟩ := bind_eq_ok.1 created
  cases created
  obtain ⟨memory', initialized'⟩ := InitializeGlobals_anywhere m' initialized
  refine ⟨memory', ?_⟩
  rw [createInterpreter]
  exact (bind_ok e _).trans (bind_ok initialized' _)

/-- The globals of a process do not overlap. -/
lemma Program.LaidOut.apart (laid : P.LaidOut T) {A : Memory.AddressSpace}
    (inv : Memory.Invariant A.blocks A.bump p0.interpreter A [])
    (moved : List.Forall₂ (Memory.Moved A.blocks) P.module.globals p0.interpreter.globals)
    (initialized : InitializeGlobals T E p0.interpreter.allocator value
      (savedFlags P.module.globals P.definitions) p0.interpreter.globals
      (P.definitions.map Definition.faked) m0 = .ok (p0.definitions, p0.memory))
    (eg : P.module.globals[i]? = some g) (ed : P.definitions[i]? = some d)
    (initializer : d.initializer = some init) (mapped : g.mapped = true) (j : Nat)
    (g' : Memory.GlobalVariable) (d' : Definition Ty) (init' : Init Ty) (GA' : Nat) (ne : i ≠ j)
    (eg' : p0.interpreter.globals[j]? = some g') (ed' : p0.definitions[j]? = some d')
    (initializer' : d'.initializer = some init')
    (found : Found p0.interpreter.allocator g' GA') :
    Disjoint (init.cells T g.pointer) (init'.cells T GA') := by
  obtain ⟨g2, d2, eg2, ed2, initializer2, mapped2, rfl⟩ :=
    original_of_found inv moved initialized eg' ed' initializer' found
  exact laid.globals i j g g2 d d2 init init' ne eg eg2 mapped mapped2 ed ed2 initializer initializer2

/-- What is at a place of a global that is not thread-local, after the creation. -/
lemma createInterpreter_at (laid : P.LaidOut T) (created : createInterpreter T E P m0 = .ok p0)
    (eg : P.module.globals[i]? = some g) (ed : P.definitions[i]? = some d)
    (initializer : d.initializer = some init) (mapped : g.mapped = true)
    (own : savedFlags P.module.globals P.definitions g.name = some false)
    (there : init.At T off ty C) :
    ∃ Val, getConstantValue T E P.module P.graph p0.interpreter.allocator
        (fun u => some (P.graph.operand u)) C = .ok Val ∧
      read p0.memory (g.pointer + off) (T.storedBytes ty) = storedBytes T E Val ty := by
  obtain ⟨A, inv, moved, operands, initialized⟩ := createInterpreter_spec created
  obtain ⟨g', d', flag, eg', found, ed', initializer', isThreadLocal, saved⟩ :=
    global_initialized inv moved initialized eg ed initializer mapped
  cases own.symm.trans saved
  rw [← operands]
  exact InitializeGlobals_at (InitializeGlobals_settled initialized) eg' ed' initializer' found
    isThreadLocal (laid.parts i g d init eg ed initializer) there
    (laid.apart inv moved initialized eg ed initializer mapped)

/-- A thread-local global is left as it was. -/
lemma createInterpreter_threadLocal (laid : P.LaidOut T) (created : createInterpreter T E P m0 = .ok p0)
    (eg : P.module.globals[i]? = some g) (ed : P.definitions[i]? = some d)
    (initializer : d.initializer = some init) (mapped : g.mapped = true)
    (threadLocal : savedFlags P.module.globals P.definitions g.name = some true)
    {x : Nat} (inside : x ∈ init.cells T g.pointer) : p0.memory x = m0 x := by
  obtain ⟨A, inv, moved, operands, initialized⟩ := createInterpreter_spec created
  obtain ⟨g', d', flag, eg', found, ed', initializer', isThreadLocal, saved⟩ :=
    global_initialized inv moved initialized eg ed initializer mapped
  cases threadLocal.symm.trans saved
  have settled := InitializeGlobals_settled initialized
  obtain ⟨contents, ran⟩ := InitializeGlobals_overwrites settled
  obtain ⟨memory, e, _, outside⟩ := ran m0
  rw [initializeAgain, settled] at e
  cases e
  refine outside x fun mem => ?_
  -- no other global has the byte, and this one is passed over
  obtain ⟨j, g2, d2, init2, GA, eg2, ed2, initializer2, own, found2, inside2⟩ := mem
  by_cases same : i = j
  · subst same
    cases ed'.symm.trans ed2
    cases isThreadLocal.symm.trans own
  · exact Set.disjoint_left.1 (laid.apart inv moved initialized eg ed initializer mapped j g2 d2 init2 GA
      same eg2 ed2 initializer2 found2) inside inside2

/-! ### The values of constants -/

variable {M : Memory.Module} {G : ConstantGraph} {ops : Operands} {f : Memory.Function} {F : String}
variable {o p : Int} {e : Nat}

/-- What a constant denotes it denotes behind its aliases. -/
lemma Denotes.resolve (denotes : Denotes T E ops C F o) :
    Denotes T E ops (resolveAliasesOperand C) F o := by
  induction denotes with
  | function name => exact .function name
  | globalAlias _ ih => exact ih
  | bitcast cast operand denotes => exact .bitcast cast operand denotes
  | getElementPtr gep operand denotes => exact .getElementPtr gep operand denotes

/-- An alias of a function denotes this function. -/
lemma Denotes.plain {F' : String} (denotes : Denotes T E ops C F o)
    (resolved : resolveAliasesOperand C = .plain F') : F' = F ∧ o = 0 := by
  have denotes' := denotes.resolve
  rw [resolved] at denotes'
  cases denotes' with
  | function => exact ⟨rfl, rfl⟩

/-- A constant with a value can be evaluated. -/
lemma EngineValue.evaluable (value : EngineValue T E ops M C p) : Evaluable T E ops M C := by
  cases value with
  | function mem resolved => exact .function resolved
  | bitcast cast operand value => exact .engine rfl (.bitcast cast operand value)
  | getElementPtr gep operand value => exact .engine rfl (.getElementPtr gep operand value)

/-- A constant with only element pointers before the function can be evaluated. -/
lemma Direct.evaluable (direct : Direct T ops C) : Evaluable T E ops M C := by
  induction direct with
  | function resolved => exact .function resolved
  | getElementPtr gep operand _ ih => exact .getElementPtr gep operand ih

/-- If an element pointer can be evaluated, so can its first operand. -/
lemma Evaluable.operand (evaluable : Evaluable T E ops M (.constantExpr e))
    (evaluates : E.Evaluates T M G) (gep : T.isGetElementPtr e = true) (operand : ops (e, 0) = some C) :
    Evaluable T E ops M C := by
  cases evaluable with
  | function resolved => cases resolved
  | engine resolved value =>
    cases resolved
    cases value with
    | function _ resolved => cases resolved
    | bitcast cast => cases (evaluates.cast _ cast).symm.trans gep
    | getElementPtr _ operand' value =>
      cases operand.symm.trans operand'
      exact value.evaluable
  | getElementPtr _ operand' evaluable =>
    cases operand.symm.trans operand'
    exact evaluable

/-- The engine computes host addresses. -/
lemma EngineValue.address (evaluates : E.Evaluates T M G)
    (names : (M.functions.map Memory.Function.name).Nodup) (mem : f ∈ M.functions)
    (small : f.address < 18446744073709551616) (value : EngineValue T E ops M C p)
    (denotes : Denotes T E ops C f.name o) : p = (f.address + o) % 18446744073709551616 := by
  induction value generalizing o with
  | @function C f' mem' resolved =>
    obtain ⟨same, rfl⟩ := denotes.plain resolved
    cases List.inj_on_of_nodup_map names mem' mem same
    rw [add_zero, Int.emod_eq_of_lt (by omega) (by omega)]
  | bitcast cast operand _ ih =>
    cases denotes with
    | bitcast _ operand' denotes =>
      cases operand.symm.trans operand'
      exact ih denotes
    | getElementPtr gep => cases (evaluates.cast _ cast).symm.trans gep
  | getElementPtr gep operand _ ih =>
    cases denotes with
    | bitcast cast => cases (evaluates.cast _ cast).symm.trans gep
    | getElementPtr _ operand' denotes =>
      cases operand.symm.trans operand'
      rw [ih denotes, Int.emod_add_emod, add_assoc]

/-- An operand is less deep than its expression. -/
lemma depth_operand {Op0 : Constant} (lt : 0 < G.numOperands e)
    (operand : G.operand (e, 0) = Op0) : G.depth Op0 ≤ G.rank e := by
  cases Op0 with
  | plain => exact Nat.zero_le _
  | globalAlias => exact Nat.zero_le _
  | constantExpr e' => exact G.acyclic e 0 e' lt (congrArg resolveAliasesOperand operand)

/-- A constant that is no expression is evaluated by the engine. -/
lemma constantValue_global {depth : Nat} (noExpr : ∀ e, C ≠ .constantExpr e) :
    constantValue T E M a ops depth C = .ok (E.getConstantValue' M a C ops) := by
  rw [constantValue]
  · exact fun e _ => noExpr e
  · exact fun _ e _ => noExpr e

/-- A function is seen through aliases. -/
lemma getConstantValue_function (evaluates : E.Evaluates T M G)
    (names : (M.functions.map Memory.Function.name).Nodup) (mem : f ∈ M.functions)
    (guest : guestAddress a f.address < 18446744073709551616)
    (resolved : resolveAliasesOperand C = .plain f.name) :
    (E.PointerVal (E.getConstantValue' M a C ops) : Int) =
      (guestAddress a f.address + 0) % 18446744073709551616 := by
  have found : (M.functions.find? fun F => F.name = f.name) = some f := find?_of_nodup names mem
  rw [Engine.getConstantValue', resolved]
  simp only [found]
  rw [evaluates.pointerVal, add_zero, Int.emod_eq_of_lt (by omega) (by omega)]

/-- An expression that is left to the engine gets the host address. -/
lemma getConstantValue_expression (evaluates : E.Evaluates T M G)
    (names : (M.functions.map Memory.Function.name).Nodup) (mem : f ∈ M.functions)
    (small : f.address < 18446744073709551616)
    (resolved : resolveAliasesOperand C = .constantExpr e)
    (noGEP : ∀ e', C = .constantExpr e' → T.isGetElementPtr e' = false)
    (denotes : Denotes T E ops C f.name o) (evaluable : Evaluable T E ops M C) :
    ¬ Direct T ops C ∧ (E.PointerVal (E.getConstantValue (.constantExpr e) ops) : Int) =
      (f.address + o) % 18446744073709551616 := by
  constructor
  · intro direct
    cases direct with
    | function resolved' => cases resolved.symm.trans resolved'
    | getElementPtr gep => cases (noGEP _ rfl).symm.trans gep
  · have denotes' := denotes.resolve
    rw [resolved] at denotes'
    cases evaluable with
    | function resolved' => cases resolved.symm.trans resolved'
    | engine resolved' value =>
      cases resolved.symm.trans resolved'
      rw [evaluates.value _ _ _ value]
      exact value.address evaluates names mem small denotes'
    | getElementPtr gep => cases (noGEP _ rfl).symm.trans gep

/-- The value of a constant is the interpreter address of the function where `getConstantValue` gets to
see the function, and the host address otherwise. -/
lemma constantValue_denotes (evaluates : E.Evaluates T M G)
    (names : (M.functions.map Memory.Function.name).Nodup) (mem : f ∈ M.functions)
    (small : f.address < 18446744073709551616)
    (guest : guestAddress a f.address < 18446744073709551616)
    (denotes : Denotes T E G.initial C f.name o) (evaluable : Evaluable T E G.initial M C) {depth : Nat}
    (deep : G.depth C ≤ depth) :
    ∃ Val, constantValue T E M a G.initial depth C = .ok Val ∧
      ((Direct T G.initial C ∧
          (E.PointerVal Val : Int) = (guestAddress a f.address + o) % 18446744073709551616) ∨
        (¬ Direct T G.initial C ∧
          (E.PointerVal Val : Int) = (f.address + o) % 18446744073709551616)) := by
  generalize same : f.name = F at denotes
  induction denotes generalizing depth with
  | function name =>
    subst same
    have value : (E.PointerVal (E.getConstantValue' M a (.plain f.name) G.initial) : Int) =
        (guestAddress a f.address + 0) % 18446744073709551616 :=
      getConstantValue_function evaluates names mem guest rfl
    exact ⟨_, constantValue_global nofun, .inl ⟨.function rfl, value⟩⟩
  | @globalAlias name C F o denotes _ =>
    subst same
    have start : constantValue T E M a G.initial depth (.globalAlias name C) =
        .ok (E.getConstantValue' M a (.globalAlias name C) G.initial) := constantValue_global nofun
    cases resolved : resolveAliasesOperand (.globalAlias name C) with
    | plain F =>
      obtain ⟨rfl, rfl⟩ := denotes.globalAlias.plain resolved
      have value : (E.PointerVal (E.getConstantValue' M a (.globalAlias name C) G.initial) : Int) =
          (guestAddress a f.address + 0) % 18446744073709551616 :=
        getConstantValue_function evaluates names mem guest resolved
      exact ⟨_, start, .inl ⟨.function resolved, value⟩⟩
    | globalAlias => exact absurd resolved resolve_ne_globalAlias
    | constantExpr e =>
      refine ⟨_, start, .inr ?_⟩
      rw [Engine.getConstantValue', resolved]
      exact getConstantValue_expression evaluates names mem small resolved nofun denotes.globalAlias
        evaluable
  | @bitcast e C F o cast operand denotes _ =>
    subst same
    cases depth with
    | zero => exact absurd deep (Nat.not_succ_le_zero _)
    | succ depth =>
      have gep := evaluates.cast e cast
      refine ⟨_, ?_, .inr (getConstantValue_expression evaluates names mem small rfl ?_
        (denotes.bitcast cast operand) evaluable)⟩
      · rw [constantValue, gep]
        rfl
      · rintro e' ⟨⟩
        exact gep
  | @getElementPtr e C F o gep operand denotes ih =>
    subst same
    cases depth with
    | zero => exact absurd deep (Nat.not_succ_le_zero _)
    | succ depth =>
      have below := depth_operand (evaluates.operand e gep) (Option.some.inj operand)
      have direct : Direct T G.initial (.constantExpr e) ↔ Direct T G.initial C := by
        constructor
        · intro direct
          cases direct with
          | function resolved => cases resolved
          | getElementPtr _ operand' direct =>
            cases operand.symm.trans operand'
            exact direct
        · exact .getElementPtr gep operand
      obtain ⟨Val, evaluated, address⟩ := ih (evaluable.operand evaluates gep operand)
        (below.trans (Nat.le_of_succ_le_succ deep)) rfl
      have start : constantValue T E M a G.initial (depth + 1) (.constantExpr e) =
          .ok (E.setPointerVal E.GenericValue
            ((E.PointerVal Val + T.accumulateConstantOffset e G.initial) %
              18446744073709551616).toNat) := by
        rw [constantValue, if_pos gep, operand]
        exact bind_ok evaluated _
      refine ⟨_, start, ?_⟩
      -- the sum of the offsets is taken modulo the address space at every step
      have natural := Int.emod_nonneg (E.PointerVal Val + T.accumulateConstantOffset e G.initial)
        (show (18446744073709551616 : Int) ≠ 0 by decide)
      rw [evaluates.pointerVal, Int.toNat_of_nonneg natural, direct]
      obtain ⟨seen, address⟩ | ⟨unseen, address⟩ := address
      · left
        rw [address, Int.emod_add_emod, add_assoc]
        exact ⟨seen, rfl⟩
      · right
        rw [address, Int.emod_add_emod, add_assoc]
        exact ⟨unseen, rfl⟩

/-! ### Pointers -/

variable {k x : Nat}

/-- A pointer is stored as a number. -/
lemma PointerType.stored (pointer : PointerType T E ty k) (Val : GV) :
    storedBytes T E Val ty = littleEndian k (E.PointerVal Val) := by
  rw [storedBytes, pointer.isPointerTy, pointer.storeSize]
  obtain rfl | rfl := pointer.width
  · rw [if_pos (by simp)]
  · rw [pointer.wide rfl, ite_self]

/-- A pointer is as large as its number. -/
lemma PointerType.size (pointer : PointerType T E ty k) : T.storedBytes ty = k := by
  rw [← length_storedBytes (E := E) E.GenericValue, pointer.stored, length_littleEndian]

/-- A pointer has a byte. -/
lemma PointerType.pos (pointer : PointerType T E ty k) : 0 < k := by
  have := pointer.width
  omega

/-- An interpreter address fits a pointer of either width. -/
lemma PointerType.lt_pow (pointer : PointerType T E ty k) : Memory.endAddr < 256 ^ k := by
  obtain rfl | rfl := pointer.width
  · decide
  · decide

/-- The interpreter address of a function is below the end. -/
lemma guestAddress_lt {s : Memory.MyInterpreter} (run : (Memory.api M).Outcome (.ok s))
    (mem : f ∈ M.functions) (mapped : f.mapped = true) :
    guestAddress s.allocator f.address < Memory.endAddr := by
  obtain ⟨A, b, rep, memb, e⟩ := Memory.function_block run mem mapped
  rw [guestAddress, ← e, rep.vptr2vvptr memb]
  exact (Nat.le_add_right _ _).trans_lt (rep.stop_lt memb)

/-- Creating the interpreter is a run of the allocations. -/
lemma createInterpreter_run (created : createInterpreter T E P m0 = .ok p0) :
    (Memory.api P.module).Outcome (.ok p0.interpreter) := by
  rw [createInterpreter] at created
  obtain ⟨I, e, created⟩ := bind_eq_ok.1 created
  obtain ⟨_, _, created⟩ := bind_eq_ok.1 created
  cases created
  rw [← e]
  exact Outcome.start

/-- A pointer with the bytes of the interpreter address points to the function. -/
lemma pointsTo_of_bytes (pointer : PointerType T E ty k)
    (created : createInterpreter T E P m0 = .ok p0) (mem : f ∈ P.module.functions)
    (mapped : f.mapped = true)
    (bytes : read p0.memory x k = littleEndian k (guestAddress p0.interpreter.allocator f.address)) :
    PointsTo P k x f p0 := by
  have run := createInterpreter_run created
  have small := (guestAddress_lt run mem mapped).trans pointer.lt_pow
  refine ⟨bytes, ?_⟩
  rw [unsigned, bytes, ofLittleEndian_littleEndian, Nat.mod_eq_of_lt small,
    hostAddress_guestAddress run mem mapped, findFunctionByVPtr_of_mem mem mapped]

/-- A thread-local global gets no pointers: its memory may hold anything. -/
lemma threadLocal_without_pointer (laid : P.LaidOut T) (created : createInterpreter T E P m0 = .ok p0)
    (eg : P.module.globals[i]? = some g) (ed : P.definitions[i]? = some d)
    (initializer : d.initializer = some init) (mapped : g.mapped = true) (there : init.At T off ty C)
    (pointer : PointerType T E ty k)
    (threadLocal : savedFlags P.module.globals P.definitions g.name = some true) :
    ∃ m p, createInterpreter T E P m = .ok p ∧ ¬ PointsTo P k (g.pointer + off) f p := by
  let byte := UInt8.ofNat (guestAddress p0.interpreter.allocator f.address)
  obtain ⟨memory, e⟩ := createInterpreter_anywhere created fun _ => byte + 1
  refine ⟨_, _, e, fun points => ?_⟩
  have lt : 0 < T.storedBytes ty := pointer.size.symm ▸ pointer.pos
  have kept := createInterpreter_threadLocal laid e eg ed initializer mapped threadLocal
    ⟨off + 0, there.covers lt, rfl⟩
  have bytes := points.bytes
  cases k with
  | zero => exact absurd pointer.pos (Nat.lt_irrefl 0)
  | succ k =>
    rw [Lib.read, List.range_succ_eq_map, List.map_cons, littleEndian] at bytes
    have same : byte + 1 = byte := kept.symm.trans (List.cons.inj bytes).1
    exact absurd (add_eq_left.1 same) (by decide)

/-- Function pointers in initializers. Take a place of a global where the initializer has a constant that
is the address of a function. For every memory that the engine gives the globals, the pointer that
`createInterpreter` leaves there is the interpreter address of the function, and leads back to it, if and
only if the global is not thread-local and `getConstantValue` gets to see the function (or else the host
address of the function happens to have the bytes of the interpreter address). -/
theorem initialized_pointer_iff (evaluates : E.Evaluates T P.module P.graph) (laid : P.LaidOut T)
    (names : (P.module.functions.map Memory.Function.name).Nodup)
    (created : createInterpreter T E P m0 = .ok p0) (eg : P.module.globals[i]? = some g)
    (ed : P.definitions[i]? = some d) (initializer : d.initializer = some init)
    (mapped : g.mapped = true) (there : init.At T off ty C) (pointer : PointerType T E ty k)
    (denotes : Denotes T E P.graph.initial C f.name 0) (mem : f ∈ P.module.functions)
    (defined : f.mapped = true) :
    (Evaluable T E P.graph.initial P.module C ∧
      ∀ m p, createInterpreter T E P m = .ok p → PointsTo P k (g.pointer + off) f p) ↔
    savedFlags P.module.globals P.definitions g.name = some false ∧
      (Direct T P.graph.initial C ∨ Evaluable T E P.graph.initial P.module C ∧
        f.address % 256 ^ k = guestAddress p0.interpreter.allocator f.address) := by
  have run := createInterpreter_run created
  have guest := guestAddress_lt run mem defined
  have bound : Memory.endAddr = 0x58000000 := by decide
  have small : f.address < 18446744073709551616 := by
    have := P.module.fits_function f mem defined
    omega
  -- what is at the place of a global that is not thread-local
  have left : ∀ {m p}, savedFlags P.module.globals P.definitions g.name = some false →
      Evaluable T E P.graph.initial P.module C → createInterpreter T E P m = .ok p →
      p.interpreter = p0.interpreter ∧ ∃ n, read p.memory (g.pointer + off) k = littleEndian k n ∧
        ((Direct T P.graph.initial C ∧ n = guestAddress p0.interpreter.allocator f.address) ∨
          (¬ Direct T P.graph.initial C ∧ n = f.address)) := by
    intro m p own evaluable created'
    have same : p.interpreter = p0.interpreter := by
      obtain ⟨memory, e⟩ := createInterpreter_anywhere created m
      cases e.symm.trans created'
      rfl
    obtain ⟨Val, evaluated, bytes⟩ := createInterpreter_at laid created' eg ed initializer mapped own there
    obtain ⟨Val', evaluated', address⟩ := constantValue_denotes evaluates names mem small
      (guest.trans (by decide)) denotes evaluable (le_refl (P.graph.depth C))
    rw [same] at evaluated
    cases evaluated.symm.trans evaluated'
    refine ⟨same, E.PointerVal Val, ?_, ?_⟩
    · rw [← pointer.stored, ← bytes, pointer.size]
    · obtain ⟨seen, address⟩ | ⟨unseen, address⟩ := address
      · exact .inl ⟨seen, by omega⟩
      · exact .inr ⟨unseen, by omega⟩
  constructor
  · intro ⟨evaluable, always⟩
    have own : savedFlags P.module.globals P.definitions g.name = some false := by
      obtain ⟨flag, saved⟩ := savedFlags_isSome eg ed (Option.isSome_of_eq_some initializer)
      cases flag with
      | false => exact saved
      | true =>
        obtain ⟨m, p, created', wrong⟩ :=
          threadLocal_without_pointer laid created eg ed initializer mapped there pointer saved
        exact absurd (always m p created') wrong
    refine ⟨own, ?_⟩
    obtain ⟨same, n, bytes, ⟨seen, _⟩ | ⟨_, rfl⟩⟩ := left own evaluable created
    · exact .inl seen
    · have right := (always m0 p0 created).bytes
      rw [bytes, littleEndian_eq_iff, Nat.mod_eq_of_lt (guest.trans pointer.lt_pow)] at right
      exact .inr ⟨evaluable, right⟩
  · intro ⟨own, right⟩
    have evaluable : Evaluable T E P.graph.initial P.module C := by
      obtain seen | ⟨evaluable, _⟩ := right
      · exact seen.evaluable
      · exact evaluable
    refine ⟨evaluable, fun m p created' => ?_⟩
    obtain ⟨same, n, bytes, address⟩ := left own evaluable created'
    refine pointsTo_of_bytes pointer created' mem defined ?_
    rw [bytes, same]
    obtain ⟨_, rfl⟩ | ⟨unseen, rfl⟩ := address
    · rfl
    · obtain seen | ⟨_, agree⟩ := right
      · exact absurd seen unseen
      · rw [← agree, littleEndian_mod]

/-! ### A table of functions -/

/-- The module's types with pointers of eight bytes. -/
def tableTarget : Target Nat Nat := { dlistTarget with isPointerTy := fun ty => ty = 8 }

/-- The host address of a function of the module. -/
def tableAddress (C : Constant) : Nat :=
  match resolveAliasesOperand C with
  | .plain name => ((dlistModule.functions.find? fun F => F.name = name).map Memory.Function.address).getD 0
  | _ => 0

/-- An engine whose expressions are casts of what their operand resolves to. -/
def tableEngine : Engine Nat Unit :=
  { dlistEngine with
    isCast := fun e => e = 0
    getConstantValue := fun C ops =>
      match C with
      | .constantExpr e => ((ops (e, 0)).map tableAddress).getD 0
      | C => tableAddress C }

/-- One expression, a cast of `main`. -/
def tableConstants : ConstantGraph where
  numOperands := fun _ => 1
  operand := fun _ => .plain "main"
  rank := fun _ => 0
  acyclic := fun _ _ _ _ e => nomatch e

/-- `main` and a cast of `main`. -/
def tableInit : Init Nat := .array 8 [.value 8 (.plain "main"), .value 8 (.constantExpr 0)]

/-- The program with the table. -/
def tableProgram : Program Nat where
  module := dlistModule
  definitions := [⟨some tableInit, false⟩, ⟨none, false⟩]
  graph := tableConstants
  defined := by
    rintro (_ | _ | i) g d eg ed initialized
    · cases eg
      rfl
    · cases ed
      cases initialized
    · cases eg

/-- Its process, as it was created. -/
def tableProcess : Process Nat :=
  match createInterpreter tableTarget tableEngine tableProgram (fun _ => 0) with
  | .ok p => p
  | .error _ => ⟨⟨{}, [], []⟩, [], fun _ => none, fun _ => 0⟩

/-- The process is created. -/
lemma table_created :
    createInterpreter tableTarget tableEngine tableProgram (fun _ => 0) = .ok tableProcess := by
  have runs : (createInterpreter tableTarget tableEngine tableProgram fun _ => 0).isOk = true := by
    decide +kernel
  cases e : createInterpreter tableTarget tableEngine tableProgram fun _ => 0 with
  | error =>
    rw [e] at runs
    cases runs
  | ok p => rw [tableProcess, e]

/-- A function is at its address. -/
lemma tableAddress_function {f : Memory.Function} (mem : f ∈ dlistModule.functions)
    (resolved : resolveAliasesOperand C = .plain f.name) : tableAddress C = f.address := by
  have found : (dlistModule.functions.find? fun F => F.name = f.name) = some f :=
    find?_of_nodup (by decide) mem
  rw [tableAddress, resolved]
  simp only [found, Option.map_some, Option.getD_some]

/-- The expression is a cast of a function or has no value. -/
lemma table_expression {ops : Operands} {p : Int}
    (value : EngineValue tableTarget tableEngine ops dlistModule C p) :
    (∃ f ∈ dlistModule.functions, resolveAliasesOperand C = .plain f.name ∧ p = f.address) ∨
      ∃ C', C = .constantExpr 0 ∧ ops (0, 0) = some C' ∧
        ∃ f ∈ dlistModule.functions, resolveAliasesOperand C' = .plain f.name ∧ p = f.address := by
  induction value with
  | function mem resolved => exact .inl ⟨_, mem, resolved, rfl⟩
  | bitcast cast operand _ ih =>
    cases of_decide_eq_true cast
    obtain function | ⟨C', rfl, operand', f, mem, resolved, e⟩ := ih
    · exact .inr ⟨_, rfl, operand, function⟩
    · cases operand.symm.trans operand'
      cases resolved
  | getElementPtr gep => cases gep

/-- The engine evaluates the constants. -/
lemma table_evaluates : tableEngine.Evaluates tableTarget dlistModule tableConstants where
  pointerVal _ _ := rfl
  value ops C p value := by
    obtain ⟨f, mem, resolved, rfl⟩ | ⟨C', rfl, operand, f, mem, resolved, rfl⟩ := table_expression value
    · have address : tableEngine.getConstantValue C ops = tableAddress C := by
        cases C with
        | plain => rfl
        | globalAlias => rfl
        | constantExpr => cases resolved
      exact congrArg Int.ofNat (address.trans (tableAddress_function mem resolved))
    · show (((ops (0, 0)).map tableAddress).getD 0 : Nat) = (f.address : Int)
      rw [operand]
      exact congrArg Int.ofNat (tableAddress_function mem resolved)
  cast _ _ := rfl
  operand _ gep := nomatch gep

/-- Only the threads have an initializer. -/
lemma table_initializer {i : Nat} {d : Definition Nat} {init : Init Nat}
    (ed : tableProgram.definitions[i]? = some d) (initializer : d.initializer = some init) :
    i = 0 ∧ init = tableInit := by
  match i, ed with
  | 0, ed =>
    cases ed
    cases initializer
    exact ⟨rfl, rfl⟩
  | 1, ed =>
    cases ed
    cases initializer

/-- The initializer fits its place. -/
lemma tableInit_laidOut (Addr : Nat) : tableInit.LaidOut tableTarget Addr := by
  refine ⟨trivial, Set.disjoint_left.2 ?_, trivial, Set.disjoint_left.2 ?_, trivial⟩
  · rintro x ⟨off, inside, rfl⟩ ⟨k, init, operand, off', inside', e⟩
    cases k with
    | succ => cases operand
    | zero =>
      cases operand
      cases inside with
      | value lt =>
        have lt8 : off < 8 := lt
        have second : Addr + 0 + off = Addr + 8 + off' := e
        omega
  · rintro x _ ⟨k, init, operand, _⟩
    cases operand

/-- The program is laid out. -/
lemma table_laidOut : tableProgram.LaidOut tableTarget where
  parts i g d init eg ed initializer := by
    obtain ⟨rfl, rfl⟩ := table_initializer ed initializer
    exact tableInit_laidOut _
  globals i j g g' d d' init init' ne eg eg' mapped mapped' ed ed' initializer initializer' := by
    obtain ⟨rfl, _⟩ := table_initializer ed initializer
    obtain ⟨rfl, _⟩ := table_initializer ed' initializer'
    exact absurd rfl ne

/-- The pointers of the target have eight bytes. -/
lemma table_pointer : PointerType tableTarget tableEngine 8 8 := ⟨rfl, rfl, .inr rfl, fun _ _ => rfl⟩

/-- The function is the first element of the table. -/
lemma table_first : tableInit.At tableTarget (elementPlace tableTarget 8 0 + 0) 8 (.plain "main") :=
  .array rfl .value

/-- The first pointer of the table. -/
theorem initialized_pointer_table :
    (Evaluable tableTarget tableEngine tableConstants.initial dlistModule (.plain "main") ∧
      ∀ m p, createInterpreter tableTarget tableEngine tableProgram m = .ok p →
        PointsTo tableProgram 8 0x7f0000001000 ⟨"main", false, 0x7f0000003000⟩ p) ↔
    savedFlags dlistModule.globals tableProgram.definitions "t" = some false ∧
      (Direct tableTarget tableConstants.initial (.plain "main") ∨
        Evaluable tableTarget tableEngine tableConstants.initial dlistModule (.plain "main") ∧
          0x7f0000003000 % 256 ^ 8 =
            guestAddress tableProcess.interpreter.allocator 0x7f0000003000) :=
  initialized_pointer_iff (C := .plain "main") (i := 0) (g := ⟨"t", false, 288, 0x7f0000001000⟩)
    (d := ⟨some tableInit, false⟩) (f := ⟨"main", false, 0x7f0000003000⟩) table_evaluates
    table_laidOut (by decide) table_created rfl rfl rfl rfl table_first table_pointer
    (.function "main") (by decide) rfl

/-- The second pointer is a cast of `main` and holds the host address. -/
theorem cast_pointer_left_to_engine :
    Denotes tableTarget tableEngine tableConstants.initial (.constantExpr 0) "main" 0 ∧
      tableInit.At tableTarget 8 8 (.constantExpr 0) ∧
      createInterpreter tableTarget tableEngine tableProgram (fun _ => 0) = .ok tableProcess ∧
      tableEngine.Evaluates tableTarget dlistModule tableConstants ∧
      guestAddress tableProcess.interpreter.allocator 0x7f0000003000 = 0x50000128 ∧
      unsigned tableProcess.memory 0x7f0000001008 8 = 0x7f0000003000 :=
  ⟨.bitcast rfl rfl (.function "main"), .array (i := 1) rfl .value, table_created, table_evaluates,
    by decide +kernel, by decide +kernel⟩

end Irx.Exec
