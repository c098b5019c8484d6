import Irx.Exec.Callee
import Irx.Lib.Overwrite

/-!
# The initial contents of globals

Embedding of `getConstantValue`, `StoreValueToMemory`, `InitializeMemory` and `InitializeGlobals`. What
LLVM knows of types and what its engine does with values are parameters (`Target` and `Engine`).
`Init.Covers` says which bytes of an initializer have a value at all: none of an undefined part or of
padding. `InitializeMemory` overwrites exactly these (`InitializeMemory_overwrites`), and so
`InitializeGlobals` those of the initialized globals, by the flags that it leaves
(`InitializeGlobals_overwrites`).
-/

namespace Irx.Exec
open Irx.Lib

/-- A constant initializer: an undefined value, a vector, a zero aggregate, an array, a structure, raw
data, and any other constant. -/
inductive Init (Ty : Type) where
  | undef
  | vector (elem : Ty) (operands : List (Init Ty))
  | aggregateZero (ty : Ty)
  | array (elem : Ty) (operands : List (Init Ty))
  | struct (ty : Ty) (operands : List (Init Ty))
  | dataSequential (bytes : List UInt8)
  | value (ty : Ty) (C : Constant)

/-- The types of the target and the stores of LLVM's engine, which write as many bytes as the type says. -/
structure Target (Ty GV : Type) where
  getTypeAllocSize : Ty → Nat
  getTypeStoreSize : Ty → Nat
  getElementOffset : Ty → Nat → Nat
  isArrayTy : Ty → Bool
  isPointerTy : Ty → Bool
  isFirstClassType : Ty → Bool
  isGetElementPtr : Nat → Bool
  accumulateConstantOffset : Nat → Operands → Int
  storedSize : Ty → Nat
  StoreValueToMemory : GV → (ty : Ty) → { bytes : List UInt8 // bytes.length = storedSize ty }

section Embedding

variable {Ty GV Mem : Type} (T : Target Ty GV) (E : Engine GV Mem) (M : Memory.Module)
variable (G : ConstantGraph) (a : Memory.MapAllocator) (ops : Operands)
variable (value : Constant → Except Abort GV)

/-- `getConstantValue`, through at most `depth` nested expressions. -/
def constantValue : Nat → Constant → Except Abort GV
  | 0, .constantExpr _ => .error .undefined
  | depth + 1, .constantExpr e =>
    if T.isGetElementPtr e then
      match ops (e, 0) with
      | none => .error .undefined
      | some Op0 => do
        let Result ← constantValue depth Op0
        let address := (E.PointerVal Result + T.accumulateConstantOffset e ops) % 18446744073709551616
        .ok (E.setPointerVal E.GenericValue address.toNat)
    else .ok (E.getConstantValue (.constantExpr e) ops)
  | _, C => .ok (E.getConstantValue' M a C ops)

/-- `getConstantValue`, as deep as the constant is. -/
def getConstantValue (C : Constant) : Except Abort GV := constantValue T E M a ops (G.depth C) C

/-- The bytes that `StoreValueToMemory` writes: pointers in the width of the target. -/
def storedBytes (Val : GV) (ty : Ty) : List UInt8 :=
  if T.isArrayTy ty || (T.isPointerTy ty && T.getTypeStoreSize ty != 8) then
    littleEndian (T.getTypeStoreSize ty) (E.PointerVal Val)
  else (T.StoreValueToMemory Val ty).1

/-- The place of an element, in 32-bit arithmetic. -/
def elementPlace (elem : Ty) (i : Nat) : Nat :=
  i * (T.getTypeAllocSize elem % 4294967296) % 4294967296

mutual

def InitializeMemory : Init Ty → Nat → Bytes → Except Abort Bytes
  | .undef, _, m => .ok m
  | .vector elem operands, Addr, m => InitializeOperands (Addr + elementPlace T elem ·) 0 operands m
  | .aggregateZero ty, Addr, m => .ok (write m Addr (List.replicate (T.getTypeAllocSize ty) 0))
  | .array elem operands, Addr, m => InitializeOperands (Addr + elementPlace T elem ·) 0 operands m
  | .struct ty operands, Addr, m => InitializeOperands (Addr + T.getElementOffset ty ·) 0 operands m
  | .dataSequential bytes, Addr, m => .ok (write m Addr bytes)
  | .value ty C, Addr, m =>
    if T.isFirstClassType ty then do
      let Val ← value C
      .ok (write m Addr (storedBytes T E Val ty))
    else .error .undefined

/-- The loops over the operands of an aggregate, from the `i`-th one on. -/
def InitializeOperands (place : Nat → Nat) : Nat → List (Init Ty) → Bytes → Except Abort Bytes
  | _, [], m => .ok m
  | i, Init :: operands, m => do
    let m ← InitializeMemory Init (place i) m
    InitializeOperands place (i + 1) operands m

end

/-- What a module says of a global besides its memory. -/
structure Definition (Ty : Type) where
  initializer : Option (Init Ty)
  isThreadLocal : Bool

/-- The flags that `InitializeGlobals` restores, by name. -/
abbrev Flags := String → Option Bool

/-- `fakeSetIsThreadLocalGlobals`: the flag of each global with an initializer, of the last one if several
share a name. -/
def savedFlags : List Memory.GlobalVariable → List (Definition Ty) → Flags
  | GV :: gs, d :: ds => fun name =>
    match savedFlags gs ds name with
    | some flag => some flag
    | none => if d.initializer.isSome && GV.name == name then some d.isThreadLocal else none
  | _, _ => fun _ => none

/-- All globals with an initializer pass for thread-local while the engine is set up. -/
def Definition.faked (d : Definition Ty) : Definition Ty :=
  if d.initializer.isSome then { d with isThreadLocal := true } else d

/-- The body of the loop of `InitializeGlobals`. -/
def initializeGlobal (isThreadLocal : Flags) (GV : Memory.GlobalVariable) (d : Definition Ty)
    (m : Bytes) : Except Abort (Definition Ty × Bytes) :=
  match d.initializer with
  | none => .ok (d, m)
  | some Init =>
    if a.has GV.pointer then do
      let GA ← a.vvptr2vptr GV.pointer
      if GA = 0 then .ok (d, m)
      else
        let d := { d with isThreadLocal := (isThreadLocal GV.name).getD d.isThreadLocal }
        if d.isThreadLocal then .ok (d, m)
        else do
          let m ← InitializeMemory T E value Init GA m
          .ok (d, m)
    else .ok (d, m)

/-- The loop of the initialization over the globals. -/
def InitializeGlobals (isThreadLocal : Flags) : List Memory.GlobalVariable → List (Definition Ty) →
    Bytes → Except Abort (List (Definition Ty) × Bytes)
  | GV :: gs, d :: ds, m => do
    let (d, m) ← initializeGlobal T E a value isThreadLocal GV d m
    let (ds, m) ← InitializeGlobals isThreadLocal gs ds m
    .ok (d :: ds, m)
  | _, ds, m => .ok (ds, m)

/-- How many bytes a store of the type writes. -/
def Target.storedBytes (ty : Ty) : Nat :=
  if T.isArrayTy ty || (T.isPointerTy ty && T.getTypeStoreSize ty != 8) then T.getTypeStoreSize ty
  else T.storedSize ty

/-- The byte of an initializer has a value. -/
inductive Init.Covers : Init Ty → Nat → Prop where
  | vector {elem operands i Init x} : operands[i]? = some Init → Covers Init x →
    Covers (.vector elem operands) (elementPlace T elem i + x)
  | aggregateZero {ty x} : x < T.getTypeAllocSize ty → Covers (.aggregateZero ty) x
  | array {elem operands i Init x} : operands[i]? = some Init → Covers Init x →
    Covers (.array elem operands) (elementPlace T elem i + x)
  | struct {ty operands i Init x} : operands[i]? = some Init → Covers Init x →
    Covers (.struct ty operands) (T.getElementOffset ty i + x)
  | dataSequential {bytes x} : x < bytes.length → Covers (.dataSequential bytes) x
  | value {ty C x} : x < T.storedBytes ty → Covers (.value ty C) x

end Embedding

variable {Ty GV Mem : Type} {T : Target Ty GV} {E : Engine GV Mem} {value : Constant → Except Abort GV}
variable {a : Memory.MapAllocator} {m m1 : Bytes} {x : Nat}

/-- The bytes stored have the size of the type. -/
lemma length_storedBytes (Val : GV) (ty : Ty) :
    (storedBytes T E Val ty).length = T.storedBytes ty := by
  rw [storedBytes, Target.storedBytes]
  split
  · exact length_littleEndian _ _
  · exact (T.StoreValueToMemory Val ty).2

/-- The addresses of the bytes of an initializer that have a value. -/
def Init.cells (T : Target Ty GV) (init : Init Ty) (Addr : Nat) : Set Nat :=
  { x | ∃ off, init.Covers T off ∧ x = Addr + off }

/-- The same for the operands of an aggregate from the `i`-th one on. -/
def operandCells (T : Target Ty GV) (place : Nat → Nat) (i : Nat) (operands : List (Init Ty)) : Set Nat :=
  { x | ∃ (k : Nat) (init : Init Ty), operands[k]? = some init ∧ x ∈ init.cells T (place (i + k)) }

/-- The cells of one operand and of those after it. -/
lemma operandCells_cons {place : Nat → Nat} {i : Nat} {init : Init Ty} {operands : List (Init Ty)} :
    x ∈ init.cells T (place i) ∪ operandCells T place (i + 1) operands ↔
      x ∈ operandCells T place i (init :: operands) := by
  constructor
  · rintro (here | ⟨k, later, e, mem⟩)
    · exact ⟨0, init, rfl, here⟩
    · refine ⟨k + 1, later, e, ?_⟩
      rwa [← Nat.add_assoc, Nat.add_right_comm]
  · rintro ⟨k, later, e, mem⟩
    cases k with
    | zero =>
      cases e
      exact .inl mem
    | succ k =>
      refine .inr ⟨k, later, e, ?_⟩
      rwa [Nat.add_right_comm, Nat.add_assoc]

/-- An aggregate covers what its operands cover. -/
lemma cells_of_operands {init : Init Ty} {place : Nat → Nat} {operands : List (Init Ty)} {Addr : Nat}
    (covers : ∀ off, init.Covers T off ↔ ∃ k operand off', operands[k]? = some operand ∧
      operand.Covers T off' ∧ off = place k + off') :
    x ∈ operandCells T (Addr + place ·) 0 operands ↔ x ∈ init.cells T Addr := by
  constructor
  · rintro ⟨k, operand, e, off, inside, rfl⟩
    have inside' := (covers _).2 ⟨k, operand, off, e, inside, rfl⟩
    exact ⟨place k + off, inside', by rw [Nat.zero_add, Nat.add_assoc]⟩
  · rintro ⟨off, inside, rfl⟩
    obtain ⟨k, operand, off', e, inside', rfl⟩ := (covers off).1 inside
    refine ⟨k, operand, e, off', inside', ?_⟩
    rw [Nat.zero_add, Nat.add_assoc]

/-- What is no aggregate covers as many bytes as are written for it. -/
lemma cells_of_leaf {init : Init Ty} {Addr n : Nat} (covers : ∀ off, init.Covers T off ↔ off < n) :
    x ∈ Set.Ico Addr (Addr + n) ↔ x ∈ init.cells T Addr := by
  constructor
  · rintro ⟨le, lt⟩
    exact ⟨x - Addr, (covers _).2 (by omega), by omega⟩
  · rintro ⟨off, inside, rfl⟩
    have := (covers off).1 inside
    exact ⟨by omega, by omega⟩

/-- The cells of a vector are those of its operands. -/
lemma covers_vector {elem : Ty} {operands : List (Init Ty)} (off : Nat) :
    (Init.vector elem operands).Covers T off ↔ ∃ k operand off', operands[k]? = some operand ∧
      operand.Covers T off' ∧ off = elementPlace T elem k + off' := by
  constructor
  · intro inside
    cases inside with
    | vector e inside => exact ⟨_, _, _, e, inside, rfl⟩
  · rintro ⟨k, operand, off', e, inside, rfl⟩
    exact .vector e inside

/-- The cells of an array are those of its operands. -/
lemma covers_array {elem : Ty} {operands : List (Init Ty)} (off : Nat) :
    (Init.array elem operands).Covers T off ↔ ∃ k operand off', operands[k]? = some operand ∧
      operand.Covers T off' ∧ off = elementPlace T elem k + off' := by
  constructor
  · intro inside
    cases inside with
    | array e inside => exact ⟨_, _, _, e, inside, rfl⟩
  · rintro ⟨k, operand, off', e, inside, rfl⟩
    exact .array e inside

/-- The cells of a structure are those of its operands. -/
lemma covers_struct {ty : Ty} {operands : List (Init Ty)} (off : Nat) :
    (Init.struct ty operands).Covers T off ↔ ∃ k operand off', operands[k]? = some operand ∧
      operand.Covers T off' ∧ off = T.getElementOffset ty k + off' := by
  constructor
  · intro inside
    cases inside with
    | struct e inside => exact ⟨_, _, _, e, inside, rfl⟩
  · rintro ⟨k, operand, off', e, inside, rfl⟩
    exact .struct e inside

mutual

/-- `InitializeMemory` overwrites the bytes that have a value, and no others. -/
lemma InitializeMemory_overwrites : ∀ (init : Init Ty) {Addr : Nat} {m m1 : Bytes},
    InitializeMemory T E value init Addr m = .ok m1 →
    Overwrites (InitializeMemory T E value init Addr) (init.cells T Addr)
  | .undef, Addr, m, m1, _ => by
    refine (overwrites_ok fun _ => 0).congr fun x => ⟨nofun, ?_⟩
    rintro ⟨off, inside, _⟩
    cases inside
  | .vector elem operands, Addr, m, m1, e =>
    (InitializeOperands_overwrites operands e).congr fun _ => cells_of_operands covers_vector
  | .aggregateZero ty, Addr, m, m1, _ => by
    refine (overwrites_write Addr _).congr fun x => ?_
    rw [List.length_replicate]
    refine cells_of_leaf fun off => ⟨fun inside => ?_, .aggregateZero⟩
    cases inside with
    | aggregateZero lt => exact lt
  | .array elem operands, Addr, m, m1, e =>
    (InitializeOperands_overwrites operands e).congr fun _ => cells_of_operands covers_array
  | .struct ty operands, Addr, m, m1, e =>
    (InitializeOperands_overwrites operands e).congr fun _ => cells_of_operands covers_struct
  | .dataSequential bytes, Addr, m, m1, _ => by
    refine (overwrites_write Addr bytes).congr fun x => ?_
    refine cells_of_leaf fun off => ⟨fun inside => ?_, .dataSequential⟩
    cases inside with
    | dataSequential lt => exact lt
  | .value ty C, Addr, m, m1, e => by
    rw [InitializeMemory] at e
    split at e
    case isTrue firstClass =>
      obtain ⟨Val, evaluated, _⟩ := bind_eq_ok.1 e
      have run : InitializeMemory T E value (.value ty C) Addr =
          fun m => .ok (write m Addr (storedBytes T E Val ty)) := by
        funext m
        rw [InitializeMemory, if_pos firstClass, evaluated]
        rfl
      rw [run]
      refine (overwrites_write Addr _).congr fun x => ?_
      rw [length_storedBytes]
      refine cells_of_leaf fun off => ⟨fun inside => ?_, .value⟩
      cases inside with
      | value lt => exact lt
    case isFalse => cases e

/-- Initializing operands writes their cells only. -/
lemma InitializeOperands_overwrites {place : Nat → Nat} : ∀ (operands : List (Init Ty)) {i : Nat}
    {m m1 : Bytes}, InitializeOperands T E value place i operands m = .ok m1 →
    Overwrites (InitializeOperands T E value place i operands) (operandCells T place i operands)
  | [], i, m, m1, _ => by
    refine (overwrites_ok fun _ => 0).congr fun x => ⟨nofun, ?_⟩
    rintro ⟨k, init, none, _⟩
    cases none
  | init :: operands, i, m, m1, e => by
    rw [InitializeOperands] at e
    obtain ⟨m2, first, rest⟩ := bind_eq_ok.1 e
    have ow := (InitializeMemory_overwrites init first).bind (InitializeOperands_overwrites operands rest)
    exact ow.congr fun _ => operandCells_cons

end

/-! ### Globals -/

/-- The global has host memory, found through the allocator. -/
structure Found (a : Memory.MapAllocator) (g : Memory.GlobalVariable) (GA : Nat) : Prop where
  has : a.has g.pointer = true
  address : a.vvptr2vptr g.pointer = .ok GA
  nonnull : GA ≠ 0

/-- The bytes of the globals that have a value. -/
def globalCells (T : Target Ty GV) (a : Memory.MapAllocator) (gs : List Memory.GlobalVariable)
    (ds : List (Definition Ty)) : Set Nat :=
  { x | ∃ (i : Nat) (g : Memory.GlobalVariable) (d : Definition Ty) (init : Init Ty) (GA : Nat),
    gs[i]? = some g ∧ ds[i]? = some d ∧ d.initializer = some init ∧ d.isThreadLocal = false ∧
      Found a g GA ∧ x ∈ init.cells T GA }

variable {flags : Flags} {g : Memory.GlobalVariable} {d d1 : Definition Ty} {init : Init Ty} {GA : Nat}
variable {gs : List Memory.GlobalVariable} {ds ds1 : List (Definition Ty)}

/-- The flag that a global is treated by, and keeps. -/
def Definition.restored (d : Definition Ty) (flags : Flags) (name : String) : Definition Ty :=
  { d with isThreadLocal := (flags name).getD d.isThreadLocal }

/-- A global that is found is initialized at its host address, unless it is thread-local. -/
lemma initializeGlobal_found (initializer : d.initializer = some init) (found : Found a g GA) :
    initializeGlobal T E a value flags g d m =
      if (d.restored flags g.name).isThreadLocal then .ok (d.restored flags g.name, m)
      else (InitializeMemory T E value init GA m).map (d.restored flags g.name, ·) := by
  have same : d.restored flags g.name = ⟨some init, (flags g.name).getD d.isThreadLocal⟩ := by
    rw [Definition.restored, initializer]
  rw [initializeGlobal, same]
  simp only [initializer]
  refine (if_pos found.has).trans ((bind_ok found.address _).trans ((if_neg found.nonnull).trans ?_))
  cases InitializeMemory T E value init GA m with
  | error => rfl
  | ok => rfl

/-- A global without an initializer or without memory is passed over. -/
lemma initializeGlobal_cases (e : initializeGlobal T E a value flags g d m = .ok (d1, m1)) :
    (∃ init GA, d.initializer = some init ∧ Found a g GA) ∨
      (∀ init GA, d.initializer = some init → ¬ Found a g GA) ∧ d1 = d ∧
        ∀ flags m, initializeGlobal T E a value flags g d m = .ok (d, m) := by
  cases initializer : d.initializer with
  | none =>
    have skipped : ∀ flags m, initializeGlobal T E a value flags g d m = .ok (d, m) := by
      intro flags m
      rw [initializeGlobal, initializer]
    cases (skipped flags m).symm.trans e
    exact .inr ⟨nofun, rfl, skipped⟩
  | some init =>
    cases has : a.has g.pointer with
    | false =>
      have skipped : ∀ flags m, initializeGlobal T E a value flags g d m = .ok (d, m) := by
        intro flags m
        rw [initializeGlobal, initializer, has]
        rfl
      cases (skipped flags m).symm.trans e
      exact .inr ⟨fun _ _ _ found => Bool.false_ne_true (has.symm.trans found.has), rfl, skipped⟩
    | true =>
      have opened := e
      rw [initializeGlobal] at opened
      simp only [initializer, has, if_true] at opened
      obtain ⟨GA, address, _⟩ := bind_eq_ok.1 opened
      by_cases null : GA = 0
      case neg => exact .inl ⟨init, GA, rfl, has, address, null⟩
      case pos =>
        have skipped : ∀ flags m, initializeGlobal T E a value flags g d m = .ok (d, m) := by
          intro flags m
          rw [initializeGlobal, initializer]
          exact (if_pos has).trans ((bind_ok address _).trans (if_pos null))
        have missing : ∀ init' GA', some init = some init' → ¬ Found a g GA' := by
          intro init' GA' _ found
          cases found.address.symm.trans address
          exact found.nonnull null
        cases (skipped flags m).symm.trans e
        exact .inr ⟨missing, rfl, skipped⟩

/-- Initializing a global restores its definition. -/
lemma initializeGlobal_restored (initializer : d.initializer = some init) (found : Found a g GA)
    (e : initializeGlobal T E a value flags g d m = .ok (d1, m1)) :
    d1 = d.restored flags g.name := by
  rw [initializeGlobal_found initializer found] at e
  split at e
  · cases e
    rfl
  · cases written : InitializeMemory T E value init GA m with
    | error r =>
      rw [written] at e
      cases e
    | ok m2 =>
      rw [written] at e
      cases e
      rfl

/-- Without saved flags a global is treated by the flag it has. -/
lemma initializeGlobal_settled
    (e : initializeGlobal T E a value flags g d m = .ok (d1, m1)) :
    initializeGlobal T E a value (fun _ => none) g d1 m = .ok (d1, m1) := by
  obtain ⟨init, GA, initializer, found⟩ | ⟨_, same, skipped⟩ := initializeGlobal_cases e
  · have kept := initializeGlobal_restored initializer found e
    subst kept
    rw [initializeGlobal_found initializer found] at e
    rw [initializeGlobal_found (d := d.restored flags g.name) initializer found]
    exact e
  · cases (skipped flags m).symm.trans e
    exact skipped _ m

/-- The loop leaves flags by which it does the same again. -/
lemma InitializeGlobals_settled
    (e : InitializeGlobals T E a value flags gs ds m = .ok (ds1, m1)) :
    InitializeGlobals T E a value (fun _ => none) gs ds1 m = .ok (ds1, m1) := by
  induction gs generalizing ds ds1 m with
  | nil =>
    cases ds <;> cases e <;> rfl
  | cons g gs ih =>
    cases ds with
    | nil =>
      cases e
      rfl
    | cons d ds =>
      rw [InitializeGlobals] at e
      obtain ⟨⟨d1, m2⟩, first, e⟩ := bind_eq_ok.1 e
      obtain ⟨⟨ds2, m3⟩, later, e⟩ := bind_eq_ok.1 e
      cases e
      rw [InitializeGlobals]
      exact (bind_ok (initializeGlobal_settled first) _).trans (bind_ok (ih later) _)

/-- Where a global with an initializer is found, its flag is restored. -/
lemma InitializeGlobals_restored
    (e : InitializeGlobals T E a value flags gs ds m = .ok (ds1, m1)) {i : Nat} (eg : gs[i]? = some g)
    (ed : ds[i]? = some d) (initializer : d.initializer = some init) (found : Found a g GA) :
    ds1[i]? = some (d.restored flags g.name) := by
  induction gs generalizing ds ds1 m m1 i with
  | nil => cases eg
  | cons g' gs ih =>
    cases ds with
    | nil => cases ed
    | cons d' ds =>
      rw [InitializeGlobals] at e
      obtain ⟨⟨d1, m2⟩, first, e⟩ := bind_eq_ok.1 e
      obtain ⟨⟨ds2, m3⟩, later, e⟩ := bind_eq_ok.1 e
      cases e
      cases i with
      | zero =>
        cases eg
        cases ed
        exact congrArg some (initializeGlobal_restored initializer found first)
      | succ i => exact ih later eg ed

/-- Initializers are kept, and without saved flags the flags too. -/
lemma InitializeGlobals_kept (e : InitializeGlobals T E a value flags gs ds m = .ok (ds1, m1)) :
    ds1.map Definition.initializer = ds.map Definition.initializer ∧
      ((flags = fun _ => none) → ds1 = ds) := by
  induction gs generalizing ds ds1 m m1 with
  | nil =>
    cases ds <;> cases e <;> exact ⟨rfl, fun _ => rfl⟩
  | cons g gs ih =>
    cases ds with
    | nil =>
      cases e
      exact ⟨rfl, fun _ => rfl⟩
    | cons d ds =>
      rw [InitializeGlobals] at e
      obtain ⟨⟨d1, m2⟩, first, e⟩ := bind_eq_ok.1 e
      obtain ⟨⟨ds2, m3⟩, later, e⟩ := bind_eq_ok.1 e
      cases e
      obtain ⟨initializers, unchanged⟩ := ih later
      have here : d1.initializer = d.initializer ∧ ((flags = fun _ => none) → d1 = d) := by
        obtain ⟨init, GA, initializer, found⟩ | ⟨_, same, _⟩ := initializeGlobal_cases first
        · rw [initializeGlobal_restored initializer found first]
          refine ⟨rfl, fun none => ?_⟩
          rw [none]
          rfl
        · exact ⟨congrArg Definition.initializer same, fun _ => same⟩
      refine ⟨?_, fun none => ?_⟩
      · rw [List.map_cons, List.map_cons, initializers, here.1]
      · rw [here.2 none, unchanged none]

/-- A saved flag is that of a global with the name and an initializer. -/
lemma savedFlags_of {name : String} {flag : Bool} (e : savedFlags gs ds name = some flag) :
    ∃ (i : Nat) (g : Memory.GlobalVariable) (d : Definition Ty), gs[i]? = some g ∧ ds[i]? = some d ∧
      g.name = name ∧ d.initializer.isSome = true ∧ d.isThreadLocal = flag := by
  induction gs generalizing ds with
  | nil => cases e
  | cons g gs ih =>
    cases ds with
    | nil => cases e
    | cons d ds =>
      rw [savedFlags] at e
      cases later : savedFlags gs ds name with
      | some flag' =>
        simp only [later] at e
        cases e
        obtain ⟨i, rest⟩ := ih later
        exact ⟨i + 1, rest⟩
      | none =>
        simp only [later] at e
        split at e
        case isTrue here =>
          cases e
          obtain ⟨initialized, named⟩ := Bool.and_eq_true_iff.1 here
          exact ⟨0, g, d, rfl, rfl, beq_iff_eq.1 named, initialized, rfl⟩
        case isFalse => cases e

/-- Every global with an initializer has a saved flag under its name. -/
lemma savedFlags_isSome {i : Nat} (eg : gs[i]? = some g) (ed : ds[i]? = some d)
    (initialized : d.initializer.isSome = true) : ∃ flag, savedFlags gs ds g.name = some flag := by
  induction gs generalizing ds i with
  | nil => cases eg
  | cons g' gs ih =>
    cases ds with
    | nil => cases ed
    | cons d' ds =>
      rw [savedFlags]
      cases later : savedFlags gs ds g.name with
      | some flag => exact ⟨flag, by simp only [later]⟩
      | none =>
        cases i with
        | zero =>
          cases eg
          cases ed
          simp only [later, initialized, beq_self_eq_true, Bool.and_self, if_true]
          exact ⟨_, rfl⟩
        | succ i =>
          obtain ⟨flag, e⟩ := ih eg ed
          cases later.symm.trans e

/-- The bytes of one global. -/
lemma mem_globalCells_singleton : x ∈ globalCells T a [g] [d] ↔ ∃ init GA, d.initializer = some init ∧
    d.isThreadLocal = false ∧ Found a g GA ∧ x ∈ init.cells T GA := by
  constructor
  · rintro ⟨i, g', d', init, GA, e, e', rest⟩
    cases i with
    | zero =>
      cases e
      cases e'
      exact ⟨init, GA, rest⟩
    | succ => cases e
  · rintro ⟨init, GA, rest⟩
    exact ⟨0, g, d, init, GA, rfl, rfl, rest⟩

/-- The cells of one global and of those after it. -/
lemma mem_globalCells_cons : x ∈ globalCells T a [g] [d] ∪ globalCells T a gs ds ↔
    x ∈ globalCells T a (g :: gs) (d :: ds) := by
  constructor
  · rintro (here | ⟨i, g', d', later⟩)
    · obtain ⟨init, GA, rest⟩ := mem_globalCells_singleton.1 here
      exact ⟨0, g, d, init, GA, rfl, rfl, rest⟩
    · exact ⟨i + 1, g', d', later⟩
  · rintro ⟨i, g', d', init, GA, e, e', rest⟩
    cases i with
    | zero =>
      cases e
      cases e'
      exact .inl (mem_globalCells_singleton.2 ⟨init, GA, rest⟩)
    | succ i => exact .inr ⟨i, g', d', init, GA, e, e', rest⟩

/-- A global has one address. -/
lemma Found.unique {GA' : Nat} (found : Found a g GA) (found' : Found a g GA') : GA' = GA := by
  cases found.address.symm.trans found'.address
  rfl

/-- What `InitializeGlobals` does to the memory when there are no saved flags. -/
def initializeAgain (T : Target Ty GV) (E : Engine GV Mem) (a : Memory.MapAllocator)
    (value : Constant → Except Abort GV) (gs : List Memory.GlobalVariable) (ds : List (Definition Ty))
    (m : Bytes) : Except Abort Bytes :=
  (InitializeGlobals T E a value (fun _ => none) gs ds m).map Prod.snd

/-- Initializing a global writes its cells only. -/
lemma initializeGlobal_overwrites
    (e : initializeGlobal T E a value (fun _ => none) g d m = .ok (d1, m1)) :
    Overwrites (fun m => (initializeGlobal T E a value (fun _ => none) g d m).map Prod.snd)
      (globalCells T a [g] [d]) := by
  obtain ⟨init, GA, initializer, found⟩ | ⟨missing, _, skipped⟩ := initializeGlobal_cases e
  · have run : ∀ m, initializeGlobal T E a value (fun _ => none) g d m =
        if d.isThreadLocal then .ok (d, m)
        else (InitializeMemory T E value init GA m).map (d, ·) := by
      intro m
      exact initializeGlobal_found initializer found
    cases own : d.isThreadLocal with
    | true =>
      have nothing : (fun m => (initializeGlobal T E a value (fun _ => none) g d m).map Prod.snd) =
          fun m => .ok m := by
        funext m
        rw [run, own]
        rfl
      rw [nothing]
      refine (overwrites_ok fun _ => 0).congr fun x => ⟨nofun, fun mem => ?_⟩
      obtain ⟨_, _, _, own', _⟩ := mem_globalCells_singleton.1 mem
      cases own.symm.trans own'
    | false =>
      have memory : (fun m => (initializeGlobal T E a value (fun _ => none) g d m).map Prod.snd) =
          InitializeMemory T E value init GA := by
        funext m
        rw [run, own]
        cases InitializeMemory T E value init GA m with
        | error => rfl
        | ok => rfl
      obtain ⟨m2, written⟩ : ∃ m2, InitializeMemory T E value init GA m = .ok m2 := by
        cases written : InitializeMemory T E value init GA m with
        | ok m2 => exact ⟨m2, rfl⟩
        | error r =>
          rw [run, own, written] at e
          cases e
      rw [memory]
      refine (InitializeMemory_overwrites init written).congr fun x => ?_
      rw [mem_globalCells_singleton]
      constructor
      · exact fun inside => ⟨init, GA, initializer, own, found, inside⟩
      · rintro ⟨init', GA', initializer', _, found', inside⟩
        cases initializer.symm.trans initializer'
        rwa [found.unique found'] at inside
  · have nothing : (fun m => (initializeGlobal T E a value (fun _ => none) g d m).map Prod.snd) =
        fun m => .ok m := by
      funext m
      rw [skipped]
      rfl
    rw [nothing]
    refine (overwrites_ok fun _ => 0).congr fun x => ⟨nofun, fun mem => ?_⟩
    obtain ⟨init, GA, initializer, _, found, _⟩ := mem_globalCells_singleton.1 mem
    exact missing init GA initializer found

/-- Without saved flags `InitializeGlobals` overwrites the bytes of the globals that have a value. -/
lemma InitializeGlobals_overwrites
    (e : InitializeGlobals T E a value (fun _ => none) gs ds m = .ok (ds1, m1)) :
    Overwrites (initializeAgain T E a value gs ds) (globalCells T a gs ds) := by
  induction gs generalizing ds ds1 m m1 with
  | nil =>
    have nothing : initializeAgain T E a value [] ds = fun m => .ok m := by
      funext m
      cases ds <;> rfl
    rw [nothing]
    refine (overwrites_ok fun _ => 0).congr fun x => ⟨nofun, ?_⟩
    rintro ⟨i, g, d, init, GA, none, _⟩
    cases none
  | cons g gs ih =>
    cases ds with
    | nil =>
      refine (overwrites_ok fun _ => 0).congr fun x => ⟨nofun, ?_⟩
      rintro ⟨i, g, d, init, GA, _, none, _⟩
      cases none
    | cons d ds =>
      rw [InitializeGlobals] at e
      obtain ⟨⟨d1, m2⟩, first, e⟩ := bind_eq_ok.1 e
      obtain ⟨⟨ds2, m3⟩, later, e⟩ := bind_eq_ok.1 e
      have sequence : initializeAgain T E a value (g :: gs) (d :: ds) = fun m =>
          (initializeGlobal T E a value (fun _ => none) g d m).map Prod.snd >>=
            initializeAgain T E a value gs ds := by
        funext m
        rw [initializeAgain, InitializeGlobals]
        cases initializeGlobal T E a value (fun _ => none) g d m with
        | error => rfl
        | ok first =>
          show Except.map Prod.snd (InitializeGlobals T E a value (fun _ => none) gs ds first.2 >>= _) =
            (InitializeGlobals T E a value (fun _ => none) gs ds first.2).map Prod.snd
          cases InitializeGlobals T E a value (fun _ => none) gs ds first.2 with
          | error => rfl
          | ok => rfl
      rw [sequence]
      exact ((initializeGlobal_overwrites first).bind (ih later)).congr fun _ => mem_globalCells_cons

end Irx.Exec
