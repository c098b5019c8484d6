import Irx.Exec.Restart
import Irx.Lib.Layout

/-!
# Where an initializer is put

For an initializer that is a constant of its type, and a type below 4 GiB, the 32-bit element places are
the offsets of the data layout. `InitializeMemory` then puts every leaf at its offset and leaves all other
bytes as they were, undefined leaves and the padding of structures among them (`InitializeMemory_laid`).
A zero aggregate is a leaf as large as its type.
-/

namespace Irx.Exec
open Irx.Lib

/-- What a module says of its types: integers and pointers, arrays and vectors with an element type and a
count, where the elements of a vector have whole bytes, sequences of raw data with the number of their
bytes, and the elements of structures. -/
structure Types (Ty : Type) where
  isScalar : Ty → Prop
  isArray : Ty → Ty → Nat → Prop
  isVector : Ty → Ty → Nat → Prop
  isData : Ty → Nat → Prop
  elements : Ty → List Ty

section Layout

variable {Ty GV Mem : Type} (T : Target Ty GV) (E : Engine GV Mem) (Y : Types Ty)
variable (value : Constant → Except Abort GV)

/-- What LLVM's data layout promises. -/
structure Target.LaysOut (pointerWidth : Nat) : Prop where
  scalar : ∀ ty, Y.isScalar ty → T.isFirstClassType ty = true ∧
    T.storedSize ty = T.getTypeStoreSize ty ∧ T.getTypeStoreSize ty ≤ T.getTypeAllocSize ty
  pointer : ∀ ty, T.isPointerTy ty = true → T.getTypeStoreSize ty = pointerWidth
  array : ∀ ty elem count, Y.isArray ty elem count →
    T.getTypeAllocSize ty = count * T.getTypeAllocSize elem
  vector : ∀ ty elem count, Y.isVector ty elem count →
    count * T.getTypeAllocSize elem ≤ T.getTypeAllocSize ty
  data : ∀ ty size, Y.isData ty size → size ≤ T.getTypeAllocSize ty
  element : ∀ ty i e, (Y.elements ty)[i]? = some e →
    T.getElementOffset ty i + T.getTypeAllocSize e ≤ T.getTypeAllocSize ty
  ordered : ∀ ty i j e, (Y.elements ty)[i]? = some e → i < j → j < (Y.elements ty).length →
    T.getElementOffset ty i + T.getTypeAllocSize e ≤ T.getElementOffset ty j

/-- The initializer is a constant of the type. -/
inductive Typed : Init Ty → Ty → Prop where
  | undef {ty} : Typed .undef ty
  | aggregateZero {ty} : Typed (.aggregateZero ty) ty
  | dataSequential {bytes ty} : Y.isData ty bytes.length → Typed (.dataSequential bytes) ty
  | value {ty C} : Y.isScalar ty → Typed (.value ty C) ty
  | vector {elem operands ty} : Y.isVector ty elem operands.length →
    (∀ (i : Nat) (init : Init Ty), operands[i]? = some init → Typed init elem) →
    Typed (.vector elem operands) ty
  | array {elem operands ty} : Y.isArray ty elem operands.length →
    (∀ (i : Nat) (init : Init Ty), operands[i]? = some init → Typed init elem) →
    Typed (.array elem operands) ty
  | struct {ty operands} : operands.length = (Y.elements ty).length →
    (∀ (i : Nat) (init : Init Ty) (e : Ty), operands[i]? = some init →
      (Y.elements ty)[i]? = some e → Typed init e) →
    Typed (.struct ty operands) ty

/-- The parts of an initializer with their types, at the offsets of the data layout. -/
inductive Part : Init Ty → Ty → Nat → Init Ty → Ty → Prop where
  | whole {init ty} : Part init ty 0 init ty
  | vector {elem operands ty i init off part pty} : operands[i]? = some init →
    Part init elem off part pty →
    Part (.vector elem operands) ty (i * T.getTypeAllocSize elem + off) part pty
  | array {elem operands ty i init off part pty} : operands[i]? = some init →
    Part init elem off part pty →
    Part (.array elem operands) ty (i * T.getTypeAllocSize elem + off) part pty
  | struct {ty operands i init e off part pty} : operands[i]? = some init →
    (Y.elements ty)[i]? = some e → Part init e off part pty →
    Part (.struct ty operands) ty (T.getElementOffset ty i + off) part pty

/-- How many bytes a leaf defines. -/
def Init.leafSize : Init Ty → Nat
  | .aggregateZero ty => T.getTypeAllocSize ty
  | .dataSequential bytes => bytes.length
  | .value ty _ => T.getTypeStoreSize ty
  | _ => 0

/-- The bytes of a leaf stand at the address; an undefined leaf has left the bytes of its type. -/
def LeafAt (leaf : Init Ty) (ty : Ty) (Addr : Nat) (m m1 : Bytes) : Prop :=
  match leaf with
  | .undef => read m1 Addr (T.getTypeAllocSize ty) = read m Addr (T.getTypeAllocSize ty)
  | .aggregateZero ty => read m1 Addr (T.getTypeAllocSize ty) = List.replicate (T.getTypeAllocSize ty) 0
  | .dataSequential bytes => read m1 Addr bytes.length = bytes
  | .value ty C => ∃ Val, value C = .ok Val ∧
      read m1 Addr (T.getTypeStoreSize ty) = storedBytes T E Val ty
  | _ => True

/-- What is in the memory after a constant of a type was put at an address: nothing is written outside the
bytes of the type, every leaf stands at its offset, and all other bytes are as before. -/
structure Laid (init : Init Ty) (ty : Ty) (Addr : Nat) (m m1 : Bytes) : Prop where
  outside : ∀ x, x < Addr ∨ Addr + T.getTypeAllocSize ty ≤ x → m1 x = m x
  leaves : ∀ off part pty, Part T Y init ty off part pty → LeafAt T E value part pty (Addr + off) m m1
  rest : ∀ x, (∀ off part pty, Part T Y init ty off part pty →
    x < Addr + off ∨ Addr + off + part.leafSize T ≤ x) → m1 x = m x

end Layout

variable {Ty GV Mem : Type} {T : Target Ty GV} {E : Engine GV Mem} {Y : Types Ty}
variable {value : Constant → Except Abort GV} {width Addr off count i : Nat} {m m1 m2 m3 : Bytes}
variable {init part : Init Ty} {ty pty elem e : Ty} {operands : List (Init Ty)}

/-! ### Parts -/

/-- Below 4 GiB the 32-bit place of an element is its offset. -/
lemma elementPlace_eq (small : count * T.getTypeAllocSize elem < 4294967296) (lt : i < count) :
    elementPlace T elem i = i * T.getTypeAllocSize elem := by
  have pos : 1 ≤ count := by omega
  have one : T.getTypeAllocSize elem < 4294967296 :=
    (Nat.le_mul_of_pos_left _ pos).trans_lt small
  have all : i * T.getTypeAllocSize elem < 4294967296 :=
    (Nat.mul_le_mul_right _ lt.le).trans_lt small
  rw [elementPlace, Nat.mod_eq_of_lt one, Nat.mod_eq_of_lt all]

/-- A part lies inside the initializer. -/
lemma Part.inside (laysOut : T.LaysOut Y width) (typed : Typed Y init ty)
    (there : Part T Y init ty off part pty) :
    Typed Y part pty ∧ off + T.getTypeAllocSize pty ≤ T.getTypeAllocSize ty := by
  induction there with
  | whole => exact ⟨typed, by omega⟩
  | @vector elem operands ty i init off part pty operand _ ih =>
    cases typed with
    | vector isVector typed =>
      obtain ⟨typed', le⟩ := ih (typed i init operand)
      have lt := (List.getElem?_eq_some_iff.1 operand).1
      have fits := laysOut.vector _ _ _ isVector
      have before := part_end (T.getTypeAllocSize elem) lt
      exact ⟨typed', by omega⟩
  | @array elem operands ty i init off part pty operand _ ih =>
    cases typed with
    | array isArray typed =>
      obtain ⟨typed', le⟩ := ih (typed i init operand)
      have lt := (List.getElem?_eq_some_iff.1 operand).1
      have fits := laysOut.array _ _ _ isArray
      have before := part_end (T.getTypeAllocSize elem) lt
      exact ⟨typed', by omega⟩
  | @struct ty operands i init e off part pty operand element _ ih =>
    cases typed with
    | struct _ typed =>
      obtain ⟨typed', le⟩ := ih (typed i init e operand element)
      have fits := laysOut.element _ _ _ element
      exact ⟨typed', by omega⟩

/-- A leaf defines no more bytes than its type has. -/
lemma leafSize_le (laysOut : T.LaysOut Y width) (typed : Typed Y part pty) :
    part.leafSize T ≤ T.getTypeAllocSize pty := by
  cases typed with
  | undef => exact Nat.zero_le _
  | aggregateZero => exact le_rfl
  | dataSequential isData => exact laysOut.data _ _ isData
  | value scalar => exact (laysOut.scalar _ scalar).2.2
  | vector => exact Nat.zero_le _
  | array => exact Nat.zero_le _
  | struct => exact Nat.zero_le _

/-- A leaf looks at the bytes of its type only. -/
lemma LeafAt.congr (laysOut : T.LaysOut Y width) (typed : Typed Y part pty) {m' m1' : Bytes}
    (before : ∀ x, Addr ≤ x → x < Addr + T.getTypeAllocSize pty → m' x = m x)
    (after : ∀ x, Addr ≤ x → x < Addr + T.getTypeAllocSize pty → m1' x = m1 x)
    (leaf : LeafAt T E value part pty Addr m m1) : LeafAt T E value part pty Addr m' m1' := by
  have same : ∀ k ≤ T.getTypeAllocSize pty, read m1' Addr k = read m1 Addr k := by
    intro k le
    exact read_congr fun x lt => after _ (by omega) (by omega)
  have le := leafSize_le laysOut typed
  cases typed with
  | undef =>
    have old : read m' Addr (T.getTypeAllocSize pty) = read m Addr (T.getTypeAllocSize pty) :=
      read_congr fun x lt => before _ (by omega) (by omega)
    rw [LeafAt, same _ le_rfl, old]
    exact leaf
  | aggregateZero =>
    rw [LeafAt, same _ le_rfl]
    exact leaf
  | dataSequential => exact (same _ le).trans leaf
  | value =>
    obtain ⟨Val, evaluated, stored⟩ := leaf
    exact ⟨Val, evaluated, (same _ le).trans stored⟩
  | vector => trivial
  | array => trivial
  | struct => trivial

/-! ### The loop over the operands -/

/-- The operands have places of their own, one behind the other, and each writes inside its place only.
Then each is put there as if it were alone. -/
lemma InitializeOperands_laid (place size : Nat → Nat) {operands : List (Init Ty)} {i : Nat}
    {m m1 : Bytes} (ordered : ∀ j k, i ≤ j → j < k → k < i + operands.length →
      place j + size j ≤ place k)
    (own : ∀ (j : Nat) (init : Init Ty), operands[j]? = some init → ∀ m m1,
      InitializeMemory T E value init (place (i + j)) m = .ok m1 →
      ∀ x, x < place (i + j) ∨ place (i + j) + size (i + j) ≤ x → m1 x = m x)
    (ran : InitializeOperands T E value place i operands m = .ok m1) :
    (∀ x, (∀ j < operands.length, x < place (i + j) ∨ place (i + j) + size (i + j) ≤ x) →
      m1 x = m x) ∧
    ∀ (j : Nat) (init : Init Ty), operands[j]? = some init → ∃ m2 m3,
      InitializeMemory T E value init (place (i + j)) m2 = .ok m3 ∧
      ∀ x, place (i + j) ≤ x → x < place (i + j) + size (i + j) → m2 x = m x ∧ m1 x = m3 x := by
  induction operands generalizing i m with
  | nil =>
    cases ran
    exact ⟨fun _ _ => rfl, fun j init operand => by cases operand⟩
  | cons init operands ih =>
    rw [InitializeOperands] at ran
    obtain ⟨m2, first, later⟩ := bind_eq_ok.1 ran
    have shift : ∀ j, i + 1 + j = i + (j + 1) := fun j => by omega
    obtain ⟨outside, each⟩ := ih (i := i + 1)
      (fun j k le lt bound => ordered j k (by omega) lt (by rw [List.length_cons]; omega))
      (fun j init operand => by rw [shift]; exact own (j + 1) init operand) later
    have here := own 0 init rfl m m2 first
    refine ⟨fun x apart => ?_, fun j init' operand => ?_⟩
    · have behind := outside x fun j lt => by
        rw [shift]
        exact apart (j + 1) (Nat.succ_lt_succ lt)
      exact behind.trans (here x (apart 0 (Nat.succ_pos _)))
    · cases j with
      | zero =>
        cases operand
        refine ⟨m, m2, first, fun x lo hi => ⟨rfl, ?_⟩⟩
        refine outside x fun j lt => .inl ?_
        have before := ordered i (i + 1 + j) le_rfl (by omega) (by rw [List.length_cons]; omega)
        rw [Nat.add_zero] at hi
        omega
      | succ j =>
        obtain ⟨m3, m4, alone, same⟩ := each j init' operand
        have bound := (List.getElem?_eq_some_iff.1 operand).1
        rw [shift] at alone same
        refine ⟨m3, m4, alone, fun x lo hi => ⟨?_, (same x lo hi).2⟩⟩
        have before := ordered i (i + (j + 1)) le_rfl (by omega) (by omega)
        exact (same x lo hi).1.trans (here x (.inr (by rw [Nat.add_zero]; omega)))

/-- Operands that can be put somewhere can be put one after the other. -/
lemma InitializeOperands_ok {place : Nat → Nat}
    (each : ∀ (j : Nat) (init : Init Ty), operands[j]? = some init → ∀ Addr m,
      ∃ m1, InitializeMemory T E value init Addr m = .ok m1) :
    ∃ m1, InitializeOperands T E value place i operands m = .ok m1 := by
  induction operands generalizing i m with
  | nil => exact ⟨m, rfl⟩
  | cons init operands ih =>
    obtain ⟨m2, first⟩ := each 0 init rfl (place i) m
    obtain ⟨m1, later⟩ := ih (i := i + 1) (m := m2) fun j init operand => each (j + 1) init operand
    refine ⟨m1, ?_⟩
    rw [InitializeOperands]
    exact (bind_ok first _).trans later

/-! ### A whole initializer -/

/-- An aggregate whose operands have places of their own inside it is laid if its operands are. -/
lemma laid_of_operands (laysOut : T.LaysOut Y width) {whole : Init Ty} (types : Nat → Ty)
    {place : Nat → Nat} (typed : Typed Y whole ty)
    (within : ∀ j < operands.length, place j + T.getTypeAllocSize (types j) ≤ T.getTypeAllocSize ty)
    (ordered : ∀ j k, j < k → k < operands.length →
      place j + T.getTypeAllocSize (types j) ≤ place k)
    (parts : ∀ off part pty, Part T Y whole ty off part pty ↔
      (off = 0 ∧ part = whole ∧ pty = ty) ∨
        ∃ (j : Nat) (init : Init Ty) (off' : Nat), operands[j]? = some init ∧
          Part T Y init (types j) off' part pty ∧ off = place j + off')
    (composite : ∀ Addr m m1, LeafAt T E value whole ty Addr m m1)
    (each : ∀ (j : Nat) (init : Init Ty), operands[j]? = some init → Typed Y init (types j) ∧
      ∀ Addr m m1, InitializeMemory T E value init Addr m = .ok m1 →
        Laid T E Y value init (types j) Addr m m1)
    (ran : InitializeOperands T E value (Addr + place ·) 0 operands m = .ok m1) :
    Laid T E Y value whole ty Addr m m1 := by
  obtain ⟨outside, alone⟩ := InitializeOperands_laid
    (Addr + place ·) (fun j => T.getTypeAllocSize (types j)) (i := 0)
    (fun j k _ lt bound => by
      have := ordered j k lt (by omega)
      omega)
    (fun j init operand m m1 e => by
      rw [Nat.zero_add] at e ⊢
      exact ((each j init operand).2 _ m m1 e).outside) ran
  simp only [Nat.zero_add] at outside alone
  constructor
  case outside =>
    intro x out
    refine outside x fun j lt => ?_
    have := within j lt
    omega
  case leaves =>
    intro off part pty there
    obtain ⟨rfl, rfl, rfl⟩ | ⟨j, init, off', operand, there', rfl⟩ := (parts off part pty).1 there
    · exact composite _ m m1
    · obtain ⟨m2, m3, e, same⟩ := alone j init operand
      obtain ⟨typed', laid⟩ := each j init operand
      obtain ⟨leafTyped, inside⟩ := there'.inside laysOut typed'
      have leaf := (laid _ m2 m3 e).leaves off' part pty there'
      rw [Nat.add_assoc] at leaf
      refine leaf.congr laysOut leafTyped (fun x lo hi => ?_) (fun x lo hi => ?_)
      · exact (same x (by omega) (by omega)).1.symm
      · exact (same x (by omega) (by omega)).2
  case rest =>
    intro x none
    by_cases inside : ∃ j < operands.length, Addr + place j ≤ x ∧
        x < Addr + place j + T.getTypeAllocSize (types j)
    case neg =>
      refine outside x fun j lt => ?_
      by_contra both
      exact inside ⟨j, lt, by omega, by omega⟩
    case pos =>
      obtain ⟨j, lt, lo, hi⟩ := inside
      obtain ⟨m2, m3, e, same⟩ := alone j operands[j] (List.getElem?_eq_getElem lt)
      have laid := (each j operands[j] (List.getElem?_eq_getElem lt)).2 _ m2 m3 e
      rw [(same x lo hi).2, ← (same x lo hi).1]
      refine laid.rest x fun off part pty there => ?_
      have := none (place j + off) part pty
        ((parts _ _ _).2 (.inr ⟨j, operands[j], off, List.getElem?_eq_getElem lt, there, rfl⟩))
      rwa [← Nat.add_assoc] at this

/-- A leaf that is copied to its place. -/
lemma laid_of_write (laysOut : T.LaysOut Y width) (typed : Typed Y init ty) {l : List UInt8}
    (length : l.length = init.leafSize T)
    (only : ∀ off part pty, Part T Y init ty off part pty → off = 0 ∧ part = init ∧ pty = ty)
    (leaf : LeafAt T E value init ty Addr m (write m Addr l)) :
    Laid T E Y value init ty Addr m (write m Addr l) := by
  have le := leafSize_le laysOut typed
  constructor
  case outside =>
    intro x out
    refine write_outside ?_
    omega
  case leaves =>
    intro off part pty there
    obtain ⟨rfl, rfl, rfl⟩ := only off part pty there
    exact leaf
  case rest =>
    intro x none
    have out := none 0 init ty .whole
    refine write_outside ?_
    rwa [length]

/-- What was written is read. -/
lemma read_write_length {l : List UInt8} {k : Nat} (length : l.length = k) :
    read (write m Addr l) Addr k = l := by
  rw [← length]
  exact read_write m Addr l

/-- A scalar is stored in its store size. -/
lemma length_storedBytes_scalar (laysOut : T.LaysOut Y width) (scalar : Y.isScalar ty) (Val : GV) :
    (storedBytes T E Val ty).length = T.getTypeStoreSize ty := by
  rw [length_storedBytes, Target.storedBytes, (laysOut.scalar ty scalar).2.1, ite_self]

/-- Elements of one type that fit into the whole, one behind the other. -/
lemma laid_of_elements (laysOut : T.LaysOut Y width) {whole : Init Ty} (typed : Typed Y whole ty)
    (fits : operands.length * T.getTypeAllocSize elem ≤ T.getTypeAllocSize ty)
    (small : T.getTypeAllocSize ty < 4294967296)
    (parts : ∀ off part pty, Part T Y whole ty off part pty ↔
      (off = 0 ∧ part = whole ∧ pty = ty) ∨
        ∃ (j : Nat) (init : Init Ty) (off' : Nat), operands[j]? = some init ∧
          Part T Y init elem off' part pty ∧ off = j * T.getTypeAllocSize elem + off')
    (composite : ∀ Addr m m1, LeafAt T E value whole ty Addr m m1)
    (each : ∀ (j : Nat) (init : Init Ty), operands[j]? = some init → Typed Y init elem ∧
      (T.getTypeAllocSize elem < 4294967296 → ∀ Addr m m1,
        InitializeMemory T E value init Addr m = .ok m1 → Laid T E Y value init elem Addr m m1))
    (ran : InitializeOperands T E value (Addr + elementPlace T elem ·) 0 operands m = .ok m1) :
    Laid T E Y value whole ty Addr m m1 := by
  have all : operands.length * T.getTypeAllocSize elem < 4294967296 := fits.trans_lt small
  have place : ∀ j < operands.length, elementPlace T elem j = j * T.getTypeAllocSize elem :=
    fun j lt => elementPlace_eq all lt
  have there : ∀ (j : Nat) (init : Init Ty), operands[j]? = some init →
      elementPlace T elem j = j * T.getTypeAllocSize elem :=
    fun j init operand => place j (List.getElem?_eq_some_iff.1 operand).1
  refine laid_of_operands laysOut (fun _ => elem) typed ?_ ?_ ?_ composite ?_ ran
  · intro j lt
    rw [place j lt]
    exact (part_end _ lt).trans fits
  · intro j k lt bound
    rw [place j (by omega), place k bound]
    exact part_end _ lt
  · intro off part pty
    rw [parts]
    refine or_congr_right (exists_congr fun j => exists_congr fun init => exists_congr fun off' => ?_)
    refine and_congr_right fun operand => ?_
    rw [there j init operand]
  · intro j init operand
    have lt := (List.getElem?_eq_some_iff.1 operand).1
    have one : T.getTypeAllocSize elem < 4294967296 :=
      (Nat.le_mul_of_pos_left _ (by omega)).trans_lt all
    exact ⟨(each j init operand).1, (each j init operand).2 one⟩

/-- A constant of a type below 4 GiB is laid. -/
lemma laid_of_typed (laysOut : T.LaysOut Y width) (typed : Typed Y init ty)
    (small : T.getTypeAllocSize ty < 4294967296)
    (ran : InitializeMemory T E value init Addr m = .ok m1) :
    Laid T E Y value init ty Addr m m1 := by
  induction typed generalizing Addr m m1 with
  | @undef ty =>
    cases ran
    refine ⟨fun _ _ => rfl, fun off part pty there => ?_, fun _ _ => rfl⟩
    cases there
    exact rfl
  | @aggregateZero ty =>
    cases ran
    refine laid_of_write laysOut .aggregateZero List.length_replicate (fun off part pty there => ?_) ?_
    · cases there
      exact ⟨rfl, rfl, rfl⟩
    · exact read_write_length List.length_replicate
  | @dataSequential bytes ty isData =>
    cases ran
    refine laid_of_write laysOut (.dataSequential isData) rfl (fun off part pty there => ?_) ?_
    · cases there
      exact ⟨rfl, rfl, rfl⟩
    · exact read_write_length rfl
  | @value ty C scalar =>
    rw [InitializeMemory, if_pos (laysOut.scalar ty scalar).1] at ran
    obtain ⟨Val, evaluated, e⟩ := bind_eq_ok.1 ran
    cases e
    have length := length_storedBytes_scalar (E := E) laysOut scalar Val
    refine laid_of_write laysOut (.value scalar) length (fun off part pty there => ?_) ?_
    · cases there
      exact ⟨rfl, rfl, rfl⟩
    · exact ⟨Val, evaluated, read_write_length length⟩
  | @vector elem operands ty isVector typed ih =>
    refine laid_of_elements laysOut (.vector isVector typed) (laysOut.vector _ _ _ isVector) small
      (fun off part pty => ⟨fun there => ?_, ?_⟩) (fun _ _ _ => trivial)
      (fun j init operand => ⟨typed j init operand, fun one Addr m m1 => ih j init operand one⟩) ran
    · cases there with
      | whole => exact .inl ⟨rfl, rfl, rfl⟩
      | vector operand there => exact .inr ⟨_, _, _, operand, there, rfl⟩
    · rintro (⟨rfl, rfl, rfl⟩ | ⟨j, init, off', operand, there, rfl⟩)
      · exact .whole
      · exact .vector operand there
  | @array elem operands ty isArray typed ih =>
    refine laid_of_elements laysOut (.array isArray typed) (laysOut.array _ _ _ isArray).ge small
      (fun off part pty => ⟨fun there => ?_, ?_⟩) (fun _ _ _ => trivial)
      (fun j init operand => ⟨typed j init operand, fun one Addr m m1 => ih j init operand one⟩) ran
    · cases there with
      | whole => exact .inl ⟨rfl, rfl, rfl⟩
      | array operand there => exact .inr ⟨_, _, _, operand, there, rfl⟩
    · rintro (⟨rfl, rfl, rfl⟩ | ⟨j, init, off', operand, there, rfl⟩)
      · exact .whole
      · exact .array operand there
  | @struct ty operands length typed ih =>
    have element : ∀ j < operands.length,
        (Y.elements ty)[j]? = some (((Y.elements ty)[j]?).getD ty) := by
      intro j lt
      rw [List.getElem?_eq_getElem (length ▸ lt)]
      rfl
    refine laid_of_operands laysOut (fun j => ((Y.elements ty)[j]?).getD ty)
      (.struct length typed) ?_ ?_ ?_ (fun _ _ _ => trivial) ?_ ran
    · exact fun j lt => laysOut.element _ _ _ (element j lt)
    · exact fun j k lt bound => laysOut.ordered _ _ _ _ (element j (by omega)) lt (length ▸ bound)
    · intro off part pty
      constructor
      · intro there
        cases there with
        | whole => exact .inl ⟨rfl, rfl, rfl⟩
        | @struct _ _ i init e off' _ _ operand elem there =>
          refine .inr ⟨i, init, off', operand, ?_, rfl⟩
          rw [elem]
          exact there
      · rintro (⟨rfl, rfl, rfl⟩ | ⟨j, init, off', operand, there, rfl⟩)
        · exact .whole
        · exact .struct operand (element j (List.getElem?_eq_some_iff.1 operand).1) there
    · intro j init operand
      have elem := element j (List.getElem?_eq_some_iff.1 operand).1
      have one := (Nat.le_add_left _ _).trans_lt ((laysOut.element _ _ _ elem).trans_lt small)
      exact ⟨typed j init _ operand elem, fun Addr m m1 => ih j init _ operand elem one⟩

/-- If the scalars of a constant have values, it can be put anywhere. -/
lemma ok_of_typed (laysOut : T.LaysOut Y width) (typed : Typed Y init ty)
    (values : ∀ off scalar C pty, Part T Y init ty off (.value scalar C) pty →
      ∃ Val, value C = .ok Val) (Addr : Nat) (m : Bytes) :
    ∃ m1, InitializeMemory T E value init Addr m = .ok m1 := by
  induction typed generalizing Addr m with
  | undef => exact ⟨_, rfl⟩
  | aggregateZero => exact ⟨_, rfl⟩
  | dataSequential => exact ⟨_, rfl⟩
  | @value ty C scalar =>
    obtain ⟨Val, evaluated⟩ := values 0 ty C ty .whole
    rw [InitializeMemory, if_pos (laysOut.scalar ty scalar).1]
    exact ⟨_, bind_ok evaluated _⟩
  | vector _ _ ih =>
    refine InitializeOperands_ok fun j init operand => ih j init operand ?_
    exact fun off scalar C pty there => values _ scalar C pty (.vector operand there)
  | array _ _ ih =>
    refine InitializeOperands_ok fun j init operand => ih j init operand ?_
    exact fun off scalar C pty there => values _ scalar C pty (.array operand there)
  | @struct ty operands length _ ih =>
    refine InitializeOperands_ok fun j init operand => ?_
    have lt := (List.getElem?_eq_some_iff.1 operand).1
    have elem := List.getElem?_eq_getElem (length ▸ lt)
    refine ih j init _ operand elem ?_
    exact fun off scalar C pty there => values _ scalar C pty (.struct operand elem there)

/-- For every constant of a type below 4 GiB and every address, `InitializeMemory` ends if the scalars have
values, and when it ends nothing outside the bytes of the type is written, every leaf stands at its offset,
pointers in the width of the target, and undefined leaves and all bytes of no leaf are as before. -/
theorem InitializeMemory_laid {Ty GV Mem : Type} {T : Target Ty GV} {E : Engine GV Mem} {Y : Types Ty}
    {value : Constant → Except Abort GV} {width : Nat} {init : Init Ty} {ty : Ty}
    (laysOut : T.LaysOut Y width) (typed : Typed Y init ty)
    (small : T.getTypeAllocSize ty < 4294967296) (Addr : Nat) (m : Bytes) :
    ((∀ off scalar C pty, Part T Y init ty off (.value scalar C) pty → ∃ Val, value C = .ok Val) →
      ∃ m1, InitializeMemory T E value init Addr m = .ok m1) ∧
    (∀ m1, InitializeMemory T E value init Addr m = .ok m1 → Laid T E Y value init ty Addr m m1) ∧
    ∀ off scalar C pty, Part T Y init ty off (.value scalar C) pty → T.isPointerTy scalar = true →
      (Init.value scalar C).leafSize T = width := by
  refine ⟨fun values => ok_of_typed laysOut typed values Addr m, fun m1 ran => ?_, ?_⟩
  · exact laid_of_typed laysOut typed small ran
  · exact fun _ scalar _ _ _ pointer => laysOut.pointer scalar pointer

/-- A byte, a pointer of a 32-bit target, both with padding between them, and two of these. -/
inductive PairType where
  | byte
  | pointer
  | pair
  | pairs
  deriving DecidableEq

/-- The sizes of the types. -/
def PairType.size : PairType → Nat
  | .byte => 1
  | .pointer => 4
  | .pair => 8
  | .pairs => 16

/-- The target with these sizes. -/
def pairTarget : Target PairType Nat where
  getTypeAllocSize := PairType.size
  getTypeStoreSize := PairType.size
  getElementOffset := fun _ i => 4 * i
  isArrayTy := fun ty => ty = .pairs
  isPointerTy := fun ty => ty = .pointer
  isFirstClassType := fun _ => true
  isGetElementPtr := fun _ => false
  accumulateConstantOffset := fun _ _ => 0
  storedSize := PairType.size
  StoreValueToMemory := fun Val ty => ⟨littleEndian ty.size Val, length_littleEndian _ _⟩

/-- What LLVM says of the types. -/
def pairTypes : Types PairType where
  isScalar := fun ty => ty = .byte ∨ ty = .pointer
  isArray := fun ty elem count => ty = .pairs ∧ elem = .pair ∧ count = 2
  isVector := fun _ _ _ => False
  isData := fun _ _ => False
  elements := fun ty => if ty = .pair then [.byte, .pointer] else []

/-- The target lays the types out. -/
lemma pair_laysOut : pairTarget.LaysOut pairTypes 4 where
  scalar ty _ := ⟨rfl, rfl, le_rfl⟩
  pointer ty pointer := by
    cases of_decide_eq_true pointer
    rfl
  array ty elem count isArray := by
    obtain ⟨rfl, rfl, rfl⟩ := isArray
    rfl
  vector ty elem count isVector := isVector.elim
  data ty size isData := isData.elim
  element ty i e element := by
    cases ty with
    | pair =>
      rcases i with _ | _ | i
      · cases element
        decide
      · cases element
        decide
      · cases element
    | byte => cases element
    | pointer => cases element
    | pairs => cases element
  ordered ty i j e element lt bound := by
    cases ty with
    | pair =>
      obtain ⟨rfl, rfl⟩ : i = 0 ∧ j = 1 := by
        have two : (pairTypes.elements .pair).length = 2 := rfl
        omega
      cases element
      decide
    | byte => cases bound
    | pointer => cases bound
    | pairs => cases bound

/-- A byte and a pointer, and an undefined pair behind them. -/
def pairInit : Init PairType :=
  .array .pair [.struct .pair [.value .byte (.plain "kind"), .value .pointer (.plain "next")], .undef]

/-- The initializer has its type. -/
lemma pairInit_typed : Typed pairTypes pairInit .pairs := by
  refine .array ⟨rfl, rfl, rfl⟩ fun i init operand => ?_
  rcases i with _ | _ | i
  · cases operand
    refine .struct rfl fun i init e operand element => ?_
    rcases i with _ | _ | i
    · cases operand
      cases element
      exact .value (.inl rfl)
    · cases operand
      cases element
      exact .value (.inr rfl)
    · cases operand
  · cases operand
    exact .undef
  · cases operand

/-- The pointer stands at offset 4, and nothing is written before the pairs. -/
theorem InitializeMemory_laid_pair : ∃ m1,
    InitializeMemory pairTarget dlistEngine (fun _ => .ok 0x50000124) pairInit 0x1000 (fun _ => 7) =
      .ok m1 ∧ m1 0xfff = 7 ∧ read m1 (0x1000 + 4) 4 = littleEndian 4 0x50000124 := by
  have laid := @InitializeMemory_laid _ _ _ _ dlistEngine _ (fun _ => .ok 0x50000124) _ _ _
    pair_laysOut pairInit_typed (by decide) 0x1000 fun _ => 7
  obtain ⟨m1, ran⟩ := laid.1 fun _ _ _ _ _ => ⟨_, rfl⟩
  have placed := laid.2.1 m1 ran
  have pointer : Part pairTarget pairTypes pairInit .pairs (0 * 8 + (4 * 1 + 0))
      (.value .pointer (.plain "next")) .pointer :=
    .array (i := 0) rfl (.struct (i := 1) rfl rfl .whole)
  obtain ⟨Val, evaluated, bytes⟩ := placed.leaves _ _ _ pointer
  cases evaluated
  exact ⟨m1, ran, placed.outside _ (.inl (by decide)), bytes⟩

end Irx.Exec
