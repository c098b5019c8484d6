import Mathlib

/-!
# Types of a code generator and their layout

A type is a scalar, a pointer, an array or a structure given by its elements. A `DataLayout` fixes
sizes, alignments and element offsets; nothing is assumed of it but that a structure starts with its
first element. `walk` follows a list of indices into a type and sums the offsets. A way pairs indices with
the offsets that parts are meant to have, each in the part before it; `Shift` goes down a type along a way
and compares element by element (`shift_iff`). `natural` is the layout of a 64-bit machine, for examples.
-/

namespace Irx.Lib

/-- A type of the code generator. -/
inductive LType where
  | scalar (bits : Nat)
  | pointer
  | array (count : Nat) (elem : LType)
  | struct (elems : List LType)

/-- Sizes and alignments in bytes, element offsets of structures, and the elements put behind the
member of a union that is kept. -/
structure DataLayout where
  elementOffset : List LType → Nat → Nat
  allocSize : LType → Nat
  abiAlign : LType → Nat
  padding : List LType → List LType
  first : ∀ ts, elementOffset ts 0 = 0

/-- The offset that a list of indices has in a type, if each index applies. Arrays are not checked
for their bound. -/
def walk (D : DataLayout) : LType → List Nat → Option Nat
  | _, [] => some 0
  | .struct ts, i :: is =>
    match ts[i]? with
    | none => none
    | some t => (walk D t is).map (D.elementOffset ts i + ·)
  | .array _ t, i :: is => (walk D t is).map (i * D.allocSize t + ·)
  | .scalar _, _ :: _ => none
  | .pointer, _ :: _ => none

/-- Along a way of indices and meant offsets in bits, what the elements start behind the parts in sum. -/
inductive Shift (D : DataLayout) : LType → List (Nat × Nat) → Int → Prop where
  | here (t) : Shift D t [] 0
  | struct {ts i t off way d} :
    ts[i]? = some t → Shift D t way d →
    Shift D (.struct ts) ((i, off) :: way) ((8 * D.elementOffset ts i : Nat) - (off : Int) + d)
  | array {n t i off way d} :
    Shift D t way d →
    Shift D (.array n t) ((i, off) :: way) ((8 * (i * D.allocSize t) : Nat) - (off : Int) + d)

/-- The shift as 64-bit arithmetic sees it. -/
def Shifted (D : DataLayout) (t : LType) (way : List (Nat × Nat)) (d : Int) : Prop :=
  ∃ d', Shift D t way d' ∧ (2 ^ 64 : Int) ∣ d' - d

/-- The member of a union that the structure for it keeps: the most aligned, among these the largest,
among these the first. -/
def DataLayout.kept (D : DataLayout) : List LType → Option LType
  | [] => none
  | t :: ts => some (ts.foldl (fun best t =>
      if D.abiAlign best < D.abiAlign t then t
      else if D.abiAlign best = D.abiAlign t ∧ D.allocSize best < D.allocSize t then t
      else best) t)

/-- The structure that stands for a union. -/
def DataLayout.unionOf (D : DataLayout) (ts : List LType) : LType :=
  match D.kept ts with
  | none => .struct []
  | some t => .struct (t :: D.padding ts)

variable {D : DataLayout} {ts : List LType} {t : LType} {i : Nat} {is : List Nat}

/-- The `i`-th element ends before the end of all and before a later one starts. -/
lemma part_end {j : Nat} (size : Nat) (lt : i < j) : i * size + size ≤ j * size := by
  have le := Nat.mul_le_mul_right size (Nat.succ_le_of_lt lt)
  rwa [Nat.succ_mul] at le

/-- No index leads nowhere else. -/
@[simp] lemma walk_nil : walk D t [] = some 0 := by
  cases t <;> rfl

/-- An index into a structure leads behind the elements before it. -/
lemma walk_struct (e : ts[i]? = some t) :
    walk D (.struct ts) (i :: is) = (walk D t is).map (D.elementOffset ts i + ·) := by
  rw [walk, e]

/-- The first index into a union leads to the element that is kept. -/
lemma walk_unionOf (e : D.kept ts = some t) : walk D (D.unionOf ts) (0 :: is) = walk D t is := by
  rw [DataLayout.unionOf, e, walk_struct rfl, D.first]
  cases walk D t is with
  | none => rfl
  | some off => exact congrArg some (Nat.zero_add off)

/-- Of a union with a member, one is kept. -/
lemma DataLayout.kept_of_mem (mem : t ∈ ts) : ∃ k, D.kept ts = some k := by
  cases ts with
  | nil => cases mem
  | cons => exact ⟨_, rfl⟩

/-! ### Side by side -/

section Shift

variable {way : List (Nat × Nat)} {off n : Nat} {d : Int}

/-- The elements that the indices lead to start where they start in sum. -/
lemma shift_iff : Shift D t way d ↔
    ∃ o, walk D t (way.map Prod.fst) = some o ∧ d = 8 * (o : Int) - (way.map Prod.snd).sum := by
  constructor
  · intro shift
    induction shift with
    | here => exact ⟨0, walk_nil, rfl⟩
    | @struct ts i t off way d e _ ih =>
      obtain ⟨o, walked, rfl⟩ := ih
      refine ⟨D.elementOffset ts i + o, ?_, ?_⟩
      · rw [List.map_cons, walk_struct e, walked]
        rfl
      · rw [List.map_cons, List.sum_cons]
        push_cast
        ring
    | @array n t i off way d _ ih =>
      obtain ⟨o, walked, rfl⟩ := ih
      refine ⟨i * D.allocSize t + o, ?_, ?_⟩
      · rw [List.map_cons, walk, walked]
        rfl
      · rw [List.map_cons, List.sum_cons]
        push_cast
        ring
  · rintro ⟨o, walked, rfl⟩
    induction way generalizing t o with
    | nil =>
      cases (walk_nil (D := D) (t := t)).symm.trans walked
      exact .here t
    | cons part way ih =>
      obtain ⟨i, off⟩ := part
      rw [List.map_cons] at walked
      cases t with
      | struct ts =>
        rw [walk] at walked
        cases e : ts[i]? with
        | none =>
          rw [e] at walked
          cases walked
        | some t =>
          simp only [e] at walked
          obtain ⟨o', walked', rfl⟩ := Option.map_eq_some_iff.1 walked
          have shift : Shift D (.struct ts) ((i, off) :: way) _ := .struct e (ih _ walked')
          rw [List.map_cons, List.sum_cons]
          convert shift using 1
          push_cast
          ring
      | array n t =>
        rw [walk] at walked
        obtain ⟨o', walked', rfl⟩ := Option.map_eq_some_iff.1 walked
        have shift : Shift D (.array n t) ((i, off) :: way) _ := .array (ih _ walked')
        rw [List.map_cons, List.sum_cons]
        convert shift using 1
        push_cast
        ring
      | scalar => cases walked
      | pointer => cases walked

/-- A way is shifted by the difference of its two offsets. -/
lemma shifted_iff : Shifted D t way d ↔ ∃ o, walk D t (way.map Prod.fst) = some o ∧
    (2 ^ 64 : Int) ∣ 8 * (o : Int) - (way.map Prod.snd).sum - d := by
  constructor
  · rintro ⟨d', shift, divides⟩
    obtain ⟨o, walked, rfl⟩ := shift_iff.1 shift
    exact ⟨o, walked, divides⟩
  · rintro ⟨o, walked, divides⟩
    exact ⟨_, shift_iff.2 ⟨o, walked, rfl⟩, divides⟩

/-- An element that starts where the part is meant to start does not count. -/
lemma shifted_struct (e : ts[i]? = some t) :
    Shifted D (.struct ts) ((i, 8 * D.elementOffset ts i) :: way) d ↔ Shifted D t way d := by
  constructor
  · rintro ⟨d', shift, divides⟩
    cases shift with
    | struct e' shift =>
      cases e.symm.trans e'
      rw [sub_self, zero_add] at divides
      exact ⟨_, shift, divides⟩
  · rintro ⟨d', shift, divides⟩
    refine ⟨_, .struct e shift, ?_⟩
    rwa [sub_self, zero_add]

/-- An item of an array is not shifted. -/
lemma shifted_array : Shifted D (.array n t) ((i, 8 * (i * D.allocSize t)) :: way) d ↔
    Shifted D t way d := by
  constructor
  · rintro ⟨d', shift, divides⟩
    cases shift with
    | array shift =>
      rw [sub_self, zero_add] at divides
      exact ⟨_, shift, divides⟩
  · rintro ⟨d', shift, divides⟩
    refine ⟨_, .array shift, ?_⟩
    rwa [sub_self, zero_add]

/-- No step is not shifted. -/
lemma shifted_nil : Shifted D t [] 0 := ⟨0, .here t, by simp⟩

/-- The first element of a structure is where the structure is. -/
lemma shifted_first (e : ts[0]? = some t) :
    Shifted D (.struct ts) ((0, 0) :: way) d ↔ Shifted D t way d := by
  have same : Shifted D (.struct ts) ((0, 8 * D.elementOffset ts 0) :: way) d ↔ Shifted D t way d :=
    shifted_struct e
  rwa [D.first] at same

end Shift

/-! ### The natural layout -/

/-- The least multiple of `a` from `n` on. -/
def roundUp (n a : Nat) : Nat := (n + a - 1) / a * a

mutual

/-- Scalars are aligned to their size. -/
def LType.naturalAlign : LType → Nat
  | .scalar bits => (bits + 7) / 8
  | .pointer => 8
  | .array _ t => t.naturalAlign
  | .struct ts => LType.naturalAligns ts

/-- A structure is as aligned as its most aligned element. -/
def LType.naturalAligns : List LType → Nat
  | [] => 1
  | t :: ts => max t.naturalAlign (LType.naturalAligns ts)

end

mutual

/-- The size with the padding at the end. -/
def LType.naturalSize : LType → Nat
  | .scalar bits => (bits + 7) / 8
  | .pointer => 8
  | .array n t => n * t.naturalSize
  | .struct ts => roundUp (LType.naturalEnd ts 0) (LType.naturalAligns ts)

/-- Where elements placed from `off` on end. -/
def LType.naturalEnd : List LType → Nat → Nat
  | [], off => off
  | t :: ts, off => LType.naturalEnd ts (roundUp off t.naturalAlign + t.naturalSize)

end

/-- Each element at the next offset of its alignment. -/
def DataLayout.natural : DataLayout where
  elementOffset := fun ts i => roundUp (LType.naturalEnd (ts.take i) 0)
    ((ts[i]?.map LType.naturalAlign).getD 1)
  allocSize := LType.naturalSize
  abiAlign := LType.naturalAlign
  padding := fun _ => []
  first := by
    intro ts
    show (0 + _ - 1) / _ * _ = 0
    cases (ts[0]?.map LType.naturalAlign).getD 1 with
    | zero => rfl
    | succ a => rw [Nat.div_eq_of_lt (by omega), Nat.zero_mul]

end Irx.Lib
