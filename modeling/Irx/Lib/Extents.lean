import Irx.Lib.CTypes

/-!
# The extent of a member

`DataLayout.Lawful` is what a code generator promises of its layout: elements of a structure lie
inside it one behind the other, an array is as large as its elements, and values fit. From that the
extents of a union-free type follow: the target of a chain of selections lies inside the type
(`Along.inside`), and two chains that part have targets without a common byte (`Along.apart`).
-/

namespace Irx.Lib

/-- Elements do not overlap and lie inside their structure or array; scalars have their bits. -/
structure DataLayout.Lawful (D : DataLayout) : Prop where
  scalar_pos : ∀ bits, 0 < D.allocSize (.scalar bits)
  scalar : ∀ bits, bits ≤ 8 * D.allocSize (.scalar bits)
  pointer_pos : 0 < D.allocSize .pointer
  array : ∀ n t, D.allocSize (.array n t) = n * D.allocSize t
  element : ∀ ts i t, ts[i]? = some t →
    D.elementOffset ts i + D.allocSize t ≤ D.allocSize (.struct ts)
  apart : ∀ ts i j t t', i < j → ts[i]? = some t → ts[j]? = some t' →
    D.elementOffset ts i + D.allocSize t ≤ D.elementOffset ts j

/-- A basic type or a pointer. -/
def CType.IsLeaf (c : CType) : Prop :=
  match c.strip with
  | .basic _ _ => True
  | .pointer => True
  | _ => False

/-- The bytes of a value of a basic or pointer type. -/
def CType.valueSize (D : DataLayout) (c : CType) : Nat :=
  match c.strip with
  | .basic _ bits => bits / 8
  | .pointer => D.allocSize .pointer
  | _ => 0

/-- Two chains part: none continues the other. -/
def Part (steps later : List Selection) : Prop := ¬ steps <+: later ∧ ¬ later <+: steps

variable {D : DataLayout} {c t t' next : CType} {steps later : List Selection}

/-- A leaf has a byte, and its value fits. -/
lemma CType.IsLeaf.sizes (lawful : D.Lawful) (leaf : t.IsLeaf) :
    t.valueSize D ≤ D.allocSize (t.lower D) ∧ 0 < D.allocSize (t.lower D) := by
  rw [← CType.lower_strip, CType.valueSize]
  rw [CType.IsLeaf] at leaf
  cases strip : t.strip with
  | basic name bits =>
    have := lawful.scalar bits
    exact ⟨Nat.div_le_of_le_mul this, lawful.scalar_pos bits⟩
  | pointer => exact ⟨le_rfl, lawful.pointer_pos⟩
  | typedef => simp only [strip] at leaf
  | struct => simp only [strip] at leaf
  | union => simp only [strip] at leaf
  | array => simp only [strip] at leaf

/-- A selection outside unions lies inside its container. -/
lemma contribution_inside (lawful : D.Lawful) {whole : CType} {i : Nat}
    (child : child? (whole, i) = some next) (free : whole.unionFree = true) :
    contribution D (whole, i) + D.allocSize (next.lower D) ≤ D.allocSize (whole.lower D) := by
  cases whole with
  | struct name fields =>
    apply lawful.element
    rw [Fields.lower_getElem?]
    exact congrArg _ child
  | array elem count =>
    obtain ⟨lt, rfl⟩ := child?_array child
    have le := Nat.mul_le_mul_right (D.allocSize (elem.lower D)) (Nat.succ_le_of_lt lt)
    rw [CType.lower, lawful.array, contribution, ← Nat.succ_mul]
    exact le
  | union => cases free
  | basic => cases child
  | pointer => cases child
  | typedef => cases child

/-- Of two selections in one container the lower one ends before the other. -/
lemma contribution_apart (lawful : D.Lawful) {whole next' : CType} {i j : Nat}
    (child : child? (whole, i) = some next) (child' : child? (whole, j) = some next')
    (free : whole.unionFree = true) (lt : i < j) :
    contribution D (whole, i) + D.allocSize (next.lower D) ≤ contribution D (whole, j) := by
  cases whole with
  | struct name fields =>
    have element : ∀ {k ty}, fields.get? k = some ty → (fields.lower D)[k]? = some (ty.lower D) :=
      fun e => (Fields.lower_getElem? _ _).trans (congrArg _ e)
    exact lawful.apart _ _ _ _ _ lt (element child) (element child')
  | array elem count =>
    obtain ⟨_, rfl⟩ := child?_array child
    have le := Nat.mul_le_mul_right (D.allocSize (elem.lower D)) (Nat.succ_le_of_lt lt)
    rw [contribution, contribution, ← Nat.succ_mul]
    exact le
  | union => cases free
  | basic => cases child
  | pointer => cases child
  | typedef => cases child

/-- What is selected in a union-free container is union-free. -/
lemma unionFree_child {whole : CType} {i : Nat} (child : child? (whole, i) = some next)
    (free : whole.unionFree = true) : next.unionFree = true := by
  cases whole with
  | struct name fields => exact Fields.unionFree_get? free child
  | array elem count =>
    obtain ⟨_, rfl⟩ := child?_array child
    exact free
  | union => cases free
  | basic => cases child
  | pointer => cases child
  | typedef => cases child

/-- A selection more adds what it contributes. -/
lemma offset_cons (sel : Selection) :
    offset D (sel :: steps) = contribution D sel + offset D steps := by
  rw [offset, List.map_cons, List.sum_cons, offset]

namespace Along

/-- The target of a chain lies inside the type. -/
lemma inside (lawful : D.Lawful) (along : Along c steps t) (free : c.unionFree = true) :
    offset D steps + D.allocSize (t.lower D) ≤ D.allocSize (c.lower D) := by
  induction along with
  | nil => exact (Nat.zero_add _).le
  | @cons c whole i next steps t strip child _ ih =>
    rw [← CType.unionFree_strip, strip] at free
    have below := ih (unionFree_child child free)
    have here := contribution_inside lawful child free
    rw [← CType.lower_strip (c := c), strip, offset_cons]
    omega

/-- Chains that part have targets that do not overlap. -/
lemma apart (lawful : D.Lawful) (along : Along c steps t) (along' : Along c later t')
    (free : c.unionFree = true) (part : Part steps later) :
    offset D steps + D.allocSize (t.lower D) ≤ offset D later ∨
      offset D later + D.allocSize (t'.lower D) ≤ offset D steps := by
  induction along generalizing later with
  | nil => exact absurd List.nil_prefix part.1
  | @cons c whole i next steps t strip child along ih =>
    cases along' with
    | nil => exact absurd List.nil_prefix part.2
    | @cons _ whole' j next' later _ strip' child' along' =>
      cases strip.symm.trans strip'
      rw [← CType.unionFree_strip, strip] at free
      have below := along.inside lawful (unionFree_child child free)
      have below' := along'.inside lawful (unionFree_child child' free)
      rw [offset_cons, offset_cons]
      rcases lt_trichotomy i j with lt | rfl | lt
      · have := contribution_apart lawful child child' free lt
        omega
      · -- the chains part further down
        cases child.symm.trans child'
        have part' : Part steps later := by
          refine ⟨fun pre => part.1 ?_, fun pre => part.2 ?_⟩
          · exact List.cons_prefix_cons.2 ⟨rfl, pre⟩
          · exact List.cons_prefix_cons.2 ⟨rfl, pre⟩
        rcases ih along' (unionFree_child child free) part' with le | le
        · omega
        · omega
      · have := contribution_apart lawful child' child free lt
        omega

/-- A chain from a basic type or a pointer has no selections. -/
lemma eq_nil (along : Along c steps t) (leaf : c.IsLeaf) : steps = [] := by
  cases along with
  | nil => rfl
  | cons strip child =>
    rw [CType.IsLeaf, strip] at leaf
    split at leaf
    · cases child
    · cases child
    · exact leaf.elim

/-- A chain that continues one to a basic type or a pointer is this one. -/
lemma eq_of_prefix (along : Along c steps t) (along' : Along c later t') (leaf : t.IsLeaf)
    (pre : steps <+: later) : steps = later := by
  induction along generalizing later with
  | nil => exact (along'.eq_nil leaf).symm
  | @cons c whole i next steps t strip child _ ih =>
    cases along' with
    | nil => exact absurd (List.prefix_nil.1 pre) (List.cons_ne_nil _ _)
    | cons strip' child' along' =>
      obtain ⟨same, below⟩ := List.cons_prefix_cons.1 pre
      cases same
      cases child.symm.trans child'
      rw [ih along' leaf below]

/-- Different chains to basic types or pointers part. -/
lemma part (along : Along c steps t) (along' : Along c later t') (leaf : t.IsLeaf)
    (leaf' : t'.IsLeaf) (ne : steps ≠ later) : Part steps later :=
  ⟨fun pre => ne (along.eq_of_prefix along' leaf pre),
    fun pre => ne (along'.eq_of_prefix along leaf' pre).symm⟩

/-- An array index on the way to something that has a size is below the size of the type. -/
lemma index_lt (lawful : D.Lawful) (along : Along c steps t) (free : c.unionFree = true)
    (pos : 0 < D.allocSize (t.lower D)) {elem : CType} {count i : Nat}
    (mem : ((.array elem count, i) : Selection) ∈ steps) : i < D.allocSize (c.lower D) := by
  induction along with
  | nil => cases mem
  | @cons c whole j next steps t strip child along ih =>
    rw [← CType.unionFree_strip, strip] at free
    have below := along.inside lawful (unionFree_child child free)
    have here := contribution_inside lawful child free
    rw [← CType.lower_strip, strip]
    rcases List.mem_cons.1 mem with e | mem
    · cases e
      obtain ⟨lt, rfl⟩ := child?_array child
      rw [CType.lower, lawful.array]
      exact lt.trans_le (Nat.le_mul_of_pos_right _ (by omega))
    · have := ih (unionFree_child child free) pos mem
      omega

end Along

/-! ### The packed layout -/

mutual

/-- The size of a type without any padding. -/
def LType.packedSize : LType → Nat
  | .scalar bits => max 1 ((bits + 7) / 8)
  | .pointer => 8
  | .array n t => n * t.packedSize
  | .struct ts => LType.packedSizes ts

/-- The sum of the sizes. -/
def LType.packedSizes : List LType → Nat
  | [] => 0
  | t :: ts => t.packedSize + LType.packedSizes ts

end

/-- Each element where the one before it ends, as in a packed structure. -/
def DataLayout.packed : DataLayout where
  elementOffset := fun ts i => LType.packedSizes (ts.take i)
  allocSize := LType.packedSize
  abiAlign := fun _ => 1
  padding := fun _ => []
  first := fun _ => rfl

/-- The sizes of two lists add up. -/
lemma packedSizes_append (ts us : List LType) :
    LType.packedSizes (ts ++ us) = LType.packedSizes ts + LType.packedSizes us := by
  induction ts with
  | nil => exact (Nat.zero_add _).symm
  | cons t ts ih => rw [List.cons_append, LType.packedSizes, LType.packedSizes, ih, Nat.add_assoc]

/-- An element ends where the next one starts. -/
lemma packedSizes_take_succ {ts : List LType} {i : Nat} {t : LType} (e : ts[i]? = some t) :
    LType.packedSizes (ts.take (i + 1)) = LType.packedSizes (ts.take i) + t.packedSize := by
  rw [List.take_add_one, e, packedSizes_append]
  rfl

/-- A part of a list is no larger. -/
lemma packedSizes_take_le (ts : List LType) (i : Nat) :
    LType.packedSizes (ts.take i) ≤ LType.packedSizes ts := by
  have split := packedSizes_append (ts.take i) (ts.drop i)
  rw [List.take_append_drop] at split
  omega

/-- Without padding, the layout is lawful. -/
lemma DataLayout.packed_lawful : DataLayout.packed.Lawful where
  scalar_pos := fun bits => Nat.le_max_left _ _
  scalar := by
    intro bits
    show bits ≤ 8 * max 1 ((bits + 7) / 8)
    omega
  pointer_pos := by decide
  array := fun _ _ => rfl
  element := by
    intro ts i t e
    have le := packedSizes_take_le ts (i + 1)
    rwa [packedSizes_take_succ e] at le
  apart := by
    intro ts i j t t' lt e _
    have le := packedSizes_take_le (ts.take j) (i + 1)
    rwa [List.take_take, Nat.min_eq_left lt, packedSizes_take_succ e] at le

end Irx.Lib
