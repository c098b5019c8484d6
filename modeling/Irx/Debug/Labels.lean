import Irx.Debug.Accepts
import Irx.Debug.Paths

/-!
# Which fields are called pointers

`getStructFieldInfo2` takes one level off the debug type that a path ends at, and then typedefs. For a
member this is the type of the member, for an element of an array that is a pointer it is what the pointer
points to. `says_pointer_iff` says when the answer is right for a valid path.
-/

namespace Irx.Debug
open Irx.Lib

/-- The type of the place is a pointer, but for typedefs and qualifiers. -/
def PointerPlace (g : DebugInfo) (q : Place) : Prop :=
  q.used = 0 ∧ ∃ k, bare g q.type = some k ∧ isPointer g k

/-- What compilers write of sizes and names. -/
structure Written (g : DebugInfo) : Prop where
  bytes : ∀ n, (g.node n).getTag ≠ .member → (g.node n).sizeInBits % 8 = 0
  /-- Pointers are no bit-fields. -/
  pointer : ∀ x name bits b k, g.node x = .derived .member name bits (some b) → bare g b = some k →
    isPointer g k → bits % 8 = 0
  name : ∀ n bits, g.node n ≠ .basic "PTR" bits
  tag : ∀ n name bits base elements, g.node n ≠ .composite .pointerType name bits base elements

/-- The path is answered by `PTR` if the place is a pointer, and never if it is not. -/
def SaysPointer (M : IRModule) (name : String) (path : List String) (caches : Caches) (q : Place) : Prop :=
  (PointerPlace M.debug q →
    ∃ r, getStructFieldInfo2 M name path caches = .ok r ∧ r.1.basicType = "PTR") ∧
  (¬ PointerPlace M.debug q →
    ∀ r, getStructFieldInfo2 M name path caches = .ok r → r.1.basicType ≠ "PTR")

/-- The path is read to an end that resolves to a pointer. -/
def Labels (g : DebugInfo) (c : Nat) (path : List String) : Prop :=
  path ≠ [] ∧ ∃ y m, Reads g c path y ∧ resolveDerivedTypeBaseType g (some y) = .ok (some m) ∧
    isPointer g m

/-- The search, which has come to the type, misses the pointer at the place `q`, or ends at one where `q` is
none. -/
inductive Misses (g : DebugInfo) (q : Place) : Place → Nat → List String → Prop where
  /-- The type has no such member or element. -/
  | lost {p k component path} :
    (∀ x, ¬ Finds g k component x) → PointerPlace g q → Misses g q p k (component :: path)
  /-- The element is a pointer to `void`. -/
  | void {p k x e component path} :
    Finds g k component x → resolveDerivedTypeBaseType g (some x) = .error e → PointerPlace g q →
    Misses g q p k (component :: path)
  /-- The path goes on, but the search has come to a type without members and elements. -/
  | ended {p k x m component next path} :
    Finds g k component x → resolveDerivedTypeBaseType g (some x) = .ok (some m) → isComposite g m = false →
    PointerPlace g q → Misses g q p k (component :: next :: path)
  /-- The path ends, and one of the two types is a pointer and the other is not. -/
  | last {p k x m component} :
    Finds g k component x → resolveDerivedTypeBaseType g (some x) = .ok (some m) →
    (PointerPlace g q ↔ isPointer g m = false) → Misses g q p k [component]

/-- The ways of saying something else than `PTR` for a pointer, or `PTR` for something else. -/
inductive Mislabels (g : DebugInfo) (bounds : Nat → List Nat) (q : Place) : Nat → List String → Prop where
  /-- An element that is a pointer is taken for what it points to, which is not a pointer. -/
  | element {a name bits x elements bound component} :
    g.node a = .composite .arrayType name bits (some x) elements → bounds a = [bound] → isPointer g x →
    (∀ m, resolveDerivedTypeBaseType g (some x) = .ok (some m) → isPointer g m = false) →
    Mislabels g bounds q a [component]
  /-- A qualified pointer is not seen to be one. -/
  | qualified {c x m component} :
    Finds g c component x → isPointer g x = false →
    resolveDerivedTypeBaseType g (some x) = .ok (some m) → isPointer g m = false → PointerPlace g q →
    Mislabels g bounds q c [component]
  /-- The way to a pointer leads by an index that is no `int`. -/
  | large {a name bits base elements component path e} :
    g.node a = .composite .arrayType name bits base elements → stoi component = .error e →
    PointerPlace g q → Mislabels g bounds q a (component :: path)
  /-- It leads into a qualified structure without a name. -/
  | anonymous {c x field path} :
    HasMember g (bare g) field c x → ¬ HasMember g (plain g) field c x → PointerPlace g q →
    Mislabels g bounds q c (field :: path)
  /-- It leads into another qualified type. -/
  | cut {c x m component next path} :
    Finds g c component x → resolveDerivedTypeBaseType g (some x) = .ok (some m) →
    isComposite g m = false → PointerPlace g q → Mislabels g bounds q c (component :: next :: path)
  /-- An array of several dimensions has one component for all of them: the first index leads C to a row and
  the search to the element type, and somewhere behind the pointer is missed or met. -/
  | rows {a name bits base elements component path} :
    g.node a = .composite .arrayType name bits base elements → 1 < (bounds a).length →
    InStep g bounds (Misses g q) ⟨a, 0⟩ a (component :: path) → Mislabels g bounds q a (component :: path)

variable {M : IRModule} {g : DebugInfo} {bounds : Nat → List Nat} {c a b k m n x y fuel : Nat}
variable {p q : Place} {component : String} {path : List String} {caches : Caches}

/-! ### The answer -/

/-- `toBasicType` ends at a basic type. -/
lemma toBasicTypeLoop_basic {DITy : Option Nat} (e : toBasicTypeLoop g.node fuel DITy = .ok (some m)) :
    ∃ name bits, g.node m = .basic name bits := by
  induction fuel generalizing DITy with
  | zero =>
    cases DITy with
    | none => cases e
    | some n => cases e
  | succ fuel ih =>
    cases DITy with
    | none => cases e
    | some n =>
      rw [toBasicTypeLoop] at e
      split at e
      · cases e
      split at e
      · cases e
      split at e
      · cases e
      simp only at e
      split at e
      · exact ih e
      case h_2 m' _ =>
        rw [secondHalf] at e
        split at e
        case h_1 name bits node =>
          cases e
          exact ⟨name, bits, node⟩
        case h_2 => split at e <;> exact ih e
        case h_3 => exact ih e
        case h_4 => exact ih e

/-- A pointer is told by its name. -/
lemma DIType2StringType_iff (written : Written g) :
    DIType2StringType g (some m) = .ok "PTR" ↔ isPointer g m := by
  rw [DIType2StringType, isPointer]
  by_cases tag : (g.node m).getTag = .pointerType
  case pos =>
    rw [if_pos tag]
    refine iff_of_true rfl ?_
    cases node : g.node m with
    | derived tag' =>
      rw [node] at tag
      exact decide_eq_true tag
    | composite tag' name bits base elements =>
      rw [node] at tag
      cases tag
      exact absurd node (written.tag _ _ _ _ _)
    | basic =>
      rw [node] at tag
      cases tag
    | subroutine =>
      rw [node] at tag
      cases tag
  case neg =>
    rw [if_neg tag]
    refine iff_of_false (fun e => ?_) (fun pointer => ?_)
    · obtain ⟨r, read, e⟩ := bind_eq_ok.1 e
      cases r with
      | none => exact absurd (Except.ok.inj e) (by decide)
      | some k =>
        obtain ⟨name, bits, node⟩ := toBasicTypeLoop_basic read
        simp only [node] at e
        cases e
        exact written.name _ _ node
    · cases node : g.node m with
      | derived tag' =>
        rw [node] at pointer tag
        exact tag (of_decide_eq_true pointer)
      | basic =>
        rw [node] at pointer
        cases pointer
      | composite =>
        rw [node] at pointer
        cases pointer
      | subroutine =>
        rw [node] at pointer
        cases pointer

/-- A debug type that resolves to a pointer has a whole number of bytes. -/
lemma getDIFieldSize_of_pointer (written : Written g)
    (resolved : resolveDerivedTypeBaseType g (some y) = .ok (some m)) (pointer : isPointer g m) :
    ∃ bits, getDIFieldSize g (some y) = .ok bits := by
  have named := bare_pointer pointer
  -- the debug type is derived: it is the pointer, or it resolves to one
  obtain ⟨tag, name, bits, base, node, whole⟩ : ∃ tag name bits base,
      g.node y = .derived tag name bits base ∧ bits % 8 = 0 := by
    have other : ∀ tag name bits base, g.node y = .derived tag name bits base → tag ≠ .member →
        bits % 8 = 0 := by
      intro tag name bits base node noMember
      have whole := written.bytes y
      rw [node] at whole
      exact whole noMember
    rw [resolveDerivedTypeBaseType] at resolved
    split at resolved
    case h_1 => cases resolved
    case h_2 tag name bits b node =>
      refine ⟨tag, name, bits, some b, node, ?_⟩
      by_cases member : tag = .member
      case neg => exact other _ _ _ _ node member
      case pos =>
        subst member
        cases stripped : stripTypedefs g (g.rank b + 1) b with
        | error e =>
          rw [stripped] at resolved
          cases resolved
        | ok k =>
          rw [stripped] at resolved
          cases resolved
          exact written.pointer _ _ _ _ _ node ((bare_stripTypedefs stripped).trans named) pointer
    case h_3 noVoid noDerived =>
      -- a node that is not derived is what it resolves to
      rw [stripTypedefs] at resolved
      split at resolved
      case h_1 base node =>
        cases base with
        | none => exact absurd node (noVoid _ _ _)
        | some b => exact absurd node (noDerived _ _ _ _)
      case h_2 =>
        cases resolved
        rw [isPointer] at pointer
        split at pointer
        case h_1 node =>
          have tag := of_decide_eq_true pointer
          exact ⟨_, _, _, _, node, other _ _ _ _ node (by rw [tag]; decide)⟩
        case h_2 => cases pointer
  refine ⟨bits, ?_⟩
  rw [getDIFieldSize]
  simp only [node]
  rw [ok_bind, if_pos (and_seven whole)]

/-- A composite type itself has no size, a member at the end of a path has. -/
lemma Reads.not_nil {bits : Nat} (reads : Reads g c path y) (composite : isComposite g c)
    (sized : getDIFieldSize g y = .ok bits) : path ≠ [] := by
  rintro rfl
  cases reads
  obtain ⟨_, _, _, _, _, node⟩ := isComposite_node composite
  rw [getDIFieldSize] at sized
  simp only [node] at sized
  cases sized

/-- The answer is `PTR` exactly where the end of the path resolves to a pointer. -/
lemma answer_iff (ctypes : CTypes M.debug bounds) (written : Written M.debug)
    (composite : isComposite M.debug c) {name : String}
    {cache : Option (String → Option (Option Nat))}
    (found : findStructDebugInfo M name (some caches.di) = .ok (some c, cache)) :
    (∃ r, getStructFieldInfo2 M name path caches = .ok r ∧ r.1.basicType = "PTR") ↔
      Labels M.debug c path := by
  rw [getStructFieldInfo2, found, ok_bind]
  simp only
  cases GEP_outcome ctypes composite path with
  | @reads out i y reads e last =>
    rw [e, ok_bind, fieldInfo]
    simp only [last]
    constructor
    · rintro ⟨r, ran, ptr⟩
      obtain ⟨info, told, ran⟩ := bind_eq_ok.1 ran
      cases ran
      obtain ⟨size, sized, told⟩ := bind_eq_ok.1 told
      obtain ⟨r, resolved, told⟩ := bind_eq_ok.1 told
      obtain ⟨basicType, typed, told⟩ := bind_eq_ok.1 told
      cases told
      cases ptr
      obtain ⟨m, rfl⟩ := resolve_some resolved
      exact ⟨reads.not_nil composite sized, y, m, reads, resolved,
        (DIType2StringType_iff written).1 typed⟩
    · rintro ⟨_, y', m, reads', resolved, pointer⟩
      cases reads.unique ctypes reads'
      obtain ⟨bits, sized⟩ := getDIFieldSize_of_pointer written resolved pointer
      have typed := (DIType2StringType_iff written).2 pointer
      rw [sized, ok_bind, resolved, ok_bind, typed, ok_bind, ok_bind]
      exact ⟨_, rfl, rfl⟩
  | nothing none _ e =>
    rw [e, ok_bind]
    refine iff_of_false ?_ ?_
    · rintro ⟨r, ran, ptr⟩
      cases ran
      exact absurd (show "unknown" = "PTR" from ptr) (by decide)
    · rintro ⟨_, y, _, reads, _⟩
      exact none y reads
  | breaks breaks e =>
    rw [e]
    refine iff_of_false ?_ ?_
    · rintro ⟨r, ran, _⟩
      cases ran
    · rintro ⟨_, y, _, reads, _⟩
      exact reads.unbroken ctypes breaks

/-! ### Where the answer is wrong -/

/-- A path that is not read to an end is not called a pointer. -/
lemma not_labels_of_not_reads (none : ∀ y, ¬ Reads g c path y) : ¬ Labels g c path := by
  rintro ⟨_, y, _, reads, _⟩
  exact none y reads

/-- Where a path ends at a found component, the debug type found decides. -/
lemma labels_last_iff (ctypes : CTypes g bounds) (finds : Finds g c component x) :
    Labels g c [component] ↔
      ∃ m, resolveDerivedTypeBaseType g (some x) = .ok (some m) ∧ isPointer g m := by
  constructor
  · rintro ⟨_, y, m, reads, resolved, pointer⟩
    cases reads with
    | last finds' resolved' =>
      cases finds.unique ctypes finds'
      exact ⟨m, resolved, pointer⟩
  · rintro ⟨m, resolved, pointer⟩
    exact ⟨nofun, x, m, .last finds resolved, resolved, pointer⟩

/-- Where the search goes on in a composite type, the label is that of the rest of the path. -/
lemma labels_next_iff (ctypes : CTypes g bounds) (finds : Finds g c component x)
    (resolved : resolveDerivedTypeBaseType g (some x) = .ok (some m)) (composite : isComposite g m)
    (more : path ≠ []) : Labels g c (component :: path) ↔ Labels g m path := by
  rw [Labels, Labels]
  simp only [reads_next_iff ctypes finds resolved composite more]
  exact and_congr_left fun _ => iff_of_true nofun more

/-- Together with C, the answer is that of the rest of the path. -/
lemma Together.labels_iff (ctypes : CTypes g bounds) (together : Together g bounds c component x b k)
    (more : path ≠ []) : Labels g c (component :: path) ↔ Labels g k path :=
  labels_next_iff ctypes together.finds together.resolved together.composite more

/-- Where the pointer is missed or met, the label is wrong. -/
lemma InStep.mislabelled (ctypes : CTypes g bounds) (steps : InStep g bounds (Misses g q) p k path) :
    ¬ (PointerPlace g q ↔ Labels g k path) := by
  induction steps with
  | part misses =>
    intro same
    cases misses with
    | lost none pointer =>
      exact not_labels_of_not_reads (fun y => not_reads_of_not_finds none) (same.1 pointer)
    | void finds broken pointer =>
      obtain ⟨_, y, _, reads, _⟩ := same.1 pointer
      exact reads.unbroken ctypes (.null finds broken)
    | ended finds resolved simple pointer =>
      refine not_labels_of_not_reads (fun y => ?_) (same.1 pointer)
      exact not_reads_behind ctypes finds resolved simple
    | @last _ m _ finds resolved other =>
      have labels : PointerPlace g q ↔ isPointer g m := by
        rw [same, labels_last_iff ctypes finds]
        constructor
        · rintro ⟨m', resolved', pointer⟩
          cases resolved.symm.trans resolved'
          exact pointer
        · exact fun pointer => ⟨m, resolved, pointer⟩
      rw [labels] at other
      cases pointer : isPointer g m <;> simp [pointer] at other
  | on _ finds resolved composite _ ih =>
    rwa [labels_next_iff ctypes finds resolved composite (List.cons_ne_nil _ _)]

/-- If the label is wrong, the pointer is missed or met somewhere. -/
lemma inStep_of_mislabelled (ctypes : CTypes g bounds) (leads : Leads g bounds p (component :: path) q)
    (composite : isComposite g k) (differ : ¬ (PointerPlace g q ↔ Labels g k (component :: path))) :
    InStep g bounds (Misses g q) p k (component :: path) := by
  refine inStep_of (P := fun p k path => Leads g bounds p path q ∧
    ¬ (PointerPlace g q ↔ Labels g k path)) ?_ ?_ composite ⟨leads, differ⟩
  · rintro p p' k x m component next path selects finds resolved composite ⟨leads, differ⟩
    rw [labels_next_iff ctypes finds resolved composite (List.cons_ne_nil _ _)] at differ
    cases leads with
    | cons selects' leads =>
      cases selects.unique ctypes selects'
      exact ⟨leads, differ⟩
  · rintro p k component path - last ⟨leads, differ⟩
    obtain ⟨p', selects⟩ : ∃ p', Selects g bounds p component p' := by
      cases leads with
      | cons selects => exact ⟨_, selects⟩
    -- what is not labelled must be a pointer
    have pointer : ¬ Labels g k (component :: path) → PointerPlace g q := fun unseen => by
      by_contra place
      exact differ (iff_of_false place unseen)
    by_cases found : ∃ x, Finds g k component x
    case neg =>
      have none : ∀ x, ¬ Finds g k component x := fun x finds => found ⟨x, finds⟩
      exact .lost none (pointer (not_labels_of_not_reads fun y => not_reads_of_not_finds none))
    case pos =>
      obtain ⟨x, finds⟩ := found
      cases resolved : resolveDerivedTypeBaseType g (some x) with
      | error e =>
        refine .void finds resolved (pointer ?_)
        rintro ⟨_, y, _, reads, _⟩
        exact reads.unbroken ctypes (.null finds resolved)
      | ok r =>
        obtain ⟨m, rfl⟩ := resolve_some resolved
        cases path with
        | nil =>
          refine .last finds resolved ?_
          rw [labels_last_iff ctypes finds] at differ
          simp only [resolved, Except.ok.injEq, Option.some.injEq, exists_eq_left'] at differ
          cases points : isPointer g m <;> simpa [points] using differ
        | cons next path =>
          have simple := last p' x m selects finds resolved nofun
          refine .ended finds resolved simple (pointer (not_labels_of_not_reads fun y => ?_))
          exact not_reads_behind ctypes finds resolved simple

/-- The wrong answers are wrong. -/
lemma Mislabels.differ (ctypes : CTypes g bounds) (mislabels : Mislabels g bounds q c path)
    (leads : Leads g bounds ⟨c, 0⟩ path q) : ¬ (PointerPlace g q ↔ Labels g c path) := by
  cases mislabels with
  | element node single pointer other =>
    intro same
    cases leads with
    | cons selects leads =>
      obtain ⟨inside, rfl⟩ := (selects_element_iff node single).1 selects
      cases leads
      obtain ⟨_, y, m, reads, resolved, pointer'⟩ := same.1 ⟨rfl, _, bare_pointer pointer, pointer⟩
      cases reads with
      | last finds =>
        obtain ⟨rfl, _⟩ := (finds_array_iff node).1 finds
        rw [other m resolved] at pointer'
        cases pointer'
  | qualified finds _ resolved other pointer =>
    intro same
    obtain ⟨m, resolved', pointer'⟩ := (labels_last_iff ctypes finds).1 (same.1 pointer)
    cases resolved.symm.trans resolved'
    rw [other] at pointer'
    cases pointer'
  | large node read pointer =>
    intro same
    obtain ⟨_, y, _, reads, _⟩ := same.1 pointer
    exact reads.unbroken ctypes (.stoi node read)
  | anonymous has hidden pointer =>
    intro same
    refine not_labels_of_not_reads (fun y => ?_) (same.1 pointer)
    exact not_reads_of_not_finds fun x => not_finds_hidden ctypes has hidden
  | cut finds resolved simple pointer =>
    intro same
    refine not_labels_of_not_reads (fun y => ?_) (same.1 pointer)
    exact not_reads_behind ctypes finds resolved simple
  | rows _ _ steps => exact steps.mislabelled ctypes

/-- None of them is made where the search and C go on together. -/
lemma Together.not_mislabels (ctypes : CTypes g bounds) (together : Together g bounds c component x b k)
    (more : path ≠ []) : ¬ Mislabels g bounds q c (component :: path) := by
  obtain ⟨finds, resolved, composite, selects, named⟩ := together
  intro mislabels
  cases mislabels with
  | element => exact more rfl
  | qualified => exact more rfl
  | large node read => exact finds.not_stoi node read
  | anonymous has hidden => exact not_finds_hidden ctypes has hidden finds
  | cut finds' resolved' simple =>
    cases finds.unique ctypes finds'
    cases resolved.symm.trans resolved'
    rw [simple] at composite
    cases composite
  | rows node several =>
    obtain ⟨_, x, _, rfl, _⟩ := ctypes.array _ _ _ _ _ node
    cases ((selects_row_iff node several).1 selects).2

/-- A found debug type that is no pointer itself, with the type that the place behind it has. -/
lemma mislabels_found (ctypes : CTypes g bounds) (finds : Finds g c component x)
    (resolved : resolveDerivedTypeBaseType g (some x) = .ok (some m)) (noPointer : isPointer g x = false)
    (selects : Selects g bounds ⟨c, 0⟩ component ⟨b, 0⟩) (stripped : bare g m = some k)
    (named : bare g b = some k) (leads : Leads g bounds ⟨b, 0⟩ path q)
    (apart : path ≠ [] → ∀ x b k, ¬ Together g bounds c component x b k)
    (differ : ¬ (PointerPlace g q ↔ Labels g c (component :: path))) :
    Mislabels g bounds q c (component :: path) := by
  cases path with
  | nil =>
    cases leads
    rw [labels_last_iff ctypes finds] at differ
    cases pointer : isPointer g m with
    | true =>
      -- a pointer behind typedefs only is seen
      refine absurd (iff_of_true ⟨rfl, k, named, ?_⟩ ⟨m, resolved, pointer⟩) differ
      cases (bare_pointer pointer).symm.trans stripped
      exact pointer
    | false =>
      have unseen : ¬ ∃ m, resolveDerivedTypeBaseType g (some x) = .ok (some m) ∧ isPointer g m := by
        rintro ⟨m', resolved', pointer'⟩
        cases resolved.symm.trans resolved'
        rw [pointer] at pointer'
        cases pointer'
      by_cases place : PointerPlace g ⟨b, 0⟩
      · exact .qualified finds noPointer resolved pointer place
      · exact absurd (iff_of_false place unseen) differ
  | cons next path =>
    cases composite : isComposite g m with
    | true =>
      cases (bare_composite composite).symm.trans stripped
      exact absurd ⟨finds, resolved, composite, selects, named⟩ (apart nofun x b _)
    | false =>
      have unseen : ¬ Labels g c (component :: next :: path) :=
        not_labels_of_not_reads fun y => not_reads_behind ctypes finds resolved composite
      by_cases place : PointerPlace g q
      · exact .cut finds resolved composite place
      · exact absurd (iff_of_false place unseen) differ

/-- A wrong answer at a component where the search and C part is one of the list. -/
lemma mislabels_of_differ (ctypes : CTypes g bounds) (leads : Leads g bounds ⟨c, 0⟩ (component :: path) q)
    (composite : isComposite g c) (apart : path ≠ [] → ∀ x b k, ¬ Together g bounds c component x b k)
    (differ : ¬ (PointerPlace g q ↔ Labels g c (component :: path))) :
    Mislabels g bounds q c (component :: path) := by
  have whole := leads
  cases leads with
  | cons selects leads =>
    have own := bare_composite composite
    have selects' := selects
    cases selects with
    | @member _ _ x _ _ _ _ e has node =>
      cases own.symm.trans e
      by_cases entered : HasMember g (plain g) component c x
      case neg =>
        have unseen : ¬ Labels g c (component :: path) := not_labels_of_not_reads fun y =>
          not_reads_of_not_finds fun x => not_finds_hidden ctypes has entered
        by_cases place : PointerPlace g q
        · exact .anonymous has entered place
        · exact absurd (iff_of_false place unseen) differ
      case pos =>
        obtain ⟨_, _, _, k, node', named⟩ := has.node ctypes
        cases node.symm.trans node'
        obtain ⟨m, resolved, stripped⟩ := resolve_member node named
        refine mislabels_found ctypes (.member entered) resolved ?_ selects' stripped named leads apart
          differ
        rw [isPointer, node]
        rfl
    | row e node _ _ _ several =>
      cases own.symm.trans e
      exact .rows node (by omega) (inStep_of_mislabelled ctypes whole composite differ)
    | @element _ _ _ _ x _ _ _ _ _ e node dimension numeral _ last =>
      cases own.symm.trans e
      cases read : stoi component with
      | error e =>
        have unseen : ¬ Labels g c (component :: path) := by
          rintro ⟨_, _, _, reads, _⟩
          exact reads.unbroken ctypes (.stoi node read)
        by_cases place : PointerPlace g q
        · exact .large node read place
        · exact absurd (iff_of_false place unseen) differ
      | ok i =>
        have finds := finds_numeral node numeral read
        cases pointer : isPointer g x with
        | false =>
          obtain ⟨m, k, resolved, stripped, named⟩ := resolve_element ctypes node pointer
          exact mislabels_found ctypes finds resolved pointer selects' stripped named leads apart differ
        | true =>
          cases leads with
          | cons selects =>
            exact absurd selects (not_selects_pointer pointer)
          | nil =>
            obtain ⟨bound, single⟩ : ∃ bound, bounds c = [bound] :=
              List.length_eq_one_iff.1 last.symm
            refine .element node single pointer fun m resolved => ?_
            cases pointer' : isPointer g m with
            | false => rfl
            | true =>
              have seen := (labels_last_iff ctypes finds).2 ⟨m, resolved, pointer'⟩
              have place : PointerPlace g ⟨x, 0⟩ := ⟨rfl, x, bare_pointer pointer, pointer⟩
              exact absurd (iff_of_true place seen) differ

/-- For a valid path, the answer is right but where it is one of the wrong ones. -/
theorem says_pointer_iff (ctypes : CTypes M.debug bounds) (written : Written M.debug)
    (record : isRecord M.debug c) {name : String} {cache : Option (String → Option (Option Nat))}
    (found : findStructDebugInfo M name (some caches.di) = .ok (some c, cache))
    (leads : Leads M.debug bounds ⟨c, 0⟩ path q) :
    SaysPointer M name path caches q ↔
      ¬ FirstAt M.debug bounds (Mislabels M.debug bounds q) c path := by
  have composite := isRecord_composite record
  have answer : (∃ r, getStructFieldInfo2 M name path caches = .ok r ∧ r.1.basicType = "PTR") ↔
      Labels M.debug c path := answer_iff ctypes written composite found
  have agrees : SaysPointer M name path caches q ↔ (PointerPlace M.debug q ↔ Labels M.debug c path) := by
    rw [SaysPointer, answer]
    constructor
    · rintro ⟨right, never⟩
      refine ⟨right, fun labels => ?_⟩
      by_contra place
      obtain ⟨r, ran, ptr⟩ := answer.2 labels
      exact never place r ran ptr
    · intro same
      exact ⟨same.1, fun place r ran ptr => place (same.2 (answer.1 ⟨r, ran, ptr⟩))⟩
  rw [agrees]
  refine Iff.trans not_not.symm (not_congr (Iff.symm ?_))
  refine firstAt_iff (S := fun c path => Leads M.debug bounds ⟨c, 0⟩ path q)
    (P := fun c path => ¬ (PointerPlace M.debug q ↔ Labels M.debug c path)) ctypes (fun _ => nofun)
    ?_ ?_ composite leads
  · intro c component x b k path together more leads
    refine ⟨together.not_mislabels ctypes more, (together.leads_iff ctypes more).1 leads, ?_⟩
    rw [together.labels_iff ctypes more]
  · intro c path composite leads apart
    refine ⟨fun mislabels => mislabels.differ ctypes leads, fun differ => ?_⟩
    cases path with
    | nil =>
      -- the structure itself is no pointer, and it is not called one
      refine absurd (iff_of_false ?_ fun labels => labels.1 rfl) differ
      rintro ⟨_, k, named, pointer⟩
      cases leads
      cases (bare_composite composite).symm.trans named
      rw [isPointer_simple pointer] at composite
      cases composite
    | cons component path =>
      exact mislabels_of_differ ctypes leads composite
        (fun more x b k => apart component path x b k rfl more) differ

/-- The name of a type of bytes. -/
def u8 : String := "u8"

/-- The debug types of `struct fields { int *next; int *pointers[2]; u8 bytes[4]; }`, where `u8` is a
typedef. -/
def fieldsDebug : DebugInfo := .ofList [
  .composite .structureType "fields" 256 none [.type 1, .type 2, .type 3],
  .derived .member "next" 64 (some 6),
  .derived .member "pointers" 128 (some 4),
  .derived .member "bytes" 32 (some 5),
  .composite .arrayType "" 128 (some 6) [.other],
  .composite .arrayType "" 32 (some 7) [.other],
  .derived .pointerType "" 64 (some 9),
  .derived .typedef u8 0 (some 8),
  .basic "unsigned char" 8,
  .basic "int" 32] (by decide)

/-- The bounds of the arrays. -/
def fieldsBounds (n : Nat) : List Nat := if n = 4 then [2] else if n = 5 then [4] else []

/-- A module with `struct fields`. -/
def fieldsModule : IRModule where
  debug := fieldsDebug
  types := [0]
  structTypes := []
  layout := .natural
  isLayoutIdentical := fun _ _ => true
  identical_self := fun _ => rfl

/-- What holds of the debug types in the list holds of all. -/
lemma fields_node {P : DIType → Prop} (listed : ∀ n < 10, P (fieldsDebug.node n)) (other : P .subroutine)
    (n : Nat) : P (fieldsDebug.node n) := by
  by_cases lt : n < 10
  · exact listed n lt
  · have out : fieldsDebug.node n = .subroutine := List.getD_eq_default _ _ (not_lt.1 lt)
    exact out ▸ other

/-- The structure is the only one. -/
lemma fields_record (composite : isComposite fieldsDebug c)
    (noArray : (fieldsDebug.node c).getTag ≠ .arrayType) : c = 0 := by
  by_cases lt : c < 10
  · have all : ∀ c < 10, isComposite fieldsDebug c → (fieldsDebug.node c).getTag ≠ .arrayType →
        c = 0 := by decide
    exact all c lt composite noArray
  · have out : fieldsDebug.node c = .subroutine := List.getD_eq_default _ _ (not_lt.1 lt)
    rw [isComposite, out] at composite
    cases composite

/-- There are two arrays. -/
lemma fields_array {a : Nat} (array : (fieldsDebug.node a).getTag = .arrayType) : a = 4 ∨ a = 5 := by
  by_cases lt : a < 10
  · have all : ∀ a < 10, (fieldsDebug.node a).getTag = .arrayType → a = 4 ∨ a = 5 := by decide
    exact all a lt array
  · have out : fieldsDebug.node a = .subroutine := List.getD_eq_default _ _ (not_lt.1 lt)
    rw [out] at array
    cases array

/-- The structure has three members. -/
lemma fields_elements {m : Nat} (mem : .type m ∈ (fieldsDebug.node 0).elements) :
    m = 1 ∨ m = 2 ∨ m = 3 := by
  have all : ∀ e ∈ (fieldsDebug.node 0).elements, e = .type 1 ∨ e = .type 2 ∨ e = .type 3 := by decide
  simpa using all _ mem

/-- The debug types are those of C. -/
lemma fields_ctypes : CTypes fieldsDebug fieldsBounds where
  member c m composite noArray mem := by
    cases fields_record composite noArray
    obtain rfl | rfl | rfl := fields_elements mem
    · exact ⟨rfl, "next", 64, 6, 6, rfl, rfl, fun e => absurd e (by decide)⟩
    · exact ⟨rfl, "pointers", 128, 4, 4, rfl, rfl, fun e => absurd e (by decide)⟩
    · exact ⟨rfl, "bytes", 32, 5, 5, rfl, rfl, fun e => absurd e (by decide)⟩
  array a name bits base elements node := by
    obtain rfl | rfl := fields_array (by rw [node]; rfl)
    · cases node
      refine ⟨nofun, 6, 6, rfl, rfl, fun tag name bits base node => .inl ?_⟩
      cases node
      rfl
    · cases node
      refine ⟨nofun, 7, 8, rfl, rfl, fun tag name bits base node => .inr ?_⟩
      cases node
      rfl
  unique field c x x' has has' := by
    have root : ∀ c, isRecord fieldsDebug c → c = 0 := fun c record =>
      fields_record (isRecord_composite record) (isRecord_tag record)
    refine has.unique_of_named ?_ ?_ has'
    · intro c m record mem
      cases root c record
      obtain rfl | rfl | rfl := fields_elements mem <;> decide
    · intro c m m' record mem mem' same
      cases root c record
      have distinct : ∀ m < 4, ∀ m' < 4, 0 < m → 0 < m' →
          (fieldsDebug.node m).getName = (fieldsDebug.node m').getName → m = m' := by decide
      have := fields_elements mem
      have := fields_elements mem'
      exact distinct m (by omega) m' (by omega) (by omega) (by omega) same

/-- They are as compilers write them. -/
lemma fields_written : Written fieldsDebug where
  bytes n _ := fields_node (P := fun node => node.sizeInBits % 8 = 0) (by decide) rfl n
  pointer x name bits b k node _ _ := by
    have whole := fields_node (P := fun node => node.sizeInBits % 8 = 0) (by decide) rfl x
    rw [node] at whole
    exact whole
  name n bits node := by
    have named := fields_node (P := fun node => node.getName ≠ "PTR") (by decide) (by decide) n
    rw [node] at named
    exact named rfl
  tag n name bits base elements node := by
    by_cases lt : n < 10
    · have all : ∀ n < 10, isComposite fieldsDebug n → (fieldsDebug.node n).getTag ≠ .pointerType := by decide
      exact all n lt (by rw [isComposite, node]) (by rw [node]; rfl)
    · have out : fieldsDebug.node n = .subroutine := List.getD_eq_default _ _ (not_lt.1 lt)
      cases out.symm.trans node

/-- The members of the structure are selected by their names. -/
lemma fields_selects {field : String} {x b bits : Nat} (mem : .type x ∈ (fieldsDebug.node 0).elements)
    (node : fieldsDebug.node x = .derived .member field bits (some b)) (named : field ≠ "") :
    Selects fieldsDebug fieldsBounds ⟨0, 0⟩ field ⟨b, 0⟩ :=
  .member (bare_composite rfl) (.named rfl mem node named) node

/-- The answer for the first member through empty caches. -/
lemma next_says_pointer :
    SaysPointer fieldsModule "fields" ["next"] ⟨fun _ => none, fun _ => none⟩ ⟨6, 0⟩ := by
  have place : PointerPlace fieldsDebug ⟨6, 0⟩ := ⟨rfl, 6, rfl, rfl⟩
  exact ⟨fun _ => ⟨_, rfl, rfl⟩, fun other => absurd place other⟩

/-- The first member is a pointer. -/
theorem says_pointer_next : ¬ FirstAt fieldsDebug fieldsBounds (Mislabels fieldsDebug fieldsBounds ⟨6, 0⟩) 0
    ["next"] := by
  have leads : Leads fieldsDebug fieldsBounds ⟨0, 0⟩ ["next"] ⟨6, 0⟩ :=
    .cons (fields_selects (x := 1) (.head _) rfl (by decide)) (.nil _)
  exact (says_pointer_iff fields_ctypes fields_written rfl rfl leads).1 next_says_pointer

/-- An element of the array of pointers is called an `int`. -/
theorem element_not_pointer : ∃ q, Leads fieldsDebug fieldsBounds ⟨0, 0⟩ ["pointers", "1"] q ∧
    ¬ SaysPointer fieldsModule "fields" ["pointers", "1"] ⟨fun _ => none, fun _ => none⟩ q := by
  have inside : InBounds fieldsBounds 4 0 "1" := ⟨2, 1, rfl, rfl, by decide⟩
  have element : Selects fieldsDebug fieldsBounds ⟨4, 0⟩ "1" ⟨6, 0⟩ :=
    (selects_element_iff (x := 6) rfl rfl).2 ⟨inside, rfl⟩
  refine ⟨⟨6, 0⟩, .cons (fields_selects (x := 2) (.tail _ (.head _)) rfl (by decide))
    (.cons element (.nil _)), fun right => ?_⟩
  obtain ⟨r, ran, ptr⟩ := right.1 ⟨rfl, 6, rfl, rfl⟩
  have int : (getStructFieldInfo2 fieldsModule "fields" ["pointers", "1"]
      ⟨fun _ => none, fun _ => none⟩).map (fun r => r.1.basicType) = .ok "int" := rfl
  rw [ran] at int
  exact absurd (ptr.symm.trans (Except.ok.inj int)) (by decide)

end Irx.Debug
