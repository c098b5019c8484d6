import Irx.Debug.Reading

/-!
# Which paths are accepted

`GEP` and C agree on a path as long as every array has one dimension, elements that are no pointers and a
decimal index below its bound, and no qualifier stands in front of a structure. `Mistakes` lists what
goes wrong at the first component where this is not so, `gep_accepts_iff` that nothing else does. Behind an
array of several dimensions C and the search are in different types; there both are followed `InStep`.
-/

namespace Irx.Debug
open Irx.Lib

section Accepts

variable (g : DebugInfo) (bounds : Nat → List Nat)

/-- The search and C go by the component to the same composite type. -/
structure Together (c : Nat) (component : String) (x b k : Nat) : Prop where
  finds : Finds g c component x
  resolved : resolveDerivedTypeBaseType g (some x) = .ok (some k)
  composite : isComposite g k
  selects : Selects g bounds ⟨c, 0⟩ component ⟨b, 0⟩
  named : bare g b = some k

/-- They do so along the path. -/
inductive Along : Nat → List String → Nat → Prop where
  | nil (c) : Along c [] c
  | cons {c x k b n component path} :
    Together g bounds c component x b k → Along k path n → Along c (component :: path) n

/-- C has come to a place and the search to a composite type. The same components lead them on, each in its
own types, up to one at which they part. -/
inductive InStep (Part : Place → Nat → List String → Prop) : Place → Nat → List String → Prop where
  | part {p k path} : Part p k path → InStep Part p k path
  | on {p p' k x m component next path} :
    Selects g bounds p component p' → Finds g k component x →
    resolveDerivedTypeBaseType g (some x) = .ok (some m) → isComposite g m →
    InStep Part p' m (next :: path) → InStep Part p k (component :: next :: path)

/-- One of the two loses the path, and the other follows it to its end. -/
inductive Parts : Place → Nat → List String → Prop where
  /-- The type that the search has come to has no such member or element. -/
  | lost {p p' k component path} :
    Selects g bounds p component p' → (∀ x, ¬ Finds g k component x) → Valid g bounds p' path →
    Parts p k (component :: path)
  /-- The path goes on, but the search has come to a type without members and elements. -/
  | ended {p p' k x m component next path} :
    Selects g bounds p component p' → Finds g k component x →
    resolveDerivedTypeBaseType g (some x) = .ok (some m) → isComposite g m = false →
    Valid g bounds p' (next :: path) → Parts p k (component :: next :: path)
  /-- In C the component is no member, and no index below the bound. -/
  | outside {p k component path y} :
    (∀ p', ¬ Selects g bounds p component p') → Reads g k (component :: path) y →
    Parts p k (component :: path)

/-- The ways of accepting a path that is not valid, or of rejecting one that is. -/
inductive Mistakes : Nat → List String → Prop where
  /-- What is no index below the bound is taken for one. -/
  | loose {a name bits base elements component path y} :
    g.node a = .composite .arrayType name bits base elements → ¬ InBounds bounds a 0 component →
    Reads g a (component :: path) y → Mistakes a (component :: path)
  /-- The path goes on behind an element that is a pointer. -/
  | pointer {a name bits x elements bound component next path y} :
    g.node a = .composite .arrayType name bits (some x) elements → bounds a = [bound] →
    InBounds bounds a 0 component → isPointer g x →
    Reads g a (component :: next :: path) y → Mistakes a (component :: next :: path)
  /-- An array of several dimensions has one component for all of them: the first index leads C to a row and
  the search to the element type, and somewhere behind they part. -/
  | rows {a name bits base elements component path} :
    g.node a = .composite .arrayType name bits base elements → 1 < (bounds a).length →
    InBounds bounds a 0 component → InStep g bounds (Parts g bounds) ⟨a, 0⟩ a (component :: path) →
    Mistakes a (component :: path)
  /-- A qualified structure without a name is not entered. -/
  | anonymous {c x name bits b field path} :
    HasMember g (bare g) field c x → ¬ HasMember g (plain g) field c x →
    g.node x = .derived .member name bits (some b) → Valid g bounds ⟨b, 0⟩ path →
    Mistakes c (field :: path)
  /-- A qualified type ends the path. -/
  | qualified {c x k b component next path} :
    Finds g c component x → resolveDerivedTypeBaseType g (some x) = .ok (some k) →
    isComposite g k = false → Selects g bounds ⟨c, 0⟩ component ⟨b, 0⟩ →
    Valid g bounds ⟨b, 0⟩ (next :: path) → Mistakes c (component :: next :: path)

/-- The path has the property from the first component on where the search and C part. -/
def FirstAt (K : Nat → List String → Prop) (c : Nat) (path : List String) : Prop :=
  ∃ front k rest, path = front ++ rest ∧ Along g bounds c front k ∧ K k rest

/-- The first component on which the search and C do not agree makes a difference. -/
def Misled (c : Nat) (path : List String) : Prop := FirstAt g bounds (Mistakes g bounds) c path

end Accepts

variable {g : DebugInfo} {bounds : Nat → List Nat} {b c k a m x y : Nat} {p p' q : Place}
variable {component next : String} {path rest front : List String}

/-! ### Steps of both -/

/-- What a component on which both go on hands to the rest of the path is handed to where they part. -/
lemma inStep_of {Part P : Place → Nat → List String → Prop}
    (on : ∀ {p p' k x m component next path}, Selects g bounds p component p' → Finds g k component x →
      resolveDerivedTypeBaseType g (some x) = .ok (some m) → isComposite g m →
      P p k (component :: next :: path) → P p' m (next :: path))
    (part : ∀ {p k component path}, isComposite g k →
      (∀ p' x m, Selects g bounds p component p' → Finds g k component x →
        resolveDerivedTypeBaseType g (some x) = .ok (some m) → path ≠ [] → isComposite g m = false) →
      P p k (component :: path) → Part p k (component :: path))
    (composite : isComposite g k) (holds : P p k (component :: path)) :
    InStep g bounds Part p k (component :: path) := by
  induction path generalizing p k component with
  | nil => exact .part (part composite (fun _ _ _ _ _ _ more => absurd rfl more) holds)
  | cons next path ih =>
    by_cases both : ∃ p' x m, Selects g bounds p component p' ∧ Finds g k component x ∧
        resolveDerivedTypeBaseType g (some x) = .ok (some m) ∧ isComposite g m
    case pos =>
      obtain ⟨p', x, m, selects, finds, resolved, composite'⟩ := both
      have rest := on selects finds resolved composite' holds
      exact .on selects finds resolved composite' (ih composite' rest)
    case neg =>
      refine .part (part composite (fun p' x m selects finds resolved _ => ?_) holds)
      rw [Bool.eq_false_iff]
      exact fun composite' => both ⟨p', x, m, selects, finds, resolved, composite'⟩

/-- Behind a component that selects a place, the rest of the path decides. -/
lemma Selects.valid_iff (ctypes : CTypes g bounds) (selects : Selects g bounds p component p') :
    Valid g bounds p (component :: path) ↔ Valid g bounds p' path := by
  rw [valid_cons]
  constructor
  · rintro ⟨q, selects', valid⟩
    cases selects.unique ctypes selects'
    exact valid
  · exact fun valid => ⟨p', selects, valid⟩

/-- Where both go on, they read the path alike if they do so from there on. -/
lemma reads_valid_next (ctypes : CTypes g bounds) (selects : Selects g bounds p component p')
    (finds : Finds g k component x) (resolved : resolveDerivedTypeBaseType g (some x) = .ok (some m))
    (composite : isComposite g m) :
    ((∃ y, Reads g k (component :: next :: path) y) ↔ Valid g bounds p (component :: next :: path)) ↔
      ((∃ y, Reads g m (next :: path) y) ↔ Valid g bounds p' (next :: path)) := by
  have more := List.cons_ne_nil next path
  have reads_iff := fun y => reads_next_iff (y := y) ctypes finds resolved composite more
  rw [exists_congr reads_iff, selects.valid_iff ctypes]

/-- Where they part, they do not read the path alike. -/
lemma InStep.differ (ctypes : CTypes g bounds) (steps : InStep g bounds (Parts g bounds) p k path) :
    ¬ ((∃ y, Reads g k path y) ↔ Valid g bounds p path) := by
  induction steps with
  | part parts =>
    intro same
    cases parts with
    | lost selects none valid =>
      obtain ⟨y, reads⟩ := same.2 ((selects.valid_iff ctypes).2 valid)
      exact not_reads_of_not_finds none reads
    | ended selects finds resolved simple valid =>
      obtain ⟨y, reads⟩ := same.2 ((selects.valid_iff ctypes).2 valid)
      exact not_reads_behind ctypes finds resolved simple reads
    | outside none reads =>
      obtain ⟨p', selects, _⟩ := valid_cons.1 (same.1 ⟨_, reads⟩)
      exact none p' selects
  | on selects finds resolved composite _ ih =>
    rwa [reads_valid_next ctypes selects finds resolved composite]

/-- If they do not read the path alike and nothing breaks, they part somewhere. -/
lemma inStep_of_differ (ctypes : CTypes g bounds) (composite : isComposite g k)
    (unbroken : ¬ Breaks g k (component :: path))
    (differ : ¬ ((∃ y, Reads g k (component :: path) y) ↔ Valid g bounds p (component :: path))) :
    InStep g bounds (Parts g bounds) p k (component :: path) := by
  refine inStep_of (P := fun p k path => ¬ Breaks g k path ∧
    ¬ ((∃ y, Reads g k path y) ↔ Valid g bounds p path)) ?_ ?_ composite ⟨unbroken, differ⟩
  · rintro p p' k x m component next path selects finds resolved composite ⟨unbroken, differ⟩
    rw [reads_valid_next ctypes selects finds resolved composite] at differ
    rw [breaks_cons_iff ctypes finds resolved] at unbroken
    exact ⟨fun breaks => unbroken ⟨composite, breaks⟩, differ⟩
  · rintro p k component path - last ⟨unbroken, differ⟩
    by_cases selected : ∃ p', Selects g bounds p component p'
    case neg =>
      have invalid : ¬ Valid g bounds p (component :: path) := fun valid =>
        have ⟨p', selects, _⟩ := valid_cons.1 valid
        selected ⟨p', selects⟩
      by_cases reads : ∃ y, Reads g k (component :: path) y
      · obtain ⟨y, reads⟩ := reads
        exact .outside (fun p' selects => selected ⟨p', selects⟩) reads
      · exact absurd (iff_of_false reads invalid) differ
    case pos =>
      obtain ⟨p', selects⟩ := selected
      rw [selects.valid_iff ctypes] at differ
      by_cases found : ∃ x, Finds g k component x
      case neg =>
        have none : ∀ x, ¬ Finds g k component x := fun x finds => found ⟨x, finds⟩
        have unread : ¬ ∃ y, Reads g k (component :: path) y := fun ⟨y, reads⟩ =>
          not_reads_of_not_finds none reads
        by_cases valid : Valid g bounds p' path
        · exact .lost selects none valid
        · exact absurd (iff_of_false unread valid) differ
      case pos =>
        obtain ⟨x, finds⟩ := found
        obtain ⟨m, resolved⟩ : ∃ m, resolveDerivedTypeBaseType g (some x) = .ok (some m) := by
          cases resolved : resolveDerivedTypeBaseType g (some x) with
          | error e => exact absurd (.null finds resolved) unbroken
          | ok r =>
            obtain ⟨m, rfl⟩ := resolve_some resolved
            exact ⟨m, rfl⟩
        cases path with
        | nil => exact absurd (iff_of_true ⟨x, .last finds resolved⟩ valid_nil) differ
        | cons next path =>
          have simple := last p' x m selects finds resolved nofun
          have unread : ¬ ∃ y, Reads g k (component :: next :: path) y := fun ⟨y, reads⟩ =>
            not_reads_behind ctypes finds resolved simple reads
          by_cases valid : Valid g bounds p' (next :: path)
          · exact .ended selects finds resolved simple valid
          · exact absurd (iff_of_false unread valid) differ

/-! ### Mistakes -/

/-- What leads to the same type is no mistake. -/
lemma Together.not_mistakes (ctypes : CTypes g bounds) (together : Together g bounds c component x b k) :
    ¬ Mistakes g bounds c (component :: path) := by
  obtain ⟨finds, resolved, composite, selects, named⟩ := together
  intro mistakes
  cases mistakes with
  | loose node out =>
    obtain ⟨_, x, _, rfl, _⟩ := ctypes.array _ _ _ _ _ node
    exact out (inBounds_of_selects node selects)
  | pointer node single _ pointer =>
    obtain ⟨_, e⟩ := (selects_element_iff node single).1 selects
    cases e
    cases (bare_pointer pointer).symm.trans named
    rw [isPointer_simple pointer] at composite
    cases composite
  | rows node several =>
    obtain ⟨_, x, _, rfl, _⟩ := ctypes.array _ _ _ _ _ node
    cases ((selects_row_iff node several).1 selects).2
  | anonymous has hidden =>
    have record := has.record
    have has' := (finds_record_iff record).1 finds
    cases ctypes.unique _ _ _ _ has has'.entered
    exact hidden has'
  | qualified finds' resolved' simple =>
    cases finds.unique ctypes finds'
    cases resolved.symm.trans resolved'
    rw [simple] at composite
    cases composite

/-- A mistake makes a difference. -/
lemma Mistakes.differ (ctypes : CTypes g bounds) (mistakes : Mistakes g bounds c path) :
    ¬ ((∃ y, Reads g c path y) ↔ Valid g bounds ⟨c, 0⟩ path) := by
  cases mistakes with
  | loose node out reads =>
    intro same
    obtain ⟨p, selects, _⟩ := valid_cons.1 (same.1 ⟨_, reads⟩)
    obtain ⟨_, x, _, rfl, _⟩ := ctypes.array _ _ _ _ _ node
    exact out (inBounds_of_selects node selects)
  | pointer node single _ pointer reads =>
    intro same
    obtain ⟨p, selects, valid⟩ := valid_cons.1 (same.1 ⟨_, reads⟩)
    obtain ⟨_, rfl⟩ := (selects_element_iff node single).1 selects
    obtain ⟨p, selects, _⟩ := valid_cons.1 valid
    exact not_selects_pointer pointer selects
  | rows _ _ _ steps => exact steps.differ ctypes
  | anonymous has hidden node valid =>
    intro same
    have record := has.record
    obtain ⟨y, reads⟩ := same.2 (valid_cons.2
      ⟨_, (selects_record_iff record).2 ⟨_, _, _, _, has, node, rfl⟩, valid⟩)
    exact not_reads_of_not_finds (fun x => not_finds_hidden ctypes has hidden) reads
  | qualified finds resolved simple selects valid =>
    intro same
    obtain ⟨y, reads⟩ := same.2 (valid_cons.2 ⟨_, selects, valid⟩)
    exact not_reads_behind ctypes finds resolved simple reads

/-- A difference that is made at an array outside its bounds. -/
lemma mistakes_outside {name : String} {bits : Nat} {elements : List DINode}
    (node : g.node a = .composite .arrayType name bits (some x) elements)
    (outside : ¬ InBounds bounds a 0 component)
    (differ : ¬ ((∃ y, Reads g a (component :: path) y) ↔ Valid g bounds ⟨a, 0⟩ (component :: path))) :
    Mistakes g bounds a (component :: path) := by
  have invalid : ¬ Valid g bounds ⟨a, 0⟩ (component :: path) := by
    intro valid
    obtain ⟨p, selects, _⟩ := valid_cons.1 valid
    exact outside (inBounds_of_selects node selects)
  by_cases reads : ∃ y, Reads g a (component :: path) y
  · obtain ⟨y, reads⟩ := reads
    exact .loose node outside reads
  · exact absurd (iff_of_false reads invalid) differ

/-- A difference that is made at an array of one dimension. -/
lemma mistakes_element (ctypes : CTypes g bounds) {name : String} {bits bound : Nat}
    {elements : List DINode} (node : g.node a = .composite .arrayType name bits (some x) elements)
    (single : bounds a = [bound]) (apart : ∀ x b k, ¬ Together g bounds a component x b k)
    (unbroken : ¬ Breaks g a (component :: path))
    (differ : ¬ ((∃ y, Reads g a (component :: path) y) ↔ Valid g bounds ⟨a, 0⟩ (component :: path))) :
    Mistakes g bounds a (component :: path) := by
  by_cases inside : InBounds bounds a 0 component
  case neg => exact mistakes_outside node inside differ
  case pos =>
    have selects : Selects g bounds ⟨a, 0⟩ component ⟨x, 0⟩ :=
      (selects_element_iff node single).2 ⟨inside, rfl⟩
    rw [selects.valid_iff ctypes] at differ
    -- the component is read as well, as nothing breaks
    have ⟨finds, k, resolved⟩ : Finds g a component x ∧
        ∃ k, resolveDerivedTypeBaseType g (some x) = .ok (some k) := by
      have finds : Finds g a component x := by
        obtain ⟨_, i, _, numeral, _⟩ := inside
        cases read : stoi component with
        | error e => exact absurd (.stoi node read) unbroken
        | ok j => exact finds_numeral node numeral read
      refine ⟨finds, ?_⟩
      cases resolved : resolveDerivedTypeBaseType g (some x) with
      | error e => exact absurd (.null finds resolved) unbroken
      | ok r =>
        obtain ⟨k, rfl⟩ := resolve_some resolved
        exact ⟨k, rfl⟩
    cases path with
    | nil => exact absurd (iff_of_true ⟨x, .last finds resolved⟩ valid_nil) differ
    | cons next path =>
      cases pointer : isPointer g x with
      | true =>
        have invalid : ¬ Valid g bounds ⟨x, 0⟩ (next :: path) := fun valid =>
          have ⟨p, selects, _⟩ := valid_cons.1 valid
          not_selects_pointer pointer selects
        by_cases reads : ∃ y, Reads g a (component :: next :: path) y
        · obtain ⟨y, reads⟩ := reads
          exact .pointer node single inside pointer reads
        · exact absurd (iff_of_false reads invalid) differ
      | false =>
        obtain ⟨m, t, resolved', stripped, named⟩ := resolve_element ctypes node pointer
        cases resolved.symm.trans resolved'
        cases composite : isComposite g k with
        | true =>
          cases (bare_composite composite).symm.trans stripped
          exact absurd ⟨finds, resolved, composite, selects, named⟩ (apart x x k)
        | false =>
          have unread : ¬ ∃ y, Reads g a (component :: next :: path) y := fun ⟨y, reads⟩ =>
            not_reads_behind ctypes finds resolved composite reads
          by_cases valid : Valid g bounds ⟨x, 0⟩ (next :: path)
          · exact .qualified finds resolved composite selects valid
          · exact absurd (iff_of_false unread valid) differ

/-- A difference that is made at an array of several dimensions. -/
lemma mistakes_row (ctypes : CTypes g bounds) {name : String} {bits : Nat} {elements : List DINode}
    (node : g.node a = .composite .arrayType name bits (some x) elements)
    (several : 1 < (bounds a).length) (unbroken : ¬ Breaks g a (component :: path))
    (differ : ¬ ((∃ y, Reads g a (component :: path) y) ↔ Valid g bounds ⟨a, 0⟩ (component :: path))) :
    Mistakes g bounds a (component :: path) := by
  by_cases inside : InBounds bounds a 0 component
  case neg => exact mistakes_outside node inside differ
  case pos =>
    have composite : isComposite g a := by rw [isComposite, node]
    exact .rows node several inside (inStep_of_differ ctypes composite unbroken differ)

/-- A difference that is made at a structure or union. -/
lemma mistakes_record (ctypes : CTypes g bounds) (record : isRecord g c)
    (apart : ∀ x b k, ¬ Together g bounds c component x b k)
    (unbroken : ¬ Breaks g c (component :: path))
    (differ : ¬ ((∃ y, Reads g c (component :: path) y) ↔ Valid g bounds ⟨c, 0⟩ (component :: path))) :
    Mistakes g bounds c (component :: path) := by
  by_cases member : ∃ x, HasMember g (bare g) component c x
  case neg =>
    refine absurd (iff_of_false ?_ fun valid => ?_) differ
    · rintro ⟨y, reads⟩
      refine not_reads_of_not_finds (fun x finds => member ⟨x, ?_⟩) reads
      exact ((finds_record_iff record).1 finds).entered
    · obtain ⟨p, selects, _⟩ := valid_cons.1 valid
      obtain ⟨x, _, _, _, has, _⟩ := (selects_record_iff record).1 selects
      exact member ⟨x, has⟩
  case pos =>
    obtain ⟨x, has⟩ := member
    obtain ⟨name, bits, b, k, node, named⟩ := has.node ctypes
    have selects : Selects g bounds ⟨c, 0⟩ component ⟨b, 0⟩ :=
      (selects_record_iff record).2 ⟨x, name, bits, b, has, node, rfl⟩
    rw [selects.valid_iff ctypes] at differ
    by_cases entered : HasMember g (plain g) component c x
    case neg =>
      have unread : ¬ ∃ y, Reads g c (component :: path) y := fun ⟨y, reads⟩ =>
        not_reads_of_not_finds (fun x' => not_finds_hidden ctypes has entered) reads
      by_cases valid : Valid g bounds ⟨b, 0⟩ path
      · exact .anonymous has entered node valid
      · exact absurd (iff_of_false unread valid) differ
    case pos =>
      have finds : Finds g c component x := .member entered
      obtain ⟨m, resolved, stripped⟩ := resolve_member node named
      cases path with
      | nil => exact absurd (iff_of_true ⟨x, .last finds resolved⟩ valid_nil) differ
      | cons next path =>
        cases composite : isComposite g m with
        | true =>
          cases (bare_composite composite).symm.trans stripped
          exact absurd ⟨finds, resolved, composite, selects, named⟩ (apart x b _)
        | false =>
          have unread : ¬ ∃ y, Reads g c (component :: next :: path) y := fun ⟨y, reads⟩ =>
            not_reads_behind ctypes finds resolved composite reads
          by_cases valid : Valid g bounds ⟨b, 0⟩ (next :: path)
          · exact .qualified finds resolved composite selects valid
          · exact absurd (iff_of_false unread valid) differ

/-- Enumerations have no members. -/
lemma agree_other (composite : isComposite g c) (noRecord : ¬ isRecord g c)
    (noArray : (g.node c).getTag ≠ .arrayType) :
    (∃ y, Reads g c (component :: path) y) ↔ Valid g bounds ⟨c, 0⟩ (component :: path) := by
  refine iff_of_false ?_ fun valid => ?_
  · rintro ⟨y, reads⟩
    refine not_reads_of_not_finds (fun x finds => ?_) reads
    cases finds with
    | member has => exact noRecord has.record
    | element node =>
      rw [node] at noArray
      exact noArray rfl
  · obtain ⟨p, selects, _⟩ := valid_cons.1 valid
    cases selects with
    | member e has =>
      cases (bare_composite composite).symm.trans e
      exact noRecord has.record
    | row e node =>
      cases (bare_composite composite).symm.trans e
      rw [node] at noArray
      exact noArray rfl
    | element e node =>
      cases (bare_composite composite).symm.trans e
      rw [node] at noArray
      exact noArray rfl

/-- Where the search and C do not go on together, a difference is a mistake. -/
lemma mistakes_of_differ (ctypes : CTypes g bounds) (composite : isComposite g c)
    (apart : ∀ x b k, ¬ Together g bounds c component x b k)
    (unbroken : ¬ Breaks g c (component :: path))
    (differ : ¬ ((∃ y, Reads g c (component :: path) y) ↔ Valid g bounds ⟨c, 0⟩ (component :: path))) :
    Mistakes g bounds c (component :: path) := by
  obtain ⟨tag, name, bits, base, elements, node⟩ := isComposite_node composite
  by_cases array : tag = .arrayType
  case pos =>
    subst array
    obtain ⟨filled, x, _, rfl, _⟩ := ctypes.array _ _ _ _ _ node
    cases dims : bounds c with
    | nil => exact absurd dims filled
    | cons bound dims' =>
      cases dims' with
      | nil => exact mistakes_element ctypes node dims apart unbroken differ
      | cons bound' dims' =>
        refine mistakes_row ctypes node ?_ unbroken differ
        rw [dims]
        exact Nat.succ_lt_succ (Nat.succ_pos _)
  case neg =>
    have noArray : (g.node c).getTag ≠ .arrayType := by rwa [node]
    by_cases record : isRecord g c
    case pos => exact mistakes_record ctypes record apart unbroken differ
    case neg => exact absurd (agree_other composite record noArray) differ

/-- Behind components on which they go together, the search and C find what they find from there on. -/
lemma Together.reads_iff (ctypes : CTypes g bounds) (together : Together g bounds c component x b k)
    (more : path ≠ []) : Reads g c (component :: path) y ↔ Reads g k path y :=
  reads_next_iff ctypes together.finds together.resolved together.composite more

/-- Where they go on together, C comes by the rest of the path to the same places. -/
lemma Together.leads_iff (ctypes : CTypes g bounds) (together : Together g bounds c component x b k)
    (more : path ≠ []) :
    Leads g bounds ⟨c, 0⟩ (component :: path) q ↔ Leads g bounds ⟨k, 0⟩ path q := by
  rw [← leads_bare_iff together.named more]
  constructor
  · intro leads
    cases leads with
    | cons selects leads =>
      cases together.selects.unique ctypes selects
      exact leads
  · exact .cons together.selects

/-- Where they go on together, the rest of the path breaks or does not. -/
lemma Together.breaks_iff (ctypes : CTypes g bounds) (together : Together g bounds c component x b k) :
    Breaks g c (component :: path) ↔ Breaks g k path := by
  rw [breaks_cons_iff ctypes together.finds together.resolved]
  exact and_iff_right together.composite

/-- A property that is lost on components on which the search and C go together holds from the first other
component on exactly where it holds. -/
lemma firstAt_iff {K P S : Nat → List String → Prop} (ctypes : CTypes g bounds) (nil : ∀ c, ¬ K c [])
    (skip : ∀ c component x b k path, Together g bounds c component x b k → path ≠ [] →
      S c (component :: path) →
      ¬ K c (component :: path) ∧ S k path ∧ (P c (component :: path) ↔ P k path))
    (here : ∀ c path, isComposite g c → S c path →
      (∀ component rest x b k, path = component :: rest → rest ≠ [] →
        ¬ Together g bounds c component x b k) → (K c path ↔ P c path))
    (composite : isComposite g c) (holds : S c path) : FirstAt g bounds K c path ↔ P c path := by
  have start : ∀ c path, K c path → FirstAt g bounds K c path := fun c path k =>
    ⟨[], c, path, rfl, .nil c, k⟩
  induction path generalizing c with
  | nil =>
    rw [← here c [] composite holds nofun]
    refine ⟨?_, start c []⟩
    rintro ⟨front, k, rest, e, _, found⟩
    obtain ⟨rfl, rfl⟩ := List.append_eq_nil_iff.1 e.symm
    exact absurd found (nil k)
  | cons component path ih =>
    by_cases next : path ≠ [] ∧ ∃ x b k, Together g bounds c component x b k
    case pos =>
      obtain ⟨more, x, b, k, together⟩ := next
      obtain ⟨none, holds, same⟩ := skip c component x b k path together more holds
      refine Iff.trans ?_ ((ih together.composite holds).trans same.symm)
      constructor
      · rintro ⟨front, k', rest, e, along, found⟩
        cases along with
        | nil =>
          cases e
          exact absurd found none
        | cons together' along =>
          cases e
          cases together.finds.unique ctypes together'.finds
          cases together.resolved.symm.trans together'.resolved
          exact ⟨_, k', rest, rfl, along, found⟩
      · rintro ⟨front, k', rest, rfl, along, found⟩
        exact ⟨_, k', rest, rfl, .cons together along, found⟩
    case neg =>
      rw [← here c _ composite holds]
      · refine ⟨?_, start c _⟩
        rintro ⟨front, k, rest, e, along, found⟩
        cases along with
        | nil =>
          cases e
          exact found
        | cons together along =>
          cases e
          by_cases ended : rest = []
          case pos => exact absurd (ended ▸ found) (nil k)
          case neg =>
            refine absurd ⟨?_, _, _, _, together⟩ next
            exact fun e => ended (List.append_eq_nil_iff.1 e).2
      · rintro _ rest x b k ⟨⟩ more together
        exact next ⟨more, x, b, k, together⟩

/-- A path that breaks nothing is misled exactly if the search and C disagree on it. -/
lemma misled_iff (ctypes : CTypes g bounds) (composite : isComposite g c) (unbroken : ¬ Breaks g c path) :
    Misled g bounds c path ↔ ¬ ((∃ y, Reads g c path y) ↔ Valid g bounds ⟨c, 0⟩ path) := by
  refine firstAt_iff (S := fun c path => ¬ Breaks g c path)
    (P := fun c path => ¬ ((∃ y, Reads g c path y) ↔ Valid g bounds ⟨c, 0⟩ path)) ctypes (fun _ => nofun)
    ?_ ?_ composite unbroken
  · intro c component x b k path together more unbroken
    have reads_iff := fun y => together.reads_iff (y := y) ctypes more
    have leads_iff := fun q => together.leads_iff (q := q) ctypes more
    refine ⟨together.not_mistakes ctypes, fun breaks => unbroken ?_, ?_⟩
    · exact (together.breaks_iff ctypes).2 breaks
    · rw [exists_congr reads_iff, Valid, Valid, exists_congr leads_iff]
  · intro c path composite unbroken apart
    refine ⟨Mistakes.differ ctypes, fun differ => ?_⟩
    cases path with
    | nil => exact absurd (iff_of_true ⟨c, .nil c⟩ valid_nil) differ
    | cons component path =>
      refine mistakes_of_differ ctypes composite (fun x b k together => ?_) unbroken differ
      by_cases ended : path = []
      case pos =>
        subst ended
        refine differ (iff_of_true ⟨x, .last together.finds together.resolved⟩ ?_)
        exact valid_cons.2 ⟨_, together.selects, valid_nil⟩
      case neg => exact apart component path x b k rfl ended together

/-- `GEP` returns, and what it returns is empty exactly if the path is not valid in C. -/
def Accepts (g : DebugInfo) (bounds : Nat → List Nat) (c : Nat) (path : List String) : Prop :=
  ∃ out, GEP g (some c) path = .ok out ∧ (out ≠ [] ↔ Valid g bounds ⟨c, 0⟩ path)

/-- `GEP` accepts exactly the valid paths but where it breaks or is misled. -/
theorem gep_accepts_iff (ctypes : CTypes g bounds) (composite : isComposite g c) (path : List String) :
    Accepts g bounds c path ↔ ¬ Breaks g c path ∧ ¬ Misled g bounds c path := by
  rw [Accepts]
  cases GEP_outcome ctypes composite path with
  | @reads out i y reads e last =>
    have filled : out ≠ [] := by
      rintro rfl
      cases last
    have unbroken := reads.unbroken ctypes
    rw [misled_iff ctypes composite unbroken, and_iff_right unbroken, not_not]
    constructor
    · rintro ⟨out', e', same⟩
      cases e.symm.trans e'
      exact iff_of_true ⟨y, reads⟩ (same.1 filled)
    · exact fun same => ⟨out, e, iff_of_true filled (same.1 ⟨y, reads⟩)⟩
  | nothing none unbroken e =>
    have unread : ¬ ∃ y, Reads g c path y := fun ⟨y, reads⟩ => none y reads
    rw [misled_iff ctypes composite unbroken, and_iff_right unbroken, not_not]
    constructor
    · rintro ⟨out', e', same⟩
      cases e.symm.trans e'
      exact iff_of_false unread fun valid => same.2 valid rfl
    · exact fun same => ⟨[], e, iff_of_false (not_not.2 rfl) fun valid => unread (same.2 valid)⟩
  | breaks breaks e =>
    refine iff_of_false ?_ fun h => h.1 breaks
    rintro ⟨out, e', _⟩
    cases e.symm.trans e'

/-- `struct S { int values[3]; }` -/
def valuesDebug : DebugInfo :=
  .ofList [.composite .structureType "S" 96 none [.type 1], .derived .member "values" 96 (some 2),
    .composite .arrayType "" 96 (some 3) [.other], .basic "int" 32] (by decide)

/-- The bounds of the arrays. -/
def valuesBounds (n : Nat) : List Nat := if n = 2 then [3] else []

/-- The structure has one member. -/
lemma values_member {enter : Nat → Option Nat} {field : String}
    (has : HasMember valuesDebug enter field c x) : c = 0 ∧ x = 1 ∧ field = "values" := by
  have root : ∀ c m, isRecord valuesDebug c → .type m ∈ (valuesDebug.node c).elements →
      c = 0 ∧ m = 1 := by
    intro c m record mem
    rcases c with _ | _ | _ | _ | c
    · cases List.mem_singleton.1 mem
      exact ⟨rfl, rfl⟩
    · cases record
    · cases record
    · cases record
    · cases record
  cases has with
  | named record mem node =>
    obtain ⟨rfl, rfl⟩ := root _ _ record mem
    cases node
    exact ⟨rfl, rfl, rfl⟩
  | inside record mem node =>
    obtain ⟨rfl, rfl⟩ := root _ _ record mem
    exact absurd (DIType.derived.inj node).2.1 (by decide)

/-- The debug types are those of C. -/
lemma values_ctypes : CTypes valuesDebug valuesBounds where
  member c m composite noArray mem := by
    rcases c with _ | _ | _ | _ | c
    · cases List.mem_singleton.1 mem
      exact ⟨rfl, "values", 96, 2, 2, rfl, rfl, nofun⟩
    · cases composite
    · exact absurd rfl noArray
    · cases composite
    · cases composite
  array a name bits base elements node := by
    rcases a with _ | _ | _ | _ | a
    · cases node
    · cases node
    · cases node
      exact ⟨nofun, 3, 3, rfl, rfl, nofun⟩
    · cases node
    · cases node
  unique field c x x' has has' := by
    exact (values_member has).2.1.trans (values_member has').2.1.symm

/-- The member is selected. -/
lemma values_selects : Selects valuesDebug valuesBounds ⟨0, 0⟩ "values" ⟨2, 0⟩ := by
  have has : HasMember valuesDebug (bare valuesDebug) "values" 0 1 :=
    .named rfl (.head _) rfl (by decide)
  exact .member (n := 0) (c := 0) (b := 2) rfl has rfl

/-- The array has three elements. -/
lemma values_element_iff {component : String} {q : Place} :
    Selects valuesDebug valuesBounds ⟨2, 0⟩ component q ↔
      InBounds valuesBounds 2 0 component ∧ q = ⟨3, 0⟩ :=
  selects_element_iff (x := 3) rfl rfl

/-- The last element is selected. -/
theorem gep_accepts_iff_values : ¬ Breaks valuesDebug 0 ["values", "2"] ∧
    ¬ Misled valuesDebug valuesBounds 0 ["values", "2"] := by
  have inside : InBounds valuesBounds 2 0 "2" := ⟨3, 2, rfl, rfl, by decide⟩
  have valid : Valid valuesDebug valuesBounds ⟨0, 0⟩ ["values", "2"] :=
    ⟨⟨3, 0⟩, .cons values_selects (.cons (values_element_iff.2 ⟨inside, rfl⟩) (.nil _))⟩
  have ran : GEP valuesDebug (some 0) ["values", "2"] =
      .ok [⟨0, some 0⟩, ⟨0, some 1⟩, ⟨2, some 3⟩] := by decide
  exact (gep_accepts_iff values_ctypes rfl _).1 ⟨_, ran, iff_of_true nofun valid⟩

/-- The element behind the last one is selected as well. -/
theorem gep_accepts_out_of_bounds : ¬ Accepts valuesDebug valuesBounds 0 ["values", "3"] := by
  rintro ⟨out, e, same⟩
  have ran : GEP valuesDebug (some 0) ["values", "3"] =
      .ok [⟨0, some 0⟩, ⟨0, some 1⟩, ⟨3, some 3⟩] := by decide
  cases ran.symm.trans e
  obtain ⟨p, selects, valid⟩ := valid_cons.1 (same.1 nofun)
  cases selects.unique values_ctypes values_selects
  obtain ⟨p, selects, _⟩ := valid_cons.1 valid
  obtain ⟨bound, i, dimension, numeral, lt⟩ := (values_element_iff.1 selects).1
  cases dimension
  cases numeral
  exact absurd lt (by decide)

end Irx.Debug
