import Irx.Debug.Labels

/-!
# Which sizes of fields are right

`getStructFieldInfo2` reads the size from the debug type that a path ends at: a member has the size of its
type, but the element type of an array may be a typedef, which has none, or a structure, for which
`getDIFieldSize` fails. `size_iff` says for which valid paths the answer is the size in C.
-/

namespace Irx.Debug
open Irx.Lib

/-- The size of a type in C, in bits. -/
def bitsOf (g : DebugInfo) (n : Nat) : Nat := (bare g n).elim 0 fun k => (g.node k).sizeInBits

/-- The sizes that compilers write for types without bit-fields. -/
structure Sizing (g : DebugInfo) : Prop where
  bytes : ∀ n, (g.node n).getTag ≠ .member → (g.node n).sizeInBits % 8 = 0
  field : ∀ x name bits b, g.node x = .derived .member name bits (some b) → bits = bitsOf g b ∧ bits % 8 = 0
  typedef : ∀ n name bits base, g.node n = .derived .typedef name bits base → bits = 0

/-- A basic type, a pointer or a structure, or a typedef of one. -/
def Elementary (g : DebugInfo) (n : Nat) : Prop :=
  ∃ m, stripTypedefs g (g.rank n + 1) n = .ok m ∧ ((∃ name bits, g.node m = .basic name bits) ∨
    isPointer g m ∨ (isRecord g m ∧ (g.node m).getTag = .structureType))

/-- The path leads to a member, or to an element of such a type. -/
inductive Addresses (g : DebugInfo) (bounds : Nat → List Nat) : Place → List String → Place → Prop where
  | field {p component q k} :
    Selects g bounds p component q → bare g p.type = some k → isRecord g k →
    Addresses g bounds p [component] q
  | element {p component n} :
    Selects g bounds p component ⟨n, 0⟩ → Elementary g n → Addresses g bounds p [component] ⟨n, 0⟩
  | cons {p p' q component path} :
    Selects g bounds p component p' → Addresses g bounds p' path q →
    Addresses g bounds p (component :: path) q

/-- The answer for the path is the size in C. -/
def SaysSize (M : IRModule) (name : String) (path : List String) (caches : Caches) (q : Place) : Prop :=
  ∃ r, getStructFieldInfo2 M name path caches = .ok r ∧ r.1.size_in_bytes = bitsOf M.debug q.type / 8

/-- The path is read to an end of this size in bytes, or not read while the size is zero. -/
def Sized (g : DebugInfo) (c : Nat) (path : List String) (s : Nat) : Prop :=
  path ≠ [] ∧ ((∃ y bits, Reads g c path y ∧ getDIFieldSize g (some y) = .ok bits ∧ bits / 8 = s) ∨
    ((∀ y, ¬ Reads g c path y) ∧ ¬ Breaks g c path ∧ s = 0))

/-- The search, which has come to the type, does not come to a debug type of the size `s`. -/
inductive Mismeasures (g : DebugInfo) (s : Nat) : Place → Nat → List String → Prop where
  /-- The index is no `int`. -/
  | large {p k name bits base elements component path e} :
    g.node k = .composite .arrayType name bits base elements → stoi component = .error e →
    Mismeasures g s p k (component :: path)
  /-- The type has no such member or element. -/
  | lost {p k component path} :
    (∀ x, ¬ Finds g k component x) → s ≠ 0 → Mismeasures g s p k (component :: path)
  /-- The element is a pointer to `void`. -/
  | void {p k x e component path} :
    Finds g k component x → resolveDerivedTypeBaseType g (some x) = .error e →
    Mismeasures g s p k (component :: path)
  /-- The path goes on, but the search has come to a type without members and elements. -/
  | ended {p k x m component next path} :
    Finds g k component x → resolveDerivedTypeBaseType g (some x) = .ok (some m) → isComposite g m = false →
    s ≠ 0 → Mismeasures g s p k (component :: next :: path)
  /-- The path ends at a debug type of no size or of another one. -/
  | last {p k x m component} :
    Finds g k component x → resolveDerivedTypeBaseType g (some x) = .ok (some m) →
    (∀ bits, getDIFieldSize g (some x) = .ok bits → bits / 8 ≠ s) → Mismeasures g s p k [component]

/-- The ways of giving a size `s` wrongly. -/
inductive Missizes (g : DebugInfo) (bounds : Nat → List Nat) (s : Nat) : Nat → List String → Prop where
  /-- The element type is a typedef. -/
  | typedef {a name bits x elements bound component name' bits' base} :
    g.node a = .composite .arrayType name bits (some x) elements → bounds a = [bound] →
    g.node x = .derived .typedef name' bits' base → s ≠ 0 → Missizes g bounds s a [component]
  /-- The elements are structures. -/
  | struct {a name bits x elements bound component} :
    g.node a = .composite .arrayType name bits (some x) elements → bounds a = [bound] →
    Finds g a component x → isComposite g x → Missizes g bounds s a [component]
  /-- The elements are pointers to `void`. -/
  | void {a name bits x elements bound component e} :
    g.node a = .composite .arrayType name bits (some x) elements → bounds a = [bound] →
    Finds g a component x → resolveDerivedTypeBaseType g (some x) = .error e →
    Missizes g bounds s a [component]
  /-- The way leads by an index that is no `int`. -/
  | large {a name bits base elements component path e} :
    g.node a = .composite .arrayType name bits base elements → stoi component = .error e →
    Missizes g bounds s a (component :: path)
  /-- It leads into a qualified structure without a name. -/
  | anonymous {c x field path} :
    HasMember g (bare g) field c x → ¬ HasMember g (plain g) field c x → s ≠ 0 →
    Missizes g bounds s c (field :: path)
  /-- It leads into another qualified type. -/
  | cut {c x m component next path} :
    Finds g c component x → resolveDerivedTypeBaseType g (some x) = .ok (some m) →
    isComposite g m = false → s ≠ 0 → Missizes g bounds s c (component :: next :: path)
  /-- An array of several dimensions has one component for all of them: the first index leads C to a row and
  the search to the element type, and behind it no debug type of this size is met. -/
  | rows {a name bits base elements component path} :
    g.node a = .composite .arrayType name bits base elements → 1 < (bounds a).length →
    InStep g bounds (Mismeasures g s) ⟨a, 0⟩ a (component :: path) →
    Missizes g bounds s a (component :: path)

variable {M : IRModule} {g : DebugInfo} {bounds : Nat → List Nat} {c a b k m n s x y : Nat}
variable {p q : Place} {component : String} {path : List String} {caches : Caches}

/-- The path is valid. -/
lemma Addresses.leads (addresses : Addresses g bounds p path q) : Leads g bounds p path q := by
  induction addresses with
  | field selects => exact .cons selects (.nil _)
  | element selects => exact .cons selects (.nil _)
  | cons selects _ ih => exact .cons selects ih

/-- Addresses from a type are those from what it names. -/
lemma Addresses.of_bare (e : bare g n = some k) (addresses : Addresses g bounds ⟨n, 0⟩ path q) :
    Addresses g bounds ⟨k, 0⟩ path q := by
  have own : bare g k = some k := bare_self (bare_own e)
  cases addresses with
  | field selects e' record =>
    cases e.symm.trans e'
    exact .field ((Selects.bare_iff e).1 selects) own record
  | element selects elementary => exact .element ((Selects.bare_iff e).1 selects) elementary
  | cons selects rest => exact .cons ((Selects.bare_iff e).1 selects) rest

/-! ### The answer -/

/-- What a path is read to resolves to a type. -/
lemma Reads.resolves (reads : Reads g c path y) (more : path ≠ []) :
    ∃ m, resolveDerivedTypeBaseType g (some y) = .ok (some m) := by
  induction reads with
  | nil => exact absurd rfl more
  | last _ resolved => exact ⟨_, resolved⟩
  | cons _ _ _ _ ih => exact ih nofun

/-- The answer has the size `s` exactly where the path is read to an end of this size, or where nothing is
read and `s` is zero. -/
lemma answer_size_iff (ctypes : CTypes M.debug bounds) (composite : isComposite M.debug c) {name : String}
    {cache : Option (String → Option (Option Nat))}
    (found : findStructDebugInfo M name (some caches.di) = .ok (some c, cache)) :
    (∃ r, getStructFieldInfo2 M name path caches = .ok r ∧ r.1.size_in_bytes = s) ↔
      Sized M.debug c path s := by
  rw [getStructFieldInfo2, found, ok_bind]
  simp only
  cases GEP_outcome ctypes composite path with
  | @reads out i y reads e last =>
    rw [e, ok_bind, fieldInfo]
    simp only [last]
    constructor
    · rintro ⟨r, ran, size⟩
      obtain ⟨info, told, ran⟩ := bind_eq_ok.1 ran
      cases ran
      obtain ⟨bits, sized, told⟩ := bind_eq_ok.1 told
      obtain ⟨DIBTy, _, told⟩ := bind_eq_ok.1 told
      obtain ⟨basicType, _, told⟩ := bind_eq_ok.1 told
      cases told
      exact ⟨reads.not_nil composite sized, .inl ⟨y, bits, reads, sized, size⟩⟩
    · rintro ⟨more, ⟨y', bits, reads', sized, size⟩ | ⟨none, _⟩⟩
      · cases reads.unique ctypes reads'
        obtain ⟨m, resolved⟩ := reads.resolves more
        obtain ⟨text, typed⟩ := DIType2StringType_ok (g := M.debug) (some m)
        rw [sized, ok_bind, resolved, ok_bind, typed, ok_bind, ok_bind]
        exact ⟨_, rfl, size⟩
      · exact absurd reads (none y)
  | nothing none unbroken e =>
    rw [e, ok_bind]
    constructor
    · rintro ⟨r, ran, size⟩
      cases ran
      refine ⟨?_, .inr ⟨none, unbroken, size.symm⟩⟩
      rintro rfl
      exact none c (.nil c)
    · rintro ⟨_, ⟨y, _, reads, _⟩ | ⟨_, _, rfl⟩⟩
      · exact absurd reads (none y)
      · exact ⟨_, rfl, rfl⟩
  | breaks breaks e =>
    rw [e]
    refine iff_of_false ?_ ?_
    · rintro ⟨r, ran, _⟩
      cases ran
    · rintro ⟨_, ⟨y, _, reads, _⟩ | ⟨_, unbroken, _⟩⟩
      · exact reads.unbroken ctypes breaks
      · exact unbroken breaks

/-! ### Where the size is wrong -/

/-- Where nothing is read, the size is zero. -/
lemma sized_unread_iff (none : ∀ y, ¬ Reads g c (component :: path) y)
    (unbroken : ¬ Breaks g c (component :: path)) : Sized g c (component :: path) s ↔ s = 0 := by
  constructor
  · rintro ⟨_, ⟨y, _, reads, _⟩ | ⟨_, _, zero⟩⟩
    · exact absurd reads (none y)
    · exact zero
  · exact fun zero => ⟨nofun, .inr ⟨none, unbroken, zero⟩⟩

/-- Where the path ends at a found component, the debug type found has the size. -/
lemma sized_last_iff (ctypes : CTypes g bounds) (finds : Finds g c component x)
    (resolved : resolveDerivedTypeBaseType g (some x) = .ok (some m)) :
    Sized g c [component] s ↔ ∃ bits, getDIFieldSize g (some x) = .ok bits ∧ bits / 8 = s := by
  constructor
  · rintro ⟨_, ⟨y, bits, reads, sized, size⟩ | ⟨none, _⟩⟩
    · cases reads with
      | last finds' =>
        cases finds.unique ctypes finds'
        exact ⟨bits, sized, size⟩
    · exact absurd (.last finds resolved) (none x)
  · rintro ⟨bits, sized, size⟩
    exact ⟨nofun, .inl ⟨x, bits, .last finds resolved, sized, size⟩⟩

/-- A path that breaks has no size. -/
lemma not_sized_of_breaks (ctypes : CTypes g bounds) (breaks : Breaks g c path) : ¬ Sized g c path s := by
  rintro ⟨_, ⟨y, _, reads, _⟩ | ⟨_, unbroken, _⟩⟩
  · exact reads.unbroken ctypes breaks
  · exact unbroken breaks

/-- Where the search goes on in a composite type, the size is that of the rest of the path. -/
lemma sized_next_iff (ctypes : CTypes g bounds) (finds : Finds g c component x)
    (resolved : resolveDerivedTypeBaseType g (some x) = .ok (some m)) (composite : isComposite g m)
    (more : path ≠ []) : Sized g c (component :: path) s ↔ Sized g m path s := by
  rw [Sized, Sized, breaks_cons_iff ctypes finds resolved, and_iff_right composite]
  simp only [reads_next_iff ctypes finds resolved composite more]
  exact and_congr_left fun _ => iff_of_true nofun more

/-- Together with C, the size is that of the rest of the path. -/
lemma Together.sized_iff (ctypes : CTypes g bounds) (together : Together g bounds c component x b k)
    (more : path ≠ []) : Sized g c (component :: path) s ↔ Sized g k path s :=
  sized_next_iff ctypes together.finds together.resolved together.composite more

/-- A derived type has the size that is written for it. -/
lemma getDIFieldSize_derived {tag : Tag} {name : String} {bits : Nat} {base : Option Nat}
    (node : g.node x = .derived tag name bits base) (whole : bits % 8 = 0) :
    getDIFieldSize g (some x) = .ok bits := by
  rw [getDIFieldSize]
  simp only [node]
  rw [ok_bind, if_pos (and_seven whole)]

/-- For a composite type there is no size. -/
lemma getDIFieldSize_composite (composite : isComposite g x) :
    getDIFieldSize g (some x) = .error .assertion := by
  obtain ⟨_, _, _, _, _, node⟩ := isComposite_node composite
  rw [getDIFieldSize]
  simp only [node]
  rfl

/-- A composite type resolves to itself. -/
lemma resolve_composite (composite : isComposite g x) :
    resolveDerivedTypeBaseType g (some x) = .ok (some x) := by
  obtain ⟨_, _, _, _, _, node⟩ := isComposite_node composite
  rw [resolveDerivedTypeBaseType, node]
  show (stripTypedefs g (g.rank x + 1) x).map some = _
  rw [stripTypedefs, node]
  rfl

/-- Where no debug type of the size is met, the size is wrong. -/
lemma InStep.mismeasured (ctypes : CTypes g bounds) (steps : InStep g bounds (Mismeasures g s) p k path) :
    ¬ Sized g k path s := by
  induction steps with
  | part mismeasures =>
    cases mismeasures with
    | large node read => exact not_sized_of_breaks ctypes (.stoi node read)
    | lost none filled =>
      rintro ⟨_, ⟨y, _, reads, _⟩ | ⟨_, _, zero⟩⟩
      · exact not_reads_of_not_finds none reads
      · exact filled zero
    | void finds broken => exact not_sized_of_breaks ctypes (.null finds broken)
    | ended finds resolved simple filled =>
      rw [sized_unread_iff (fun y => not_reads_behind ctypes finds resolved simple)
        (not_breaks_behind ctypes finds resolved simple)]
      exact filled
    | last finds resolved other =>
      rw [sized_last_iff ctypes finds resolved]
      rintro ⟨bits, sized, same⟩
      exact other bits sized same
  | on _ finds resolved composite _ ih =>
    rwa [sized_next_iff ctypes finds resolved composite (List.cons_ne_nil _ _)]

/-- If the size is wrong, no debug type of the size is met. -/
lemma inStep_of_not_sized (ctypes : CTypes g bounds) (valid : Valid g bounds p (component :: path))
    (composite : isComposite g k) (differ : ¬ Sized g k (component :: path) s) :
    InStep g bounds (Mismeasures g s) p k (component :: path) := by
  refine inStep_of (P := fun p k path => Valid g bounds p path ∧ ¬ Sized g k path s) ?_ ?_ composite
    ⟨valid, differ⟩
  · rintro p p' k x m component next path selects finds resolved composite ⟨valid, differ⟩
    rw [sized_next_iff ctypes finds resolved composite (List.cons_ne_nil _ _)] at differ
    exact ⟨(selects.valid_iff ctypes).1 valid, differ⟩
  · rintro p k component path - last ⟨valid, differ⟩
    obtain ⟨p', selects, _⟩ := valid_cons.1 valid
    by_cases found : ∃ x, Finds g k component x
    case neg =>
      have none : ∀ x, ¬ Finds g k component x := fun x finds => found ⟨x, finds⟩
      by_cases breaks : Breaks g k (component :: path)
      case pos =>
        cases breaks with
        | stoi node read => exact .large node read
        | null finds => exact absurd finds (none _)
        | later finds => exact absurd finds (none _)
      case neg =>
        rw [sized_unread_iff (fun y => not_reads_of_not_finds none) breaks] at differ
        exact .lost none differ
    case pos =>
      obtain ⟨x, finds⟩ := found
      cases resolved : resolveDerivedTypeBaseType g (some x) with
      | error e => exact .void finds resolved
      | ok r =>
        obtain ⟨m, rfl⟩ := resolve_some resolved
        cases path with
        | nil =>
          rw [sized_last_iff ctypes finds resolved] at differ
          exact .last finds resolved fun bits sized same => differ ⟨bits, sized, same⟩
        | cons next path =>
          have simple := last p' x m selects finds resolved nofun
          rw [sized_unread_iff (fun y => not_reads_behind ctypes finds resolved simple)
            (not_breaks_behind ctypes finds resolved simple)] at differ
          exact .ended finds resolved simple differ

/-- The wrong sizes are wrong. -/
lemma Missizes.differ (ctypes : CTypes g bounds) (sizing : Sizing g)
    (missizes : Missizes g bounds s c path) : ¬ Sized g c path s := by
  cases missizes with
  | typedef node single node' filled =>
    rintro ⟨_, ⟨y, bits, reads, sized, size⟩ | ⟨_, _, zero⟩⟩
    · cases reads with
      | last finds =>
        obtain ⟨rfl, _⟩ := (finds_array_iff node).1 finds
        cases sizing.typedef _ _ _ _ node'
        cases (getDIFieldSize_derived node' rfl).symm.trans sized
        exact filled size.symm
    · exact filled zero
  | struct node single finds composite =>
    rw [sized_last_iff ctypes finds (resolve_composite composite)]
    rintro ⟨bits, sized, _⟩
    cases (getDIFieldSize_composite composite).symm.trans sized
  | void node single finds broken => exact not_sized_of_breaks ctypes (.null finds broken)
  | large node read => exact not_sized_of_breaks ctypes (.stoi node read)
  | anonymous has hidden filled =>
    rw [sized_unread_iff (fun y => not_reads_of_not_finds fun x => not_finds_hidden ctypes has hidden)
      (not_breaks_hidden ctypes has hidden)]
    exact filled
  | cut finds resolved simple filled =>
    rw [sized_unread_iff (fun y => not_reads_behind ctypes finds resolved simple)
      (not_breaks_behind ctypes finds resolved simple)]
    exact filled
  | rows _ _ steps => exact steps.mismeasured ctypes

/-- None of them is given where the search and C go on together. -/
lemma Together.not_missizes (ctypes : CTypes g bounds) (together : Together g bounds c component x b k)
    (more : path ≠ []) : ¬ Missizes g bounds s c (component :: path) := by
  obtain ⟨finds, resolved, composite, selects, named⟩ := together
  intro missizes
  cases missizes with
  | typedef => exact more rfl
  | struct => exact more rfl
  | void => exact more rfl
  | large node read => exact finds.not_stoi node read
  | anonymous has hidden => exact not_finds_hidden ctypes has hidden finds
  | cut finds' resolved' simple =>
    cases finds.unique ctypes finds'
    cases resolved.symm.trans resolved'
    rw [simple] at composite
    cases composite
  | rows node several =>
    obtain ⟨_, x, _, rfl, _⟩ := ctypes.array _ _ _ _ _ node
    cases ((selects_row_iff node several).1 selects).2

/-- A path that goes on behind a found debug type. -/
lemma missizes_behind (ctypes : CTypes g bounds) {next : String} (finds : Finds g c component x)
    (resolved : resolveDerivedTypeBaseType g (some x) = .ok (some m))
    (selects : Selects g bounds ⟨c, 0⟩ component ⟨b, 0⟩) (stripped : bare g m = some k)
    (named : bare g b = some k) (apart : ∀ x b k, ¬ Together g bounds c component x b k)
    (differ : ¬ Sized g c (component :: next :: path) s) :
    Missizes g bounds s c (component :: next :: path) := by
  cases composite : isComposite g m with
  | true =>
    cases (bare_composite composite).symm.trans stripped
    exact absurd ⟨finds, resolved, composite, selects, named⟩ (apart x b _)
  | false =>
    rw [sized_unread_iff (fun y => not_reads_behind ctypes finds resolved composite)
      (not_breaks_behind ctypes finds resolved composite)] at differ
    exact .cut finds resolved composite differ

/-- An element of an array of elementary types. -/
lemma missizes_element (ctypes : CTypes g bounds) (sizing : Sizing g) {name : String} {bits bound : Nat}
    {elements : List DINode} (node : g.node a = .composite .arrayType name bits (some x) elements)
    (single : bounds a = [bound]) (finds : Finds g a component x) (elementary : Elementary g x)
    (differ : ¬ Sized g a [component] (bitsOf g x / 8)) :
    Missizes g bounds (bitsOf g x / 8) a [component] := by
  obtain ⟨m, stripped, kind⟩ := elementary
  rw [stripTypedefs] at stripped
  split at stripped
  case h_1 base node' =>
    have noPointer : isPointer g x = false := by rw [isPointer, node']; rfl
    obtain ⟨_, _, resolved, _⟩ := resolve_element ctypes node noPointer
    refine .typedef node single node' fun zero => differ ?_
    -- a typedef has the size zero
    cases sizing.typedef _ _ _ _ node'
    exact (sized_last_iff ctypes finds resolved).2 ⟨0, getDIFieldSize_derived node' rfl, zero.symm⟩
  case h_2 noTypedef =>
    cases stripped
    have bytes := sizing.bytes x
    obtain ⟨name', bits', node'⟩ | pointer | ⟨record, _⟩ := kind
    · have own : bitsOf g x = bits' := by
        rw [bitsOf, bare_basic node', Option.elim_some, node']
        rfl
      have noPointer : isPointer g x = false := by rw [isPointer, node']
      have sized : getDIFieldSize g (some x) = .ok bits' := by
        rw [node'] at bytes
        rw [getDIFieldSize]
        simp only [node']
        exact if_pos (and_seven (bytes (by rw [DIType.getTag]; decide)))
      obtain ⟨_, _, resolved, _⟩ := resolve_element ctypes node noPointer
      exact absurd ((sized_last_iff ctypes finds resolved).2 ⟨bits', sized, by rw [own]⟩) differ
    · cases resolved : resolveDerivedTypeBaseType g (some x) with
      | error e => exact .void node single finds resolved
      | ok r =>
        obtain ⟨k, rfl⟩ := resolve_some resolved
        obtain ⟨tag, name', bits', base, node'⟩ : ∃ tag name bits base,
            g.node x = .derived tag name bits base ∧ tag = .pointerType := by
          rw [isPointer] at pointer
          split at pointer
          case h_1 node' => exact ⟨_, _, _, _, node', of_decide_eq_true pointer⟩
          case h_2 => cases pointer
        obtain ⟨node', rfl⟩ := node'
        have own : bitsOf g x = bits' := by
          rw [bitsOf, bare_pointer pointer, Option.elim_some, node']
          rfl
        rw [node'] at bytes
        have sized := getDIFieldSize_derived node' (bytes (by rw [DIType.getTag]; decide))
        exact absurd ((sized_last_iff ctypes finds resolved).2 ⟨bits', sized, by rw [own]⟩) differ
    · exact .struct node single finds (isRecord_composite record)

/-- A size that is wrong at a component where the search and C part is one of the list. -/
lemma missizes_of_differ (ctypes : CTypes g bounds) (sizing : Sizing g)
    (addresses : Addresses g bounds ⟨c, 0⟩ (component :: path) q) (composite : isComposite g c)
    (apart : path ≠ [] → ∀ x b k, ¬ Together g bounds c component x b k)
    (differ : ¬ Sized g c (component :: path) (bitsOf g q.type / 8)) :
    Missizes g bounds (bitsOf g q.type / 8) c (component :: path) := by
  have own := bare_composite composite
  -- what the component selects, and whether the path ends there
  obtain ⟨p, selects, rest⟩ : ∃ p, Selects g bounds ⟨c, 0⟩ component p ∧
      ((path = [] ∧ q = p ∧ (isRecord g c ∨ Elementary g p.type)) ∨ Addresses g bounds p path q) := by
    cases addresses with
    | field selects e record =>
      cases own.symm.trans e
      exact ⟨q, selects, .inl ⟨rfl, rfl, .inl record⟩⟩
    | element selects elementary => exact ⟨_, selects, .inl ⟨rfl, rfl, .inr elementary⟩⟩
    | cons selects addresses => exact ⟨_, selects, .inr addresses⟩
  have selects' := selects
  cases selects with
  | @member _ _ x _ _ _ _ e has node =>
    cases own.symm.trans e
    by_cases entered : HasMember g (plain g) component c x
    case neg =>
      rw [sized_unread_iff (fun y => not_reads_of_not_finds fun x => not_finds_hidden ctypes has entered)
        (not_breaks_hidden ctypes has entered)] at differ
      exact .anonymous has entered differ
    case pos =>
      obtain ⟨_, _, b, k, node', named⟩ := has.node ctypes
      cases node.symm.trans node'
      obtain ⟨m, resolved, stripped⟩ := resolve_member node named
      have finds : Finds g c component x := .member entered
      obtain ⟨rfl, rfl, _⟩ | addresses := rest
      · obtain ⟨rfl, whole⟩ := sizing.field _ _ _ _ node
        exact absurd ((sized_last_iff ctypes finds resolved).2
          ⟨_, getDIFieldSize_derived node whole, rfl⟩) differ
      · cases path with
        | nil => cases addresses
        | cons next path =>
          exact missizes_behind ctypes finds resolved selects' stripped named (apart nofun) differ
  | row e node _ _ _ several =>
    cases own.symm.trans e
    exact .rows node (by omega) (inStep_of_not_sized ctypes ⟨q, addresses.leads⟩ composite differ)
  | @element _ _ _ _ x _ _ _ _ _ e node dimension numeral _ last =>
    cases own.symm.trans e
    cases read : stoi component with
    | error e => exact .large node read
    | ok i =>
      have finds := finds_numeral node numeral read
      obtain ⟨bound, single⟩ : ∃ bound, bounds c = [bound] := List.length_eq_one_iff.1 last.symm
      obtain ⟨rfl, rfl, record | elementary⟩ | addresses := rest
      · exact absurd node (isRecord_not_array record)
      · exact missizes_element ctypes sizing node single finds elementary differ
      · cases path with
        | nil => cases addresses
        | cons next path =>
          cases pointer : isPointer g x with
          | true =>
            cases addresses.leads with
            | cons selects =>
              exact absurd selects (not_selects_pointer pointer)
          | false =>
            obtain ⟨m, k, resolved, stripped, named⟩ := resolve_element ctypes node pointer
            exact missizes_behind ctypes finds resolved selects' stripped named (apart nofun) differ

/-- For a valid path, the answer is the size in C but where it is one of the wrong ones. -/
theorem size_iff (ctypes : CTypes M.debug bounds) (sizing : Sizing M.debug) (record : isRecord M.debug c)
    {name : String} {cache : Option (String → Option (Option Nat))}
    (found : findStructDebugInfo M name (some caches.di) = .ok (some c, cache))
    (addresses : Addresses M.debug bounds ⟨c, 0⟩ path q) :
    SaysSize M name path caches q ↔
      ¬ FirstAt M.debug bounds (Missizes M.debug bounds (bitsOf M.debug q.type / 8)) c path := by
  have composite := isRecord_composite record
  rw [SaysSize, answer_size_iff ctypes composite found]
  refine Iff.trans not_not.symm (not_congr (Iff.symm ?_))
  refine firstAt_iff (S := fun c path => Addresses M.debug bounds ⟨c, 0⟩ path q)
    (P := fun c path => ¬ Sized M.debug c path (bitsOf M.debug q.type / 8)) ctypes (fun _ => nofun)
    ?_ ?_ composite addresses
  · intro c component x b k path together more addresses
    refine ⟨together.not_missizes ctypes more, ?_, ?_⟩
    · cases addresses with
      | field => exact absurd rfl more
      | element => exact absurd rfl more
      | cons selects rest =>
        cases together.selects.unique ctypes selects
        exact rest.of_bare together.named
    · rw [together.sized_iff ctypes more]
  · intro c path composite addresses apart
    refine ⟨fun missizes => missizes.differ ctypes sizing, fun differ => ?_⟩
    cases path with
    | nil => cases addresses
    | cons component path =>
      exact missizes_of_differ ctypes sizing addresses composite
        (fun more x b k => apart component path x b k rfl more) differ

/-- There are three members. -/
lemma fields_member {x : Nat} (member : (fieldsDebug.node x).getTag = .member) : x = 1 ∨ x = 2 ∨ x = 3 := by
  by_cases lt : x < 10
  · have all : ∀ x < 10, (fieldsDebug.node x).getTag = .member → x = 1 ∨ x = 2 ∨ x = 3 := by decide
    exact all x lt member
  · have out : fieldsDebug.node x = .subroutine := List.getD_eq_default _ _ (not_lt.1 lt)
    rw [out] at member
    cases member

/-- The sizes are those that compilers write. -/
lemma fields_sizing : Sizing fieldsDebug where
  bytes n _ := fields_node (P := fun node => node.sizeInBits % 8 = 0) (by decide) rfl n
  field x name bits b node := by
    obtain rfl | rfl | rfl := fields_member (by rw [node]; rfl)
    all_goals
      cases node
      exact ⟨rfl, rfl⟩
  typedef n name bits base node := by
    have zero := fields_node (P := fun node => node.getTag = .typedef → node.sizeInBits = 0) (by decide)
      (fun _ => rfl) n
    rw [node] at zero
    exact zero rfl

/-- The size of the first member. -/
theorem size_iff_next : ¬ FirstAt fieldsDebug fieldsBounds (Missizes fieldsDebug fieldsBounds 8) 0
    ["next"] := by
  have addresses : Addresses fieldsDebug fieldsBounds ⟨0, 0⟩ ["next"] ⟨6, 0⟩ :=
    .field (fields_selects (x := 1) (.head _) rfl (by decide)) rfl rfl
  have size : SaysSize fieldsModule "fields" ["next"] ⟨fun _ => none, fun _ => none⟩ ⟨6, 0⟩ :=
    ⟨_, rfl, rfl⟩
  exact (size_iff fields_ctypes fields_sizing rfl rfl addresses).1 size

/-- An element of the array of `u8` has the size zero. -/
theorem typedef_element_empty : ∃ q, Addresses fieldsDebug fieldsBounds ⟨0, 0⟩ ["bytes", "1"] q ∧
    ¬ SaysSize fieldsModule "fields" ["bytes", "1"] ⟨fun _ => none, fun _ => none⟩ q := by
  have inside : InBounds fieldsBounds 5 0 "1" := ⟨4, 1, rfl, rfl, by decide⟩
  have element : Selects fieldsDebug fieldsBounds ⟨5, 0⟩ "1" ⟨7, 0⟩ :=
    (selects_element_iff (x := 7) rfl rfl).2 ⟨inside, rfl⟩
  refine ⟨⟨7, 0⟩, .cons (fields_selects (x := 3) (.tail _ (.tail _ (.head _))) rfl (by decide))
    (.element element ⟨8, rfl, .inl ⟨_, _, rfl⟩⟩), ?_⟩
  rintro ⟨r, ran, size⟩
  have zero : (getStructFieldInfo2 fieldsModule "fields" ["bytes", "1"]
      ⟨fun _ => none, fun _ => none⟩).map (fun r => r.1.size_in_bytes) = .ok 0 := rfl
  rw [ran] at zero
  exact absurd (size.symm.trans (Except.ok.inj zero)) (by decide)

end Irx.Debug
