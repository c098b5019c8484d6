import Irx.Debug.Validity
import Irx.Debug.Describes

/-!
# How the search reads a path

`Reads` says where `GEP` ends for a path, and `Breaks` for which paths it throws or follows a null pointer:
any number that `stoi` makes of a component is an index, an array has one component for all of its
dimensions, and a component behind an element that is a pointer is looked up in what it points to
(`gep_cases`).
-/

namespace Irx.Debug
open Irx.Lib

section Reading

variable (g : DebugInfo)

/-- The type that is entered for a member without a name. -/
def plain (b : Nat) : Option Nat := if isComposite g b then some b else none

/-- The debug type that one component leads to: a member, or the element type of an array. -/
inductive Finds (c : Nat) (component : String) : Nat → Prop where
  | member {x} : HasMember g (plain g) component c x → Finds c component x
  | element {name bits x elements i} :
    g.node c = .composite .arrayType name bits (some x) elements → stoi component = .ok i → 0 ≤ i →
    Finds c component x

/-- The path is read to its end, which is the debug type `y`. -/
inductive Reads : Nat → List String → Nat → Prop where
  | nil (c) : Reads c [] c
  | last {c x k component} :
    Finds g c component x → resolveDerivedTypeBaseType g (some x) = .ok (some k) →
    Reads c [component] x
  | cons {c x k component next path y} :
    Finds g c component x → resolveDerivedTypeBaseType g (some x) = .ok (some k) → isComposite g k →
    Reads k (next :: path) y → Reads c (component :: next :: path) y

/-- Reading the path ends in an exception or at a null pointer. -/
inductive Breaks : Nat → List String → Prop where
  | stoi {c name bits base elements component path e} :
    g.node c = .composite .arrayType name bits base elements → stoi component = .error e →
    Breaks c (component :: path)
  | null {c x component path e} :
    Finds g c component x → resolveDerivedTypeBaseType g (some x) = .error e →
    Breaks c (component :: path)
  | later {c x k component path} :
    Finds g c component x → resolveDerivedTypeBaseType g (some x) = .ok (some k) → isComposite g k →
    Breaks k path → Breaks c (component :: path)

/-- A search that ends at a debug type with the property, or finds nothing where there is none. -/
def Searches (P : Nat → Prop) (r : Except Abort (List DITypedIndex)) : Prop :=
  (∃ sub i x, r = .ok sub ∧ sub.getLast? = some ⟨i, some x⟩ ∧ P x) ∨ (r = .ok [] ∧ ∀ x, ¬ P x)

/-- The element is the member of the name, or one without a name that has it. -/
def Via (enter : Nat → Option Nat) (field : String) (m x : Nat) : Prop :=
  (∃ bits base, g.node m = .derived .member field bits base ∧ field ≠ "" ∧ x = m) ∨
  ∃ bits b n, g.node m = .derived .member "" bits (some b) ∧ enter b = some n ∧
    HasMember g enter field n x

end Reading

variable {g : DebugInfo} {bounds : Nat → List Nat} {enter : Nat → Option Nat}
variable {n a b c k x y m fuel depth index : Nat} {field component : String} {path : List String} {tag : Tag}

/-- A structure has the member if one of its elements leads to it. -/
lemma hasMember_iff : HasMember g enter field c x ↔
    isRecord g c ∧ ∃ m, .type m ∈ (g.node c).elements ∧ Via g enter field m x := by
  constructor
  · intro has
    cases has with
    | named record mem node named => exact ⟨record, x, mem, .inl ⟨_, _, node, named, rfl⟩⟩
    | inside record mem node entered has =>
      exact ⟨record, _, mem, .inr ⟨_, _, _, node, entered, has⟩⟩
  · intro ⟨record, m, mem, via⟩
    obtain ⟨bits, base, node, named, rfl⟩ | ⟨bits, b, n, node, entered, has⟩ := via
    · exact .named record mem node named
    · exact .inside record mem node entered has

/-- What the code enters, C enters too. -/
lemma HasMember.entered (has : HasMember g (plain g) field c x) : HasMember g (bare g) field c x := by
  induction has with
  | named record mem node named => exact .named record mem node named
  | inside record mem node entered _ ih =>
    rw [plain] at entered
    split at entered
    case isTrue composite =>
      cases entered
      exact .inside record mem node (bare_composite composite) ih
    case isFalse => cases entered

/-- An element with a name leads to itself. -/
lemma via_named {name : String} {bits : Nat} {base : Option Nat}
    (node : g.node m = .derived .member name bits base) (named : name ≠ "") :
    Via g enter field m x ↔ name = field ∧ x = m := by
  constructor
  · rintro (⟨_, _, node', _, rfl⟩ | ⟨_, _, _, node', _⟩)
    · cases node.symm.trans node'
      exact ⟨rfl, rfl⟩
    · cases node.symm.trans node'
      exact absurd rfl named
  · rintro ⟨rfl, rfl⟩
    exact .inl ⟨bits, base, node, named, rfl⟩

/-- An element without a name leads to the members of its type. -/
lemma via_anonymous {bits : Nat} (node : g.node m = .derived .member "" bits (some b)) :
    Via g enter field m x ↔ ∃ n, enter b = some n ∧ HasMember g enter field n x := by
  constructor
  · rintro (⟨_, _, node', named, _⟩ | ⟨_, _, n, node', entered, has⟩)
    · cases node.symm.trans node'
      exact absurd rfl named
    · cases node.symm.trans node'
      exact ⟨n, entered, has⟩
  · rintro ⟨n, entered, has⟩
    exact .inr ⟨bits, b, n, node, entered, has⟩

/-- Behind an element that does not have the member, the search goes on. -/
lemma Searches.skip {r : Except Abort (List DITypedIndex)} {element : DINode} {rest : List DINode}
    (next : Searches (fun x => ∃ m, .type m ∈ rest ∧ Via g enter field m x) r)
    (other : ∀ m x, element = .type m → ¬ Via g enter field m x) :
    Searches (fun x => ∃ m, .type m ∈ element :: rest ∧ Via g enter field m x) r := by
  obtain ⟨sub, i, x, e, last, m, mem, via⟩ | ⟨e, none⟩ := next
  · exact .inl ⟨sub, i, x, e, last, m, .tail _ mem, via⟩
  · refine .inr ⟨e, ?_⟩
    rintro x ⟨m, mem, via⟩
    obtain same | mem := List.mem_cons.1 mem
    · exact other m x same.symm via
    · exact none x ⟨m, mem, via⟩

/-- A member without a name is searched first if it is entered. -/
lemma Searches.anonymous {P Q : Nat → Prop} {r r' : Except Abort (List DITypedIndex)} {i : Nat}
    {DITy : Option Nat} (inside : Searches P r) (hit : ∀ x, P x → Q x)
    (next : (∀ x, ¬ P x) → Searches Q r') :
    Searches Q (do
      let sub ← r
      if sub.length > 0 then .ok (⟨i, DITy⟩ :: sub) else r') := by
  obtain ⟨sub, j, x, rfl, last, found⟩ | ⟨rfl, none⟩ := inside
  · have filled : sub.length > 0 := by
      cases sub with
      | nil => cases last
      | cons => exact Nat.succ_pos _
    rw [ok_bind, if_pos filled]
    exact .inl ⟨_, j, x, rfl, by rw [List.getLast?_cons, last]; rfl, hit x found⟩
  · exact next none

/-- The loop over the elements finds a member by one of them. -/
lemma memberLoop_searches {recurse : Nat → Except Abort (List DITypedIndex)} {elements : List DINode}
    (members : ∀ m, .type m ∈ elements → ∃ name bits b, g.node m = .derived .member name bits (some b) ∧
      (name = "" → isComposite g b → Searches (HasMember g (plain g) field b) (recurse b))) :
    Searches (fun x => ∃ m, .type m ∈ elements ∧ Via g (plain g) field m x)
      (memberLoop g recurse tag field index elements) := by
  induction elements generalizing index with
  | nil =>
    refine .inr ⟨rfl, ?_⟩
    rintro x ⟨m, mem, _⟩
    cases mem
  | cons element rest ih =>
    -- what the rest of the loop answers counts if this element does not have the member
    have next : Searches (fun x => ∃ m, .type m ∈ rest ∧ Via g (plain g) field m x)
        (memberLoop g recurse tag field (if tag ≠ .unionType then index + 1 else index) rest) :=
      ih fun m mem => members m (.tail _ mem)
    cases element with
    | other =>
      rw [memberLoop]
      refine next.skip ?_
      intro m x e
      cases e
    | type m =>
      obtain ⟨name, bits, b, node, inside⟩ := members m (.head _)
      rw [memberLoop]
      simp only [node]
      split
      case isTrue anonymous =>
        subst anonymous
        cases composite : isComposite g b with
        | true =>
          have entered : plain g b = some b := if_pos composite
          obtain ⟨_, _, _, _, _, node'⟩ := isComposite_node composite
          simp only [node']
          refine Searches.anonymous (inside rfl composite) (fun x has => ?_) fun none => next.skip ?_
          · exact ⟨m, .head _, (via_anonymous node).2 ⟨b, entered, has⟩⟩
          · rintro _ x ⟨⟩ via
            obtain ⟨n, entered', has⟩ := (via_anonymous node).1 via
            cases entered.symm.trans entered'
            exact none x has
        | false =>
          have passed : plain g b = none := if_neg (composite ▸ Bool.false_ne_true)
          have other : ∀ m' x, DINode.type m = .type m' → ¬ Via g (plain g) field m' x := by
            rintro _ x ⟨⟩ via
            obtain ⟨n, entered, _⟩ := (via_anonymous node).1 via
            rw [passed] at entered
            cases entered
          split
          case h_1 node' =>
            rw [isComposite, node'] at composite
            cases composite
          case h_2 => exact next.skip other
      case isFalse named =>
        split
        case isTrue hit =>
          have via : Via g (plain g) field m m := (via_named node named).2 ⟨hit, rfl⟩
          exact .inl ⟨_, _, m, rfl, rfl, m, .head _, via⟩
        case isFalse miss =>
          refine next.skip ?_
          rintro _ x ⟨⟩ via
          exact miss ((via_named node named).1 via).1

/-- A search in a composite type other than an array finds the member that the code enters. -/
lemma GEP2MemberInfo_searches (ctypes : CTypes g bounds) (composite : isComposite g c)
    (noArray : (g.node c).getTag ≠ .arrayType) (deep : g.rank c < depth) :
    Searches (HasMember g (plain g) field c) (GEP2MemberInfo g depth c field) := by
  induction depth generalizing c with
  | zero => exact absurd deep (Nat.not_lt_zero _)
  | succ depth ih =>
    have members := ctypes.member c
    obtain ⟨tag, name, bits, base, elements, node⟩ := isComposite_node composite
    have below : ∀ m, .type m ∈ elements → g.rank m < g.rank c := fun m mem =>
      g.rank_element _ _ _ _ _ _ _ node mem
    rw [node, DIType.getTag] at noArray
    rw [node, DIType.elements, DIType.getTag] at members
    rw [GEP2MemberInfo, node]
    simp only [if_neg noArray]
    have searches : Searches (fun x => ∃ m, .type m ∈ elements ∧ Via g (plain g) field m x)
        (memberLoop g (fun b => GEP2MemberInfo g depth b field) tag field 0 elements) := by
      refine memberLoop_searches fun m mem => ?_
      obtain ⟨_, name, bits, b, k, node', named, record⟩ := members m composite noArray mem
      refine ⟨name, bits, b, node', fun anonymous composite' => ?_⟩
      have lower := rank_member node'
      have lower' := below m mem
      cases (bare_composite composite').symm.trans named
      exact ih composite' (isRecord_tag (record anonymous)) (by omega)
    obtain ⟨sub, i, x, e, last, m, mem, via⟩ | ⟨e, none⟩ := searches
    · refine .inl ⟨sub, i, x, e, last, hasMember_iff.2 ⟨?_, m, by rwa [node], via⟩⟩
      exact (members m composite noArray mem).1
    · refine .inr ⟨e, fun x has => ?_⟩
      obtain ⟨_, m, mem, via⟩ := hasMember_iff.1 has
      rw [node] at mem
      exact none x ⟨m, mem, via⟩

/-- What the search for one component amounts to. -/
lemma GEP2MemberInfo_cases (ctypes : CTypes g bounds) (composite : isComposite g c)
    (component : String) (deep : g.rank c < depth) :
    Searches (Finds g c component) (GEP2MemberInfo g depth c component) ∨
    (∃ name bits base elements e, g.node c = .composite .arrayType name bits base elements ∧
      stoi component = .error e ∧ GEP2MemberInfo g depth c component = .error e) := by
  obtain ⟨tag, name, bits, base, elements, node⟩ := isComposite_node composite
  by_cases array : tag = .arrayType
  case pos =>
    subst array
    obtain ⟨_, b, k, rfl, _⟩ := ctypes.array _ _ _ _ _ node
    have noMember : ∀ x, ¬ HasMember g (plain g) component c x := fun x has =>
      isRecord_not_array has.record node
    cases depth with
    | zero => exact absurd deep (Nat.not_lt_zero _)
    | succ depth =>
      rw [GEP2MemberInfo, node]
      simp only [if_true]
      cases read : stoi component with
      | error e => exact .inr ⟨name, bits, some b, elements, e, rfl, rfl, rfl⟩
      | ok i =>
        left
        rw [ok_bind]
        by_cases le : 0 ≤ i
        case pos =>
          rw [if_pos le]
          exact .inl ⟨_, i.toNat, b, rfl, rfl, .element node read le⟩
        case neg =>
          rw [if_neg le]
          refine .inr ⟨rfl, fun x finds => ?_⟩
          cases finds with
          | member has => exact noMember x has
          | element node' read' le' =>
            cases read.symm.trans read'
            exact le le'
  case neg =>
    left
    have tag_ne : (g.node c).getTag ≠ .arrayType := by rwa [node]
    have searches : Searches (HasMember g (plain g) component c) (GEP2MemberInfo g depth c component) :=
      GEP2MemberInfo_searches ctypes composite tag_ne deep
    obtain ⟨sub, i, x, e, last, has⟩ | ⟨e, none⟩ := searches
    · exact .inl ⟨sub, i, x, e, last, .member has⟩
    · refine .inr ⟨e, fun x finds => ?_⟩
      cases finds with
      | member has => exact none x has
      | element node' =>
        rw [node'] at tag_ne
        exact tag_ne rfl

/-- A component leads to at most one debug type. -/
lemma Finds.unique (ctypes : CTypes g bounds) (first : Finds g c component x)
    (second : Finds g c component y) : x = y := by
  cases first with
  | member has =>
    cases second with
    | member has' => exact ctypes.unique _ _ _ _ has.entered has'.entered
    | element node => exact absurd node (isRecord_not_array has.record)
  | element node =>
    cases second with
    | member has => exact absurd node (isRecord_not_array has.record)
    | element node' =>
      cases node.symm.trans node'
      rfl

/-- Nothing resolves to a missing type. -/
lemma resolve_some {r : Option Nat} (e : resolveDerivedTypeBaseType g (some x) = .ok r) :
    ∃ k, r = some k := by
  have any : ∀ n, (stripTypedefs g (g.rank n + 1) n).map some = .ok r → ∃ k, r = some k := by
    intro n e
    cases stripped : stripTypedefs g (g.rank n + 1) n with
    | error e' =>
      rw [stripped] at e
      cases e
    | ok k =>
      rw [stripped] at e
      cases e
      exact ⟨k, rfl⟩
  rw [resolveDerivedTypeBaseType] at e
  split at e
  · cases e
  · exact any _ e
  · exact any _ e

/-- The number of an index leaves `stoi` no exception. -/
lemma Finds.not_stoi {name : String} {bits : Nat} {base : Option Nat} {elements : List DINode}
    {e : Abort} (finds : Finds g c component x)
    (node : g.node c = .composite .arrayType name bits base elements) :
    stoi component ≠ .error e := by
  intro read
  cases finds with
  | member has => exact isRecord_not_array has.record node
  | element _ read' => cases read.symm.trans read'

/-- An index selects an element if it fits an `int`. -/
lemma finds_numeral {name : String} {bits i : Nat} {elements : List DINode} {j : Int}
    (node : g.node a = .composite .arrayType name bits (some x) elements)
    (numeral : index? component = some i) (read : stoi component = .ok j) : Finds g a component x := by
  have read' := stoi_index numeral
  rw [read] at read'
  split at read'
  case isTrue =>
    cases read'
    exact .element node read (by omega)
  case isFalse => cases read'

section Found

variable (ctypes : CTypes g bounds) (finds : Finds g c component x)
variable (resolved : resolveDerivedTypeBaseType g (some x) = .ok (some k))
include ctypes finds resolved

/-- Behind a component that leads on, the rest of the path is read. -/
lemma reads_cons_iff : Reads g c (component :: path) y ↔
    (path = [] ∧ y = x) ∨ (path ≠ [] ∧ isComposite g k ∧ Reads g k path y) := by
  constructor
  · intro reads
    cases reads with
    | last finds' => exact .inl ⟨rfl, finds'.unique ctypes finds⟩
    | cons finds' resolved' composite reads =>
      cases finds.unique ctypes finds'
      cases resolved.symm.trans resolved'
      exact .inr ⟨nofun, composite, reads⟩
  · rintro (⟨rfl, rfl⟩ | ⟨more, composite, reads⟩)
    · exact .last finds resolved
    · cases path with
      | nil => exact absurd rfl more
      | cons next path => exact .cons finds resolved composite reads

/-- If it leads on in a composite type, the rest is read there. -/
lemma reads_next_iff (composite : isComposite g k) (more : path ≠ []) :
    Reads g c (component :: path) y ↔ Reads g k path y := by
  rw [reads_cons_iff ctypes finds resolved]
  constructor
  · rintro (⟨e, _⟩ | ⟨_, _, reads⟩)
    · exact absurd e more
    · exact reads
  · exact fun reads => .inr ⟨more, composite, reads⟩

/-- If it leads on, the path breaks where the rest does. -/
lemma breaks_cons_iff : Breaks g c (component :: path) ↔ isComposite g k ∧ Breaks g k path := by
  constructor
  · intro breaks
    cases breaks with
    | stoi node read => exact absurd read (finds.not_stoi node)
    | null finds' resolved' =>
      cases finds.unique ctypes finds'
      cases resolved.symm.trans resolved'
    | later finds' resolved' composite breaks =>
      cases finds.unique ctypes finds'
      cases resolved.symm.trans resolved'
      exact ⟨composite, breaks⟩
  · intro ⟨composite, breaks⟩
    exact .later finds resolved composite breaks

end Found

/-- The empty path breaks nothing. -/
lemma not_breaks_nil : ¬ Breaks g c [] := nofun

/-- A path is read to one end. -/
lemma Reads.unique (ctypes : CTypes g bounds) (first : Reads g c path x) (second : Reads g c path y) :
    x = y := by
  induction first with
  | nil =>
    cases second
    rfl
  | last finds resolved =>
    obtain ⟨_, e⟩ | ⟨more, _⟩ := (reads_cons_iff ctypes finds resolved).1 second
    · exact e.symm
    · exact absurd rfl more
  | cons finds resolved _ _ ih =>
    obtain ⟨e, _⟩ | ⟨_, _, reads⟩ := (reads_cons_iff ctypes finds resolved).1 second
    · cases e
    · exact ih reads

/-- A path that is read breaks nothing. -/
lemma Reads.unbroken (ctypes : CTypes g bounds) (reads : Reads g c path y) : ¬ Breaks g c path := by
  induction reads with
  | nil => exact not_breaks_nil
  | last finds resolved =>
    intro breaks
    exact not_breaks_nil ((breaks_cons_iff ctypes finds resolved).1 breaks).2
  | cons finds resolved _ _ ih =>
    intro breaks
    exact ih ((breaks_cons_iff ctypes finds resolved).1 breaks).2

/-- A component that is not found ends the reading. -/
lemma not_reads_of_not_finds (none : ∀ x, ¬ Finds g c component x) :
    ¬ Reads g c (component :: path) y := by
  intro reads
  cases reads with
  | last finds => exact none _ finds
  | cons finds => exact none _ finds

/-- Where nothing is found without an exception, nothing breaks. -/
lemma not_breaks_of_not_finds (none : ∀ x, ¬ Finds g c component x)
    (ran : GEP2MemberInfo g depth c component = .ok []) : ¬ Breaks g c (component :: path) := by
  intro breaks
  cases breaks with
  | stoi node read =>
    cases depth with
    | zero => cases ran
    | succ depth =>
      rw [GEP2MemberInfo, node] at ran
      simp only [if_true, read] at ran
      cases ran
  | null finds => exact none _ finds
  | later finds => exact none _ finds

/-! ### Resolved types -/

/-- Taking typedefs off does not change the type. -/
lemma stripTypedefs_bare (e : bare g n = some k) (deep : g.rank n < fuel) :
    ∃ m, stripTypedefs g fuel n = .ok m ∧ bare g m = some k := by
  induction fuel generalizing n with
  | zero => exact absurd deep (Nat.not_lt_zero _)
  | succ fuel ih =>
    rw [stripTypedefs]
    split
    case h_1 base node =>
      have renames : Tag.typedef.renames := rfl
      rw [bare_renames node renames] at e
      cases base with
      | none => cases e
      | some b =>
        have lower := renames_rank node renames
        exact ih e (by omega)
    case h_2 => exact ⟨n, rfl, e⟩

/-- Taking typedefs off ends at a name of the type. -/
lemma bare_stripTypedefs (stripped : stripTypedefs g fuel n = .ok m) : bare g n = bare g m := by
  induction fuel generalizing n with
  | zero => cases stripped
  | succ fuel ih =>
    rw [stripTypedefs] at stripped
    split at stripped
    case h_1 base node =>
      cases base with
      | none => cases stripped
      | some b =>
        have renames : Tag.typedef.renames := rfl
        rw [bare_renames node renames]
        exact ih stripped
    case h_2 =>
      cases stripped
      rfl

/-- A member resolves to its type, but for qualifiers. -/
lemma resolve_member {name : String} {bits : Nat} (node : g.node x = .derived .member name bits (some b))
    (e : bare g b = some k) :
    ∃ m, resolveDerivedTypeBaseType g (some x) = .ok (some m) ∧ bare g m = some k := by
  obtain ⟨m, stripped, e⟩ := stripTypedefs_bare e (Nat.lt_succ_self _)
  refine ⟨m, ?_, e⟩
  rw [resolveDerivedTypeBaseType, node]
  show (stripTypedefs g (g.rank b + 1) b).map some = _
  rw [stripped]
  rfl

/-- The element type of an array resolves to the type of the elements if these are no pointers. -/
lemma resolve_element (ctypes : CTypes g bounds) {name : String} {bits : Nat} {elements : List DINode}
    (node : g.node a = .composite .arrayType name bits (some x) elements)
    (noPointer : isPointer g x = false) :
    ∃ m k, resolveDerivedTypeBaseType g (some x) = .ok (some m) ∧ bare g m = some k ∧
      bare g x = some k := by
  obtain ⟨_, _, k, ⟨⟩, e, derived⟩ := ctypes.array _ _ _ _ _ node
  rw [resolveDerivedTypeBaseType]
  split
  case h_1 node' =>
    obtain rfl | renames := derived _ _ _ _ node'
    · rw [isPointer, node'] at noPointer
      cases noPointer
    · rw [bare_renames node' renames] at e
      cases e
  case h_2 tag name bits b' node' =>
    obtain rfl | renames := derived _ _ _ _ node'
    · rw [isPointer, node'] at noPointer
      cases noPointer
    · have own := e
      rw [bare_renames node' renames] at own
      obtain ⟨m, stripped, e'⟩ := stripTypedefs_bare own (Nat.lt_succ_self _)
      exact ⟨m, k, by rw [stripped]; rfl, e', e⟩
  case h_3 =>
    obtain ⟨m, stripped, e'⟩ := stripTypedefs_bare e (Nat.lt_succ_self _)
    exact ⟨m, k, by rw [stripped]; rfl, e', e⟩

section Array

variable {name : String} {bits : Nat} {elements : List DINode}
variable (node : g.node a = .composite .arrayType name bits (some x) elements)
include node

/-- What `stoi` takes for an index is found in an array. -/
lemma finds_array_iff : Finds g a component y ↔
    y = x ∧ ∃ i, stoi component = .ok i ∧ 0 ≤ i := by
  constructor
  · intro finds
    cases finds with
    | member has => exact absurd node (isRecord_not_array has.record)
    | element node' read le =>
      cases node.symm.trans node'
      exact ⟨rfl, _, read, le⟩
  · rintro ⟨rfl, i, read, le⟩
    exact .element node read le

end Array

/-- In a structure or union a component finds a member. -/
lemma finds_record_iff (record : isRecord g c) :
    Finds g c component x ↔ HasMember g (plain g) component c x := by
  constructor
  · intro finds
    cases finds with
    | member has => exact has
    | element node => exact absurd node (isRecord_not_array record)
  · exact .member

/-- Behind a type that is not composite nothing is read. -/
lemma not_reads_behind (ctypes : CTypes g bounds) {next : String} (finds : Finds g c component x)
    (resolved : resolveDerivedTypeBaseType g (some x) = .ok (some m))
    (simple : isComposite g m = false) : ¬ Reads g c (component :: next :: path) y := by
  intro reads
  obtain ⟨e, _⟩ | ⟨_, composite, _⟩ := (reads_cons_iff ctypes finds resolved).1 reads
  · cases e
  · rw [simple] at composite
    cases composite

/-- Behind a type that is not composite nothing breaks. -/
lemma not_breaks_behind (ctypes : CTypes g bounds) (finds : Finds g c component x)
    (resolved : resolveDerivedTypeBaseType g (some x) = .ok (some m))
    (simple : isComposite g m = false) : ¬ Breaks g c (component :: path) := by
  intro breaks
  rw [breaks_cons_iff ctypes finds resolved, simple] at breaks
  exact Bool.false_ne_true breaks.1

/-- A member that is not entered is not found. -/
lemma not_finds_hidden (ctypes : CTypes g bounds) {field : String}
    (has : HasMember g (bare g) field c x) (hidden : ¬ HasMember g (plain g) field c x) :
    ¬ Finds g c field y := by
  intro finds
  have has' := (finds_record_iff has.record).1 finds
  cases ctypes.unique _ _ _ _ has has'.entered
  exact hidden has'

/-- A member that is not entered breaks nothing. -/
lemma not_breaks_hidden (ctypes : CTypes g bounds) {field : String}
    (has : HasMember g (bare g) field c x) (hidden : ¬ HasMember g (plain g) field c x) :
    ¬ Breaks g c (field :: path) := by
  intro breaks
  cases breaks with
  | stoi node => exact isRecord_not_array has.record node
  | null finds => exact not_finds_hidden ctypes has hidden finds
  | later finds => exact not_finds_hidden ctypes has hidden finds

/-- What `GEP` makes of a path: it reads it to its end, returns nothing, or breaks. -/
inductive Outcome (g : DebugInfo) (c : Nat) (path : List String) (r : Except Abort (List DITypedIndex)) :
    Prop where
  | reads {out i y} : Reads g c path y → r = .ok out → out.getLast? = some ⟨i, some y⟩ →
    Outcome g c path r
  | nothing : (∀ y, ¬ Reads g c path y) → ¬ Breaks g c path → r = .ok [] → Outcome g c path r
  | breaks {e} : Breaks g c path → r = .error e → Outcome g c path r

/-- The round of the loop for one component. -/
lemma gepLoop_round (ctypes : CTypes g bounds) (composite : isComposite g c)
    {indices : List DITypedIndex}
    (rest : ∀ k indices, path ≠ [] → isComposite g k → Outcome g k path (gepLoop g (some k) indices path)) :
    Outcome g c (component :: path) (gepLoop g (some c) indices (component :: path)) := by
  rw [gepLoop]
  obtain (⟨sub, i, x, e, last, finds⟩ | ⟨e, none⟩) | ⟨_, _, _, _, e, node, read, ran⟩ :=
    GEP2MemberInfo_cases ctypes composite component (Nat.lt_succ_self _)
  · rw [e, ok_bind]
    simp only [last]
    cases resolved : resolveDerivedTypeBaseType g (some x) with
    | error e => exact .breaks (.null finds resolved) rfl
    | ok r =>
      obtain ⟨k, rfl⟩ := resolve_some resolved
      rw [ok_bind]
      have reads_iff : ∀ y, Reads g c (component :: path) y ↔ (path = [] ∧ y = x) ∨
          (path ≠ [] ∧ isComposite g k ∧ Reads g k path y) :=
        fun y => reads_cons_iff ctypes finds resolved
      have breaks_iff : Breaks g c (component :: path) ↔ isComposite g k ∧ Breaks g k path :=
        breaks_cons_iff ctypes finds resolved
      by_cases ended : path = []
      case pos =>
        subst ended
        have ends : (indices ++ sub).getLast? = some ⟨i, some x⟩ := by
          rw [List.getLast?_append, last]
          rfl
        exact .reads ((reads_iff x).2 (.inl ⟨rfl, rfl⟩)) gepLoop_nil ends
      case neg =>
        cases composite' : isComposite g k with
        | true =>
          obtain ⟨_, _, _, _, _, node⟩ := isComposite_node composite'
          simp only [node]
          cases rest k (indices ++ sub) ended composite' with
          | reads reads e last => exact .reads ((reads_iff _).2 (.inr ⟨ended, composite', reads⟩)) e last
          | breaks breaks e => exact .breaks (breaks_iff.2 ⟨composite', breaks⟩) e
          | nothing none unbroken e =>
            refine .nothing (fun y reads => ?_) (fun breaks => unbroken (breaks_iff.1 breaks).2) e
            obtain ⟨e, _⟩ | ⟨_, _, reads⟩ := (reads_iff y).1 reads
            · exact ended e
            · exact none y reads
        | false =>
          have simple : ¬ isComposite g k := by rw [composite']; exact Bool.false_ne_true
          refine .nothing (fun y reads => ?_) (fun breaks => simple (breaks_iff.1 breaks).1) ?_
          · obtain ⟨e, _⟩ | ⟨_, composite, _⟩ := (reads_iff y).1 reads
            · exact ended e
            · exact simple composite
          · -- the loop goes on with a null pointer
            cases path with
            | nil => exact absurd rfl ended
            | cons next path =>
              dsimp only
              split
              case h_1 node =>
                rw [isComposite, node] at composite'
                cases composite'
              case h_2 => rfl
  · refine .nothing (fun y => not_reads_of_not_finds none) (not_breaks_of_not_finds none e) ?_
    rw [e]
    rfl
  · refine .breaks (e := e) (.stoi node read) ?_
    rw [ran]
    rfl

/-- The three outcomes of `GEP`. -/
theorem GEP_outcome (ctypes : CTypes g bounds) (composite : isComposite g c) (path : List String) :
    Outcome g c path (GEP g (some c) path) := by
  have loop : ∀ path c indices, path ≠ [] → isComposite g c →
      Outcome g c path (gepLoop g (some c) indices path) := by
    intro path
    induction path with
    | nil => exact fun _ _ more => absurd rfl more
    | cons component path ih =>
      exact fun c indices _ composite => gepLoop_round ctypes composite ih
  cases path with
  | nil => exact .reads (.nil c) rfl rfl
  | cons component path => exact loop _ c _ nofun composite

end Irx.Debug
