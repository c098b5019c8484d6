import Irx.Debug.Graph

/-!
# Valid paths

What C says about the types that debug types stand for: typedefs and qualifiers name another type, an
array has a bound for each of its dimensions, and the members of a member without a name are members of
the type around it. `Leads` follows a path component by component, as C allows it.
-/

namespace Irx.Debug
open Irx.Lib

/-- `const`, `volatile`, `restrict` and `_Atomic`, by their numbers in DWARF. -/
def Tag.isQualifier : Tag → Bool
  | .other n => n = 0x26 || n = 0x35 || n = 0x37 || n = 0x47
  | _ => false

/-- Typedefs and qualifiers: other names of a type. -/
def Tag.renames (tag : Tag) : Bool := tag = .typedef || tag.isQualifier

/-- The elements of a composite type. -/
def DIType.elements : DIType → List DINode
  | .composite _ _ _ _ elements => elements
  | _ => []

/-- The size of a debug type. -/
def DIType.sizeInBits : DIType → Nat
  | .basic _ bits => bits
  | .derived _ _ bits _ => bits
  | .composite _ _ bits _ _ => bits
  | .subroutine => 0

/-- A path has come to a type, or to an array whose first dimensions have their index already. -/
structure Place where
  type : Nat
  used : Nat

section Validity

variable (g : DebugInfo)

/-- The loop of `bare`, for at most the given number of rounds. -/
def bareLoop : Nat → Nat → Option Nat
  | 0, n => some n
  | fuel + 1, n =>
    match g.node n with
    | .derived tag _ _ base => if tag.renames then base.bind (bareLoop fuel) else some n
    | _ => some n

/-- The type without typedefs and qualifiers; there is none for `void`. -/
def bare (n : Nat) : Option Nat := bareLoop g (g.rank n + 1) n

/-- Structures and unions. -/
def isRecord (n : Nat) : Bool :=
  match g.node n with
  | .composite tag _ _ _ _ => tag = .structureType || tag = .unionType
  | _ => false

/-- The node is a pointer. -/
def isPointer (n : Nat) : Bool :=
  match g.node n with
  | .derived tag _ _ _ => tag = .pointerType
  | _ => false

/-- The node is a composite type. -/
def isComposite (n : Nat) : Bool :=
  match g.node n with
  | .composite _ _ _ _ _ => true
  | _ => false

/-- The member `x` of the name in the type `c`, also inside members without a name: `enter` says what type
is entered for such a member. -/
inductive HasMember (enter : Nat → Option Nat) (field : String) : Nat → Nat → Prop where
  | named {c x bits base} :
    isRecord g c → .type x ∈ (g.node c).elements → g.node x = .derived .member field bits base →
    field ≠ "" → HasMember enter field c x
  | inside {c m bits b n x} :
    isRecord g c → .type m ∈ (g.node c).elements → g.node m = .derived .member "" bits (some b) →
    enter b = some n → HasMember enter field n x → HasMember enter field c x

variable (bounds : Nat → List Nat)

/-- The component is a decimal index below the bound of the dimension. -/
def InBounds (a used : Nat) (component : String) : Prop :=
  ∃ bound i, (bounds a)[used]? = some bound ∧ index? component = some i ∧ i < bound

/-- A component selects a member, a row of an array or an element of an array. -/
inductive Selects : Place → String → Place → Prop where
  | member {n c x name bits b field} :
    bare g n = some c → HasMember g (bare g) field c x → g.node x = .derived .member name bits (some b) →
    Selects ⟨n, 0⟩ field ⟨b, 0⟩
  | row {n a name bits base elements used bound component i} :
    bare g n = some a → g.node a = .composite .arrayType name bits base elements →
    (bounds a)[used]? = some bound → index? component = some i → i < bound →
    used + 1 < (bounds a).length → Selects ⟨n, used⟩ component ⟨a, used + 1⟩
  | element {n a name bits b elements used bound component i} :
    bare g n = some a → g.node a = .composite .arrayType name bits (some b) elements →
    (bounds a)[used]? = some bound → index? component = some i → i < bound →
    used + 1 = (bounds a).length → Selects ⟨n, used⟩ component ⟨b, 0⟩

/-- Where a valid path leads to. -/
inductive Leads : Place → List String → Place → Prop where
  | nil (p) : Leads p [] p
  | cons {p p' q component path} :
    Selects g bounds p component p' → Leads p' path q → Leads p (component :: path) q

/-- The path is valid in C. -/
def Valid (p : Place) (path : List String) : Prop := ∃ q, Leads g bounds p path q

/-- Debug types as they are written for C types. -/
structure CTypes : Prop where
  /-- Members have a type; without a name they are structures or unions. -/
  member : ∀ c m, isComposite g c → (g.node c).getTag ≠ .arrayType → .type m ∈ (g.node c).elements →
    isRecord g c ∧ ∃ name bits b k, g.node m = .derived .member name bits (some b) ∧
      bare g b = some k ∧ (name = "" → isRecord g k)
  /-- An array has a type of its elements and a dimension. -/
  array : ∀ a name bits base elements, g.node a = .composite .arrayType name bits base elements →
    bounds a ≠ [] ∧ ∃ b k, base = some b ∧ bare g b = some k ∧
      ∀ tag name bits base, g.node b = .derived tag name bits base →
        tag = .pointerType ∨ tag.renames
  /-- The members of a type have different names. -/
  unique : ∀ field c x x', HasMember g (bare g) field c x → HasMember g (bare g) field c x' → x = x'

end Validity

variable {g : DebugInfo} {bounds : Nat → List Nat} {fuel used n a b c k x : Nat} {p q p' : Place}
variable {field component : String} {path : List String}

/-! ### Other names of a type -/

/-- The type that another one names has a lower rank. -/
lemma renames_rank {tag : Tag} {name : String} {bits : Nat}
    (node : g.node n = .derived tag name bits (some b)) (renames : tag.renames) :
    g.rank b < g.rank n := by
  refine g.rank_derived _ _ _ _ _ node fun e => ?_
  cases e
  exact absurd renames (by decide)

/-- Enough rounds are enough. -/
lemma bareLoop_eq {fuel' : Nat} (deep : g.rank n < fuel) (deep' : g.rank n < fuel') :
    bareLoop g fuel n = bareLoop g fuel' n := by
  induction fuel generalizing n fuel' with
  | zero => exact absurd deep (Nat.not_lt_zero _)
  | succ fuel ih =>
    cases fuel' with
    | zero => exact absurd deep' (Nat.not_lt_zero _)
    | succ fuel' =>
      rw [bareLoop, bareLoop]
      cases node : g.node n with
      | derived tag name bits base =>
        simp only
        split
        case isTrue renames =>
          cases base with
          | none => rfl
          | some b =>
            have lower := renames_rank node renames
            exact ih (by omega) (by omega)
        case isFalse => rfl
      | basic => rfl
      | composite => rfl
      | subroutine => rfl

/-- A typedef or a qualified type is the type that it names; every other type is itself. -/
lemma bare_cases (g : DebugInfo) (n : Nat) :
    (∃ tag name bits base, g.node n = .derived tag name bits base ∧ tag.renames ∧
      bare g n = base.bind (bare g)) ∨
    (bare g n = some n ∧
      ∀ tag name bits base, g.node n = .derived tag name bits base → tag.renames = false) := by
  rw [bare, bareLoop]
  cases node : g.node n with
  | derived tag name bits base =>
    cases renames : tag.renames with
    | true =>
      refine .inl ⟨tag, name, bits, base, rfl, renames, ?_⟩
      cases base with
      | none => simp [renames]
      | some b =>
        simp only [renames, if_true, Option.bind_some]
        exact bareLoop_eq (renames_rank node renames) (Nat.lt_succ_self _)
    | false =>
      refine .inr ⟨by simp [renames], fun tag name bits base e => ?_⟩
      cases e
      exact renames
  | basic => exact .inr ⟨rfl, nofun⟩
  | composite => exact .inr ⟨rfl, nofun⟩
  | subroutine => exact .inr ⟨rfl, nofun⟩

/-- A typedef or qualified type names what its base type names. -/
lemma bare_renames {tag : Tag} {name : String} {bits : Nat} {base : Option Nat}
    (node : g.node n = .derived tag name bits base) (renames : tag.renames) :
    bare g n = base.bind (bare g) := by
  obtain ⟨_, _, _, _, node', _, e⟩ | ⟨_, own⟩ := bare_cases g n
  · cases node.symm.trans node'
    exact e
  · rw [own _ _ _ _ node] at renames
    cases renames

/-- A type that names no other one is itself. -/
lemma bare_self
    (own : ∀ tag name bits base, g.node n = .derived tag name bits base → tag.renames = false) :
    bare g n = some n := by
  obtain ⟨_, _, _, _, node, renames, _⟩ | ⟨e, _⟩ := bare_cases g n
  · rw [own _ _ _ _ node] at renames
    cases renames
  · exact e

/-- A composite type is itself. -/
lemma bare_composite (composite : isComposite g n) : bare g n = some n := by
  refine bare_self fun tag name bits base node => ?_
  rw [isComposite, node] at composite
  cases composite

/-- Structures and unions are composite types. -/
lemma isRecord_composite (record : isRecord g n) : isComposite g n := by
  rw [isRecord] at record
  rw [isComposite]
  split at record
  case h_1 => rfl
  case h_2 => cases record

/-- A basic type is itself. -/
lemma bare_basic {name : String} {bits : Nat} (node : g.node n = .basic name bits) : bare g n = some n := by
  refine bare_self fun tag name' bits' base node' => ?_
  cases node.symm.trans node'

/-- A composite type is itself, by its node. -/
lemma bare_node {tag : Tag} {name : String} {bits : Nat} {base : Option Nat} {elements : List DINode}
    (node : g.node n = .composite tag name bits base elements) : bare g n = some n :=
  bare_composite (by rw [isComposite, node])

/-- The base type of a typedef has a lower rank. -/
lemma rank_typedef {name : String} {bits : Nat} (node : g.node n = .derived .typedef name bits (some b)) :
    g.rank b < g.rank n := g.rank_derived _ _ _ _ _ node (by decide)

/-- The type of a member has a lower rank. -/
lemma rank_member {name : String} {bits : Nat} (node : g.node n = .derived .member name bits (some b)) :
    g.rank b < g.rank n := g.rank_derived _ _ _ _ _ node (by decide)

/-- The type that another one names has no other name itself. -/
lemma bare_own (e : bare g n = some k) :
    ∀ tag name bits base, g.node k = .derived tag name bits base → tag.renames = false := by
  induction rank : g.rank n using Nat.strong_induction_on generalizing n with
  | _ r ih =>
    obtain ⟨_, _, _, base, node, renames, e'⟩ | ⟨e', own⟩ := bare_cases g n
    · cases base with
      | none =>
        rw [e'] at e
        cases e
      | some b => exact ih _ (rank ▸ renames_rank node renames) (e'.symm.trans e) rfl
    · cases e'.symm.trans e
      exact own

/-! ### Paths -/

/-- Only structures and unions have members. -/
lemma HasMember.record {enter : Nat → Option Nat} (has : HasMember g enter field c x) :
    isRecord g c := by
  cases has with
  | named record => exact record
  | inside record => exact record

/-- The tags of structures and unions. -/
lemma isRecord_node_iff {tag : Tag} {name : String} {bits : Nat} {base : Option Nat} {elements : List DINode}
    (node : g.node n = .composite tag name bits base elements) :
    isRecord g n ↔ tag = .structureType ∨ tag = .unionType := by
  rw [isRecord, node]
  simp only [Bool.or_eq_true, decide_eq_true_eq]

/-- A structure or union is no array. -/
lemma isRecord_not_array {name : String} {bits : Nat} {base : Option Nat} {elements : List DINode}
    (record : isRecord g a) : g.node a ≠ .composite .arrayType name bits base elements := by
  intro node
  rw [isRecord, node] at record
  exact absurd record Bool.false_ne_true

/-- The node of a composite type. -/
lemma isComposite_node (composite : isComposite g n) :
    ∃ tag name bits base elements, g.node n = .composite tag name bits base elements := by
  rw [isComposite] at composite
  split at composite
  case h_1 node => exact ⟨_, _, _, _, _, node⟩
  case h_2 => cases composite

/-- A structure or union has not the tag of arrays. -/
lemma isRecord_tag (record : isRecord g c) : (g.node c).getTag ≠ .arrayType := by
  intro array
  obtain ⟨_, _, _, _, _, node⟩ := isComposite_node (isRecord_composite record)
  rw [node, DIType.getTag] at array
  subst array
  exact isRecord_not_array record node

/-- A member of a C type has a type. -/
lemma HasMember.node (ctypes : CTypes g bounds) {enter : Nat → Option Nat}
    (has : HasMember g enter field c x) : ∃ name bits b k, g.node x = .derived .member name bits (some b) ∧
      bare g b = some k := by
  induction has with
  | named record mem =>
    obtain ⟨_, name, bits, b, k, node, e, _⟩ :=
      ctypes.member _ _ (isRecord_composite record) (isRecord_tag record) mem
    exact ⟨name, bits, b, k, node, e⟩
  | inside _ _ _ _ _ ih => exact ih

/-- A pointer is itself. -/
lemma bare_pointer (pointer : isPointer g n) : bare g n = some n := by
  refine bare_self fun tag name bits base node => ?_
  rw [isPointer, node] at pointer
  cases of_decide_eq_true pointer
  rfl

/-- A pointer is no composite type. -/
lemma isPointer_simple (pointer : isPointer g n) : isComposite g n = false := by
  rw [isPointer] at pointer
  split at pointer
  case h_1 node => rw [isComposite, node]
  case h_2 => cases pointer

/-- Members that all have names are different if their names are. -/
lemma HasMember.unique_of_named {enter : Nat → Option Nat} {x' : Nat}
    (named : ∀ c m, isRecord g c → .type m ∈ (g.node c).elements → (g.node m).getName ≠ "")
    (distinct : ∀ c m m', isRecord g c → .type m ∈ (g.node c).elements →
      .type m' ∈ (g.node c).elements → (g.node m).getName = (g.node m').getName → m = m')
    (first : HasMember g enter field c x) (second : HasMember g enter field c x') : x = x' := by
  cases first with
  | named record mem node =>
    cases second with
    | named _ mem' node' => exact distinct c x x' record mem mem' (by rw [node, node']; rfl)
    | inside _ mem' node' => exact absurd (by rw [node']; rfl) (named c _ record mem')
  | inside record mem node => exact absurd (by rw [node]; rfl) (named c _ record mem)

/-- A component selects at most one place. -/
lemma Selects.unique (ctypes : CTypes g bounds) (first : Selects g bounds p component q)
    (second : Selects g bounds p component p') : q = p' := by
  cases first with
  | member e has node =>
    cases second with
    | member e' has' node' =>
      cases e.symm.trans e'
      cases ctypes.unique _ _ _ _ has has'
      cases node.symm.trans node'
      rfl
    | row e' array =>
      cases e.symm.trans e'
      exact absurd array (isRecord_not_array has.record)
    | element e' array =>
      cases e.symm.trans e'
      exact absurd array (isRecord_not_array has.record)
  | row e array _ _ _ more =>
    cases second with
    | member e' has =>
      cases e.symm.trans e'
      exact absurd array (isRecord_not_array has.record)
    | row e' =>
      cases e.symm.trans e'
      rfl
    | element e' _ _ _ _ last =>
      cases e.symm.trans e'
      exact absurd last more.ne
  | element e array _ _ _ last =>
    cases second with
    | member e' has =>
      cases e.symm.trans e'
      exact absurd array (isRecord_not_array has.record)
    | row e' _ _ _ _ more =>
      cases e.symm.trans e'
      exact absurd last more.ne
    | element e' array' =>
      cases e.symm.trans e'
      cases array.symm.trans array'
      rfl

/-- A place has the selections of the type without its other names. -/
lemma Selects.bare_iff (e : bare g n = some k) :
    Selects g bounds ⟨n, 0⟩ component q ↔ Selects g bounds ⟨k, 0⟩ component q := by
  have e' : bare g k = some k := bare_self (bare_own e)
  constructor
  · intro selects
    cases selects with
    | member own => exact .member (own ▸ e ▸ e') ‹_› ‹_›
    | row own => exact .row (own ▸ e ▸ e') ‹_› ‹_› ‹_› ‹_› ‹_›
    | element own => exact .element (own ▸ e ▸ e') ‹_› ‹_› ‹_› ‹_› ‹_›
  · intro selects
    cases selects with
    | member own => exact .member (own ▸ e' ▸ e) ‹_› ‹_›
    | row own => exact .row (own ▸ e' ▸ e) ‹_› ‹_› ‹_› ‹_› ‹_›
    | element own => exact .element (own ▸ e' ▸ e) ‹_› ‹_› ‹_› ‹_› ‹_›

/-- A path is valid if its first component selects a place and the rest is valid from there. -/
lemma valid_cons : Valid g bounds p (component :: path) ↔
    ∃ p', Selects g bounds p component p' ∧ Valid g bounds p' path := by
  constructor
  · rintro ⟨q, leads⟩
    cases leads with
    | cons selects leads => exact ⟨_, selects, q, leads⟩
  · rintro ⟨p', selects, q, leads⟩
    exact ⟨q, .cons selects leads⟩

/-- The empty path is valid. -/
lemma valid_nil : Valid g bounds p [] := ⟨p, .nil p⟩

/-- A path that goes on is the same from a type and from what it names. -/
lemma leads_bare_iff (e : bare g n = some k) (more : path ≠ []) :
    Leads g bounds ⟨n, 0⟩ path q ↔ Leads g bounds ⟨k, 0⟩ path q := by
  cases path with
  | nil => exact absurd rfl more
  | cons component path =>
    constructor
    · intro leads
      cases leads with
      | cons selects leads => exact .cons ((Selects.bare_iff e).1 selects) leads
    · intro leads
      cases leads with
      | cons selects leads => exact .cons ((Selects.bare_iff e).2 selects) leads

/-- Nothing is selected in a type that is neither an array nor a structure or union. -/
lemma not_selects (e : bare g n = some k) (simple : isComposite g k = false) :
    ¬ Selects g bounds ⟨n, used⟩ component q := by
  intro selects
  cases selects with
  | member e' has =>
    cases e.symm.trans e'
    rw [isRecord_composite has.record] at simple
    cases simple
  | row e' node =>
    cases e.symm.trans e'
    rw [isComposite, node] at simple
    cases simple
  | element e' node =>
    cases e.symm.trans e'
    rw [isComposite, node] at simple
    cases simple

/-- Nothing is selected in a pointer. -/
lemma not_selects_pointer (pointer : isPointer g n) : ¬ Selects g bounds ⟨n, used⟩ component q :=
  not_selects (bare_pointer pointer) (isPointer_simple pointer)

section Array

variable {name : String} {bits : Nat} {elements : List DINode}
variable (node : g.node a = .composite .arrayType name bits (some x) elements)
include node

/-- Out of bounds nothing is selected. -/
lemma inBounds_of_selects (selects : Selects g bounds ⟨a, used⟩ component q) :
    InBounds bounds a used component := by
  have own : bare g a = some a := bare_composite (by rw [isComposite, node])
  cases selects with
  | member e has =>
    cases own.symm.trans e
    exact absurd node (isRecord_not_array has.record)
  | row e _ dimension numeral lt =>
    cases own.symm.trans e
    exact ⟨_, _, dimension, numeral, lt⟩
  | element e _ dimension numeral lt =>
    cases own.symm.trans e
    exact ⟨_, _, dimension, numeral, lt⟩

/-- In a one-dimensional array an index selects an element. -/
lemma selects_element_iff {bound : Nat} (single : bounds a = [bound]) :
    Selects g bounds ⟨a, 0⟩ component q ↔ InBounds bounds a 0 component ∧ q = ⟨x, 0⟩ := by
  have own : bare g a = some a := bare_composite (by rw [isComposite, node])
  constructor
  · intro selects
    refine ⟨inBounds_of_selects node selects, ?_⟩
    cases selects with
    | member e has =>
      cases own.symm.trans e
      exact absurd node (isRecord_not_array has.record)
    | row e _ _ _ _ more =>
      cases own.symm.trans e
      rw [single] at more
      exact absurd more (lt_irrefl _)
    | element e node' =>
      cases own.symm.trans e
      cases node.symm.trans node'
      rfl
  · rintro ⟨⟨bound', i, dimension, numeral, lt⟩, rfl⟩
    exact .element own node dimension numeral lt (by rw [single]; rfl)

/-- In an array of several dimensions the first index selects a row. -/
lemma selects_row_iff (several : 1 < (bounds a).length) :
    Selects g bounds ⟨a, 0⟩ component q ↔ InBounds bounds a 0 component ∧ q = ⟨a, 1⟩ := by
  have own : bare g a = some a := bare_composite (by rw [isComposite, node])
  constructor
  · intro selects
    refine ⟨inBounds_of_selects node selects, ?_⟩
    cases selects with
    | member e has =>
      cases own.symm.trans e
      exact absurd node (isRecord_not_array has.record)
    | row e =>
      cases own.symm.trans e
      rfl
    | element e _ _ _ _ last =>
      cases own.symm.trans e
      exact absurd last several.ne
  · rintro ⟨⟨bound, i, dimension, numeral, lt⟩, rfl⟩
    exact .row own node dimension numeral lt several

end Array

/-- In a structure or union, a component is the name of a member. -/
lemma selects_record_iff (record : isRecord g c) :
    Selects g bounds ⟨c, 0⟩ component q ↔ ∃ x name bits b, HasMember g (bare g) component c x ∧
      g.node x = .derived .member name bits (some b) ∧ q = ⟨b, 0⟩ := by
  have own := bare_composite (isRecord_composite record)
  constructor
  · intro selects
    cases selects with
    | member e has node =>
      cases own.symm.trans e
      exact ⟨_, _, _, _, has, node, rfl⟩
    | row e node =>
      cases own.symm.trans e
      exact absurd node (isRecord_not_array record)
    | element e node =>
      cases own.symm.trans e
      exact absurd node (isRecord_not_array record)
  · rintro ⟨x, name, bits, b, has, node, rfl⟩
    exact .member own has node

end Irx.Debug
