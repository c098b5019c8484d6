import Irx.Debug.Places

/-!
# The indices that a search finds

For a valid path that `GEP` does not reject, the indices are those of the steps that the path takes in C,
also where the search reads the components behind an index differently: an array of several dimensions has
one component for all of them, and the components behind are indices for C and, if they are found at all,
indices for the search (`GEP_indices`).
-/

namespace Irx.Debug
open Irx.Lib

section Steps

variable (g : DebugInfo) (bounds : Nat → List Nat)

/-- The node is an array. -/
def isArray (n : Nat) : Prop := (g.node n).getTag = .arrayType ∧ isComposite g n

/-- So many arrays, each the element type of the one before, around the type `e`. -/
inductive Nest : Nat → Nat → Nat → Prop where
  | nil {n e} : bare g n = some e → ¬ isArray g e → Nest n 0 e
  | cons {n a name bits b elements k e} :
    bare g n = some a → g.node a = .composite .arrayType name bits (some b) elements → Nest b k e →
    Nest n (k + 1) e

/-- From the place, C takes so many indices to the type `e`. -/
inductive Left : Place → Nat → Nat → Prop where
  | nil {n e} : bare g n = some e → ¬ isArray g e → Left ⟨n, 0⟩ 0 e
  | row {n a name bits b elements used k e} :
    bare g n = some a → g.node a = .composite .arrayType name bits (some b) elements →
    used + 1 < (bounds a).length → Left ⟨a, used + 1⟩ k e → Left ⟨n, used⟩ (k + 1) e
  | element {n a name bits b elements used k e} :
    bare g n = some a → g.node a = .composite .arrayType name bits (some b) elements →
    used + 1 = (bounds a).length → Left ⟨b, 0⟩ k e → Left ⟨n, used⟩ (k + 1) e

/-- The search has gone on to the element type of an array while C is at a row: before C comes to a
structure or union, the search is through with its arrays. -/
def Parted (p : Place) (k : Nat) : Prop :=
  ∃ left e, Left g bounds p left e ∧ (isRecord g e → ∃ arrays, Nest g k arrays e ∧ arrays < left)

/-- Where C and the search are on a path: at the same type, or parted. -/
def Meets (p : Place) (c : Nat) : Prop := (p.used = 0 ∧ bare g p.type = some c) ∨ Parted g bounds p c

end Steps

variable {g : DebugInfo} {bounds : Nat → List Nat} {offset : Nat → Nat} {field component : String}
variable {a b c e k m n x y i bits depth left arrays used : Nat} {p q : Place} {path : List String}
variable {steps steps' : List Step} {sub ids out : List DITypedIndex}
variable {front back front' back' : List DINode}

/-! ### One way -/

section Unique

variable (ctypes : CTypes g bounds) (declared : Declared g)
include ctypes declared

omit ctypes in
/-- The elements before a member are the same however the elements are split. -/
lemma front_unique (first : (g.node c).elements = front ++ .type m :: back)
    (second : (g.node c).elements = front' ++ .type m :: back') : front = front' := by
  have new := declared.listed _ _ _ _ first
  have new' := declared.listed _ _ _ _ second
  obtain ⟨more, e, rest⟩ | ⟨more, e, rest⟩ := List.append_eq_append_iff.1 (first.symm.trans second)
  all_goals
    subst e
    cases more with
    | nil => simp
    | cons element more =>
      cases rest
      simp at new new'

/-- No element before the one by which a member is reached has the member. -/
lemma front_skips (record : isRecord g c) (listed : (g.node c).elements = front ++ .type m :: back)
    (via : Via g (bare g) field m x) : ∀ m' y, .type m' ∈ front → ¬ Via g (bare g) field m' y := by
  intro m' y mem via'
  have inside : .type m' ∈ (g.node c).elements := by
    rw [listed]
    exact List.mem_append_left _ mem
  have same : x = y := ctypes.unique field c x y (hasMember_iff.2 ⟨record, m, mem_elements listed, via⟩)
    (hasMember_iff.2 ⟨record, m', inside, via'⟩)
  subst same
  cases declared.once c field m m' x (mem_elements listed) inside via via'
  exact declared.listed _ _ _ _ listed mem

/-- A member is reached by one way. -/
lemma MemberAt.unique (first : MemberAt g offset field c x steps)
    (second : MemberAt g offset field c y steps') : x = y ∧ steps = steps' := by
  obtain rfl := ctypes.unique _ _ _ _ first.hasMember second.hasMember
  refine ⟨rfl, ?_⟩
  induction first generalizing steps' with
  | @named c x bits base front back record listed node named =>
    have via : Via g (bare g) field x x := (via_named node named).2 ⟨rfl, rfl⟩
    cases second with
    | named _ listed' => rw [front_unique declared listed listed']
    | inside _ listed' node' entered at_ =>
      cases declared.once _ _ _ _ _ (mem_elements listed) (mem_elements listed') via
        ((via_anonymous node').2 ⟨_, entered, at_.hasMember⟩)
      cases node.symm.trans node'
      exact absurd rfl named
  | @inside c m bits b n x front back steps record listed node entered at_ ih =>
    have via : Via g (bare g) field m x := (via_anonymous node).2 ⟨_, entered, at_.hasMember⟩
    cases second with
    | named _ listed' node' named =>
      cases declared.once _ _ _ _ _ (mem_elements listed) (mem_elements listed') via
        ((via_named node' named).2 ⟨rfl, rfl⟩)
      cases node.symm.trans node'
      exact absurd rfl named
    | inside _ listed' node' entered' at_' =>
      cases declared.once _ _ _ _ _ (mem_elements listed) (mem_elements listed') via
        ((via_anonymous node').2 ⟨_, entered', at_'.hasMember⟩)
      cases node.symm.trans node'
      cases entered.symm.trans entered'
      rw [front_unique declared listed listed', ih at_']

/-- A component selects one place by one way. -/
lemma SelectsAt.unique {q' : Place} {bits' : Nat}
    (first : SelectsAt g bounds offset p component q steps bits)
    (second : SelectsAt g bounds offset p component q' steps' bits') :
    q = q' ∧ steps = steps' ∧ bits = bits' := by
  obtain rfl := first.selects.unique ctypes second.selects
  refine ⟨rfl, ?_⟩
  cases first with
  | member own at_ node =>
    cases second with
    | member own' at_' node' =>
      cases own.symm.trans own'
      obtain ⟨rfl, rfl⟩ := at_.unique ctypes declared at_'
      cases node.symm.trans node'
      exact ⟨rfl, rfl⟩
    | element own' array =>
      cases own.symm.trans own'
      exact absurd array (isRecord_not_array at_.hasMember.record)
  | row own array _ numeral _ more =>
    cases second with
    | row own' array' _ numeral' =>
      cases own.symm.trans own'
      cases array.symm.trans array'
      cases numeral.symm.trans numeral'
      exact ⟨rfl, rfl⟩
  | element own array _ numeral _ last =>
    cases second with
    | member own' at_' =>
      cases own.symm.trans own'
      exact absurd array (isRecord_not_array at_'.hasMember.record)
    | element own' array' _ numeral' =>
      cases own.symm.trans own'
      cases array.symm.trans array'
      cases numeral.symm.trans numeral'
      exact ⟨rfl, rfl⟩

/-- A path names one thing. -/
lemma NamesAt.unique {bits' : Nat} (first : NamesAt g bounds offset p path steps bits)
    (second : NamesAt g bounds offset p path steps' bits') : steps = steps' ∧ bits = bits' := by
  induction first generalizing steps' bits' with
  | last selects =>
    cases second with
    | last selects' => exact (selects.unique ctypes declared selects').2
    | cons _ rest => cases rest
  | cons selects rest ih =>
    cases second with
    | last => cases rest
    | cons selects' rest' =>
      obtain ⟨rfl, rfl, _⟩ := selects.unique ctypes declared selects'
      obtain ⟨rfl, rfl⟩ := ih rest'
      exact ⟨rfl, rfl⟩

/-- The search for a member that it enters goes the way of C. -/
lemma gep_memberAt (at_ : MemberAt g offset field c x steps) (has : HasMember g (plain g) field c y)
    (deep : g.rank c < depth) : ∃ sub i, GEP2MemberInfo g depth c field = .ok sub ∧
      sub.map DITypedIndex.index = steps.map Step.index ∧ sub.getLast? = some ⟨i, some x⟩ := by
  induction at_ generalizing depth y with
  | @named c x bits base front back record listed node named =>
    cases depth with
    | zero => exact absurd deep (Nat.not_lt_zero _)
    | succ depth =>
      obtain ⟨tag, name, size, base', elements, nodec⟩ := isComposite_node (isRecord_composite record)
      have same : (g.node c).elements = elements := by rw [nodec]; rfl
      have tags : (g.node c).getTag = tag := by rw [nodec]; rfl
      have skips := front_skips ctypes declared record listed ((via_named node named).2 ⟨rfl, rfl⟩)
      rw [← same, listed] at nodec
      rw [gep_elements ctypes nodec record skips deep, memberLoop]
      simp only [node, named, if_false, if_true, Nat.zero_add]
      refine ⟨_, _, rfl, ?_, rfl⟩
      rw [List.map_singleton, List.map_singleton, memberStep, tags]
  | @inside c m bits b n x front back steps record listed node entered at_ ih =>
    cases depth with
    | zero => exact absurd deep (Nat.not_lt_zero _)
    | succ depth =>
      have via : Via g (bare g) field m x := (via_anonymous node).2 ⟨_, entered, at_.hasMember⟩
      obtain ⟨_, m', mem', via'⟩ := hasMember_iff.1 has
      have same : x = y := ctypes.unique _ _ _ _
        (hasMember_iff.2 ⟨record, m, mem_elements listed, via⟩) has.entered
      subst same
      -- the search enters the same member without a name
      cases declared.once _ _ _ _ _ (mem_elements listed) mem' via (via'.imp plain_bare)
      obtain ⟨n', entered', inner⟩ := (via_anonymous node).1 via'
      cases entered.symm.trans (plain_bare _ _ entered')
      rw [plain] at entered'
      split at entered'
      case isFalse => cases entered'
      case isTrue composite =>
        cases entered'
        obtain ⟨tag, name, size, base', elements, nodec⟩ := isComposite_node (isRecord_composite record)
        have same : (g.node c).elements = elements := by rw [nodec]; rfl
        have tags : (g.node c).getTag = tag := by rw [nodec]; rfl
        have skips := front_skips ctypes declared record listed via
        have lower := rank_member node
        have lower' := g.rank_element _ _ _ _ _ _ _ nodec (same ▸ mem_elements listed)
        obtain ⟨sub, i, e, indices, last⟩ := ih inner (by omega : g.rank b < depth)
        obtain ⟨_, _, _, _, _, node'⟩ := isComposite_node composite
        have filled : sub.length > 0 := by
          cases sub with
          | nil => cases last
          | cons => exact Nat.succ_pos _
        rw [← same, listed] at nodec
        rw [gep_elements ctypes nodec record skips deep, memberLoop]
        simp only [node, node', if_true, e, ok_bind, filled, Nat.zero_add]
        refine ⟨_, i, rfl, ?_, by rw [List.getLast?_cons, last]; rfl⟩
        rw [List.map_cons, List.map_cons, indices, memberStep, tags]

end Unique

/-! ### Arrays in arrays -/

/-- Arrays are composite types with the tag. -/
lemma isArray_node {tag : Tag} {name : String} {bits : Nat} {base : Option Nat} {elements : List DINode}
    (node : g.node n = .composite tag name bits base elements) : isArray g n ↔ tag = .arrayType := by
  rw [isArray, isComposite, node]
  exact and_iff_left rfl

/-- What a type names is not of higher rank. -/
lemma bare_rank (e : bare g n = some k) : g.rank k ≤ g.rank n := by
  induction rank : g.rank n using Nat.strong_induction_on generalizing n with
  | _ r ih =>
    obtain ⟨_, _, _, base, node, renames, e'⟩ | ⟨e', _⟩ := bare_cases g n
    · cases base with
      | none =>
        rw [e'] at e
        cases e
      | some b =>
        have lower := renames_rank node renames
        have := ih _ (rank ▸ lower) (e'.symm.trans e) rfl
        omega
    · cases e'.symm.trans e
      exact rank.le

/-- Other names of a type make no difference. -/
lemma Nest.of_bare (same : bare g n = bare g m) (nest : Nest g n arrays e) : Nest g m arrays e := by
  cases nest with
  | nil own other => exact .nil (same ▸ own) other
  | cons own node rest => exact .cons (same ▸ own) node rest

/-- C takes all indices of an array, and then those of its elements. -/
lemma left_rows {name : String} {elements : List DINode} (own : bare g n = some a)
    (node : g.node a = .composite .arrayType name bits (some b) elements)
    (rest : Left g bounds ⟨b, 0⟩ left e) (lt : used < (bounds a).length) :
    Left g bounds ⟨n, used⟩ ((bounds a).length - used + left) e := by
  induction more : (bounds a).length - used generalizing n used with
  | zero => omega
  | succ k ih =>
    rw [Nat.succ_add]
    by_cases last : used + 1 = (bounds a).length
    case pos =>
      obtain rfl : k = 0 := by omega
      rw [Nat.zero_add]
      exact .element own node last rest
    case neg => exact .row own node (by omega) (ih (bare_node node) (by omega) (by omega))

/-- There are no more arrays than indices. -/
lemma exists_left (ctypes : CTypes g bounds) (named : bare g n = some k) :
    ∃ arrays left e, Nest g n arrays e ∧ Left g bounds ⟨n, 0⟩ left e ∧ arrays ≤ left := by
  induction rank : g.rank n using Nat.strong_induction_on generalizing n k with
  | _ r ih =>
    by_cases array : isArray g k
    case neg => exact ⟨0, 0, k, .nil named array, .nil named array, le_rfl⟩
    case pos =>
      obtain ⟨tag, name, bits, base, elements, node⟩ := isComposite_node array.2
      obtain rfl := (isArray_node node).1 array
      obtain ⟨filled, b, k', rfl, named', _⟩ := ctypes.array _ _ _ _ _ node
      have lower := g.rank_base _ _ _ _ _ _ node
      have le := bare_rank named
      obtain ⟨arrays, left, e, nest, rest, few⟩ := ih _ (by omega : g.rank b < r) named' rfl
      have pos := List.length_pos_iff.2 filled
      refine ⟨arrays + 1, _, e, .cons named node nest, left_rows named node rest pos, ?_⟩
      omega

/-- While there are indices left, C selects by an index. -/
lemma Left.select (rest : Left g bounds p left e)
    (selects : SelectsAt g bounds offset p component q steps bits) : (left = 0 ∧ isRecord g e) ∨
      ∃ left' i, left = left' + 1 ∧ Left g bounds q left' e ∧ index? component = some i ∧
        steps.map Step.index = [i] := by
  cases rest with
  | nil own other =>
    cases selects with
    | member own' at_ =>
      cases own.symm.trans own'
      exact .inl ⟨rfl, at_.hasMember.record⟩
    | row own' node =>
      cases own.symm.trans own'
      exact absurd ((isArray_node node).2 rfl) other
    | element own' node =>
      cases own.symm.trans own'
      exact absurd ((isArray_node node).2 rfl) other
  | row own node more rest =>
    cases selects with
    | member own' at_ =>
      cases own.symm.trans own'
      exact absurd node (isRecord_not_array at_.hasMember.record)
    | row own' node' _ numeral =>
      cases own.symm.trans own'
      exact .inr ⟨_, _, rfl, rest, numeral, rfl⟩
    | element own' _ _ _ _ last =>
      cases own.symm.trans own'
      omega
  | element own node last rest =>
    cases selects with
    | member own' at_ =>
      cases own.symm.trans own'
      exact absurd node (isRecord_not_array at_.hasMember.record)
    | row own' _ _ _ _ more =>
      cases own.symm.trans own'
      omega
    | element own' node' _ numeral =>
      cases own.symm.trans own'
      cases node.symm.trans node'
      exact .inr ⟨_, _, rfl, rest, numeral, rfl⟩

/-! ### The rounds of the search -/

/-- A round of the loop that leads on. -/
lemma gepLoop_next (ran : gepLoop g (some c) ids (component :: path) = .ok out) (filled : out ≠ []) :
    ∃ sub i x k, GEP2MemberInfo g (g.rank c + 1) c component = .ok sub ∧
      sub.getLast? = some ⟨i, some x⟩ ∧ resolveDerivedTypeBaseType g (some x) = .ok (some k) ∧
      ((path = [] ∧ out = ids ++ sub) ∨
        (path ≠ [] ∧ isComposite g k ∧ gepLoop g (some k) (ids ++ sub) path = .ok out)) := by
  rw [gepLoop] at ran
  obtain ⟨sub, found, search⟩ := bind_eq_ok.1 ran
  cases last : sub.getLast? with
  | none =>
    rw [last] at search
    cases search
    exact absurd rfl filled
  | some back =>
    simp only [last] at search
    obtain ⟨r, resolved, goes⟩ := bind_eq_ok.1 search
    cases r with
    | none => cases goes
    | some k =>
      obtain ⟨i, DITy⟩ := back
      cases DITy with
      | none => cases resolved
      | some x =>
        refine ⟨sub, i, x, k, found, last, resolved, ?_⟩
        cases path with
        | nil =>
          dsimp only at goes
          rw [gepLoop_nil] at goes
          cases goes
          exact .inl ⟨rfl, rfl⟩
        | cons next path =>
          dsimp only at goes
          split at goes
          case h_1 node => exact .inr ⟨List.cons_ne_nil _ _, by rw [isComposite, node], goes⟩
          case h_2 =>
            cases goes
            exact absurd rfl filled

/-- In an array, what the search takes for an index is one for C. -/
lemma gep_indexed {name : String} {base : Option Nat} {elements : List DINode}
    (node : g.node c = .composite .arrayType name bits base elements) (numeral : index? component = some i)
    (found : GEP2MemberInfo g (depth + 1) c component = .ok sub) : sub = [⟨i, base⟩] := by
  rw [GEP2MemberInfo, node] at found
  simp only [if_true] at found
  obtain ⟨j, read, found⟩ := bind_eq_ok.1 found
  rw [stoi_index numeral] at read
  split at read
  case isFalse => cases read
  case isTrue =>
    cases read
    rw [if_pos (Int.natCast_nonneg i)] at found
    exact (Except.ok.inj found).symm

section Rounds

variable (ctypes : CTypes g bounds) (declared : Declared g)
include ctypes declared

omit ctypes in
/-- What is found for an index is an element of an array, since no member is called by a number. -/
lemma finds_index (numeral : index? component = some i) (finds : Finds g c component x) :
    ∃ name bits elements, g.node c = .composite .arrayType name bits (some x) elements := by
  cases finds with
  | element node => exact ⟨_, _, _, node⟩
  | member has =>
    have named : ∃ bits base, g.node x = .derived .member component bits base := by
      induction has with
      | named _ _ node => exact ⟨_, _, node⟩
      | inside _ _ _ _ _ ih => exact ih
    obtain ⟨bits, base, node⟩ := named
    rw [declared.name _ _ _ _ node] at numeral
    cases numeral

omit declared in
/-- The search goes on to the elements, if these are no pointers. -/
lemma nest_resolved {name : String} {elements : List DINode} (record : isRecord g e)
    (node : g.node a = .composite .arrayType name bits (some x) elements)
    (resolved : resolveDerivedTypeBaseType g (some x) = .ok (some k)) (nest : Nest g x arrays e) :
    Nest g k arrays e := by
  have noPointer : isPointer g x = false := by
    by_contra pointer
    rw [Bool.not_eq_false] at pointer
    have own := bare_pointer pointer
    cases nest with
    | nil own' =>
      cases own.symm.trans own'
      have composite := isPointer_simple pointer
      rw [isRecord_composite record] at composite
      cases composite
    | cons own' node' =>
      cases own.symm.trans own'
      rw [isPointer, node'] at pointer
      cases pointer
  obtain ⟨m, k', resolved', stripped, named⟩ := resolve_element ctypes node noPointer
  cases resolved.symm.trans resolved'
  exact nest.of_bare (named.trans stripped.symm)

/-- One round where C and the search have parted. -/
lemma Parted.round (parted : Parted g bounds p c) (composite : isComposite g c)
    (selects : SelectsAt g bounds offset p component q steps bits)
    (found : GEP2MemberInfo g (g.rank c + 1) c component = .ok sub) (last : sub.getLast? = some ⟨i, some x⟩)
    (resolved : resolveDerivedTypeBaseType g (some x) = .ok (some k)) :
    sub.map DITypedIndex.index = steps.map Step.index ∧ Parted g bounds q k := by
  obtain ⟨left, e, rest, nest⟩ := parted
  obtain ⟨rfl, record⟩ | ⟨left', j, rfl, rest', numeral, index⟩ := rest.select selects
  · obtain ⟨arrays, _, few⟩ := nest record
    exact absurd few (Nat.not_lt_zero _)
  have finds : Finds g c component x := by
    obtain (⟨sub', _, _, e, last', finds⟩ | ⟨e, _⟩) | ⟨_, _, _, _, _, _, _, e⟩ :=
      GEP2MemberInfo_cases ctypes composite component (Nat.lt_succ_self _)
    · cases found.symm.trans e
      cases last.symm.trans last'
      exact finds
    · cases found.symm.trans e
      cases last
    · cases found.symm.trans e
  obtain ⟨name, bits, elements, node⟩ := finds_index declared numeral finds
  cases gep_indexed node numeral found
  cases last
  refine ⟨index.symm, left', e, rest', fun record => ?_⟩
  obtain ⟨arrays, nested, few⟩ := nest record
  cases nested with
  | nil own other =>
    cases (bare_node node).symm.trans own
    exact absurd ((isArray_node node).2 rfl) other
  | cons own node' nested =>
    cases (bare_node node).symm.trans own
    cases node.symm.trans node'
    exact ⟨_, nest_resolved ctypes record node resolved nested, by omega⟩

/-- One round. -/
lemma Meets.round (meets : Meets g bounds p c) (composite : isComposite g c)
    (selects : SelectsAt g bounds offset p component q steps bits)
    (found : GEP2MemberInfo g (g.rank c + 1) c component = .ok sub) (last : sub.getLast? = some ⟨i, some x⟩)
    (resolved : resolveDerivedTypeBaseType g (some x) = .ok (some k)) :
    sub.map DITypedIndex.index = steps.map Step.index ∧
      (isComposite g k → (∃ next q', Selects g bounds q next q') → Meets g bounds q k) := by
  obtain ⟨start, own⟩ | parted := meets
  case inr =>
    obtain ⟨indices, parted⟩ := parted.round ctypes declared composite selects found last resolved
    exact ⟨indices, fun _ _ => .inr parted⟩
  have finds : Finds g c component x := by
    obtain (⟨sub', _, _, e, last', finds⟩ | ⟨e, _⟩) | ⟨_, _, _, _, _, _, _, e⟩ :=
      GEP2MemberInfo_cases ctypes composite component (Nat.lt_succ_self _)
    · cases found.symm.trans e
      cases last.symm.trans last'
      exact finds
    · cases found.symm.trans e
      cases last
    · cases found.symm.trans e
  cases selects with
  | member own' at_ node =>
    cases own.symm.trans own'
    have has := (finds_record_iff at_.hasMember.record).1 finds
    obtain ⟨sub', j, found', indices, last'⟩ := gep_memberAt ctypes declared at_ has (Nat.lt_succ_self _)
    cases found.symm.trans found'
    cases last.symm.trans last'
    refine ⟨indices, fun composite' _ => .inl ⟨rfl, ?_⟩⟩
    obtain ⟨_, _, _, k', node', named⟩ := at_.hasMember.node ctypes
    cases node.symm.trans node'
    obtain ⟨m, resolved', stripped⟩ := resolve_member node named
    cases resolved.symm.trans resolved'
    cases (bare_composite composite').symm.trans stripped
    exact named
  | row own' node dimension numeral lt more =>
    cases own.symm.trans own'
    cases gep_indexed node numeral found
    cases last
    refine ⟨rfl, fun _ _ => .inr ?_⟩
    obtain ⟨_, _, _, ⟨⟩, named, _⟩ := ctypes.array _ _ _ _ _ node
    obtain ⟨arrays, left, e, nest, rest, few⟩ := exists_left ctypes named
    refine ⟨_, e, left_rows (bare_node node) node rest more, fun record => ?_⟩
    exact ⟨arrays, nest_resolved ctypes record node resolved nest, by omega⟩
  | element own' node dimension numeral lt only =>
    cases own.symm.trans own'
    cases gep_indexed node numeral found
    cases last
    refine ⟨rfl, fun composite' next => .inl ⟨rfl, ?_⟩⟩
    obtain ⟨_, _, selects⟩ := next
    have noPointer : isPointer g x = false := by
      by_contra pointer
      exact not_selects_pointer (Bool.not_eq_false _ ▸ pointer) selects
    obtain ⟨m, k', resolved', stripped, named⟩ := resolve_element ctypes node noPointer
    cases resolved.symm.trans resolved'
    cases (bare_composite composite').symm.trans stripped
    exact named

/-- The loop along a valid path. -/
lemma gepLoop_indices (meets : Meets g bounds p c) (composite : isComposite g c)
    (names : NamesAt g bounds offset p path steps bits) (ran : gepLoop g (some c) ids path = .ok out)
    (filled : out ≠ []) :
    out.map DITypedIndex.index = ids.map DITypedIndex.index ++ steps.map Step.index := by
  induction names generalizing c ids with
  | last selects =>
    obtain ⟨sub, i, x, k, found, last, resolved, ⟨_, rfl⟩ | ⟨more, _⟩⟩ := gepLoop_next ran filled
    · obtain ⟨indices, _⟩ := meets.round ctypes declared composite selects found last resolved
      rw [List.map_append, indices]
    · exact absurd rfl more
  | @cons p q component path steps steps' bits bits' selects rest ih =>
    have next : ∃ next q', Selects g bounds q next q' := by
      cases rest with
      | last next => exact ⟨_, _, next.selects⟩
      | cons next => exact ⟨_, _, next.selects⟩
    obtain ⟨sub, i, x, k, found, last, resolved, ⟨rfl, _⟩ | ⟨_, composite', ran⟩⟩ := gepLoop_next ran filled
    · cases rest
    · obtain ⟨indices, on⟩ := meets.round ctypes declared composite selects found last resolved
      rw [ih (on composite' next) composite' ran, List.map_append, List.map_append, indices,
        List.append_assoc]

/-- For a valid path that is not rejected, the indices are those of the steps. -/
theorem GEP_indices (composite : isComposite g c) (names : NamesAt g bounds offset ⟨c, 0⟩ path steps bits)
    (ran : GEP g (some c) path = .ok out) (filled : out ≠ []) :
    out.map DITypedIndex.index = 0 :: steps.map Step.index :=
  gepLoop_indices ctypes declared (.inl ⟨rfl, bare_composite composite⟩) composite names ran filled

end Rounds

end Irx.Debug
