import Irx.Debug.Graph

/-!
# What a compiler writes for a C type

`Describes g c n` says that node `n` of the debug types stands for the C type `c`: pointers and
typedefs are derived types, members are derived types around the type of the member, and an array
names its element type. The searches of `Graph` then follow the selections of a path:
`record_search` and `fields_search` for the members of one composite type, `gepLoop_spec` for a path.
-/

namespace Irx.Debug
open Irx.Lib

/-- Element types of arrays are basic types, structures and unions, also by a typedef. -/
def IsElement (c : CType) : Prop :=
  match c.strip with
  | .basic _ _ => True
  | .struct _ _ => True
  | .union _ _ => True
  | _ => False

/-- Structures and unions. -/
def IsRecord : CType → Prop
  | .struct _ _ => True
  | .union _ _ => True
  | _ => False

mutual

/-- The node stands for the C type. -/
def Describes (g : DebugInfo) : CType → Nat → Prop
  | .basic name bits, n => g.node n = .basic name bits ∧ bits % 8 = 0
  | .pointer, n => ∃ name bits base,
      g.node n = .derived .pointerType name bits base ∧ bits % 8 = 0
  | .typedef name ty, n => ∃ bits b,
      g.node n = .derived .typedef name bits (some b) ∧ bits % 8 = 0 ∧ Describes g ty b
  | .struct name fields, n => ∃ bits base elements,
      g.node n = .composite .structureType name bits base elements ∧
      DescribesFields g fields elements
  | .union name fields, n => ∃ bits base elements,
      g.node n = .composite .unionType name bits base elements ∧ DescribesFields g fields elements
  | .array elem _, n => ∃ name bits elements b,
      g.node n = .composite .arrayType name bits (some b) elements ∧ IsElement elem ∧
      Describes g elem b

/-- The elements stand for the members. A member without a name is no array. -/
def DescribesFields (g : DebugInfo) : Fields → List DINode → Prop
  | .nil, elements => elements = []
  | .cons name ty rest, elements => ∃ m bits b later,
      elements = .type m :: later ∧ g.node m = .derived .member name bits (some b) ∧
      bits % 8 = 0 ∧ (name = "" → ∀ elem count, ty ≠ .array elem count) ∧ Describes g ty b ∧
      DescribesFields g rest later

end

/-- The node is a member of the type. -/
def Member (g : DebugInfo) (t : CType) (m : Nat) : Prop :=
  ∃ name bits b, g.node m = .derived .member name bits (some b) ∧ bits % 8 = 0 ∧ Describes g t b

/-- The last selection is one in an array. -/
def EndsInArray (steps : List Selection) : Prop :=
  ∃ elem count i, steps.getLast? = some (.array elem count, i)

/-- The node at which selections of the type end: the element type of an array, or else a member. -/
def EndsAt (g : DebugInfo) (steps : List Selection) (t : CType) (m : Nat) : Prop :=
  (EndsInArray steps ∧ IsElement t ∧ Describes g t m) ∨ (¬ EndsInArray steps ∧ Member g t m)

/-- The indices found are those of the selections, and the last one leads to where these end. -/
structure Reaches (g : DebugInfo) (steps : List Selection) (t : CType) (sub : List DITypedIndex) :
    Prop where
  index : sub.map DITypedIndex.index = steps.map gepIndex
  back : ∃ index m, sub.getLast? = some ⟨index, some m⟩ ∧ EndsAt g steps t m

/-- The answer of a member search for what the C type says. -/
def Answers (g : DebugInfo) (r : Except Abort (List DITypedIndex)) :
    Option (List Selection × CType) → Prop
  | none => r = .ok []
  | some (steps, t) =>
    (∀ sel ∈ steps, IsRecord sel.1) ∧ ∃ sub, r = .ok sub ∧ Reaches g steps t sub

variable {g : DebugInfo} {c t : CType} {n : Nat} {steps later : List Selection}
variable {sub : List DITypedIndex}

/-- A selection in a structure or union does not end in an array. -/
lemma not_endsInArray {sel : Selection} (record : IsRecord sel.1) : ¬ EndsInArray [sel] := by
  intro ⟨elem, count, i, e⟩
  cases e
  exact record

/-- Where a list ends does not depend on what comes before. -/
lemma endsInArray_append (ne : later ≠ []) :
    EndsInArray (steps ++ later) ↔ EndsInArray later := by
  rw [EndsInArray, EndsInArray, List.getLast?_append_of_ne_nil _ ne]

/-- A search that gets somewhere lists an index for each step. -/
lemma Reaches.ne_nil (reaches : Reaches g steps t sub) : sub ≠ [] ∧ steps ≠ [] := by
  obtain ⟨index, m, last, _⟩ := reaches.back
  have ne : sub ≠ [] := by
    intro e
    rw [e] at last
    cases last
  refine ⟨ne, fun e => ne ?_⟩
  have := reaches.index
  rw [e, List.map_nil, List.map_eq_nil_iff] at this
  exact this

/-- Indices found one after the other. -/
lemma Reaches.append {sub' : List DITypedIndex}
    (first : sub'.map DITypedIndex.index = steps.map gepIndex) (second : Reaches g later t sub) :
    Reaches g (steps ++ later) t (sub' ++ sub) := by
  obtain ⟨index, m, last, ends⟩ := second.back
  obtain ⟨ne, ne'⟩ := second.ne_nil
  refine ⟨?_, index, m, ?_, ?_⟩
  · rw [List.map_append, List.map_append, first, second.index]
  · rw [List.getLast?_append_of_ne_nil _ ne, last]
  · rw [EndsAt, endsInArray_append ne']
    exact ends

/-- What the search answers for a member without a name: what it finds inside, or else what it finds
behind. -/
lemma Answers.enter {r r' : Except Abort (List DITypedIndex)} {whole : CType} {k : Nat}
    {DITy : Option Nat} {inside behind : Option (List Selection × CType)} (record : IsRecord whole) :
    Answers g r inside → Answers g r' behind → Answers g (do
        let sub ← r
        if sub.length > 0 then .ok (⟨gepIndex (whole, k), DITy⟩ :: sub) else r')
      (match inside with
      | some (steps, found) => some ((whole, k) :: steps, found)
      | none => behind) := by
  intro found next
  cases inside with
  | none =>
    cases found
    exact next
  | some result =>
    obtain ⟨steps, t⟩ := result
    obtain ⟨records, sub, rfl, reaches⟩ := found
    have nonempty : sub.length > 0 := List.length_pos_iff.2 reaches.ne_nil.1
    rw [ok_bind, if_pos nonempty]
    have grown : Reaches g ([(whole, k)] ++ steps) t ([⟨gepIndex (whole, k), DITy⟩] ++ sub) :=
      .append rfl reaches
    refine ⟨?_, _, rfl, grown⟩
    intro sel mem
    rcases List.mem_cons.1 mem with rfl | mem
    · exact record
    · exact records sel mem

mutual

/-- A search in a structure or union finds what the C type says. -/
lemma record_search : ∀ (c : CType) {n depth : Nat} {f : String}, IsRecord c →
    Describes g c n → g.rank n < depth →
    Answers g (GEP2MemberInfo g depth n f) (c.member? f)
  | .struct name fields, n, 0, field, _, _, deep => absurd deep (Nat.not_lt_zero _)
  | .struct name fields, n, depth + 1, field, _, described, deep => by
    obtain ⟨bits, base, elements, node, described⟩ := described
    have below : ∀ m, .type m ∈ elements → g.rank m ≤ depth := fun m mem =>
      (g.rank_element _ _ _ _ _ _ _ node mem).le.trans (Nat.le_of_lt_succ deep)
    rw [GEP2MemberInfo, node]
    exact fields_search fields trivial (fun _ => rfl) described below
  | .union name fields, n, 0, field, _, _, deep => absurd deep (Nat.not_lt_zero _)
  | .union name fields, n, depth + 1, field, _, described, deep => by
    obtain ⟨bits, base, elements, node, described⟩ := described
    have below : ∀ m, .type m ∈ elements → g.rank m ≤ depth := fun m mem =>
      (g.rank_element _ _ _ _ _ _ _ node mem).le.trans (Nat.le_of_lt_succ deep)
    rw [GEP2MemberInfo, node]
    exact fields_search fields trivial (fun _ => rfl) described below
  | .basic _ _, _, _, _, record, _, _ => record.elim
  | .pointer, _, _, _, record, _, _ => record.elim
  | .typedef _ _, _, _, _, record, _, _ => record.elim
  | .array _ _, _, _, _, record, _, _ => record.elim

/-- The same from a position of the member list on. -/
lemma fields_search : ∀ (fields : Fields) {whole : CType} {tag : Tag} {k depth : Nat}
    {elements : List DINode} {f : String}, IsRecord whole →
    (∀ k, gepIndex (whole, k + 1) =
      if tag ≠ .unionType then gepIndex (whole, k) + 1 else gepIndex (whole, k)) →
    DescribesFields g fields elements → (∀ m, .type m ∈ elements → g.rank m ≤ depth) →
    Answers g
      (memberLoop g (fun b => GEP2MemberInfo g depth b f) tag f (gepIndex (whole, k)) elements)
      (fields.member? whole k f)
  | .nil, _, _, _, _, _, _, _, _, described, _ => by
    cases described
    rfl
  | .cons name ty rest, whole, tag, k, depth, elements, field, record, count, described, below => by
    obtain ⟨m, bits, b, later, rfl, node, aligned, noArray, inner, described⟩ := described
    -- the answer behind this member is known first: the loop falls back on it
    have next := fields_search rest (k := k + 1) (f := field) record count described
      fun m mem => below m (.tail _ mem)
    rw [count] at next
    rw [memberLoop, Fields.member?]
    simp only [node]
    by_cases anonymous : name = ""
    case pos =>
      have deep : g.rank b < depth :=
        (g.rank_derived _ _ _ _ _ node nofun).trans_le (below m (.head _))
      simp only [if_pos anonymous]
      -- only structures and unions are entered
      cases ty with
      | basic =>
        simp only [inner.1]
        exact next
      | pointer =>
        obtain ⟨_, _, _, node', _⟩ := inner
        simp only [node']
        exact next
      | typedef =>
        obtain ⟨_, _, node', _⟩ := inner
        simp only [node']
        exact next
      | array elem count => exact absurd rfl (noArray anonymous elem count)
      | struct name' fields =>
        have found := record_search (.struct name' fields) (f := field) trivial inner deep
        obtain ⟨_, _, _, node', _⟩ := inner
        simp only [node']
        exact .enter record found next
      | union name' fields =>
        have found := record_search (.union name' fields) (f := field) trivial inner deep
        obtain ⟨_, _, _, node', _⟩ := inner
        simp only [node']
        exact .enter record found next
    case neg =>
      simp only [if_neg anonymous]
      by_cases hit : name = field
      case pos =>
        simp only [if_pos hit]
        refine ⟨?_, _, rfl, rfl, _, m, rfl, .inr ⟨not_endsInArray record, ?_⟩⟩
        · intro sel mem
          cases List.mem_singleton.1 mem
          exact record
        · exact ⟨name, bits, b, node, aligned, inner⟩
      case neg =>
        simp only [if_neg hit]
        exact next

end

/-- The indices in arrays fit the `int` that `stoi` returns. -/
def Representable (steps : List Selection) : Prop :=
  ∀ sel ∈ steps, ∀ elem count, sel.1 = .array elem count → sel.2 ≤ 2147483647

/-- Without arrays on the way all indices fit `int`. -/
lemma representable_of_records (records : ∀ sel ∈ steps, IsRecord sel.1) : Representable steps := by
  intro sel mem elem count e
  have := records sel mem
  rw [e] at this
  exact this.elim

/-- The indices of a way fit `int` if those of its parts do. -/
lemma representable_append :
    Representable (steps ++ later) ↔ Representable steps ∧ Representable later :=
  List.forall_mem_append

/-- A digit is no blank and no sign. -/
lemma not_isSpace_of_isDigit {ch : Char} (digit : ch.isDigit = true) :
    isSpace ch = false ∧ ch ≠ '-' ∧ ch ≠ '+' := by
  have low : '0' ≤ ch := by
    rw [Char.isDigit, Bool.and_eq_true] at digit
    exact of_decide_eq_true digit.1
  refine ⟨?_, ?_, ?_⟩
  · have high : ¬ ch ≤ '\r' := fun le => absurd (low.trans le) (by decide)
    have blank : ch ≠ ' ' := by
      rintro rfl
      exact absurd low (by decide)
    simp [isSpace, high, blank]
  · rintro rfl
    exact absurd low (by decide)
  · rintro rfl
    exact absurd low (by decide)

/-- A text that begins with no sign is not negative. -/
lemma sign_cons {ch : Char} {rest : List Char} (minus : ch ≠ '-') (plus : ch ≠ '+') :
    sign (ch :: rest) = (false, ch :: rest) := by
  rw [sign]
  · intro cs e
    exact minus (List.cons.inj e).1
  · intro cs e
    exact plus (List.cons.inj e).1

/-- `stoi` reads a decimal numeral if its value fits an `int`, and throws otherwise. -/
lemma stoi_index {component : String} {i : Nat} (e : index? component = some i) :
    stoi component = if i ≤ 2147483647 then .ok (i : Int) else .error .outOfRange := by
  rw [index?] at e
  split at e
  case isFalse => cases e
  case isTrue numeral =>
    cases e
    obtain ⟨ne, digits⟩ := numeral
    rw [stoi]
    cases chars : component.toList with
    | nil => exact absurd chars ne
    | cons ch rest =>
      rw [chars] at digits
      obtain ⟨blank, minus, plus⟩ :=
        not_isSpace_of_isDigit (List.all_eq_true.1 digits ch (.head _))
      have all : (ch :: rest).takeWhile Char.isDigit = ch :: rest :=
        List.takeWhile_eq_self_iff.2 (List.all_eq_true.1 digits)
      -- no blanks are skipped and no sign is read: the digits are the whole component
      rw [List.dropWhile_cons_of_neg (by rw [blank]; decide), sign_cons minus plus]
      show (if (ch :: rest).takeWhile Char.isDigit = [] then _ else _) = _
      rw [all, if_neg (List.cons_ne_nil ch rest)]
      show (if (-2147483648 : Int) ≤ (decimal (ch :: rest) : Int) ∧
        (decimal (ch :: rest) : Int) ≤ 2147483647 then _ else _) = _
      by_cases fits : decimal (ch :: rest) ≤ 2147483647
      · rw [if_pos fits, if_pos (by omega)]
        rfl
      · rw [if_neg fits, if_neg (by omega)]

/-- Stripping typedefs ends at a node for the stripped type. -/
lemma stripTypedefs_spec {fuel : Nat} (described : Describes g c n) (deep : g.rank n < fuel) :
    ∃ k, stripTypedefs g fuel n = .ok k ∧ Describes g c.strip k := by
  induction fuel generalizing c n with
  | zero => exact absurd deep (Nat.not_lt_zero _)
  | succ fuel ih =>
    cases c with
    | typedef name ty =>
      -- the only round that goes on: the rank of the node is the fuel
      obtain ⟨bits, b, node, _, inner⟩ := described
      have lower := g.rank_derived _ _ _ _ _ node nofun
      obtain ⟨k, e, described⟩ := ih inner (by omega)
      exact ⟨k, by rw [stripTypedefs, node]; exact e, described⟩
    | basic =>
      have node := described.1
      exact ⟨n, by rw [stripTypedefs, node], described⟩
    | pointer =>
      obtain ⟨_, _, _, node, _⟩ := id described
      exact ⟨n, by rw [stripTypedefs, node], described⟩
    | struct =>
      obtain ⟨_, _, _, node, _⟩ := id described
      exact ⟨n, by rw [stripTypedefs, node], described⟩
    | union =>
      obtain ⟨_, _, _, node, _⟩ := id described
      exact ⟨n, by rw [stripTypedefs, node], described⟩
    | array =>
      obtain ⟨_, _, _, _, node, _⟩ := id described
      exact ⟨n, by rw [stripTypedefs, node], described⟩

/-- What selections end at resolves to a node for the stripped type. -/
lemma EndsAt.resolve {m : Nat} (ends : EndsAt g steps t m) :
    ∃ k, resolveDerivedTypeBaseType g (some m) = .ok (some k) ∧ Describes g t.strip k := by
  rcases ends with ⟨_, element, described⟩ | ⟨_, name, bits, b, node, _, described⟩
  case inl =>
    -- an array element is no derived type unless it is a typedef, and then one name is taken off
    obtain ⟨k, e, described'⟩ := stripTypedefs_spec described (Nat.lt_succ_self _)
    cases t with
    | typedef name ty =>
      obtain ⟨bits, b, node, _, inner⟩ := described
      obtain ⟨k, e, described'⟩ := stripTypedefs_spec inner (Nat.lt_succ_self _)
      refine ⟨k, ?_, described'⟩
      rw [resolveDerivedTypeBaseType, node]
      show (stripTypedefs g (g.rank b + 1) b).map some = _
      rw [e]
      rfl
    | basic =>
      refine ⟨k, ?_, described'⟩
      rw [resolveDerivedTypeBaseType, described.1, e]
      rfl
    | pointer => exact element.elim
    | struct =>
      obtain ⟨_, _, _, node, _⟩ := described
      refine ⟨k, ?_, described'⟩
      rw [resolveDerivedTypeBaseType, node, e]
      rfl
    | union =>
      obtain ⟨_, _, _, node, _⟩ := described
      refine ⟨k, ?_, described'⟩
      rw [resolveDerivedTypeBaseType, node, e]
      rfl
    | array => exact element.elim
  case inr =>
    obtain ⟨k, e, described'⟩ := stripTypedefs_spec described (Nat.lt_succ_self _)
    refine ⟨k, ?_, described'⟩
    rw [resolveDerivedTypeBaseType, node]
    show (stripTypedefs g (g.rank b + 1) b).map some = _
    rw [e]
    rfl

/-- One component of a path is found, or its index does not fit an `int`. -/
lemma component_spec {component : String} (described : Describes g c.strip n)
    (e : c.component? component = some (steps, t)) :
    (Representable steps ∧ ∃ sub,
        GEP2MemberInfo g (g.rank n + 1) n component = .ok sub ∧ Reaches g steps t sub) ∨
      (¬ Representable steps ∧
        GEP2MemberInfo g (g.rank n + 1) n component = .error .outOfRange) := by
  -- an index is parsed by `stoi`; a name is searched in the members
  by_cases array : ∃ elem count, c.strip = .array elem count
  case pos =>
    obtain ⟨elem, count, strip⟩ := array
    obtain ⟨i, index, _, rfl, rfl⟩ := CType.component?_array strip e
    rw [strip] at described
    obtain ⟨_, _, _, b, node, element, described⟩ := described
    have fits : Representable [(CType.array t count, i)] ↔ i ≤ 2147483647 := by
      constructor
      · intro fit
        exact fit _ (.head _) t count rfl
      · intro le sel mem elem count e
        cases List.mem_singleton.1 mem
        exact le
    rw [GEP2MemberInfo, node]
    simp only [if_true, stoi_index index]
    by_cases le : i ≤ 2147483647
    case pos =>
      have natural : (i : Int) ≥ 0 := Int.natCast_nonneg i
      rw [if_pos le, ok_bind, if_pos natural]
      refine .inl ⟨fits.2 le, _, rfl, rfl, i, b, rfl, .inl ⟨⟨t, count, i, rfl⟩, element, described⟩⟩
    case neg =>
      rw [if_neg le]
      exact .inr ⟨fun fit => le (fits.1 fit), rfl⟩
  case neg =>
    have noArray : ∀ elem count, c.strip ≠ .array elem count :=
      fun elem count strip => array ⟨elem, count, strip⟩
    rw [CType.component?_member noArray] at e
    have record : IsRecord c.strip := by
      cases strip : c.strip with
      | struct => trivial
      | union => trivial
      | array elem count => exact absurd strip (noArray elem count)
      | basic =>
        rw [strip] at e
        cases e
      | pointer =>
        rw [strip] at e
        cases e
      | typedef =>
        rw [strip] at e
        cases e
    have answers := record_search c.strip (f := component) record described
      (Nat.lt_succ_self _)
    rw [e] at answers
    exact .inl ⟨representable_of_records answers.1, answers.2⟩

/-- A component is looked up in a composite type. -/
lemma component_composite {component : String} {r : List Selection × CType}
    (described : Describes g c.strip n) (e : c.component? component = some r) :
    ∃ tag name bits base elements, g.node n = .composite tag name bits base elements := by
  rw [CType.component?] at e
  cases strip : c.strip with
  | struct =>
    rw [strip] at described
    obtain ⟨_, _, _, node, _⟩ := described
    exact ⟨_, _, _, _, _, node⟩
  | union =>
    rw [strip] at described
    obtain ⟨_, _, _, node, _⟩ := described
    exact ⟨_, _, _, _, _, node⟩
  | array =>
    rw [strip] at described
    obtain ⟨_, _, _, _, node, _⟩ := described
    exact ⟨_, _, _, _, _, node⟩
  | basic =>
    rw [strip] at e
    cases e
  | pointer =>
    rw [strip] at e
    cases e
  | typedef =>
    rw [strip] at e
    cases e

/-- At the end of the path the indices are returned. -/
lemma gepLoop_nil {CTy : Option Nat} {indices : List DITypedIndex} :
    gepLoop g CTy indices [] = .ok indices := by
  cases CTy with
  | none => rfl
  | some => rfl

/-- A path is found, or one of its indices does not fit an `int`. -/
lemma gepLoop_spec {path : List String} (indices : List DITypedIndex)
    (described : Describes g c.strip n) (e : c.trace path = some (steps, t)) (ne : path ≠ []) :
    (Representable steps ∧ ∃ sub,
        gepLoop g (some n) indices path = .ok (indices ++ sub) ∧ Reaches g steps t sub) ∨
      (¬ Representable steps ∧ gepLoop g (some n) indices path = .error .outOfRange) := by
  induction path generalizing c n steps indices with
  | nil => exact absurd rfl ne
  | cons component path ih =>
    rw [CType.trace] at e
    cases first : c.component? component with
    | none =>
      rw [first] at e
      cases e
    | some result =>
      obtain ⟨steps1, next⟩ := result
      simp only [first] at e
      cases second : next.trace path with
      | none =>
        simp only [second] at e
        cases e
      | some result =>
        obtain ⟨later, t'⟩ := result
        simp only [second] at e
        cases e
        rw [representable_append, gepLoop]
        -- the first component decides whether the loop gets to the rest of the path
        rcases component_spec described first with ⟨fits, sub, found, reaches⟩ | ⟨unfit, failed⟩
        case inr =>
          rw [bind_error failed]
          exact .inr ⟨fun fit => unfit fit.1, rfl⟩
        case inl =>
          obtain ⟨index, m, last, ends⟩ := reaches.back
          obtain ⟨k, resolved, described'⟩ := ends.resolve
          rw [bind_ok found]
          simp only [last]
          rw [bind_ok resolved]
          cases path with
          | nil =>
            cases second
            refine .inl ⟨⟨fits, fun _ mem => absurd mem List.not_mem_nil⟩, sub, gepLoop_nil, ?_⟩
            rw [List.append_nil]
            exact reaches
          | cons component' path' =>
            have onward : ∃ r, next.component? component' = some r := by
              rw [CType.trace] at second
              cases h : next.component? component' with
              | none =>
                rw [h] at second
                cases second
              | some r => exact ⟨r, rfl⟩
            obtain ⟨_, onward⟩ := onward
            obtain ⟨_, _, _, _, _, node⟩ := component_composite described' onward
            simp only [node]
            rcases ih _ described' second (List.cons_ne_nil _ _) with
              ⟨fits', sub', found', reaches'⟩ | ⟨unfit, failed⟩
            · refine .inl ⟨⟨fits, fits'⟩, sub ++ sub', ?_, reaches'.append reaches.index⟩
              rw [found', List.append_assoc]
            · exact .inr ⟨fun fit => unfit fit.2, failed⟩

end Irx.Debug
