import Irx.Debug.Agree

/-!
# Comparing the two searches

`getStructFieldInfo` and `getStructFieldInfo2` say the same of a path to a field of basic or pointer type,
an array of a basic type or an element of one, if and only if they go the same way along it and the
recursive one gets through what lies before (`searches_agree_iff`).
-/

namespace Irx.Debug
open Irx.Lib

variable {g : DebugInfo} {bounds : Nat → List Nat} {needle path rest : List String}
variable {info info' : BasicTypeInfo} {a b c k m n x y depth index : Nat} {tag : Tag}
variable {name field component : String} {bits size : Nat} {base : Option Nat}
variable {elements : List DINode} {typed : List DITypedIndex}

/-! ### The field that the path ends at -/

/-- At the end of the path, name and size are noted. -/
lemma tell_found (whole : bits % 8 = 0) : tell name bits true info =
    .ok (true, { info with basicType := name, size_in_bits := bits, size_in_bytes := bits / 8 }) := by
  rw [tell, if_pos rfl, if_pos (and_seven whole)]

/-- What is noted at the end of the path. -/
lemma tell_true (e : tell name bits true info = .ok (true, info')) : bits % 8 = 0 ∧
    info' = { info with basicType := name, size_in_bits := bits, size_in_bytes := bits / 8 } := by
  rw [tell, if_pos rfl] at e
  split at e
  case isTrue whole =>
    cases e
    refine ⟨?_, rfl⟩
    rwa [show (0x07 : Nat) = 2 ^ 3 - 1 from rfl, Nat.and_two_pow_sub_one_eq_mod] at whole
  case isFalse => cases e

/-- A derived type resolves to its base type without typedefs. -/
lemma resolve_stripped (node : g.node x = .derived tag name bits (some b))
    (stripped : stripTypedefs g (g.rank b + 1) b = .ok k) :
    resolveDerivedTypeBaseType g (some x) = .ok (some k) := by
  rw [resolveDerivedTypeBaseType, node]
  show (stripTypedefs g (g.rank b + 1) b).map some = _
  rw [stripped]
  rfl

/-- The node of a pointer. -/
lemma pointer_node (pointer : isPointer g k) :
    ∃ name bits base, g.node k = .derived .pointerType name bits base := by
  rw [isPointer] at pointer
  split at pointer
  case h_1 tag name bits base node =>
    cases of_decide_eq_true pointer
    exact ⟨name, bits, base, node⟩
  case h_2 => cases pointer

/-- The recursive search of a type with parts that is no structure, union or array. -/
lemma process_neither (node : g.node c = .composite tag name bits base elements) (record : ¬ isRecord g c)
    (array : tag ≠ .arrayType) :
    process_element g needle (depth + 1) info (some c) path = .error .assertion := by
  have other := mt (isRecord_node_iff node).2 record
  rw [process_element, node]
  simp only [other, array, if_false]

/-- A structure or union is no array. -/
lemma not_basicArray (record : isRecord g c) : ¬ BasicArray g bounds c := by
  rintro ⟨_, _, _, _, _, _, _, _, node, _⟩
  exact isRecord_not_array record node

/-- A pointer is called by its name. -/
lemma stringType_pointer (pointer : isPointer g k) : DIType2StringType g (some k) = .ok "PTR" := by
  obtain ⟨_, _, _, node⟩ := pointer_node pointer
  rw [DIType2StringType, node]
  rfl

/-- The size of the type that a member resolves to. -/
lemma bitsOf_stripped (stripped : stripTypedefs g (g.rank b + 1) b = .ok k) (own : bare g k = some k) :
    bitsOf g b = (g.node k).sizeInBits := by
  rw [bitsOf, (bare_stripTypedefs stripped).trans own]
  rfl

section Leaf

variable (emitted : Emitted g bounds)
include emitted

/-- Basic types have whole bytes. -/
lemma Emitted.basic_bytes (node : g.node k = .basic name bits) : bits % 8 = 0 := by
  have bytes := emitted.bytes k
  rw [node] at bytes
  exact bytes (by rw [DIType.getTag]; decide)

/-- Pointers have whole bytes. -/
lemma Emitted.pointer_bytes (node : g.node k = .derived .pointerType name bits base) : bits % 8 = 0 := by
  have bytes := emitted.bytes k
  rw [node] at bytes
  exact bytes (by rw [DIType.getTag]; decide)

/-- An array of a basic type has a size of whole bytes, and its elements are no typedefs. -/
lemma array_sizes (node : g.node a = .composite .arrayType name size (some b) elements) {count : Nat}
    (single : bounds a = [count]) (node' : g.node b = .basic field bits) (sized : bits ≠ 0) :
    arraySize g size (some b) elements = .ok count ∧ size % 8 = 0 ∧ bits % 8 = 0 ∧
      word (bits / 8 * count) = size / 8 := by
  have own : bare g b = some b := bare_basic node'
  have elem : (g.node b).sizeInBits = bits := by rw [node']; rfl
  obtain ⟨whole, fits⟩ := emitted.size _ _ _ _ _ count node single
  have product : bitsOf g b = bits := by rw [bitsOf, own, Option.elim_some, elem]
  have whole' : bits % 8 = 0 := emitted.basic_bytes node'
  obtain ⟨m, rfl⟩ := Nat.dvd_of_mod_eq_zero whole'
  rw [product] at whole
  have quotient : size / 8 = m * count := by
    rw [whole, Nat.mul_left_comm, Nat.mul_div_cancel_left _ (by decide), Nat.mul_comm]
  have whole'' : size % 8 = 0 := by
    rw [whole, Nat.mul_left_comm, Nat.mul_mod_right]
  refine ⟨arraySize_single emitted node single own (by rwa [elem]), whole'', whole', ?_⟩
  rw [Nat.mul_div_cancel_left _ (by decide), quotient, word, Nat.mod_eq_of_lt]
  omega

/-- The search of a field that fits finds it, with its type and size. -/
lemma fits_process (fits : Fits g bounds k bits) (sized : isPointer g k → bits = (g.node k).sizeInBits)
    (whole : ∀ name size base elements, g.node k = .composite .arrayType name size base elements →
      bits = size) :
    bits % 8 = 0 ∧ ∃ basicType s, DIType2StringType g (some k) = .ok basicType ∧
      ∀ path depth info, g.rank k < depth → process_element g path depth info (some k) path =
        .ok (true, { info with basicType := basicType, size_in_bits := s, size_in_bytes := bits / 8 }) := by
  obtain ⟨name, node⟩ | pointer | ⟨name, size, e, elements, n, name', bits', node, single, node', filled⟩ :=
    fits
  · have own : bare g k = some k := bare_basic node
    have bytes := emitted.basic_bytes node
    refine ⟨bytes, name, bits, stringType_basic own node, fun path depth info deep => ?_⟩
    cases depth with
    | zero => exact absurd deep (Nat.not_lt_zero _)
    | succ depth =>
      rw [process_element, node]
      simp only [decide_true]
      exact tell_found bytes
  · obtain ⟨name, size, base, node⟩ := pointer_node pointer
    have bytes := emitted.pointer_bytes node
    have same := sized pointer
    rw [node] at same
    obtain rfl : bits = size := same
    refine ⟨bytes, "PTR", bits, stringType_pointer pointer, fun path depth info deep => ?_⟩
    cases depth with
    | zero => exact absurd deep (Nat.not_lt_zero _)
    | succ depth =>
      rw [process_element, node]
      simp only [decide_true, if_true]
      exact tell_found bytes
  · obtain ⟨count, bytes, bytes', product⟩ := array_sizes emitted node single node' filled
    obtain rfl := whole _ _ _ _ node
    have own : bare g k = some k := bare_node node
    have own' : bare g e = some e := bare_basic node'
    have lower := g.rank_base _ _ _ _ _ _ node
    have typed := stringType_array own node own' node'
    refine ⟨bytes, name', word (bits' * n), typed, fun path depth info deep => ?_⟩
    cases depth with
    | zero => exact absurd deep (Nat.not_lt_zero _)
    | succ depth =>
      cases depth with
      | zero => omega
      | succ depth =>
        have hit : ∀ info, process_element g path (depth + 1) info (some e) path =
            .ok (true, { info with
              basicType := name', size_in_bits := bits', size_in_bytes := bits' / 8 }) := by
          intro info
          rw [process_element, node']
          simp only [decide_true]
          exact tell_found bytes'
        rw [process_element, node]
        simp only [decide_true, reduceCtorEq, or_self, if_false, if_true, count, ok_bind,
          process_array emitted node count, hit, product]

/-- A member has the size of its type, if it is no bit-field. -/
lemma member_size (node : g.node x = .derived .member field bits (some b))
    (stripped : stripTypedefs g (g.rank b + 1) b = .ok k) (own : bare g k = some k) :
    bits = (g.node k).sizeInBits ∨ ∃ name size, g.node k = .basic name size := by
  have e : bare g b = some k := (bare_stripTypedefs stripped).trans own
  obtain whole | ⟨k', name, size, e', node'⟩ := emitted.field _ _ _ _ node
  · exact .inl (whole.trans (bitsOf_stripped stripped own))
  · cases e.symm.trans e'
    exact .inr ⟨name, size, node'⟩

/-- Where both searches say the same of a member, its type has no qualifiers: nothing is noted of a qualified
type, but the direct search looks through it. -/
lemma unqualified_of_process (node : g.node x = .derived .member field bits (some b)) (e : bare g b = some k)
    (leaf : (∃ name bits, g.node k = .basic name bits) ∨ isPointer g k ∨ BasicArray g bounds k)
    (own : bare g m = some k) (other : ∀ name bits base, g.node m ≠ .derived .typedef name bits base)
    (found : process_element g path (depth + 1) info (some m) path = .ok (true, info'))
    (unset : info.basicType = "unknown" ∧ info.size_in_bytes = 4294967295)
    (typed : DIType2StringType g (some m) = .ok info'.basicType) (same : info'.size_in_bytes = bits / 8) :
    m = k := by
  obtain ⟨tag, name, bits', base, node', renames, _⟩ | ⟨own', _⟩ := bare_cases g m
  · exfalso
    rw [process_qualified node' renames other, decide_eq_true rfl] at found
    cases found
    rw [unset.1] at typed
    obtain ⟨_, _, basic⟩ | pointer' | ⟨_, _, _, _, _, _, _, _, array, _, own', basic⟩ := leaf
    · cases (stringType_basic own basic).symm.trans typed
      exact emitted.unknown _ _ basic
    · obtain whole | ⟨_, _, _, e', basic⟩ := emitted.field _ _ _ _ node
      · rw [bitsOf, e] at whole
        rw [unset.2] at same
        have size : bits = (g.node k).sizeInBits := whole
        exact emitted.pointer k pointer' (size ▸ same.symm)
      · cases e.symm.trans e'
        rw [isPointer, basic] at pointer'
        cases pointer'
    · cases (stringType_array own array own' basic).symm.trans typed
      exact emitted.unknown _ _ basic
  · exact Option.some.inj (own'.symm.trans own)

/-- What is found of a member fits if the direct search says the same. -/
lemma fits_of_process (node : g.node x = .derived .member field bits (some b)) (e : bare g b = some k)
    (leaf : (∃ name bits, g.node k = .basic name bits) ∨ isPointer g k ∨ BasicArray g bounds k)
    (found : process_element g path depth info (some b) path = .ok (true, info')) (deep : g.rank b < depth)
    (unset : info.basicType = "unknown" ∧ info.size_in_bytes = 4294967295) {T : Option Nat} {s : Nat}
    (resolved : resolveDerivedTypeBaseType g (some x) = .ok T)
    (typed : DIType2StringType g T = .ok info'.basicType) (sized : getDIFieldSize g (some x) = .ok s)
    (same : info'.size_in_bytes = s / 8) :
    stripTypedefs g (g.rank b + 1) b = .ok k ∧ Fits g bounds k bits ∧ info'.gep = info.gep := by
  obtain ⟨m, depth', stripped, own, other, deep', _, through⟩ := process_strip path e deep
  rw [through] at found
  cases (resolve_stripped node stripped).symm.trans resolved
  have whole : bits % 8 = 0 ∧ s = bits := by
    rw [getDIFieldSize] at sized
    simp only [node, ok_bind] at sized
    split at sized
    case isTrue whole =>
      cases sized
      rw [show (0x07 : Nat) = 2 ^ 3 - 1 from rfl, Nat.and_two_pow_sub_one_eq_mod] at whole
      exact ⟨whole, rfl⟩
    case isFalse => cases sized
  obtain ⟨whole, rfl⟩ := whole
  cases depth' with
  | zero => exact absurd deep' (Nat.not_lt_zero _)
  | succ depth' =>
    obtain rfl := unqualified_of_process emitted node e leaf own other found unset typed same
    refine ⟨stripped, ?_⟩
    rw [process_element] at found
    obtain ⟨name, size, node'⟩ | pointer | ⟨name, size, e', elements, n, k', name', bits'', node', single,
      own'', node''⟩ := leaf
    · rw [node'] at found
      simp only [decide_true] at found
      obtain ⟨bytes, rfl⟩ := tell_true found
      have same : size / 8 = s / 8 := same
      obtain rfl : s = size := by omega
      exact ⟨.inl ⟨name, node'⟩, rfl⟩
    · obtain ⟨_, _, _, node'⟩ := pointer_node pointer
      rw [node'] at found
      simp only [decide_true, if_true] at found
      obtain ⟨_, rfl⟩ := tell_true found
      exact ⟨.inr (.inl pointer), rfl⟩
    · rw [node'] at found
      simp only [decide_true, reduceCtorEq, or_self, if_false, if_true] at found
      obtain ⟨count, size', found⟩ := bind_eq_ok.1 found
      obtain ⟨_, ⟨⟩, _, sized', _⟩ := arraySize_ok size'
      obtain ⟨tag', _, bits', _, renamed, renames, _⟩ | ⟨own', _⟩ := bare_cases g e'
      · -- typedefs have no size
        exact absurd (by rw [renamed]; exact emitted.renamed _ _ _ _ _ renamed renames) sized'
      · cases own'.symm.trans own''
        have lower := g.rank_base _ _ _ _ _ _ node'
        have filled : bits'' ≠ 0 := by rwa [node''] at sized'
        refine ⟨.inr (.inr ⟨_, _, _, _, _, _, _, node', single, node'', filled⟩), ?_⟩
        rw [process_array emitted node' size'] at found
        cases depth' with
        | zero => omega
        | succ depth' =>
          have bytes : bits'' % 8 = 0 := emitted.basic_bytes node''
          rw [process_element, node''] at found
          simp only [decide_true, tell_found bytes, ok_bind, if_true] at found
          cases found
          rfl

end Leaf

/-! ### The elements of an array -/

/-- The member has the name of the component. -/
lemma HasMember.called (ctypes : CTypes g bounds) {enter : Nat → Option Nat}
    (has : HasMember g enter component c x) (node : g.node x = .derived .member field bits base) :
    field = component := by
  induction has with
  | named record mem node' =>
    obtain ⟨_, _, _, _, _, node'', _⟩ :=
      ctypes.member _ _ (isRecord_composite record) (isRecord_tag record) mem
    cases node.symm.trans node'
    rfl
  | inside _ _ _ _ _ ih => exact ih node

section Entry

variable (ctypes : CTypes g bounds) (emitted : Emitted g bounds)
include ctypes emitted

/-- The search of the element type of an array without an index finds nothing where the path goes on with
one. -/
lemma element_unindexed (info : BasicTypeInfo) (live : needle = path ++ component :: rest) {i : Nat}
    (numeral : index? component = some i) (own : bare g b = some b)
    (noArray : (g.node b).getTag ≠ .arrayType) (deep : g.rank b < depth) :
    Passes (Searchable g b) info (process_element g needle depth info (some b) path) := by
  have differ : needle ≠ path := by
    rw [live]
    simp
  by_cases record : isRecord g b
  case pos =>
    refine passes_other ctypes emitted live own record (fun c x entered has => ?_) deep
    -- no member is called by a number
    cases (opened_record record).symm.trans entered
    obtain ⟨_, _, _, _, node, _⟩ := has.node ctypes
    cases numeral.symm.trans (has.called ctypes node ▸ emitted.name _ _ _ _ node)
  case neg =>
    cases depth with
    | zero => exact absurd deep (Nat.not_lt_zero _)
    | succ depth =>
      rw [process_element]
      simp only [differ, decide_false]
      cases node : g.node b with
      | basic name bits => exact .inl ⟨.basic node, rfl⟩
      | subroutine => exact .inl ⟨.subroutine node, rfl⟩
      | derived tag name bits base =>
        have typedef : tag ≠ .typedef := by
          rintro rfl
          cases bare_own own _ _ _ _ node
        have searchable : Searchable g b := .derived node typedef
        simp only [typedef, if_false]
        split
        case isTrue => exact .inl ⟨searchable, rfl⟩
        case isFalse => exact .inl ⟨searchable, rfl⟩
      | composite tag name bits base elements =>
        rw [node] at noArray
        have noArray : tag ≠ .arrayType := noArray
        have other := mt (isRecord_node_iff node).2 record
        simp only [other, noArray, if_false]
        exact .inr ⟨not_searchable node other noArray, .assertion, rfl⟩

/-- The search of the element at an index, if all elements can be searched. -/
lemma process_entry (node : g.node a = .composite .arrayType name size (some b) elements) {n i : Nat}
    (single : bounds a = [n]) (own : bare g b = some b) (sized : (g.node b).sizeInBits ≠ 0)
    (searchable : Searchable g b) (lt : i < n) (live : needle = path ++ toString i :: rest)
    (found : ∀ depth, g.rank b < depth →
      process_element g needle depth info (some b) (path ++ [toString i]) = .ok (true, info'))
    (deep : g.rank a < depth) :
    process_element g needle depth info (some a) path = .ok (true, info'.push_back i) := by
  have differ : needle ≠ path := by
    rw [live]
    simp
  have lower := g.rank_base _ _ _ _ _ _ node
  cases depth with
  | zero => exact absurd deep (Nat.not_lt_zero _)
  | succ depth =>
    have noArray := (emitted.array _ _ _ _ _ node).2
    have whole := element_unindexed ctypes emitted info live (index?_toString i) own noArray
      (by omega : g.rank b < depth)
    obtain ⟨_, whole⟩ | ⟨fails, _⟩ := whole
    · rw [process_indices emitted node differ (arraySize_single emitted node single own sized), whole, ok_bind]
      refine indexLoop_at (List.mem_range.2 lt) searchable (fun j _ other => ?_) (found depth (by omega))
      refine passes_away emitted ctypes (fun further => other ?_) (by omega)
      rw [live, prefix_behind] at further
      exact toString_injective further
    · exact absurd searchable fails

/-- A search of an array that does not fail goes through the elements by their indices. -/
lemma indices_of_process (node : g.node a = .composite .arrayType name size (some b) elements)
    (live : needle = path ++ component :: rest) (inBounds : InBounds bounds a 0 component)
    {r : Bool × BasicTypeInfo} (ran : process_element g needle (depth + 1) info (some a) path = .ok r)
    (deep : g.rank b < depth) :
    ∃ n, bounds a = [n] ∧ bare g b = some b ∧ (g.node b).sizeInBits ≠ 0 ∧ Searchable g b ∧
      indexLoop (process_element g needle depth) (some b) path info (List.range n) = .ok r := by
  obtain ⟨_, _, _, numeral, _⟩ := inBounds
  have differ : needle ≠ path := by
    rw [live]
    simp
  have started := ran
  rw [process_element, node] at started
  simp only [reduceCtorEq, or_self, if_false, if_true] at started
  obtain ⟨count, counted, _⟩ := bind_eq_ok.1 started
  obtain ⟨_, ⟨⟩, one, sized, _⟩ := arraySize_ok counted
  obtain ⟨_, n, single⟩ := single_array emitted node one
  have own : bare g b = some b := by
    obtain ⟨_, _, _, _, node', renames, _⟩ | ⟨own, _⟩ := bare_cases g b
    · exact absurd (by rw [node']; exact emitted.renamed _ _ _ _ _ node' renames) sized
    · exact own
  cases counted.symm.trans (arraySize_single emitted node single own sized)
  rw [process_indices emitted node differ counted] at ran
  obtain ⟨⟨hit, info1⟩, whole, later⟩ := bind_eq_ok.1 ran
  have noArray := (emitted.array _ _ _ _ _ node).2
  have passes := element_unindexed ctypes emitted info live numeral own noArray deep
  obtain ⟨searchable, rfl, rfl⟩ := passes.ok whole
  simp only [Bool.false_eq_true, if_false] at later
  exact ⟨count, single, own, sized, searchable, later⟩

/-- Where the search of an array has found the path, it goes on with an index. -/
lemma entry_of_process (node : g.node a = .composite .arrayType name size (some b) elements)
    (live : needle = path ++ component :: rest) (inBounds : InBounds bounds a 0 component)
    (found : process_element g needle depth info (some a) path = .ok (true, info')) (deep : g.rank a < depth) :
    ∃ n i info1 depth', bounds a = [n] ∧ bare g b = some b ∧ (g.node b).sizeInBits ≠ 0 ∧ Searchable g b ∧
      i < n ∧ component = toString i ∧ g.rank b < depth' ∧
      process_element g needle depth' info (some b) (path ++ [component]) = .ok (true, info1) ∧
      info' = info1.push_back i := by
  have lower := g.rank_base _ _ _ _ _ _ node
  cases depth with
  | zero => exact absurd deep (Nat.not_lt_zero _)
  | succ depth =>
    obtain ⟨n, single, own, sized, searchable, later⟩ :=
      indices_of_process ctypes emitted node live inBounds found (by omega)
    obtain ⟨i, mem, rfl, info1, found, same⟩ := indexLoop_found List.nodup_range searchable
      (fun j _ other info => passes_away emitted ctypes (fun further => other (by
        rw [live, prefix_behind] at further
        exact further.symm)) (by omega)) later
    exact ⟨n, i, info1, depth, single, own, sized, searchable, List.mem_range.1 mem, rfl, by omega, found,
      same⟩

end Entry

/-! ### Paths -/

/-- The direct search in an array. -/
lemma gep_index (node : g.node a = .composite .arrayType name size (some b) elements) {i : Nat} :
    GEP2MemberInfo g (depth + 1) a (toString i) =
      if i ≤ 2147483647 then .ok [⟨i, some b⟩] else .error .outOfRange := by
  rw [GEP2MemberInfo, node]
  simp only [if_true]
  rw [stoi_index (index?_toString i)]
  split
  · have positive : (i : Int) ≥ 0 := Int.natCast_nonneg i
    rw [ok_bind, if_pos positive, Int.toNat_natCast]
  · rfl

/-- The loop ends with the last component. -/
lemma gep_last {sub : List DITypedIndex} {i : Nat} (e : GEP2MemberInfo g (g.rank c + 1) c component = .ok sub)
    (last : sub.getLast? = some ⟨i, some x⟩)
    (resolved : resolveDerivedTypeBaseType g (some x) = .ok (some m)) :
    gepLoop g (some c) [] [component] = .ok sub := by
  rw [gepLoop, e, ok_bind]
  simp only [last, resolved, ok_bind, List.nil_append]
  exact gepLoop_nil

/-- The direct search behind what a component has led to. -/
lemma gep_step {sub : List DITypedIndex} {i : Nat} {next : String}
    (e : GEP2MemberInfo g (g.rank c + 1) c component = .ok sub) (last : sub.getLast? = some ⟨i, some x⟩)
    (resolved : resolveDerivedTypeBaseType g (some x) = .ok (some m)) :
    gepLoop g (some c) [] (component :: next :: path) =
      (gepLoop g (if isComposite g m then some m else none) [] (next :: path)).map fun out =>
        if out = [] then [] else sub ++ out := by
  have glued : gepLoop g (if isComposite g m then some m else none) (sub ++ []) (next :: path) =
      (gepLoop g (if isComposite g m then some m else none) [] (next :: path)).map fun out =>
        if out = [] then [] else sub ++ out := gepLoop_append (.inr (List.cons_ne_nil _ _))
  rw [List.append_nil] at glued
  rw [gepLoop, e, ok_bind, ← glued]
  simp only [last, resolved, ok_bind, List.nil_append]
  congr 1
  rw [isComposite]
  cases g.node m <;> rfl

/-- What is compared has an index. -/
lemma Matches.filled (is : Matches g info info' typed) : typed ≠ [] := by
  rintro rfl
  obtain ⟨_, _, _, _, last, _⟩ := is.last
  cases last

/-- What both say behind the steps of one component, they say with them. -/
lemma Matches.prepend {info1 : BasicTypeInfo} {sub : List DITypedIndex} {is : List Nat}
    (is_ : Matches g info info1 typed) (indices : sub.map DITypedIndex.index = is) :
    Matches g info { info1 with gep := info1.gep ++ is.reverse } (sub ++ typed) where
  last := by
    obtain ⟨i, y, bits, T, last, rest⟩ := is_.last
    exact ⟨i, y, bits, T, by rw [List.getLast?_append, last]; rfl, rest⟩
  gep := by
    rw [is_.gep, List.map_append, List.reverse_append, indices, List.append_assoc]

/-- The type has no typedefs and qualifiers. -/
lemma Fits.own (fits : Fits g bounds k bits) : bare g k = some k := by
  obtain ⟨_, node⟩ | pointer | ⟨_, _, _, _, _, _, _, node, _⟩ := fits
  · exact bare_basic node
  · exact bare_pointer pointer
  · exact bare_node node

/-- A path to a leaf from a type is one from what it names. -/
lemma NamesLeaf.of_bare (e : bare g n = some k) (names : NamesLeaf g bounds ⟨n, 0⟩ path) :
    NamesLeaf g bounds ⟨k, 0⟩ path := by
  have own : bare g k = some k := bare_self (bare_own e)
  cases names with
  | field selects e' record e'' leaf =>
    cases e.symm.trans e'
    exact .field ((Selects.bare_iff e).1 selects) own record e'' leaf
  | element selects e' array =>
    cases e.symm.trans e'
    exact .element ((Selects.bare_iff e).1 selects) own array
  | cons selects rest => exact .cons ((Selects.bare_iff e).1 selects) rest

/-- Two lists with ends of one length have the same parts. -/
lemma append_reverse_inj {l l' is js : List Nat} (same : is.length = js.length)
    (e : l ++ is.reverse = l' ++ js.reverse) : l = l' ∧ is = js := by
  obtain ⟨front, back⟩ := List.append_inj' e (by rw [List.length_reverse, List.length_reverse, same])
  exact ⟨front, List.reverse_injective back⟩

/-- What both say of a path, they say of it behind the steps of one component. -/
lemma Matches.split {info1 : BasicTypeInfo} {sub : List DITypedIndex} {is : List Nat}
    (is_ : Matches g info { info1 with gep := info1.gep ++ is.reverse } (sub ++ typed)) (filled : typed ≠ [])
    (same : is.length = sub.length) :
    Matches g info info1 typed ∧ is = sub.map DITypedIndex.index := by
  have split := is_.gep
  rw [List.map_append, List.reverse_append, ← List.append_assoc] at split
  obtain ⟨front, back⟩ := append_reverse_inj (by rw [same, List.length_map]) split
  refine ⟨⟨?_, front⟩, back⟩
  obtain ⟨i, y, bits, T, last, rest⟩ := is_.last
  refine ⟨i, y, bits, T, ?_, rest⟩
  rwa [List.getLast?_append_of_ne_nil _ filled] at last

/-- What a path of one component names in an array is of a basic type. -/
lemma NamesLeaf.element_basic (node : g.node c = .composite .arrayType name size (some b) elements)
    (names : NamesLeaf g bounds ⟨c, 0⟩ [component]) :
    ∃ k name bits, bare g b = some k ∧ g.node k = .basic name bits := by
  have own : bare g c = some c := bare_composite (by rw [isComposite, node])
  cases names with
  | field _ e record =>
    cases own.symm.trans e
    exact absurd node (isRecord_not_array record)
  | element _ e array =>
    cases own.symm.trans e
    obtain ⟨_, _, _, _, _, k, name, bits, node', _, e', basic⟩ := array
    cases node.symm.trans node'
    exact ⟨k, name, bits, e', basic⟩

/-- The first component of a path to a leaf selects something. -/
lemma NamesLeaf.selects (names : NamesLeaf g bounds ⟨n, 0⟩ (component :: rest)) :
    ∃ q, Selects g bounds ⟨n, 0⟩ component q := by
  cases names with
  | field selects => exact ⟨_, selects⟩
  | element selects => exact ⟨_, selects⟩
  | cons selects => exact ⟨_, selects⟩

/-- Only a structure, a union or an array has what a component selects. -/
lemma NamesLeaf.composite (e : bare g n = some k) (names : NamesLeaf g bounds ⟨n, 0⟩ (component :: rest)) :
    isComposite g k := by
  obtain ⟨_, selects⟩ := names.selects
  by_contra simple
  exact not_selects e (Bool.eq_false_of_not_eq_true simple) selects

/-- What the direct search has found behind a component. -/
lemma gep_behind {sub : List DITypedIndex} {i : Nat} {next : String}
    (searched : GEP2MemberInfo g (g.rank c + 1) c component = .ok sub)
    (last : sub.getLast? = some ⟨i, some x⟩) (resolved : resolveDerivedTypeBaseType g (some x) = .ok (some m))
    (ran : gepLoop g (some c) [] (component :: next :: rest) = .ok typed) (filled : typed ≠ []) :
    isComposite g m ∧ ∃ typed', gepLoop g (some m) [] (next :: rest) = .ok typed' ∧ typed' ≠ [] ∧
      typed = sub ++ typed' := by
  rw [gep_step searched last resolved] at ran
  cases composite : isComposite g m with
  | false =>
    rw [composite] at ran
    cases ran
    exact absurd rfl filled
  | true =>
    rw [composite, if_pos rfl] at ran
    cases found : gepLoop g (some m) [] (next :: rest) with
    | error e =>
      rw [found] at ran
      cases ran
    | ok typed' =>
      rw [found] at ran
      have whole : (if typed' = [] then [] else sub ++ typed') = typed := Except.ok.inj ran
      split at whole
      case isTrue => exact absurd whole.symm filled
      case isFalse filled' => exact ⟨rfl, typed', rfl, filled', whole.symm⟩

section Main

variable (ctypes : CTypes g bounds) (emitted : Emitted g bounds)
include ctypes emitted

/-- Both searches find a member that is no bit-field, and say the same. -/
lemma found_field (straight : Straight g component c x)
    (node : g.node x = .derived .member component bits (some b))
    (stripped : stripTypedefs g (g.rank b + 1) b = .ok k) (fits : Fits g bounds k bits)
    (live : needle = path ++ [component]) (info : BasicTypeInfo) :
    ∃ info' typed, (∀ depth, g.rank c < depth →
        process_element g needle depth info (some c) path = .ok (true, info')) ∧
      gepLoop g (some c) [] [component] = .ok typed ∧ Matches g info info' typed := by
  obtain ⟨is, way⟩ := straight.way ctypes
  obtain ⟨sub, i, searched, indices, last⟩ := gep_of_way ctypes way rfl (Nat.lt_succ_self (g.rank c))
  have resolved := resolve_stripped node stripped
  have own := fits.own
  have whole := member_size emitted node stripped own
  have pointer : isPointer g k → bits = (g.node k).sizeInBits := by
    intro pointer
    obtain whole | ⟨_, _, basic⟩ := whole
    · exact whole
    · rw [isPointer, basic] at pointer
      cases pointer
  have array : ∀ name size base elements, g.node k = .composite .arrayType name size base elements →
      bits = size := by
    intro name size base elements node'
    obtain whole | ⟨_, _, basic⟩ := whole
    · rw [whole, node']
      rfl
    · cases node'.symm.trans basic
  obtain ⟨bytes, basicType, s, typed, found⟩ := fits_process emitted fits pointer array
  have hit : ∀ depth, g.rank b < depth →
      process_element g needle depth info (some b) (path ++ [component]) =
        .ok (true, ⟨basicType, s, bits / 8, info.gep, info.STys⟩) := by
    intro depth deep
    obtain ⟨m, depth', stripped', _, _, deep', _, through⟩ :=
      process_strip needle ((bare_stripTypedefs stripped).trans own) deep
    cases stripped.symm.trans stripped'
    rw [through, ← live]
    exact found needle depth' info deep'
  refine ⟨_, sub, fun depth deep => found_of_way ctypes emitted way live node hit deep,
    gep_last searched last resolved, ⟨⟨i, x, bits, some k, last, ?_, resolved, typed, rfl⟩, ?_⟩⟩
  · exact getDIFieldSize_derived node bytes
  · rw [indices]

/-- Both searches find an element of a basic type, and say the same. -/
lemma found_element {n i : Nat} {name' : String} {bits' : Nat}
    (node : g.node a = .composite .arrayType name bits (some b) elements) (single : bounds a = [n])
    (basic : g.node b = .basic name' bits') (filled : bits' ≠ 0) (lt : i < n) (le : i ≤ 2147483647)
    (live : needle = path ++ [toString i]) (info : BasicTypeInfo) :
    ∃ info' typed, (∀ depth, g.rank a < depth →
        process_element g needle depth info (some a) path = .ok (true, info')) ∧
      gepLoop g (some a) [] [toString i] = .ok typed ∧ Matches g info info' typed := by
  have own : bare g b = some b := bare_basic basic
  have sized : (g.node b).sizeInBits ≠ 0 := by rwa [basic]
  have bytes : bits' % 8 = 0 := emitted.basic_bytes basic
  have resolved : resolveDerivedTypeBaseType g (some b) = .ok (some b) := by
    rw [resolveDerivedTypeBaseType, basic]
    show (stripTypedefs g (g.rank b + 1) b).map some = _
    rw [stripTypedefs, basic]
    rfl
  have searched : GEP2MemberInfo g (g.rank a + 1) a (toString i) = .ok [⟨i, some b⟩] :=
    (gep_index node).trans (if_pos le)
  have hit : ∀ depth, g.rank b < depth →
      process_element g needle depth info (some b) (path ++ [toString i]) =
        .ok (true, ⟨name', bits', bits' / 8, info.gep, info.STys⟩) := by
    intro depth deep
    cases depth with
    | zero => exact absurd deep (Nat.not_lt_zero _)
    | succ depth =>
      rw [process_element, basic, ← live]
      simp only [decide_true]
      exact tell_found bytes
  have size : getDIFieldSize g (some b) = .ok bits' := by
    rw [getDIFieldSize]
    simp only [basic]
    exact if_pos (and_seven bytes)
  exact ⟨_, [⟨i, some b⟩], fun depth deep =>
    process_entry ctypes emitted node single own sized (.basic basic) lt live hit deep,
    gep_last searched rfl resolved,
    ⟨⟨i, b, bits', some b, rfl, size, resolved, stringType_basic own basic, rfl⟩, rfl⟩⟩

/-- Both searches find the field at the end of a path along which they go the same way, and say the same. -/
lemma found_of_agrees (agrees : Agrees g bounds c rest) (live : needle = path ++ rest) (info : BasicTypeInfo) :
    ∃ info' typed, (∀ depth, g.rank c < depth →
        process_element g needle depth info (some c) path = .ok (true, info')) ∧
      gepLoop g (some c) [] rest = .ok typed ∧ Matches g info info' typed := by
  induction agrees generalizing path with
  | field straight node stripped fits => exact found_field ctypes emitted straight node stripped fits live info
  | @member c x bits b k component next rest straight node stripped composite _ ih =>
    obtain ⟨is, way⟩ := straight.way ctypes
    obtain ⟨sub, i, searched, indices, last⟩ := gep_of_way ctypes way rfl (Nat.lt_succ_self (g.rank c))
    have resolved := resolve_stripped node stripped
    have live' : needle = (path ++ [component]) ++ next :: rest := by rw [live, List.append_assoc]; rfl
    obtain ⟨info1, typed, found, ran, is_⟩ := ih live'
    refine ⟨_, sub ++ typed, fun depth deep => found_of_way ctypes emitted way live node (fun depth deep => ?_)
      deep, ?_, is_.prepend indices⟩
    · obtain ⟨m, depth', stripped', _, _, deep', _, through⟩ :=
        process_strip needle ((bare_stripTypedefs stripped).trans (bare_composite composite)) deep
      cases stripped.symm.trans stripped'
      rw [through]
      exact found depth' deep'
    · rw [gep_step searched last resolved, if_pos composite, ran]
      exact congrArg _ (if_neg is_.filled)
  | element node single basic sized lt le =>
    exact found_element ctypes emitted node single basic sized lt le live info
  | @entry a name bits e elements n i next rest node single record sized searchable lt le _ ih =>
    have own := bare_composite (isRecord_composite record)
    have resolved := resolve_composite (isRecord_composite record)
    have searched : GEP2MemberInfo g (g.rank a + 1) a (toString i) = .ok [⟨i, some e⟩] :=
      (gep_index node).trans (if_pos le)
    have live' : needle = (path ++ [toString i]) ++ next :: rest := by rw [live, List.append_assoc]; rfl
    obtain ⟨info1, typed, found, ran, is_⟩ := ih live'
    have whole : Matches g info (info1.push_back i) ([⟨i, some e⟩] ++ typed) :=
      is_.prepend (show [DITypedIndex.mk i (some e)].map DITypedIndex.index = [i] from rfl)
    refine ⟨_, [⟨i, some e⟩] ++ typed, fun depth deep => process_entry ctypes emitted node single own sized
      searchable lt live found deep, ?_, whole⟩
    rw [gep_step searched rfl resolved, if_pos (isRecord_composite record), ran]
    exact congrArg _ (if_neg is_.filled)

/-- Where both searches find the field at the end of a path and say the same, they go the same way. -/
lemma agrees_of_found (composite : isComposite g c) (names : NamesLeaf g bounds ⟨c, 0⟩ rest)
    (live : needle = path ++ rest)
    (found : process_element g needle depth info (some c) path = .ok (true, info')) (deep : g.rank c < depth)
    (unset : info.basicType = "unknown" ∧ info.size_in_bytes = 4294967295)
    (ran : gepLoop g (some c) [] rest = .ok typed) (is_ : Matches g info info' typed) :
    Agrees g bounds c rest := by
  induction rest generalizing c path depth info' typed with
  | nil => cases names
  | cons component rest ih =>
    have own := bare_composite composite
    by_cases record : isRecord g c
    case pos =>
      obtain ⟨is, js, direct, x, bits, b, info1, depth', way, node, deep', found', rfl⟩ :=
        way_of_found ctypes emitted record live found deep
      have searches : Searches (HasMember g (plain g) component c)
          (GEP2MemberInfo g (g.rank c + 1) c component) :=
        GEP2MemberInfo_searches ctypes composite (isRecord_tag record) (Nat.lt_succ_self _)
      cases direct with
      | false =>
        obtain ⟨_, _, y, _, _, has⟩ | ⟨nothing, _⟩ := searches
        · exact absurd has (not_direct ctypes emitted way rfl)
        · rw [gepLoop, nothing] at ran
          cases ran
          exact absurd rfl is_.filled
      | true =>
        obtain ⟨sub, i, searched, indices, last⟩ := gep_of_way ctypes way rfl (Nat.lt_succ_self (g.rank c))
        obtain ⟨_, _, _, k, node', e⟩ := way.hasMember.node ctypes
        cases node.symm.trans node'
        obtain ⟨m, stripped, e'⟩ := stripTypedefs_bare e (Nat.lt_succ_self _)
        have resolved := resolve_stripped node stripped
        have selected : Selects g bounds ⟨c, 0⟩ component ⟨b, 0⟩ := .member own way.hasMember node
        cases rest with
        | nil =>
          have there : needle = path ++ [component] := live
          cases (gep_last searched last resolved).symm.trans ran
          obtain ⟨_, y, s, T, last', sized, resolved', named, same⟩ := is_.last
          cases last.symm.trans last'
          rw [← there] at found'
          cases names with
          | field selects _ _ e'' leaf =>
            cases selected.unique ctypes selects
            cases e.symm.trans e''
            obtain ⟨stripped', fits, kept⟩ :=
              fits_of_process emitted node e leaf found' deep' unset resolved' named sized same
            have split := is_.gep
            rw [indices, kept] at split
            obtain ⟨_, equal⟩ := append_reverse_inj way.length_eq split
            exact .field (way.straight ctypes rfl equal) node stripped' fits
          | element _ own' array =>
            cases own.symm.trans own'
            exact absurd array (not_basicArray record)
        | cons next rest =>
          obtain ⟨composite', typed', ran', filled, rfl⟩ := gep_behind searched last resolved ran is_.filled
          cases (bare_composite composite').symm.trans e'
          have live' : needle = (path ++ [component]) ++ next :: rest := by rw [live, List.append_assoc]; rfl
          have counted : is.length = sub.length := by
            rw [way.length_eq, ← indices, List.length_map]
          obtain ⟨behind, equal⟩ := is_.split filled counted
          rw [indices] at equal
          obtain ⟨k, depth'', stripped', _, _, deep'', _, through⟩ := process_strip needle e deep'
          cases stripped.symm.trans stripped'
          rw [through] at found'
          cases names with
          | cons selects names' =>
            cases selected.unique ctypes selects
            exact .member (way.straight ctypes rfl equal) node stripped composite'
              (ih composite' (names'.of_bare e) live' found' deep'' ran' behind)
    case neg =>
      obtain ⟨tag, name, size, base, elements, node⟩ := isComposite_node composite
      by_cases array : tag = .arrayType
      case neg =>
        cases depth with
        | zero => exact absurd deep (Nat.not_lt_zero _)
        | succ depth =>
          cases (process_neither node record array).symm.trans found
      case pos =>
        subst array
        obtain ⟨_, b, _, rfl, _⟩ := ctypes.array _ _ _ _ _ node
        obtain ⟨_, selects⟩ := names.selects
        obtain ⟨n, i, info1, depth', single, own', sized, searchable, lt, rfl, deep', found', rfl⟩ :=
          entry_of_process ctypes emitted node live (inBounds_of_selects node selects) found deep
        by_cases le : i ≤ 2147483647
        case neg =>
          rw [gepLoop, gep_index node, if_neg le] at ran
          cases ran
        case pos =>
          have searched : GEP2MemberInfo g (g.rank c + 1) c (toString i) = .ok [⟨i, some b⟩] :=
            (gep_index node).trans (if_pos le)
          cases rest with
          | nil =>
            obtain ⟨_, _, _, e', basic⟩ := names.element_basic node
            cases own'.symm.trans e'
            rw [basic] at sized
            exact .element node single basic sized lt le
          | cons next rest =>
            cases names with
            | cons selects names' =>
              obtain ⟨_, rfl⟩ := (selects_element_iff node single).1 selects
              have composite' := names'.composite own'
              have record' := record_of_searchable searchable composite' (emitted.array _ _ _ _ _ node).2
              have last : [DITypedIndex.mk i (some b)].getLast? = some ⟨i, some b⟩ := rfl
              obtain ⟨_, typed', ran', filled, rfl⟩ :=
                gep_behind searched last (resolve_composite composite') ran is_.filled
              have live' : needle = (path ++ [toString i]) ++ next :: rest := by
                rw [live, List.append_assoc]
                rfl
              have whole : Matches g info { info1 with gep := info1.gep ++ [i].reverse }
                ([⟨i, some b⟩] ++ typed') := is_
              obtain ⟨behind, _⟩ := whole.split filled rfl
              exact .entry node single record' sized searchable lt le
                (ih composite' names' live' found' deep' ran' behind)

end Main

/-! ### Paths that the recursive search does not find -/

/-- The result is no miss that has changed what is noted. -/
def Keeps (info : BasicTypeInfo) (r : Except Abort (Bool × BasicTypeInfo)) : Prop :=
  ∀ info', r = .ok (false, info') → info' = info

/-- At the end of the path, the search is over. -/
lemma tell_ne_false : tell name bits true info ≠ .ok (false, info') := by
  intro e
  rw [tell, if_pos rfl] at e
  split at e
  case isTrue => cases e
  case isFalse => cases e

/-- A search that passes keeps the answer. -/
lemma Passes.keeps {S : Prop} {r : Except Abort (Bool × BasicTypeInfo)} (passes : Passes S info r) :
    Keeps info r := fun _ e => (passes.ok e).2.2

/-- The loop over the elements keeps the answer if each of them does. -/
lemma keeps_loop {element : BasicTypeInfo → Option Nat → List String → Except Abort (Bool × BasicTypeInfo)}
    (each : ∀ m tag name bits base, .type m ∈ elements → g.node m = .derived tag name bits base →
      Keeps info (element info base (behind path name))) :
    Keeps info (elementLoop g element tag path index info elements) := by
  induction elements generalizing index with
  | nil =>
    rintro info' ⟨⟩
    rfl
  | cons e rest ih =>
    have later : ∀ index, Keeps info (elementLoop g element tag path index info rest) := fun index =>
      ih fun m tag name bits base mem => each m tag name bits base (.tail _ mem)
    cases e with
    | other => exact later _
    | type m =>
      obtain ⟨tag', name, bits, base, node⟩ | plain := derived_or_plain (g := g) m
      · intro info' e
        rw [elementLoop] at e
        simp only [node] at e
        obtain ⟨⟨hit, info1⟩, first, e'⟩ := bind_eq_ok.1 e
        cases hit with
        | true => cases e'
        | false =>
          obtain rfl := each m _ _ _ _ (.head _) node info1 first
          exact later _ info' e'
      · rw [elementLoop_plain plain]
        exact later _

/-- The loop over the items keeps the answer if each of them does. -/
lemma keeps_indices {element : BasicTypeInfo → Option Nat → List String → Except Abort (Bool × BasicTypeInfo)}
    {l : List Nat} (each : ∀ i ∈ l, Keeps info (element info base (path ++ [toString i]))) :
    Keeps info (indexLoop element base path info l) := by
  induction l with
  | nil =>
    rintro info' ⟨⟩
    rfl
  | cons i l ih =>
    intro info' e
    rw [indexLoop] at e
    obtain ⟨⟨hit, info1⟩, first, e'⟩ := bind_eq_ok.1 e
    cases hit with
    | true => cases e'
    | false =>
      obtain rfl := each i (.head _) info1 first
      exact ih (fun i mem => each i (.tail _ mem)) info' e'

/-- A qualified type that the path does not end at is passed. -/
lemma keeps_strip (differ : needle ≠ path) (e : bare g n = some k) (deep : g.rank n < depth)
    (inner : ∀ depth' ≤ depth, g.rank k < depth' →
      Keeps info (process_element g needle depth' info (some k) path)) :
    Keeps info (process_element g needle depth info (some n) path) := by
  obtain ⟨m, depth', _, own, other, deep', le, through⟩ := process_strip needle e deep
  rw [through]
  obtain ⟨tag, name, bits, base, node, renames, _⟩ | ⟨own', _⟩ := bare_cases g m
  · cases depth' with
    | zero => exact absurd deep' (Nat.not_lt_zero _)
    | succ depth' =>
      rw [process_qualified node renames other, decide_eq_false differ]
      rintro info' ⟨⟩
      rfl
  · cases own'.symm.trans own
    exact inner depth' le deep'

/-- The search of a leaf at the end of the path finds it or fails. -/
lemma leaf_keeps (emitted : Emitted g bounds) (e : bare g b = some k)
    (leaf : (∃ name bits, g.node k = .basic name bits) ∨ isPointer g k ∨ BasicArray g bounds k)
    (deep : g.rank b < depth) : Keeps info (process_element g path depth info (some b) path) := by
  obtain ⟨m, depth', _, own, other, deep', le, through⟩ := process_strip path e deep
  rw [through]
  cases depth' with
  | zero => exact absurd deep' (Nat.not_lt_zero _)
  | succ depth' =>
    obtain ⟨tag, name, bits, base, node, renames, _⟩ | ⟨own', _⟩ := bare_cases g m
    · rw [process_qualified node renames other, decide_eq_true rfl]
      rintro info' ⟨⟩
    · cases own'.symm.trans own
      rw [process_element]
      obtain ⟨name, size, node⟩ | pointer |
        ⟨name, size, x, elements, _, _, name', bits', node, _, own'', node'⟩ := leaf
      · rw [node]
        simp only [decide_true]
        exact fun _ e => absurd e tell_ne_false
      · obtain ⟨_, _, _, node⟩ := pointer_node pointer
        rw [node]
        simp only [decide_true, if_true]
        exact fun _ e => absurd e tell_ne_false
      · rw [node]
        simp only [decide_true, reduceCtorEq, or_self, if_false, if_true]
        intro info' found
        obtain ⟨count, size', found⟩ := bind_eq_ok.1 found
        obtain ⟨_, ⟨⟩, _, sized, _⟩ := arraySize_ok size'
        obtain ⟨_, _, _, _, renamed, renames, _⟩ | ⟨own', _⟩ := bare_cases g x
        · exact absurd (by rw [renamed]; exact emitted.renamed _ _ _ _ _ renamed renames) sized
        · cases own'.symm.trans own''
          have lower := g.rank_base _ _ _ _ _ _ node
          rw [process_array emitted node size'] at found
          cases depth' with
          | zero => omega
          | succ depth' =>
            rw [process_element, node'] at found
            simp only [decide_true] at found
            obtain ⟨r, found, last⟩ := bind_eq_ok.1 found
            obtain ⟨⟨hit, info1⟩, told, found⟩ := bind_eq_ok.1 found
            cases hit with
            | false => exact absurd told tell_ne_false
            | true =>
              cases found
              cases last

section Misses

variable (ctypes : CTypes g bounds) (emitted : Emitted g bounds)
include ctypes emitted

/-- A structure keeps what is noted, if the member does. -/
lemma keeps_record (has : HasMember g (bare g) component c x) (live : needle = path ++ component :: rest)
    (node : g.node x = .derived .member component bits (some b))
    (inner : ∀ depth, g.rank b < depth →
      Keeps info (process_element g needle depth info (some b) (path ++ [component])))
    (deep : g.rank c < depth) : Keeps info (process_element g needle depth info (some c) path) := by
  induction depth using Nat.strong_induction_on generalizing c with
  | _ depth ih =>
    cases depth with
    | zero => exact absurd deep (Nat.not_lt_zero _)
    | succ depth =>
      have record := has.record
      obtain ⟨tag, name, size, base, elements, nodec⟩ := isComposite_node (isRecord_composite record)
      rw [process_record record nodec]
      refine keeps_loop fun m tag' field bits' DITy mem nodem => ?_
      have lower := g.rank_element _ _ _ _ _ _ _ nodec mem
      have mem : .type m ∈ (g.node c).elements := by rwa [nodec]
      by_cases other : ∀ y, ¬ Via g (bare g) component m y
      case pos => exact (element_passes ctypes emitted live record mem nodem other (by omega)).keeps
      case neg =>
        push Not at other
        obtain ⟨y, via⟩ := other
        obtain rfl := ctypes.unique component c x y has (hasMember_iff.2 ⟨record, m, mem, via⟩)
        obtain ⟨_, _, _, named, rfl⟩ | ⟨_, b', n, node', entered, has'⟩ := via
        · cases node.symm.trans nodem
          have lower' := rank_member node
          rw [behind, if_neg named]
          exact inner depth (by omega)
        · cases node'.symm.trans nodem
          have lower' := rank_member node'
          have differ : needle ≠ path := by
            rw [live]
            simp
          exact keeps_strip differ entered (by omega) fun depth' le deep' => ih depth' (by omega) has' deep'

/-- A path to a leaf that is not found leaves what is noted as it is. -/
lemma keeps_names (composite : isComposite g c) (names : NamesLeaf g bounds ⟨c, 0⟩ rest)
    (live : needle = path ++ rest) (deep : g.rank c < depth) :
    Keeps info (process_element g needle depth info (some c) path) := by
  induction rest generalizing c path depth with
  | nil => cases names
  | cons component rest ih =>
    have own := bare_composite composite
    obtain ⟨q, selects⟩ := names.selects
    by_cases record : isRecord g c
    case pos =>
      obtain ⟨x, field, bits, b, has, node, rfl⟩ := (selects_record_iff record).1 selects
      obtain ⟨_, _, _, k, node', e⟩ := has.node ctypes
      cases node.symm.trans node'
      obtain rfl : field = component := has.called ctypes node
      refine keeps_record ctypes emitted has live node (fun depth deep => ?_) deep
      cases rest with
      | nil =>
        have there : needle = path ++ [field] := live
        rw [← there]
        cases names with
        | field selects' _ _ e' leaf =>
          cases selects.unique ctypes selects'
          cases e.symm.trans e'
          exact leaf_keeps emitted e leaf deep
        | element _ own' array =>
          cases own.symm.trans own'
          exact absurd array (not_basicArray record)
      | cons next rest =>
        have live' : needle = (path ++ [field]) ++ next :: rest := by rw [live, List.append_assoc]; rfl
        have differ : needle ≠ path ++ [field] := by
          rw [live']
          simp
        cases names with
        | cons selects' names' =>
          cases selects.unique ctypes selects'
          exact keeps_strip differ e deep fun depth' _ deep' =>
            ih (names'.composite e) (names'.of_bare e) live' deep'
    case neg =>
      cases depth with
      | zero => exact absurd deep (Nat.not_lt_zero _)
      | succ depth =>
        obtain ⟨tag, name, size, base, elements, node⟩ := isComposite_node composite
        by_cases array : tag = .arrayType
        case neg =>
          intro info' e
          cases (process_neither node record array).symm.trans e
        case pos =>
          subst array
          obtain ⟨_, b, _, rfl, _⟩ := ctypes.array _ _ _ _ _ node
          have lower := g.rank_base _ _ _ _ _ _ node
          intro info' found
          obtain ⟨n, single, own', sized, searchable, later⟩ := indices_of_process ctypes emitted node live
            (inBounds_of_selects node selects) found (by omega)
          refine keeps_indices (fun i _ => ?_) info' later
          by_cases same : toString i = component
          case neg =>
            refine (passes_away emitted ctypes (fun further => same ?_) (by omega)).keeps
            rw [live, prefix_behind] at further
            exact further
          case pos =>
            subst same
            cases rest with
            | nil =>
              have there : needle = path ++ [toString i] := live
              obtain ⟨_, _, _, e', basic⟩ := names.element_basic node
              rw [← there]
              exact leaf_keeps emitted e' (.inl ⟨_, _, basic⟩) (by omega)
            | cons next rest =>
              have live' : needle = (path ++ [toString i]) ++ next :: rest := by
                rw [live, List.append_assoc]
                rfl
              cases names with
              | cons selects names' =>
                obtain ⟨_, rfl⟩ := (selects_element_iff node single).1 selects
                exact ih (names'.composite own') names' live' (by omega)

end Misses

/-! ### What the two functions return -/

/-- Both functions return, with the same indices, type and size. -/
def SaySame (M : IRModule) (name : String) (path : List String) (caches : Caches) : Prop :=
  ∃ r r', getStructFieldInfo M name path caches = .ok r ∧ getStructFieldInfo2 M name path caches = .ok r' ∧
    r.1.gep = r'.1.gep ∧ r.1.basicType = r'.1.basicType ∧ r.1.size_in_bytes = r'.1.size_in_bytes

/-- What `getStructFieldInfo` starts with. -/
def unset : BasicTypeInfo := ⟨"unknown", 4294967295, 4294967295, [], []⟩

variable {M : IRModule} {caches : Caches} {cache : Option (String → Option (Option Nat))}

/-- A structure or union is searched by its elements. -/
lemma process_composite (record : isRecord g c) :
    process_composite_struct g (process_element g needle depth) info c path =
      process_element g needle (depth + 1) info (some c) path := by
  obtain ⟨tag, name, bits, base, elements, node⟩ := isComposite_node (isRecord_composite record)
  rw [process_element, node]
  simp only [(isRecord_node_iff node).1 record, if_true]

/-- The answer of the recursive search. -/
lemma recursive_answer (record : isRecord M.debug c)
    (found : findStructDebugInfo M name (some caches.di) = .ok (some c, cache))
    {r : BasicTypeInfo × Caches} : getStructFieldInfo M name path caches = .ok r ↔
      ∃ hit info, process_element M.debug path (M.debug.rank c + 2) unset (some c) [] = .ok (hit, info) ∧
        r = (if hit then { info with gep := (info.gep ++ [0]).reverse } else info,
          { caches with di := cache.getD caches.di }) := by
  rw [getStructFieldInfo, found, ok_bind]
  simp only [process_composite record]
  constructor
  · intro ran
    obtain ⟨⟨hit, info⟩, ran, e⟩ := bind_eq_ok.1 ran
    exact ⟨hit, info, ran, (Except.ok.inj e).symm⟩
  · rintro ⟨hit, info, ran, rfl⟩
    have ran' : process_element M.debug path (M.debug.rank c + 1 + 1)
      ⟨"unknown", 4294967295, 4294967295, [], []⟩ (some c) [] = .ok (hit, info) := ran
    rw [ran', ok_bind]

/-- The answer of the direct search. -/
lemma direct_answer (more : path ≠ [])
    (found : findStructDebugInfo M name (some caches.di) = .ok (some c, cache))
    {r : BasicTypeInfo × Caches} : getStructFieldInfo2 M name path caches = .ok r ↔
      ∃ typed info, gepLoop M.debug (some c) [] path = .ok typed ∧
        fieldInfo M (if typed = [] then [] else [⟨0, some c⟩] ++ typed) = .ok info ∧
        r = (info, { caches with di := cache.getD caches.di }) := by
  have glued : GEP M.debug (some c) path = (gepLoop M.debug (some c) [] path).map fun out =>
      if out = [] then [] else [⟨0, some c⟩] ++ out := by
    show gepLoop M.debug (some c) ([⟨0, some c⟩] ++ []) path = _
    exact gepLoop_append (.inr more)
  rw [getStructFieldInfo2, found, ok_bind]
  simp only [glued]
  constructor
  · intro ran
    obtain ⟨out, ran, later⟩ := bind_eq_ok.1 ran
    obtain ⟨info, told, e⟩ := bind_eq_ok.1 later
    cases typed : gepLoop M.debug (some c) [] path with
    | error e =>
      rw [typed] at ran
      cases ran
    | ok typed' =>
      rw [typed] at ran
      cases ran
      exact ⟨typed', info, rfl, told, (Except.ok.inj e).symm⟩
  · rintro ⟨typed, info, ran, told, rfl⟩
    rw [ran]
    show (fieldInfo M _ >>= _) = _
    rw [told]
    rfl

/-- What the answer is made of. -/
lemma fieldInfo_last {i : Nat} {DITy : Option Nat} (last : typed.getLast? = some ⟨i, DITy⟩) :
    fieldInfo M ([⟨0, some c⟩] ++ typed) = .ok info ↔
      ∃ bits T basicType, getDIFieldSize M.debug DITy = .ok bits ∧
        resolveDerivedTypeBaseType M.debug DITy = .ok T ∧ DIType2StringType M.debug T = .ok basicType ∧
        info = ⟨basicType, bits, bits / 8, 0 :: typed.map DITypedIndex.index,
          none :: typed.map fun _ => none⟩ := by
  have last' : ([DITypedIndex.mk 0 (some c)] ++ typed).getLast? = some ⟨i, DITy⟩ := by
    rw [List.getLast?_append, last]
    rfl
  have indices : (([DITypedIndex.mk 0 (some c)] ++ typed).map DITypedIndex2TypedIndex).map TypedIndex.index =
      0 :: typed.map DITypedIndex.index := by
    rw [List.map_map, List.map_append]
    rfl
  have types : (([DITypedIndex.mk 0 (some c)] ++ typed).map DITypedIndex2TypedIndex).map TypedIndex.STy =
      none :: typed.map fun _ => none := by
    rw [List.map_map, List.map_append]
    rfl
  rw [fieldInfo, last']
  simp only [indices, types]
  constructor
  · intro told
    obtain ⟨bits, sized, told⟩ := bind_eq_ok.1 told
    obtain ⟨T, resolved, told⟩ := bind_eq_ok.1 told
    obtain ⟨basicType, named, told⟩ := bind_eq_ok.1 told
    exact ⟨bits, T, basicType, sized, resolved, named, (Except.ok.inj told).symm⟩
  · rintro ⟨bits, T, basicType, sized, resolved, named, rfl⟩
    rw [sized, ok_bind, resolved, ok_bind, named, ok_bind]

/-- For a path to a leaf, both functions say the same if and only if they go the same way along it. -/
theorem searches_agree_iff (ctypes : CTypes M.debug bounds) (emitted : Emitted M.debug bounds)
    (record : isRecord M.debug c)
    (found : findStructDebugInfo M name (some caches.di) = .ok (some c, cache))
    (names : NamesLeaf M.debug bounds ⟨c, 0⟩ path) :
    SaySame M name path caches ↔ Agrees M.debug bounds c path := by
  have composite := isRecord_composite record
  have deep : M.debug.rank c < M.debug.rank c + 2 := by omega
  have more : path ≠ [] := by
    rintro rfl
    cases names
  have start : path = [] ++ path := rfl
  constructor
  · rintro ⟨r, r', ran, ran', gep, basicType, size⟩
    have kept : Keeps unset (process_element M.debug path (M.debug.rank c + 2) unset (some c) []) :=
      keeps_names ctypes emitted composite names start deep
    obtain ⟨hit, info, searched, rfl⟩ := (recursive_answer record found).1 ran
    obtain ⟨typed, info', looped, told, rfl⟩ := (direct_answer more found).1 ran'
    cases last : typed.getLast? with
    | none =>
      obtain rfl := List.getLast?_eq_none_iff.1 last
      cases told
      cases hit with
      | false =>
        obtain rfl := kept info searched
        cases size
      | true => exact absurd gep (by simp)
    | some back =>
      have filled : typed ≠ [] := by
        rintro rfl
        cases last
      rw [if_neg filled, fieldInfo_last last] at told
      obtain ⟨bits, T, text, sized, resolved, named, rfl⟩ := told
      cases hit with
      | false =>
        obtain rfl := kept info searched
        cases gep
      | true =>
        have indices : (info.gep ++ [0]).reverse = 0 :: typed.map DITypedIndex.index := gep
        rw [List.reverse_append] at indices
        have indices' : info.gep.reverse = typed.map DITypedIndex.index := (List.cons.inj indices).2
        obtain ⟨i, DITy⟩ := back
        cases DITy with
        | none => cases sized
        | some y =>
          have is_ : Matches M.debug unset info typed :=
            ⟨⟨i, y, bits, T, last, sized, resolved, by rw [named]; exact congrArg _ basicType.symm, size⟩,
              by rw [← indices', List.reverse_reverse]; rfl⟩
          exact agrees_of_found ctypes emitted composite names start searched deep ⟨rfl, rfl⟩ looped is_
  · intro agrees
    obtain ⟨info, typed, searched, looped, is_⟩ := found_of_agrees ctypes emitted agrees start unset
    obtain ⟨i, y, bits, T, last, sized, resolved, named, size⟩ := is_.last
    have told : fieldInfo M (if typed = [] then [] else [⟨0, some c⟩] ++ typed) =
        .ok ⟨info.basicType, bits, bits / 8, 0 :: typed.map DITypedIndex.index,
          none :: typed.map fun _ => none⟩ := by
      rw [if_neg is_.filled]
      exact (fieldInfo_last last).2 ⟨bits, T, info.basicType, sized, resolved, named, rfl⟩
    refine ⟨_, _, (recursive_answer record found).2 ⟨true, info, searched _ deep, rfl⟩,
      (direct_answer more found).2 ⟨typed, _, looped, told, rfl⟩, ?_, rfl, size⟩
    show (info.gep ++ [0]).reverse = _
    rw [is_.gep]
    simp [unset]

/-- The debug types of a class with an array of `int`, a member function and an `int`. -/
def classDebug : DebugInfo := .ofList [
  .composite .structureType "shape" 96 none [.type 1, .other, .type 2],
  .derived .member "corners" 64 (some 3),
  .derived .member "color" 32 (some 4),
  .composite .arrayType "" 64 (some 4) [.other],
  .basic "int" 32] (by decide)

/-- The bounds of the arrays. -/
def classBounds (n : Nat) : List Nat := if n = 3 then [2] else []

/-- A module with the class. -/
def classModule : IRModule where
  debug := classDebug
  types := [0]
  structTypes := []
  layout := .natural
  isLayoutIdentical := fun _ _ => true
  identical_self := fun _ => rfl

/-- The debug types of the class are those in the list, and else there are none. -/
lemma class_node (n : Nat) : n < 5 ∨ classDebug.node n = .subroutine := by
  by_cases lt : n < 5
  · exact .inl lt
  · exact .inr (List.getD_eq_default _ _ (not_lt.1 lt))

/-- What holds of the debug types in the list holds of all. -/
lemma class_all {P : Nat → DIType → Prop} (listed : ∀ n < 5, P n (classDebug.node n))
    (other : ∀ n, P n .subroutine) (n : Nat) : P n (classDebug.node n) := by
  obtain lt | out := class_node n
  · exact listed n lt
  · exact out ▸ other n

/-- There is one structure. -/
lemma class_record (record : isRecord classDebug c) : c = 0 := by
  obtain lt | out := class_node c
  · have all : ∀ c < 5, isRecord classDebug c → c = 0 := by decide
    exact all c lt record
  · rw [isRecord, out] at record
    cases record

/-- There is one array. -/
lemma class_array {a : Nat} (array : (classDebug.node a).getTag = .arrayType) : a = 3 := by
  obtain lt | out := class_node a
  · have all : ∀ a < 5, (classDebug.node a).getTag = .arrayType → a = 3 := by decide
    exact all a lt array
  · rw [out] at array
    cases array

/-- The structure has two members. -/
lemma class_elements {m : Nat} (mem : .type m ∈ (classDebug.node 0).elements) : m = 1 ∨ m = 2 := by
  have all : ∀ e ∈ (classDebug.node 0).elements, e = .type 1 ∨ e = .other ∨ e = .type 2 := by decide
  simpa using all _ mem

/-- The debug types are those of C. -/
lemma class_ctypes : CTypes classDebug classBounds where
  member c m composite noArray mem := by
    have root : c = 0 := by
      obtain lt | out := class_node c
      · have all : ∀ c < 5, isComposite classDebug c → (classDebug.node c).getTag ≠ .arrayType → c = 0 := by
          decide
        exact all c lt composite noArray
      · rw [isComposite, out] at composite
        cases composite
    cases root
    obtain rfl | rfl := class_elements mem
    · exact ⟨rfl, "corners", 64, 3, 3, rfl, rfl, fun e => absurd e (by decide)⟩
    · exact ⟨rfl, "color", 32, 4, 4, rfl, rfl, fun e => absurd e (by decide)⟩
  array a name bits base elements node := by
    cases class_array (by rw [node]; rfl)
    cases node
    refine ⟨List.cons_ne_nil _ _, 4, 4, rfl, rfl, ?_⟩
    intro tag name bits base node
    cases node
  unique field c x x' has has' := by
    refine has.unique_of_named ?_ ?_ has'
    · intro c m record mem
      cases class_record record
      obtain rfl | rfl := class_elements mem <;> decide
    · intro c m m' record mem mem' same
      cases class_record record
      obtain rfl | rfl := class_elements mem
      · obtain rfl | rfl := class_elements mem'
        · rfl
        · exact absurd same (by decide)
      · obtain rfl | rfl := class_elements mem'
        · exact absurd same (by decide)
        · rfl

/-- The members are reached by their own elements. -/
lemma class_via (mem : .type m ∈ (classDebug.node 0).elements)
    (via : Via classDebug (bare classDebug) field m x) : x = m := by
  obtain ⟨_, _, _, _, same⟩ | ⟨_, _, _, node, _⟩ := via
  · exact same
  · have unnamed : (classDebug.node m).getName = "" := congrArg DIType.getName node
    obtain rfl | rfl := class_elements mem
    · exact absurd unnamed (by decide)
    · exact absurd unnamed (by decide)

/-- They are as compilers write them. -/
lemma class_emitted : Emitted classDebug classBounds where
  listed c front m back e mem := by
    have once : ((classDebug.node c).elements.filter (· ≠ .other)).Nodup :=
      class_all (P := fun _ node => (node.elements.filter (· ≠ .other)).Nodup) (by decide)
        (fun _ => List.nodup_nil) c
    rw [e, List.filter_append, List.filter_cons] at once
    have front_mem : .type m ∈ front.filter (· ≠ .other) := List.mem_filter.2 ⟨mem, rfl⟩
    exact (List.nodup_append.1 once).2.2 _ front_mem _ (.head _) rfl
  once c field m m' x mem mem' via via' := by
    have root : c = 0 ∨ ∀ m, .type m ∉ (classDebug.node c).elements :=
      class_all (P := fun c node => c = 0 ∨ ∀ m, .type m ∉ node.elements) (fun n lt => by
        interval_cases n
        · exact .inl rfl
        all_goals exact .inr fun m mem => by simp [classDebug, DebugInfo.ofList, DIType.elements] at mem)
        (fun _ => .inr fun _ mem => by cases mem) c
    obtain rfl | none := root
    · exact (class_via mem via).symm.trans (class_via mem' via')
    · exact absurd mem (none m)
  name x field bits base node := by
    have named := class_all (P := fun _ node => node.getTag = .member → index? node.getName = none) (by decide)
      (fun _ _ => rfl) x
    rw [node] at named
    exact named rfl
  array a name bits b elements node := by
    cases class_array (by rw [node]; rfl)
    cases node
    exact ⟨rfl, by decide⟩
  size a name bits b elements n node single := by
    cases class_array (by rw [node]; rfl)
    cases node
    cases single
    exact ⟨rfl, by decide⟩
  renamed n tag name bits base node renames := by
    have own := class_all (P := fun _ node => node.getTag.renames = false) (by decide) (fun _ => rfl) n
    rw [node, DIType.getTag, renames] at own
    cases own
  bytes n _ := class_all (P := fun _ node => node.sizeInBits % 8 = 0) (by decide) (fun _ => rfl) n
  field x name bits b node := by
    obtain lt | out := class_node x
    · interval_cases x
      · cases node
      · cases node
        exact .inl rfl
      · cases node
        exact .inl rfl
      · cases node
      · cases node
    · cases out.symm.trans node
  unknown n bits node := by
    have named := class_all (P := fun _ node => node.getName ≠ "unknown") (by decide) (fun _ => by decide) n
    rw [node] at named
    exact named rfl
  pointer n pointer := by
    obtain ⟨_, _, _, node⟩ := pointer_node pointer
    have tag := class_all (P := fun _ node => node.getTag ≠ .pointerType) (by decide) (fun _ => by decide) n
    rw [node] at tag
    exact absurd rfl tag

/-- The members of the structure are selected by their names. -/
lemma class_selects {field : String} {x b bits : Nat} (mem : .type x ∈ (classDebug.node 0).elements)
    (node : classDebug.node x = .derived .member field bits (some b)) (named : field ≠ "") :
    Selects classDebug classBounds ⟨0, 0⟩ field ⟨b, 0⟩ :=
  .member (bare_composite rfl) (.named rfl mem node named) node

/-- Both functions say the same of a member before the member function. -/
theorem searches_agree_iff_corners : Agrees classDebug classBounds 0 ["corners"] := by
  have names : NamesLeaf classDebug classBounds ⟨0, 0⟩ ["corners"] :=
    .field (class_selects (x := 1) (.head _) rfl (by decide)) (bare_composite rfl) rfl
      (bare_composite (n := 3) rfl) (.inr (.inr ⟨_, _, 4, _, 2, 4, _, _, rfl, rfl, rfl, rfl⟩))
  have same : SaySame classModule "shape" ["corners"] ⟨fun _ => none, fun _ => none⟩ :=
    ⟨_, _, rfl, rfl, by decide⟩
  exact (searches_agree_iff class_ctypes class_emitted rfl rfl names).1 same

/-- Behind the member function, they give different indices. -/
theorem color_differs : NamesLeaf classDebug classBounds ⟨0, 0⟩ ["color"] ∧
    ¬ SaySame classModule "shape" ["color"] ⟨fun _ => none, fun _ => none⟩ := by
  refine ⟨.field (class_selects (x := 2) (.tail _ (.tail _ (.head _))) rfl (by decide)) (bare_composite rfl) rfl
    (k := 4) rfl (.inl ⟨_, _, rfl⟩), ?_⟩
  rintro ⟨r, r', ran, ran', same, _⟩
  have first : (getStructFieldInfo classModule "shape" ["color"] ⟨fun _ => none, fun _ => none⟩).map
      (fun r => r.1.gep) = .ok [0, 1] := rfl
  have second : (getStructFieldInfo2 classModule "shape" ["color"] ⟨fun _ => none, fun _ => none⟩).map
      (fun r => r.1.gep) = .ok [0, 2] := rfl
  rw [ran] at first
  rw [ran'] at second
  have both : [0, 1] = [0, 2] := (Except.ok.inj first).symm.trans (same.trans (Except.ok.inj second))
  exact absurd both (by decide)

end Irx.Debug
