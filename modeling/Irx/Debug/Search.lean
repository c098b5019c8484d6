import Irx.Debug.Sizes

/-!
# The recursive search

`getStructFieldInfo` goes through all parts of a type and compares the names on its way with the path. A
name is left out for a member without one, and an array is also entered without an index. A part in which
the path does not go on is passed, if the search can deal with it at all (`Searchable`).
-/

namespace Irx.Debug
open Irx.Lib

/-- The answer with one more index. -/
def BasicTypeInfo.push_back (index : Nat) (info : BasicTypeInfo) : BasicTypeInfo :=
  { info with gep := info.gep ++ [index] }

section Search

variable (g : DebugInfo)
variable (process_element : BasicTypeInfo → Option Nat → List String → Except Abort (Bool × BasicTypeInfo))

/-- The loop over the elements in `process_composite_struct`. -/
def elementLoop (tag : Tag) (path : List String) :
    Nat → BasicTypeInfo → List DINode → Except Abort (Bool × BasicTypeInfo)
  | _, info, [] => .ok (false, info)
  | index, info, DINode :: rest =>
    match DINode with
    | .other => elementLoop tag path index info rest
    | .type m =>
      match g.node m with
      | .derived _ name _ baseDITy => do
        let (found, info) ← process_element info baseDITy (if name = "" then path else path ++ [name])
        if found then .ok (true, info.push_back index)
        else elementLoop tag path (if tag = .unionType then index else index + 1) info rest
      | _ => elementLoop tag path index info rest

/-- The loop over the indices of an array. -/
def indexLoop (arrayDITy : Option Nat) (path : List String) :
    BasicTypeInfo → List Nat → Except Abort (Bool × BasicTypeInfo)
  | info, [] => .ok (false, info)
  | info, i :: rest => do
    let (found_new, info) ← process_element info arrayDITy (path ++ [toString i])
    if found_new then .ok (true, info.push_back i) else indexLoop arrayDITy path info rest

/-- `arraySize`, behind the assertion. -/
def arraySize (bits : Nat) (arrayDITy : Option Nat) (DIArrayElements : List DINode) : Except Abort Nat :=
  if DIArrayElements.length ≠ 1 then .error .assertion
  else
    match arrayDITy with
    | none => .error .undefined
    | some b =>
      if (g.node b).sizeInBits = 0 then .error .undefined else .ok (bits / (g.node b).sizeInBits)

/-- The search in the elements of a composite type, and in the items of an array. -/
def process_composite_struct (info : BasicTypeInfo) (CTy : Nat) (path : List String) :
    Except Abort (Bool × BasicTypeInfo) :=
  match g.node CTy with
  | .composite tag _ bits arrayDITy elements => do
    let (found, info) ← elementLoop g process_element tag path 0 info elements
    if found then .ok (true, info)
    else if tag = .arrayType then do
      let n ← arraySize g bits arrayDITy elements
      let (found, info) ← process_element info arrayDITy path
      if found then .ok (true, info)
      else indexLoop process_element arrayDITy path info (List.range n)
    else .ok (false, info)
  | _ => .error .undefined

/-- What is noted of a basic type or a pointer that is found. -/
def tell (basicType : String) (bits : Nat) (found : Bool) (info : BasicTypeInfo) :
    Except Abort (Bool × BasicTypeInfo) :=
  if found then
    if bits &&& 0x07 = 0 then
      .ok (true, { info with basicType := basicType, size_in_bits := bits, size_in_bytes := bits / 8 })
    else .error .assertion
  else .ok (false, info)

end Search

/-- `process_element`, for at most the given depth of calls. -/
def process_element (g : DebugInfo) (needle : List String) :
    Nat → BasicTypeInfo → Option Nat → List String → Except Abort (Bool × BasicTypeInfo)
  | 0, _, _, _ => .error .undefined
  | _, _, none, _ => .error .undefined
  | depth + 1, info, some DITy, path =>
    let found : Bool := needle = path
    match g.node DITy with
    | .basic name bits => tell name bits found info
    | .composite tag _ bits base elements =>
      if tag = .structureType ∨ tag = .unionType then
        process_composite_struct g (process_element g needle depth) info DITy path
      else if tag = .arrayType then do
        let n ← arraySize g bits base elements
        let (found_new, info) ← process_composite_struct g (process_element g needle depth) info DITy path
        if found then
          .ok (found_new, { info with
            size_in_bits := word (info.size_in_bits * n)
            size_in_bytes := word (info.size_in_bytes * n) })
        else .ok (found_new, info)
      else .error .assertion
    | .derived tag _ bits base =>
      if tag = .pointerType then tell "PTR" bits found info
      else if tag = .typedef then process_element g needle depth info base path
      else .ok (found, info)
    | .subroutine => .ok (found, info)

/-- `getStructFieldInfo`: the recursive search from the structure of the name. -/
def getStructFieldInfo (M : IRModule) (name : String) (needle : List String) (caches : Caches) :
    Except Abort (BasicTypeInfo × Caches) := do
  let (CTy, DICache) ← findStructDebugInfo M name (some caches.di)
  match CTy with
  | none => .error .undefined
  | some CTy => do
    let (found, info) ← process_composite_struct M.debug
      (process_element M.debug needle (M.debug.rank CTy + 1)) ⟨"unknown", 4294967295, 4294967295, [], []⟩
      CTy []
    let info := if found then { info with gep := (info.gep ++ [0]).reverse } else info
    .ok (info, { caches with di := DICache.getD caches.di })

/-! ### What is passed -/

/-- The search can go through all parts of the type: it has no enumerations, no array of several dimensions
and no array whose elements have no size. -/
inductive Searchable (g : DebugInfo) : Nat → Prop where
  | basic {n name bits} : g.node n = .basic name bits → Searchable g n
  | subroutine {n} : g.node n = .subroutine → Searchable g n
  | record {n} : isRecord g n →
    (∀ m tag name bits, .type m ∈ (g.node n).elements → g.node m ≠ .derived tag name bits none) →
    (∀ m tag name bits b, .type m ∈ (g.node n).elements → g.node m = .derived tag name bits (some b) →
      Searchable g b) → Searchable g n
  | array {a name bits b elements} :
    g.node a = .composite .arrayType name bits (some b) elements → elements = [.other] →
    (g.node b).sizeInBits ≠ 0 → Searchable g b → Searchable g a
  | typedef {n name bits b} : g.node n = .derived .typedef name bits (some b) → Searchable g b →
    Searchable g n
  | derived {n tag name bits base} : g.node n = .derived tag name bits base → tag ≠ .typedef →
    Searchable g n

/-- Nothing is found, and the search goes on where `S` holds and is given up where it does not. -/
def Passes (S : Prop) (info : BasicTypeInfo) (r : Except Abort (Bool × BasicTypeInfo)) : Prop :=
  (S ∧ r = .ok (false, info)) ∨ (¬ S ∧ ∃ e, r = .error e)

/-- The base type of an element can be searched. -/
def ElementSearchable (g : DebugInfo) (element : DINode) : Prop :=
  ∀ m tag name bits base, element = .type m → g.node m = .derived tag name bits base →
    ∃ b, base = some b ∧ Searchable g b

variable {g : DebugInfo} {bounds : Nat → List Nat} {needle path rest : List String} {info info' : BasicTypeInfo}
variable {a b c k m n x depth index : Nat} {tag : Tag} {name field component : String} {bits : Nat}
variable {base : Option Nat} {elements front back : List DINode} {S T : Prop}
variable {r : Except Abort (Bool × BasicTypeInfo)}
variable {element : BasicTypeInfo → Option Nat → List String → Except Abort (Bool × BasicTypeInfo)}

/-- A qualified type is not looked through: nothing is noted of it. -/
lemma process_qualified (node : g.node n = .derived tag name bits base) (renames : tag.renames)
    (other : ∀ name bits base, g.node n ≠ .derived .typedef name bits base) :
    process_element g needle (depth + 1) info (some n) path = .ok (decide (needle = path), info) := by
  have pointer : tag ≠ .pointerType := by
    rintro rfl
    cases renames
  have typedef : tag ≠ .typedef := by
    rintro rfl
    exact other _ _ _ node
  rw [process_element, node]
  simp only [pointer, typedef, if_false]

/-- A structure or union can be searched if each of its elements can. -/
lemma searchable_record (record : isRecord g n) :
    Searchable g n ↔ ∀ element ∈ (g.node n).elements, ElementSearchable g element := by
  constructor
  · intro searchable
    cases searchable with
    | basic node =>
      rw [isRecord, node] at record
      cases record
    | subroutine node =>
      rw [isRecord, node] at record
      cases record
    | record _ nonnull parts =>
      rintro _ mem m tag name bits base rfl node
      cases base with
      | none => exact absurd node (nonnull m tag name bits mem)
      | some b => exact ⟨b, rfl, parts m tag name bits b mem node⟩
    | array node => exact absurd node (isRecord_not_array record)
    | typedef node =>
      rw [isRecord, node] at record
      cases record
    | derived node =>
      rw [isRecord, node] at record
      cases record
  · intro parts
    refine .record record (fun m tag name bits mem node => ?_) fun m tag name bits b mem node => ?_
    · obtain ⟨_, e, _⟩ := parts _ mem m tag name bits none rfl node
      cases e
    · obtain ⟨_, e, searchable⟩ := parts _ mem m tag name bits (some b) rfl node
      cases e
      exact searchable

/-- An array can be searched if it has one dimension and its element type has a size and can be searched. -/
lemma searchable_array (node : g.node a = .composite .arrayType name bits base elements) :
    Searchable g a ↔ ∃ b, base = some b ∧ elements = [.other] ∧ (g.node b).sizeInBits ≠ 0 ∧
      Searchable g b := by
  constructor
  · intro searchable
    cases searchable with
    | basic node' => cases node.symm.trans node'
    | subroutine node' => cases node.symm.trans node'
    | record record => exact absurd node (isRecord_not_array record)
    | array node' single sized inner =>
      cases node.symm.trans node'
      exact ⟨_, rfl, single, sized, inner⟩
    | typedef node' => cases node.symm.trans node'
    | derived node' => cases node.symm.trans node'
  · rintro ⟨b, rfl, single, sized, inner⟩
    exact .array node single sized inner

/-- A typedef can be searched if its base type can. -/
lemma searchable_typedef (node : g.node n = .derived .typedef name bits base) :
    Searchable g n ↔ ∃ b, base = some b ∧ Searchable g b := by
  constructor
  · intro searchable
    cases searchable with
    | basic node' => cases node.symm.trans node'
    | subroutine node' => cases node.symm.trans node'
    | record record =>
      rw [isRecord, node] at record
      cases record
    | array node' => cases node.symm.trans node'
    | typedef node' inner =>
      cases node.symm.trans node'
      exact ⟨_, rfl, inner⟩
    | derived node' other =>
      cases node.symm.trans node'
      exact absurd rfl other
  · rintro ⟨b, rfl, inner⟩
    exact .typedef node inner

/-- Composite types of other kinds cannot be searched. -/
lemma not_searchable (node : g.node n = .composite tag name bits base elements)
    (other : ¬ (tag = .structureType ∨ tag = .unionType)) (noArray : tag ≠ .arrayType) :
    ¬ Searchable g n := by
  intro searchable
  cases searchable with
  | basic node' => cases node.symm.trans node'
  | subroutine node' => cases node.symm.trans node'
  | record record =>
    exact other ((isRecord_node_iff node).1 record)
  | array node' =>
    cases node.symm.trans node'
    exact noArray rfl
  | typedef node' => cases node.symm.trans node'
  | derived node' => cases node.symm.trans node'

/-- A searchable type with parts that is no array is a structure or union. -/
lemma record_of_searchable (searchable : Searchable g n) (composite : isComposite g n)
    (noArray : (g.node n).getTag ≠ .arrayType) : isRecord g n := by
  by_contra none
  obtain ⟨tag, _, _, _, _, node⟩ := isComposite_node composite
  rw [node] at noArray
  exact not_searchable node (fun kind => none ((isRecord_node_iff node).2 kind)) noArray searchable

namespace Passes

/-- If the search returns, it could be made and has found nothing. -/
lemma ok (passes : Passes S info r) {found : Bool} (e : r = .ok (found, info')) :
    S ∧ found = false ∧ info' = info := by
  obtain ⟨holds, e'⟩ | ⟨_, _, e'⟩ := passes
  · cases e.symm.trans e'
    exact ⟨holds, rfl, rfl⟩
  · cases e.symm.trans e'

/-- Passing is not finding. -/
lemma not_found (passes : Passes S info r) : r ≠ .ok (true, info') := by
  intro e
  cases (passes.ok e).2.1

/-- Passing depends on what can be searched only. -/
lemma iff (passes : Passes S info r) (same : S ↔ T) : Passes T info r := by
  rw [Passes, ← same]
  exact passes

/-- What comes after a part that is passed is passed if the whole is. -/
lemma bind {f : Bool × BasicTypeInfo → Except Abort (Bool × BasicTypeInfo)} (passes : Passes S info r)
    (next : S → Passes T info (f (false, info))) : Passes (S ∧ T) info (r >>= f) := by
  obtain ⟨holds, e⟩ | ⟨fails, e', e⟩ := passes
  · rw [e, ok_bind]
    obtain ⟨holds', e⟩ | ⟨fails, e', e⟩ := next holds
    · exact .inl ⟨⟨holds, holds'⟩, e⟩
    · exact .inr ⟨fun both => fails both.2, e', e⟩
  · exact .inr ⟨fun both => fails both.1, e', by rw [e]; rfl⟩

end Passes

/-- An element that is no type is always passed. -/
lemma elementSearchable_other : ElementSearchable g .other := by
  intro m tag name bits base e
  cases e

/-- A derived element can be searched if its base type can. -/
lemma elementSearchable_type (node : g.node m = .derived tag name bits base) :
    ElementSearchable g (.type m) ↔ ∃ b, base = some b ∧ Searchable g b := by
  constructor
  · intro searchable
    exact searchable m tag name bits base rfl node
  · rintro ⟨b, rfl, searchable⟩ _ _ _ _ _ ⟨⟩ node'
    cases node.symm.trans node'
    exact ⟨b, rfl, searchable⟩

/-- The path behind the name of a member. -/
def behind (path : List String) (name : String) : List String := if name = "" then path else path ++ [name]

/-- A list of elements in which nothing is found. -/
lemma elementLoop_passes (each : ∀ m tag name bits base, .type m ∈ elements →
      g.node m = .derived tag name bits base →
      Passes (∃ b, base = some b ∧ Searchable g b) info (element info base (behind path name))) :
    Passes (∀ e ∈ elements, ElementSearchable g e) info
      (elementLoop g element tag path index info elements) := by
  induction elements generalizing index with
  | nil =>
    refine .inl ⟨?_, rfl⟩
    intro e mem
    cases mem
  | cons e rest ih =>
    have next : ∀ index, Passes (∀ e ∈ rest, ElementSearchable g e) info
        (elementLoop g element tag path index info rest) :=
      fun _ => ih fun m tag name bits base mem => each m tag name bits base (.tail _ mem)
    cases e with
    | other =>
      refine (next index).iff ?_
      simp only [List.forall_mem_cons, and_iff_right elementSearchable_other]
    | type m =>
      rw [elementLoop]
      cases node : g.node m with
      | derived tag' name bits base =>
        have first := each m _ _ _ _ (.head _) node
        refine (first.bind fun _ => next _).iff ?_
        rw [List.forall_mem_cons, elementSearchable_type node]
      | _ =>
        refine (next index).iff ?_
        rw [List.forall_mem_cons, and_iff_right]
        rintro _ _ _ _ _ ⟨⟩ node'
        cases node.symm.trans node'

/-- A structure or union is passed if its members are. -/
lemma passes_record (record : isRecord g n)
    (each : ∀ m tag name bits base, .type m ∈ (g.node n).elements → g.node m = .derived tag name bits base →
      Passes (∃ b, base = some b ∧ Searchable g b) info (element info base (behind path name))) :
    Passes (Searchable g n) info (process_composite_struct g element info n path) := by
  obtain ⟨tag, name, bits, base, elements, node⟩ := isComposite_node (isRecord_composite record)
  have all := searchable_record record
  have noArray := isRecord_tag record
  rw [node, DIType.elements] at all each
  rw [node, DIType.getTag] at noArray
  rw [process_composite_struct, node]
  have loop : Passes (∀ e ∈ elements, ElementSearchable g e) info
      (elementLoop g element tag path 0 info elements) := elementLoop_passes each
  have whole : (∀ e ∈ elements, ElementSearchable g e) ∧ True ↔ Searchable g n := by
    rw [and_true]
    exact all.symm
  refine Passes.iff (loop.bind fun _ => ?_) whole
  simp only [Bool.false_eq_true, if_false, noArray]
  exact .inl ⟨trivial, rfl⟩

/-- The loop over the items passes if each of them does. -/
lemma indexLoop_passes {l : List Nat} (each : ∀ i ∈ l, Passes S info (element info base (path ++ [toString i])))
    (holds : S) : indexLoop element base path info l = .ok (false, info) := by
  induction l with
  | nil => rfl
  | cons i l ih =>
    rw [indexLoop]
    obtain ⟨_, e⟩ | ⟨fails, _⟩ := each i (.head _)
    · rw [e, ok_bind]
      exact ih fun i mem => each i (.tail _ mem)
    · exact absurd holds fails

/-- The size of an array whose search goes on. -/
lemma arraySize_ok {n : Nat} (e : arraySize g bits base elements = .ok n) : ∃ b, base = some b ∧
    elements.length = 1 ∧ (g.node b).sizeInBits ≠ 0 ∧ n = bits / (g.node b).sizeInBits := by
  cases base with
  | none =>
    rw [arraySize] at e
    split at e <;> cases e
  | some b =>
    rw [arraySize] at e
    split at e
    case isTrue => cases e
    case isFalse single =>
      split at e
      case isTrue => cases e
      case isFalse sized =>
        cases e
        exact ⟨b, rfl, not_not.1 single, sized, rfl⟩

/-- What debug types are like beside `CTypes`. -/
structure Emitted (g : DebugInfo) (bounds : Nat → List Nat) : Prop where
  /-- A member is listed once. -/
  listed : ∀ c front m back, (g.node c).elements = front ++ .type m :: back → .type m ∉ front
  /-- It is reached by one element of a type. -/
  once : ∀ c field m m' x, .type m ∈ (g.node c).elements → .type m' ∈ (g.node c).elements →
    Via g (bare g) field m x → Via g (bare g) field m' x → m = m'
  /-- No name of a member is a number. -/
  name : ∀ x field bits base, g.node x = .derived .member field bits base → index? field = none
  /-- An array has a subrange for each dimension, and its elements are no arrays. -/
  array : ∀ a name bits b elements, g.node a = .composite .arrayType name bits (some b) elements →
    elements = List.replicate (bounds a).length .other ∧ (g.node b).getTag ≠ .arrayType
  size : ∀ a name bits b elements n, g.node a = .composite .arrayType name bits (some b) elements →
    bounds a = [n] → bits = n * bitsOf g b ∧ bits < 18446744073709551616
  /-- Typedefs and qualified types have no size of their own. -/
  renamed : ∀ n tag name bits base, g.node n = .derived tag name bits base → tag.renames → bits = 0
  bytes : ∀ n, (g.node n).getTag ≠ .member → (g.node n).sizeInBits % 8 = 0
  /-- Only bit-fields are smaller than their type. -/
  field : ∀ x name bits b, g.node x = .derived .member name bits (some b) → bits = bitsOf g b ∨
    ∃ k name' bits', bare g b = some k ∧ g.node k = .basic name' bits'
  unknown : ∀ n bits, g.node n ≠ .basic "unknown" bits
  pointer : ∀ n, isPointer g n → (g.node n).sizeInBits / 8 ≠ 4294967295

section Passing

variable (emitted : Emitted g bounds)
include emitted

/-- The elements of an array are no types. -/
lemma elementLoop_array {name : String} (node : g.node a = .composite .arrayType name bits (some b) elements) :
    elementLoop g element tag path index info elements = .ok (false, info) := by
  rw [(emitted.array _ _ _ _ _ node).1]
  induction (bounds a).length generalizing index with
  | zero => rfl
  | succ n ih => exact ih

/-- The search of an array behind its assertions. -/
lemma process_array {name : String} (node : g.node a = .composite .arrayType name bits (some b) elements)
    {n : Nat} (size : arraySize g bits (some b) elements = .ok n) :
    process_composite_struct g element info a path = element info (some b) path >>= fun r =>
      if r.1 then .ok (true, r.2) else indexLoop element (some b) path r.2 (List.range n) := by
  rw [process_composite_struct, node]
  simp only [elementLoop_array emitted node, ok_bind, Bool.false_eq_true, if_false, if_true, size]

/-- An array with one element node has one dimension. -/
lemma single_array {name : String} (node : g.node a = .composite .arrayType name bits (some b) elements)
    (single : elements.length = 1) : elements = [.other] ∧ ∃ n, bounds a = [n] := by
  have dims := (emitted.array _ _ _ _ _ node).1
  rw [dims, List.length_replicate] at single
  rw [dims, single]
  exact ⟨rfl, List.length_eq_one_iff.1 single⟩

/-- Away from the path, nothing is found. -/
lemma passes_away (ctypes : CTypes g bounds) (away : ¬ path <+: needle) (deep : g.rank n < depth) :
    Passes (Searchable g n) info (process_element g needle depth info (some n) path) := by
  induction depth generalizing n path with
  | zero => exact absurd deep (Nat.not_lt_zero _)
  | succ depth ih =>
    have differ : needle ≠ path := by
      rintro rfl
      exact away (List.prefix_refl _)
    have further : ∀ name, ¬ path ++ [name] <+: needle := fun name further =>
      away ((List.prefix_append _ _).trans further)
    rw [process_element]
    simp only [differ, decide_false]
    cases node : g.node n with
    | basic name bits => exact .inl ⟨.basic node, rfl⟩
    | subroutine => exact .inl ⟨.subroutine node, rfl⟩
    | derived tag name bits base =>
      simp only
      split
      case isTrue pointer =>
        refine .inl ⟨.derived node ?_, rfl⟩
        rw [pointer]
        decide
      case isFalse =>
        split
        case isTrue typedef =>
          subst typedef
          refine Passes.iff ?_ (searchable_typedef node).symm
          cases base with
          | none =>
            refine .inr ⟨?_, .undefined, ?_⟩
            · rintro ⟨b, e, _⟩
              cases e
            · cases depth <;> rfl
          | some b =>
            have lower := rank_typedef node
            refine Passes.iff (ih away (by omega)) ?_
            simp only [Option.some.injEq, exists_eq_left']
        case isFalse other => exact .inl ⟨.derived node other, rfl⟩
    | composite tag name bits base elements =>
      simp only
      split
      case isTrue kind =>
        have record := (isRecord_node_iff node).2 kind
        refine passes_record record fun m tag name bits base mem node' => ?_
        have members := ctypes.member n m (isRecord_composite record) (isRecord_tag record) mem
        obtain ⟨_, name', bits', b, _, node'', _⟩ := members
        cases node'.symm.trans node''
        rw [node] at mem
        have lower := g.rank_element _ _ _ _ _ _ _ node mem
        have lower' := rank_member node'
        have way : ¬ behind path name <+: needle := by
          rw [behind]
          split
          · exact away
          · exact further name
        refine Passes.iff (ih way (by omega)) ?_
        simp only [Option.some.injEq, exists_eq_left']
      case isFalse other =>
        split
        case isTrue array =>
          subst array
          obtain ⟨_, b, k, rfl, _⟩ := ctypes.array _ _ _ _ _ node
          have lower := g.rank_base _ _ _ _ _ _ node
          have inner := ih away (by omega : g.rank b < depth)
          cases size : arraySize g bits (some b) elements with
          | error e =>
            refine .inr ⟨fun searchable => ?_, e, rfl⟩
            obtain ⟨b', e', single, sized, _⟩ := (searchable_array node).1 searchable
            cases e'
            subst single
            simp [arraySize, sized] at size
          | ok count =>
            obtain ⟨_, ⟨⟩, single, sized, _⟩ := arraySize_ok size
            have other' := (single_array emitted node single).1
            have whole : Searchable g b ∧ True ↔ Searchable g n := by
              rw [searchable_array node, and_true]
              constructor
              · exact fun searchable => ⟨b, rfl, other', sized, searchable⟩
              · rintro ⟨_, ⟨⟩, _, _, searchable⟩
                exact searchable
            rw [ok_bind, process_array emitted node size]
            simp only [bind_assoc]
            refine Passes.iff (inner.bind fun searchable => ?_) whole
            simp only [Bool.false_eq_true, if_false]
            rw [indexLoop_passes (fun i _ => ih (further (toString i)) (by omega)) searchable]
            exact .inl ⟨trivial, rfl⟩
        case isFalse noArray => exact .inr ⟨not_searchable node other noArray, .assertion, rfl⟩

end Passing

/-- The structure or union that the search enters: typedefs are taken off. -/
def opened (g : DebugInfo) (n : Nat) : Option Nat :=
  match stripTypedefs g (g.rank n + 1) n with
  | .ok k => if isRecord g k then some k else none
  | .error _ => none

/-- What is entered is the type below the typedefs, and a structure or union. -/
lemma opened_bare (e : opened g n = some k) : bare g n = some k ∧ isRecord g k := by
  rw [opened] at e
  split at e
  case h_1 m stripped =>
    split at e
    case isTrue record =>
      cases e
      exact ⟨(bare_stripTypedefs stripped).trans (bare_composite (isRecord_composite record)), record⟩
    case isFalse => cases e
  case h_2 => cases e

/-- What is no typedef is left as it is. -/
lemma stripTypedefs_self {fuel : Nat} (other : ∀ name bits base, g.node n ≠ .derived .typedef name bits base) :
    stripTypedefs g (fuel + 1) n = .ok n := by
  rw [stripTypedefs]
  split
  case h_1 node => exact absurd node (other _ _ _)
  case h_2 => rfl

/-- Enough rounds are enough. -/
lemma stripTypedefs_fuel {fuel fuel' : Nat} (deep : g.rank n < fuel) (deep' : g.rank n < fuel') :
    stripTypedefs g fuel n = stripTypedefs g fuel' n := by
  induction fuel generalizing n fuel' with
  | zero => exact absurd deep (Nat.not_lt_zero _)
  | succ fuel ih =>
    cases fuel' with
    | zero => exact absurd deep' (Nat.not_lt_zero _)
    | succ fuel' =>
      rw [stripTypedefs, stripTypedefs]
      split
      case h_1 base node =>
        cases base with
        | none => rfl
        | some b =>
          have lower := rank_typedef node
          exact ih (by omega) (by omega)
      case h_2 => rfl

/-- A typedef is stripped like its base type. -/
lemma stripTypedefs_typedef (node : g.node n = .derived .typedef name bits (some b)) :
    stripTypedefs g (g.rank n + 1) n = stripTypedefs g (g.rank b + 1) b := by
  have lower := rank_typedef node
  rw [stripTypedefs, node]
  exact stripTypedefs_fuel lower (Nat.lt_succ_self _)

/-- For a typedef, what its base type is is entered. -/
lemma opened_typedef (node : g.node n = .derived .typedef name bits (some b)) :
    opened g n = opened g b := by
  rw [opened, opened, stripTypedefs_typedef node]

/-- A structure or union is entered itself. -/
lemma opened_record (record : isRecord g n) : opened g n = some n := by
  have other : ∀ name bits base, g.node n ≠ .derived .typedef name bits base := by
    intro name bits base node
    rw [isRecord, node] at record
    cases record
  rw [opened, stripTypedefs_self other]
  exact if_pos record

/-- If more is entered, all members are still there. -/
lemma HasMember.imp {enter enter' : Nat → Option Nat} (more : ∀ b n, enter b = some n → enter' b = some n)
    (has : HasMember g enter field c x) : HasMember g enter' field c x := by
  induction has with
  | named record mem node named => exact .named record mem node named
  | inside record mem node entered _ ih => exact .inside record mem node (more _ _ entered) ih

/-- A path followed by a name is a prefix exactly for the next component. -/
lemma prefix_behind : path ++ [name] <+: path ++ component :: rest ↔ name = component := by
  rw [List.prefix_append_right_inj, List.cons_prefix_cons, and_iff_left (List.nil_prefix)]

/-- In a structure without a member of the name, nothing is found. -/
lemma passes_other (ctypes : CTypes g bounds) (emitted : Emitted g bounds)
    (live : needle = path ++ component :: rest) (e : bare g n = some k) (record : isRecord g k)
    (none : ∀ c x, opened g n = some c → ¬ HasMember g (opened g) component c x)
    (deep : g.rank n < depth) :
    Passes (Searchable g n) info (process_element g needle depth info (some n) path) := by
  induction depth generalizing n k with
  | zero => exact absurd deep (Nat.not_lt_zero _)
  | succ depth ih =>
    have differ : needle ≠ path := by
      rw [live]
      simp
    rw [process_element]
    simp only [differ, decide_false]
    obtain ⟨tag, name, bits, base, node, renames, e'⟩ | ⟨own, _⟩ := bare_cases g n
    · simp only [node]
      split
      case isTrue pointer =>
        subst pointer
        cases renames
      case isFalse =>
        split
        case isTrue typedef =>
          subst typedef
          cases base with
          | none => cases e.symm.trans e'
          | some b =>
            have lower := rank_typedef node
            refine Passes.iff (ih (e'.symm.trans e) record ?_ (by omega)) ?_
            · rw [← opened_typedef node]
              exact none
            · rw [searchable_typedef node]
              simp only [Option.some.injEq, exists_eq_left']
        case isFalse other => exact .inl ⟨.derived node other, rfl⟩
    · obtain rfl : n = k := Option.some.inj (own.symm.trans e)
      obtain ⟨tag, name, bits, base, elements, node⟩ := isComposite_node (isRecord_composite record)
      simp only [node, (isRecord_node_iff node).1 record, if_true]
      refine passes_record record fun m tag name bits base mem node' => ?_
      have members := ctypes.member n m (isRecord_composite record) (isRecord_tag record) mem
      obtain ⟨_, name', bits', b, k, node'', e', blank⟩ := members
      cases node'.symm.trans node''
      have lower : g.rank m < g.rank n := g.rank_element _ _ _ _ _ _ _ node (by rwa [node] at mem)
      have lower' := rank_member node'
      have whole : Searchable g b ↔ ∃ b', some b = some b' ∧ Searchable g b' := by
        simp only [Option.some.injEq, exists_eq_left']
      refine Passes.iff ?_ whole
      rw [behind]
      split
      case isTrue unnamed =>
        refine ih e' (blank unnamed) (fun c x entered has => ?_) (by omega)
        subst unnamed
        exact none n x (opened_record record) (.inside record mem node' entered has)
      case isFalse named =>
        refine passes_away emitted ctypes (fun further => ?_) (by omega)
        rw [live, prefix_behind] at further
        subst further
        exact none n m (opened_record record) (.named record mem node' named)

end Irx.Debug
