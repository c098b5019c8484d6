import Irx.Lib.Layout

/-!
# C types, their lowering and paths into them

A C type is a tree: pointers end it. `lower` is what a compiler makes of it: one element per member of
a structure, and for a union a structure that keeps one member. A path is a list of member names and
decimal indices; `CType.trace` resolves it to the selections it makes, each a container with a
position, and `offset` sums what they contribute in C, where all members of a union lie at its start.
Members without a name are transparent, and typedefs too.

`gepIndex` is the index of a selection in the lowered type. `walk_eq_offset` is the law that links
the two sides: as long as each union crossed keeps the selected member, the indices have in the
lowered type the offset that the selections have in C.
-/

namespace Irx.Lib

mutual

/-- A C type. -/
inductive CType where
  | basic (name : String) (bits : Nat)
  | pointer
  | typedef (name : String) (ty : CType)
  | struct (name : String) (fields : Fields)
  | union (name : String) (fields : Fields)
  | array (elem : CType) (count : Nat)

/-- The members of a structure or union; the name of an anonymous member is empty. -/
inductive Fields where
  | nil
  | cons (name : String) (ty : CType) (rest : Fields)

end

/-- A type without the typedefs around it. -/
def CType.strip : CType → CType
  | .typedef _ ty => ty.strip
  | ty => ty

/-- The type of the member at a position. -/
def Fields.get? : Fields → Nat → Option CType
  | .nil, _ => none
  | .cons _ ty _, 0 => some ty
  | .cons _ _ rest, i + 1 => rest.get? i

mutual

/-- The type a compiler makes of a C type. -/
def CType.lower (D : DataLayout) : CType → LType
  | .basic _ bits => .scalar bits
  | .pointer => .pointer
  | .typedef _ ty => ty.lower D
  | .struct _ fields => .struct (fields.lower D)
  | .union _ fields => D.unionOf (fields.lower D)
  | .array elem count => .array count (elem.lower D)

/-- The types of the members. -/
def Fields.lower (D : DataLayout) : Fields → List LType
  | .nil => []
  | .cons _ ty rest => ty.lower D :: rest.lower D

end

/-- A selection: a structure, a union or an array, and a position in it. -/
abbrev Selection := CType × Nat

mutual

/-- No union occurs in the type. -/
def CType.unionFree : CType → Bool
  | .basic _ _ => true
  | .pointer => true
  | .typedef _ ty => ty.unionFree
  | .struct _ fields => fields.unionFree
  | .union _ _ => false
  | .array elem _ => elem.unionFree

/-- No union occurs in the members. -/
def Fields.unionFree : Fields → Bool
  | .nil => true
  | .cons _ ty rest => ty.unionFree && rest.unionFree

end

mutual

/-- The selections that lead to the member of a name, and its type. -/
def CType.member? : CType → String → Option (List Selection × CType)
  | .struct name fields, field => fields.member? (.struct name fields) 0 field
  | .union name fields, field => fields.member? (.union name fields) 0 field
  | .basic _ _, _ => none
  | .pointer, _ => none
  | .typedef _ _, _ => none
  | .array _ _, _ => none

/-- The first member of the name from a position on, also inside anonymous members. -/
def Fields.member? : Fields → CType → Nat → String → Option (List Selection × CType)
  | .nil, _, _, _ => none
  | .cons name ty rest, whole, i, field =>
    if name = "" then
      match ty.member? field with
      | some (steps, found) => some ((whole, i) :: steps, found)
      | none => rest.member? whole (i + 1) field
    else if name = field then some ([(whole, i)], ty)
    else rest.member? whole (i + 1) field

end

/-- The value of a decimal numeral. -/
def decimal (digits : List Char) : Nat :=
  digits.foldl (fun n c => 10 * n + (c.toNat - 48)) 0

/-- A path component as an array index: a numeral of decimal digits. -/
def index? (component : String) : Option Nat :=
  if component.toList ≠ [] ∧ component.toList.all Char.isDigit then some (decimal component.toList)
  else none

/-- The selections of one path component. -/
def CType.component? (c : CType) (component : String) : Option (List Selection × CType) :=
  match c.strip with
  | .array elem count =>
    match index? component with
    | none => none
    | some i => if i < count then some ([(.array elem count, i)], elem) else none
  | c => c.member? component

/-- The selections of a valid path, and the type it ends at. -/
def CType.trace : CType → List String → Option (List Selection × CType)
  | c, [] => some ([], c)
  | c, component :: path =>
    match c.component? component with
    | none => none
    | some (steps, next) =>
      match next.trace path with
      | none => none
      | some (later, found) => some (steps ++ later, found)

/-- What a selection adds to the offset in C. -/
def contribution (D : DataLayout) : Selection → Nat
  | (.struct _ fields, i) => D.elementOffset (fields.lower D) i
  | (.array elem _, i) => i * D.allocSize (elem.lower D)
  | _ => 0

/-- The offset of a path in C: the sum over its selections. -/
def offset (D : DataLayout) (steps : List Selection) : Nat := (steps.map (contribution D)).sum

/-- The index of a selection in the lowered type. -/
def gepIndex : Selection → Nat
  | (.union _ _, _) => 0
  | (_, i) => i

/-- The type at a position of a container. -/
def child? : Selection → Option CType
  | (.struct _ fields, i) => fields.get? i
  | (.union _ fields, i) => fields.get? i
  | (.array elem count, i) => if i < count then some elem else none
  | _ => none

/-- A chain of selections from one type to another. -/
inductive Along : CType → List Selection → CType → Prop where
  | nil (c) : Along c [] c
  | cons {c whole i next steps found} :
    c.strip = whole → child? (whole, i) = some next → Along next steps found →
    Along c ((whole, i) :: steps) found

/-- A selection in a union selects the member that is kept. -/
def KeepsSelected (D : DataLayout) : Selection → Prop
  | (.union _ fields, i) => ∃ ty, fields.get? i = some ty ∧
      D.kept (fields.lower D) = some (ty.lower D)
  | _ => True

variable {D : DataLayout} {c found next : CType} {steps later : List Selection}

/-- Typedefs and qualifiers are lowered to nothing. -/
@[simp] lemma CType.lower_strip (c : CType) : c.strip.lower D = c.lower D := by
  cases c with
  | typedef name ty => exact CType.lower_strip ty
  | basic => rfl
  | pointer => rfl
  | struct => rfl
  | union => rfl
  | array => rfl

/-- The fields are lowered one by one. -/
lemma Fields.lower_getElem? (fields : Fields) (i : Nat) :
    (fields.lower D)[i]? = (fields.get? i).map (CType.lower D) := by
  induction i generalizing fields with
  | zero =>
    cases fields with
    | nil => rfl
    | cons => rfl
  | succ i ih =>
    cases fields with
    | nil => rfl
    | cons name ty rest => exact ih rest

/-- A way, and a way from its end. -/
lemma Along.append (first : Along c steps next) (second : Along next later found) :
    Along c (steps ++ later) found := by
  induction first with
  | nil => exact second
  | cons strip child _ ih => exact .cons strip child (ih second)

/-- Members are looked up in a type without typedefs. -/
lemma CType.strip_of_member? {field : String} {result : List Selection × CType}
    (e : c.member? field = some result) : c.strip = c := by
  cases c with
  | typedef => cases e
  | basic => rfl
  | pointer => rfl
  | struct => rfl
  | union => rfl
  | array => rfl

mutual

/-- The way to a member is a chain, also from a typedef of the type. -/
lemma CType.member?_along : ∀ (c : CType) {c0 : CType} {field : String} {steps : List Selection}
    {found : CType}, c0.strip = c → c.member? field = some (steps, found) → Along c0 steps found
  | .struct name fields, _, _, _, _, strip, e =>
    fields.member?_along strip (fun i => by rw [Nat.zero_add]; rfl) e
  | .union name fields, _, _, _, _, strip, e =>
    fields.member?_along strip (fun i => by rw [Nat.zero_add]; rfl) e
  | .basic _ _, _, _, _, _, _, e => nomatch e
  | .pointer, _, _, _, _, _, e => nomatch e
  | .typedef _ _, _, _, _, _, _, e => nomatch e
  | .array _ _, _, _, _, _, _, e => nomatch e

/-- The way to a member leads along the type. -/
lemma Fields.member?_along : ∀ (fields : Fields) {whole c0 : CType} {k : Nat} {field : String}
    {steps : List Selection} {found : CType},
    c0.strip = whole → (∀ i, child? (whole, k + i) = fields.get? i) →
    fields.member? whole k field = some (steps, found) → Along c0 steps found
  | .nil, _, _, _, _, _, _, _, _, e => nomatch e
  | .cons name ty rest, whole, c0, k, field, steps, found, strip, child, e => by
    have later : ∀ i, child? (whole, k + 1 + i) = rest.get? i := by
      intro i
      rw [Nat.add_assoc, Nat.add_comm 1 i]
      exact child (i + 1)
    rw [Fields.member?] at e
    split at e
    · cases sub : ty.member? field with
      | none =>
        rw [sub] at e
        exact rest.member?_along strip later e
      | some result =>
        rw [sub] at e
        cases e
        exact .cons strip (child 0) (ty.member?_along (CType.strip_of_member? sub) sub)
    · split at e
      · cases e
        exact .cons strip (child 0) (.nil ty)
      · exact rest.member?_along strip later e

end

/-- Steps into an array: the component is an index below the bound. -/
lemma CType.component?_array {elem : CType} {count : Nat} {component : String}
    (array : c.strip = .array elem count)
    (e : c.component? component = some (steps, found)) :
    ∃ i, index? component = some i ∧ i < count ∧ steps = [(.array elem count, i)] ∧
      found = elem := by
  rw [CType.component?, array] at e
  cases index : index? component with
  | none =>
    simp only [index] at e
    cases e
  | some i =>
    simp only [index] at e
    split at e
    case isTrue lt =>
      cases e
      exact ⟨i, rfl, lt, rfl, rfl⟩
    case isFalse => cases e

/-- Steps into anything else: the component is the name of a member. -/
lemma CType.component?_member {component : String}
    (noArray : ∀ elem count, c.strip ≠ .array elem count) :
    c.component? component = c.strip.member? component := by
  rw [CType.component?]
  cases h : c.strip with
  | array elem count => exact absurd h (noArray elem count)
  | basic => rfl
  | pointer => rfl
  | typedef => rfl
  | struct => rfl
  | union => rfl

/-- The way of one path component is a chain. -/
lemma CType.component?_along {component : String}
    (e : c.component? component = some (steps, found)) : Along c steps found := by
  by_cases array : ∃ elem count, c.strip = .array elem count
  case pos =>
    obtain ⟨elem, count, strip⟩ := array
    obtain ⟨i, _, lt, rfl, rfl⟩ := CType.component?_array strip e
    exact .cons strip (if_pos lt) (.nil _)
  case neg =>
    rw [CType.component?_member fun elem count strip => array ⟨elem, count, strip⟩] at e
    exact c.strip.member?_along rfl e

/-- The way of a path leads along the type. -/
lemma CType.trace_along {path : List String} (e : c.trace path = some (steps, found)) :
    Along c steps found := by
  induction path generalizing c steps with
  | nil =>
    cases e
    exact .nil _
  | cons component path ih =>
    rw [CType.trace] at e
    cases first : c.component? component with
    | none =>
      rw [first] at e
      cases e
    | some result =>
      obtain ⟨steps1, next⟩ := result
      simp only [first] at e
      cases second : next.trace path with
      | none =>
        simp only [second] at e
        cases e
      | some result =>
        obtain ⟨later, _⟩ := result
        simp only [second] at e
        cases e
        exact (CType.component?_along first).append (ih second)

/-- A child of an array is an item of it. -/
lemma child?_array {elem : CType} {count i : Nat} (child : child? (.array elem count, i) = some next) :
    i < count ∧ elem = next := by
  rw [child?] at child
  split at child
  case isTrue lt => exact ⟨lt, Option.some.inj child⟩
  case isFalse => cases child

/-- A selection outside unions has one index and adds its contribution on both sides. -/
lemma walk_cons {whole : CType} {i : Nat} {is : List Nat} (child : child? (whole, i) = some next)
    (noUnion : ∀ name fields, whole ≠ .union name fields) :
    walk D (whole.lower D) (gepIndex (whole, i) :: is) =
      (walk D (next.lower D) is).map (contribution D (whole, i) + ·) := by
  cases whole with
  | struct name fields =>
    have elem : (fields.lower D)[i]? = some (next.lower D) := by
      rw [Fields.lower_getElem?]
      exact congrArg _ child
    exact walk_struct elem
  | union name fields => exact absurd rfl (noUnion name fields)
  | array elem count =>
    obtain ⟨_, rfl⟩ := child?_array child
    rfl
  | basic => cases child
  | pointer => cases child
  | typedef => cases child

/-- The law of indices: along selections that unions keep, the indices have in the lowered type the
offset that the selections have in C. -/
lemma walk_eq_offset (along : Along c steps found) (keeps : ∀ sel ∈ steps, KeepsSelected D sel) :
    walk D (c.lower D) (steps.map gepIndex) = some (offset D steps) := by
  induction along with
  | nil => exact walk_nil
  | @cons c whole i next steps found strip child _ ih =>
    have rest := ih fun sel mem => keeps sel (.tail _ mem)
    rw [← CType.lower_strip, strip, List.map_cons, offset, List.map_cons, List.sum_cons]
    by_cases crossed : ∃ name fields, whole = .union name fields
    case pos =>
      obtain ⟨name, fields, rfl⟩ := crossed
      obtain ⟨ty, selected, kept⟩ := keeps _ (.head _)
      cases selected.symm.trans child
      refine (walk_unionOf kept).trans (rest.trans ?_)
      exact congrArg some (Nat.zero_add _).symm
    case neg =>
      rw [walk_cons child fun name fields e => crossed ⟨name, fields, e⟩, rest]
      rfl

/-- The fields of a type without unions have none. -/
lemma Fields.unionFree_get? {fields : Fields} {i : Nat} (free : fields.unionFree = true)
    (e : fields.get? i = some c) : c.unionFree = true := by
  induction i generalizing fields with
  | zero =>
    cases fields with
    | nil => cases e
    | cons name ty rest =>
      cases e
      exact (Bool.and_eq_true_iff.1 free).1
  | succ i ih =>
    cases fields with
    | nil => cases e
    | cons name ty rest => exact ih (Bool.and_eq_true_iff.1 free).2 e

/-- Typedefs and qualifiers contain no union. -/
lemma CType.unionFree_strip (c : CType) : c.strip.unionFree = c.unionFree := by
  cases c with
  | typedef name ty => exact CType.unionFree_strip ty
  | basic => rfl
  | pointer => rfl
  | struct => rfl
  | union => rfl
  | array => rfl

/-- In a union-free type no selection is in a union. -/
lemma Along.keeps_of_unionFree (along : Along c steps found) (free : c.unionFree = true) :
    ∀ sel ∈ steps, KeepsSelected D sel := by
  induction along with
  | nil => exact nofun
  | @cons c whole i next steps found strip child _ ih =>
    have free' : whole.unionFree = true := by rw [← strip, CType.unionFree_strip, free]
    have below : next.unionFree = true := by
      cases whole with
      | struct name fields => exact Fields.unionFree_get? free' child
      | union => cases free'
      | array elem count =>
        obtain ⟨_, rfl⟩ := child?_array child
        exact free'
      | basic => cases child
      | pointer => cases child
      | typedef => cases child
    intro sel mem
    rcases List.mem_cons.1 mem with rfl | later
    · cases whole with
      | union => cases free'
      | struct => trivial
      | array => trivial
      | basic => trivial
      | pointer => trivial
      | typedef => trivial
    · exact ih below sel later

end Irx.Lib
