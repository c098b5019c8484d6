import Irx.Debug.Agree

/-!
# Where C puts the fields

The bytes of a structure that a valid path names: a member stands at its offset, an element or a row of an
array behind those before it, each with the size that it has in C. `NamesAt` collects the steps of a path,
the offsets of which add up; it goes along the same paths as `Leads` (`namesAt_iff`).
-/

namespace Irx.Debug
open Irx.Lib

/-- A step into a composite type: the index that LLVM has for the part, and its offset in bits in C. -/
structure Step where
  container : Nat
  index : Nat
  offset : Nat

/-- The offsets of the steps are added. -/
def bitOffset (steps : List Step) : Nat := (steps.map Step.offset).sum

/-- The indices of the steps with the offsets that are meant. -/
def way (steps : List Step) : List (Nat × Nat) := steps.map fun s => (s.index, s.offset)

section Places

variable (g : DebugInfo) (bounds : Nat → List Nat) (offset : Nat → Nat)

/-- The step to a member behind these elements. -/
def memberStep (c m : Nat) (front : List DINode) : Step := ⟨c, position (g.node c).getTag front, offset m⟩

/-- The member `x` of the name in the type `c`, by a step for each member without a name around it. -/
inductive MemberAt (field : String) : Nat → Nat → List Step → Prop where
  | named {c x bits base front back} :
    isRecord g c → (g.node c).elements = front ++ .type x :: back →
    g.node x = .derived .member field bits base → field ≠ "" →
    MemberAt field c x [memberStep g offset c x front]
  | inside {c m bits b n x front back steps} :
    isRecord g c → (g.node c).elements = front ++ .type m :: back →
    g.node m = .derived .member "" bits (some b) → bare g b = some n → MemberAt field n x steps →
    MemberAt field c x (memberStep g offset c m front :: steps)

/-- The size in bits of what is left of an array whose first dimensions have their index. -/
def rowBits (a b used : Nat) : Nat := ((bounds a).drop used).prod * bitsOf g b

/-- The step to the part of an array with the index. -/
def indexStep (a b used i : Nat) : Step := ⟨a, i, i * rowBits g bounds a b (used + 1)⟩

/-- What a component selects, with the steps to it and its size in bits. -/
inductive SelectsAt : Place → String → Place → List Step → Nat → Prop where
  | member {n c x name bits b field steps} :
    bare g n = some c → MemberAt g offset field c x steps →
    g.node x = .derived .member name bits (some b) → SelectsAt ⟨n, 0⟩ field ⟨b, 0⟩ steps bits
  | row {n a name bits b elements used bound component i} :
    bare g n = some a → g.node a = .composite .arrayType name bits (some b) elements →
    (bounds a)[used]? = some bound → index? component = some i → i < bound →
    used + 1 < (bounds a).length →
    SelectsAt ⟨n, used⟩ component ⟨a, used + 1⟩ [indexStep g bounds a b used i]
      (rowBits g bounds a b (used + 1))
  | element {n a name bits b elements used bound component i} :
    bare g n = some a → g.node a = .composite .arrayType name bits (some b) elements →
    (bounds a)[used]? = some bound → index? component = some i → i < bound →
    used + 1 = (bounds a).length →
    SelectsAt ⟨n, used⟩ component ⟨b, 0⟩ [indexStep g bounds a b used i] (bitsOf g b)

/-- The steps to what a path names, and its size in bits. -/
inductive NamesAt : Place → List String → List Step → Nat → Prop where
  | last {p q component steps bits} :
    SelectsAt g bounds offset p component q steps bits → NamesAt p [component] steps bits
  | cons {p q component path steps steps' bits bits'} :
    SelectsAt g bounds offset p component q steps bits' → NamesAt q path steps' bits →
    NamesAt p (component :: path) (steps ++ steps') bits

/-- The byte of the structure `c` holds a bit of what the path names. -/
def InField (c : Nat) (path : List String) (x : Nat) : Prop :=
  ∃ steps bits, NamesAt g bounds offset ⟨c, 0⟩ path steps bits ∧ bitOffset steps < 8 * (x + 1) ∧
    8 * x < bitOffset steps + bits

/-- What C promises of its layout: members lie in their structures, elements in their arrays. -/
structure CLayout : Prop where
  member : ∀ c x name bits base, isRecord g c → .type x ∈ (g.node c).elements →
    g.node x = .derived .member name bits base → offset x + bits ≤ (g.node c).sizeInBits
  field : ∀ x name bits b k, g.node x = .derived .member name bits (some b) → bare g b = some k →
    isComposite g k → (g.node k).sizeInBits ≤ bits
  array : ∀ a name bits b elements, g.node a = .composite .arrayType name bits (some b) elements →
    rowBits g bounds a b 0 ≤ bits

/-- How C types declare their members. -/
structure Declared : Prop where
  /-- A member is listed once. -/
  listed : ∀ c front m back, (g.node c).elements = front ++ .type m :: back → .type m ∉ front
  /-- It is reached by one element of a type. -/
  once : ∀ c field m m' x, .type m ∈ (g.node c).elements → .type m' ∈ (g.node c).elements →
    Via g (bare g) field m x → Via g (bare g) field m' x → m = m'
  /-- No name of a member is a number. -/
  name : ∀ x field bits base, g.node x = .derived .member field bits base → index? field = none

end Places

variable {g : DebugInfo} {bounds : Nat → List Nat} {offset : Nat → Nat} {field component : String}
variable {a b c m n x bits size used : Nat} {p q : Place} {path : List String} {steps : List Step}

/-- No step leads nowhere else. -/
@[simp] lemma bitOffset_nil : bitOffset [] = 0 := rfl

/-- A step more adds its offset. -/
@[simp] lemma bitOffset_cons (s : Step) : bitOffset (s :: steps) = s.offset + bitOffset steps :=
  List.sum_cons

/-- The offsets of the parts of a way add up. -/
lemma bitOffset_append (front back : List Step) :
    bitOffset (front ++ back) = bitOffset front + bitOffset back := by
  rw [bitOffset, List.map_append, List.sum_append]
  rfl

/-- A step to a member has the offset of the member. -/
@[simp] lemma memberStep_offset (front : List DINode) : (memberStep g offset c m front).offset = offset m :=
  rfl

/-- A step to an item leads over the rows before it. -/
@[simp] lemma indexStep_offset (i : Nat) :
    (indexStep g bounds a b used i).offset = i * rowBits g bounds a b (used + 1) := rfl

/-- The element is listed. -/
lemma mem_elements {front back : List DINode} (e : (g.node c).elements = front ++ .type m :: back) :
    .type m ∈ (g.node c).elements := by
  rw [e]
  exact List.mem_append_right _ (.head _)

/-! ### Fields and valid paths -/

/-- Steps to a member lead to one. -/
lemma MemberAt.hasMember (at_ : MemberAt g offset field c x steps) : HasMember g (bare g) field c x := by
  induction at_ with
  | named record listed node named => exact .named record (mem_elements listed) node named
  | inside record listed node entered _ ih => exact .inside record (mem_elements listed) node entered ih

/-- There are steps to every member. -/
lemma HasMember.memberAt (has : HasMember g (bare g) field c x) :
    ∃ steps, MemberAt g offset field c x steps := by
  induction has with
  | named record mem node named =>
    obtain ⟨front, back, listed⟩ := List.append_of_mem mem
    exact ⟨_, .named record listed node named⟩
  | inside record mem node entered _ ih =>
    obtain ⟨steps, at_⟩ := ih
    obtain ⟨front, back, listed⟩ := List.append_of_mem mem
    exact ⟨_, .inside record listed node entered at_⟩

/-- What is selected with steps is selected. -/
lemma SelectsAt.selects (selects : SelectsAt g bounds offset p component q steps bits) :
    Selects g bounds p component q := by
  cases selects with
  | member e at_ node => exact .member e at_.hasMember node
  | row e node dimension numeral lt more => exact .row e node dimension numeral lt more
  | element e node dimension numeral lt last => exact .element e node dimension numeral lt last

/-- There are steps to everything that is selected. -/
lemma Selects.selectsAt (offset : Nat → Nat) (ctypes : CTypes g bounds)
    (selects : Selects g bounds p component q) :
    ∃ steps bits, SelectsAt g bounds offset p component q steps bits := by
  cases selects with
  | member e has node =>
    obtain ⟨steps, at_⟩ := has.memberAt
    exact ⟨_, _, .member e at_ node⟩
  | row e node dimension numeral lt more =>
    obtain ⟨_, b, _, rfl, _⟩ := ctypes.array _ _ _ _ _ node
    exact ⟨_, _, .row e node dimension numeral lt more⟩
  | element e node dimension numeral lt last =>
    exact ⟨_, _, .element e node dimension numeral lt last⟩

/-- A path names something exactly if it is valid. -/
lemma namesAt_iff (ctypes : CTypes g bounds) (more : path ≠ []) :
    (∃ steps bits, NamesAt g bounds offset p path steps bits) ↔ Valid g bounds p path := by
  induction path generalizing p with
  | nil => exact absurd rfl more
  | cons component path ih =>
    rw [valid_cons]
    constructor
    · rintro ⟨steps, bits, names⟩
      cases names with
      | last selects => exact ⟨_, selects.selects, valid_nil⟩
      | cons selects rest =>
        refine ⟨_, selects.selects, (ih ?_).1 ⟨_, _, rest⟩⟩
        cases rest with
        | last => exact nofun
        | cons => exact nofun
    · rintro ⟨q, selects, valid⟩
      obtain ⟨steps, bits, at_⟩ := selects.selectsAt offset ctypes
      cases path with
      | nil => exact ⟨_, _, .last at_⟩
      | cons next path =>
        obtain ⟨steps', bits', rest⟩ := (ih nofun).2 valid
        exact ⟨_, _, .cons at_ rest⟩

/-! ### Fields lie in the structure -/

/-- The size in bits of a place. -/
def placeBits (g : DebugInfo) (bounds : Nat → List Nat) (p : Place) : Nat :=
  if p.used = 0 then bitsOf g p.type
  else
    match bare g p.type with
    | none => 0
    | some a =>
      match g.node a with
      | .composite _ _ _ (some b) _ => rowBits g bounds a b p.used
      | _ => 0

/-- The size of a type is that of what it names. -/
lemma bitsOf_bare {k : Nat} (e : bare g n = some k) : bitsOf g n = (g.node k).sizeInBits := by
  rw [bitsOf, e]
  rfl

/-- A member ends before its structure does. -/
lemma MemberAt.fits (layout : CLayout g bounds offset) (at_ : MemberAt g offset field c x steps)
    {name : String} {base : Option Nat} (node : g.node x = .derived .member name bits base) :
    bitOffset steps + bits ≤ (g.node c).sizeInBits := by
  induction at_ with
  | named record listed =>
    rw [bitOffset_cons, bitOffset_nil, Nat.add_zero]
    exact layout.member _ _ _ _ _ record (mem_elements listed) node
  | inside record listed node' entered at_ ih =>
    have outer := layout.member _ _ _ _ _ record (mem_elements listed) node'
    have inner := layout.field _ _ _ _ _ node' entered (isRecord_composite at_.hasMember.record)
    have := ih node
    rw [bitOffset_cons, memberStep_offset]
    omega

/-- The rows of a dimension fill what is left of the array. -/
lemma rowBits_succ {bound : Nat} (dimension : (bounds a)[used]? = some bound) :
    rowBits g bounds a b used = bound * rowBits g bounds a b (used + 1) := by
  obtain ⟨lt, rfl⟩ := List.getElem?_eq_some_iff.1 dimension
  rw [rowBits, rowBits, List.drop_eq_getElem_cons lt, List.prod_cons, Nat.mul_assoc]

/-- Behind the last dimension is the element type. -/
lemma rowBits_last (last : used = (bounds a).length) : rowBits g bounds a b used = bitsOf g b := by
  rw [rowBits, last, List.drop_length, List.prod_nil, Nat.one_mul]

/-- An array has room for its rows. -/
lemma rowBits_le (layout : CLayout g bounds offset) (e : bare g n = some a) {name : String}
    {elements : List DINode} (node : g.node a = .composite .arrayType name size (some b) elements) :
    rowBits g bounds a b used ≤ placeBits g bounds ⟨n, used⟩ := by
  rw [placeBits]
  split
  case isTrue first =>
    cases first
    rw [bitsOf_bare e, node]
    exact layout.array _ _ _ _ _ node
  case isFalse =>
    simp only [e, node]
    exact le_rfl

/-- What a component selects lies in its place. -/
lemma SelectsAt.fits (layout : CLayout g bounds offset)
    (selects : SelectsAt g bounds offset p component q steps bits) :
    bitOffset steps + bits ≤ placeBits g bounds p := by
  cases selects with
  | @member n c x name bits b field steps e at_ node =>
    show bitOffset steps + bits ≤ bitsOf g n
    rw [bitsOf_bare e]
    exact at_.fits layout node
  | row e node dimension _ lt _ =>
    rw [bitOffset_cons, bitOffset_nil, Nat.add_zero, indexStep_offset]
    apply le_trans (part_end _ lt)
    rw [← rowBits_succ dimension]
    exact rowBits_le layout e node
  | element e node dimension _ lt last =>
    rw [← rowBits_last last, bitOffset_cons, bitOffset_nil, Nat.add_zero, indexStep_offset]
    apply le_trans (part_end _ lt)
    rw [← rowBits_succ dimension]
    exact rowBits_le layout e node

/-- A place that a component goes on from is no larger than what was selected. -/
lemma SelectsAt.place_le (layout : CLayout g bounds offset)
    (selects : SelectsAt g bounds offset p component q steps bits) {next : String} {q' : Place}
    (onward : Selects g bounds q next q') : placeBits g bounds q ≤ bits := by
  cases selects with
  | @member n c x name bits b field steps _ _ node =>
    show bitsOf g b ≤ bits
    obtain ⟨k, e, composite⟩ : ∃ k, bare g b = some k ∧ isComposite g k := by
      cases onward with
      | member e has => exact ⟨_, e, isRecord_composite has.record⟩
      | row e node' => exact ⟨_, e, by rw [isComposite, node']⟩
      | element e node' => exact ⟨_, e, by rw [isComposite, node']⟩
    rw [bitsOf_bare e]
    exact layout.field _ _ _ _ _ node e composite
  | @row n a name size b elements used bound component i e node =>
    have own : bare g a = some a := bare_node node
    rw [placeBits, if_neg (Nat.succ_ne_zero used)]
    simp only [own, node]
    exact le_rfl
  | element => exact le_rfl

/-- What a path names lies in the place it starts from. -/
lemma NamesAt.fits (layout : CLayout g bounds offset) (names : NamesAt g bounds offset p path steps bits) :
    bitOffset steps + bits ≤ placeBits g bounds p := by
  induction names with
  | last selects => exact selects.fits layout
  | @cons p q component path steps steps' bits bits' selects rest ih =>
    have outer := selects.fits layout
    have inner : placeBits g bounds q ≤ bits' := by
      cases rest with
      | last next => exact selects.place_le layout next.selects
      | cons next => exact selects.place_le layout next.selects
    rw [bitOffset_append]
    omega

/-- A byte of a field is a byte of the structure. -/
lemma InField.lt (layout : CLayout g bounds offset) (held : InField g bounds offset c path x)
    (whole : bitsOf g c ≤ 8 * size) : x < size := by
  obtain ⟨steps, bits, names, _, high⟩ := held
  have le : bitOffset steps + bits ≤ bitsOf g c := names.fits layout
  omega

end Irx.Debug
