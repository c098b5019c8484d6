import Irx.Debug.Labels
import Irx.Generator.Classes
import Irx.Generator.Fields

/-!
# The names in the file

The lines of the file have the names of debug types in them, and pointers, arrays and some structures have
none; the names of basic types may be several words. A line is valid if all its names are identifiers. This
is so if and only if the types that are printed have such names wherever a line mentions one
(`identifiers_iff`).
-/

namespace Irx.Generator
open Irx.Lib Irx.Debug Relation

/-- The keywords of Python. -/
def keywords : List String :=
  ["False", "None", "True", "and", "as", "assert", "async", "await", "break", "class", "continue", "def",
    "del", "elif", "else", "except", "finally", "for", "from", "global", "if", "import", "in", "is",
    "lambda", "nonlocal", "not", "or", "pass", "raise", "return", "try", "while", "with", "yield"]

/-- An identifier of Python, of ASCII characters. -/
def isIdentifier (name : String) : Bool :=
  match name.toList with
  | [] => false
  | c :: cs => (c.isAlpha || c = '_') && cs.all (fun c => c.isAlphanum || c = '_') && name ∉ keywords

/-- The types that an annotation and a default name. -/
def Value.names : Value → List String
  | .primitive type => [type]
  | .embedded cls => [cls]
  | .string _ => []
  | .list cls _ => [cls]
  | .pointer cls => [cls]

/-- The names in a line. -/
def Line.names : Line → List String
  | .dataclass name => [name]
  | .alias name value => [name, value]
  | .field name value => name :: value.names

/-- The line is a line of Python. -/
def Line.Valid (line : Line) : Prop := ∀ name ∈ line.names, isIdentifier name

instance (line : Line) : Decidable line.Valid := List.decidableBAll _ _

section Mentions

variable (g : DebugInfo)

/-- Only a `DIBasicType` has the tag of a basic type. -/
def BasicTypes : Prop := ∀ n, (g.node n).getTag = .baseType → ∃ name bits, g.node n = .basic name bits

/-- A field of the type is written, and names another type or none. -/
inductive Mentions (r : Nat) : Option Nat → Prop where
  | basic : (g.node r).getTag = .baseType → Mentions r none
  | primitive {name bits base A B} : g.node r = .derived .typedef name bits base → resolve g base = some A →
    toBasicType g (some A) = .ok (some B) → Mentions r none
  | typedef {name bits base A} : g.node r = .derived .typedef name bits base → resolve g base = some A →
    toBasicType g (some A) = .ok none → Mentions r (some r)
  | record : IsRecord g r → getName g r ≠ "" → Mentions r (some r)
  | string {name bits base elements p e} : g.node r = .composite .arrayType name bits base elements →
    resolve g base = some p → arrayElement g p = .ok e → getName g e = "char" → Mentions r none
  | list {name bits base elements p e} : g.node r = .composite .arrayType name bits base elements →
    resolve g base = some p → arrayElement g p = .ok e → getName g e ≠ "char" → Mentions r (some e)
  | pointer {name bits base p} : g.node r = .derived .pointerType name bits base →
    resolve g base = some p → Mentions r (some p)

/-- In a class, the printer goes on from a type to its members, and to a structure without a name. -/
inductive Inside : Nat → Nat → Prop where
  | element {n tag name bits base elements m tag' name' bits' base'} :
    g.node n = .composite tag name bits base elements → (resolve g (some n)).isSome →
    .type m ∈ elements → g.node m = .derived tag' name' bits' base' → Inside n m
  | unnamed {n r} : isComposite g n = false → resolve g (some n) = some r → Unnamed g r → Inside n r

/-- The class of a type has the fields of the type, or of the type without a name that a typedef stands
for. -/
inductive Body (n : Nat) : Nat → Prop where
  | record : IsRecord g n → Body n n
  | typedef {name bits base A} : g.node n = .derived .typedef name bits base → resolve g base = some A →
    getName g A = "" → Body n A

/-- The typedef is written as an alias with the name of the type. -/
def Aliases (n A : Nat) : Prop :=
  ∃ name bits base, g.node n = .derived .typedef name bits base ∧ resolve g base = some A ∧
    getName g A ≠ "" ∧ toBasicType g (some A) = .ok none

/-- The field that is written for the node, if any, has an identifier and mentions a type that has one. -/
def Identified (x : Nat) : Prop :=
  ∀ r t, isComposite g x = false → resolve g (some x) = some r → ¬ Unnamed g r → Mentions g r t →
    isIdentifier (getName g x) ∧ ∀ m ∈ t, isIdentifier (getName g m)

/-- The class or alias of the type can be written. -/
structure Writable (n : Nat) : Prop where
  own : IsClass g n → isIdentifier (getName g n)
  target : ∀ A, Aliases g n A → isIdentifier (getName g A)
  fields : ∀ S x, Body g n S → ReflTransGen (Inside g) S x → Identified g x

end Mentions

variable {g : DebugInfo} {n m r depth : Nat} {ctx : GeneratorStruct} {lines : List Line} {line : Line}
  {name cls : String} {types : List Nat} {structTypes : List String}

/-! ### Names of Python types -/

/-- A word that begins with a letter and is no keyword is an identifier. -/
lemma identifier_of {c : Char} {cs : List Char} (e : name.toList = c :: cs) (letter : c.isAlpha)
    (rest : ∀ d ∈ cs, d.isAlphanum) (other : name ∉ keywords) : isIdentifier name := by
  have all : cs.all (fun d => d.isAlphanum || d = '_') := by
    apply List.all_eq_true.2
    intro d mem
    rw [rest d mem, Bool.true_or]
  rw [isIdentifier, e]
  show (c.isAlpha || decide (c = '_')) && cs.all (fun d => d.isAlphanum || d = '_') &&
    decide (name ∉ keywords)
  rw [letter, all, decide_eq_true other]
  rfl

/-- `Int32`, `UInt8` and the like are identifiers. -/
lemma toPythonType_identifier {bits : Nat} (node : g.node n = .basic name bits) :
    isIdentifier (toPythonType g n) := by
  have first : ∀ word ∈ keywords, word.toList.head? ≠ some 'I' ∧ word.toList.head? ≠ some 'U' := by decide
  have digits : ∀ c ∈ (toString bits).toList, c.isAlphanum := by
    intro c mem
    have digit : c.isDigit := by
      apply Nat.isDigit_of_mem_toDigits (b := 10) (n := bits) (by decide) (by decide)
      simpa [Nat.toString_eq_repr, Nat.repr] using mem
    rw [Char.isAlphanum, digit, Bool.or_true]
  have letters : ∀ c, c = 'U' ∨ c = 'I' ∨ c = 'n' ∨ c = 't' → c.isAlphanum := by
    rintro c (rfl | rfl | rfl | rfl) <;> rfl
  simp only [toPythonType, node]
  split
  · have e : ("U" ++ "Int" ++ toString bits).toList =
        'U' :: (['I', 'n', 't'] ++ (toString bits).toList) := by
      simp
    apply identifier_of e rfl
    · intro c mem
      rcases List.mem_append.1 mem with mem | mem
      · apply letters
        exact .inr (by simpa using mem)
      · exact digits c mem
    · intro mem
      apply (first _ mem).2
      rw [e]
      rfl
  · have e : ("" ++ "Int" ++ toString bits).toList = 'I' :: (['n', 't'] ++ (toString bits).toList) := by
      simp
    apply identifier_of e rfl
    · intro c mem
      rcases List.mem_append.1 mem with mem | mem
      · apply letters
        exact .inr (.inr (by simpa using mem))
      · exact digits c mem
    · intro mem
      apply (first _ mem).1
      rw [e]
      rfl

/-! ### The names of a field -/

/-- The node decides what is mentioned. -/
lemma Mentions.unique {t t' : Option Nat} (one : Mentions g r t) (other : Mentions g r t') : t = t' := by
  cases one <;> cases other
  all_goals first
    | rfl
    | simp_all [IsRecord, DIType.getTag]

/-- A typedef, an array or a pointer that leads to no type mentions none. -/
lemma not_mentions {t : Option Nat} (plain : ¬ IsRecord g r) (other : (g.node r).getTag ≠ .baseType)
    (unresolved : resolve g (DIType.getBaseType (g.node r)) = none) : ¬ Mentions g r t := by
  have none : ∀ base p, DIType.getBaseType (g.node r) = base → resolve g base ≠ some p := by
    rintro _ p rfl resolved
    cases unresolved.symm.trans resolved
  intro mentions
  cases mentions with
  | basic tag => exact other tag
  | record record => exact plain record
  | primitive node resolved => exact none _ _ (by rw [node, DIType.getBaseType]) resolved
  | typedef node resolved => exact none _ _ (by rw [node, DIType.getBaseType]) resolved
  | string node resolved => exact none _ _ (by rw [node, DIType.getBaseType]) resolved
  | list node resolved => exact none _ _ (by rw [node, DIType.getBaseType]) resolved
  | pointer node resolved => exact none _ _ (by rw [node, DIType.getBaseType]) resolved

/-- What is printed for a resolved type in a class: nothing, or a field that names what it mentions. -/
inductive Shown (g : DebugInfo) (name : String) (r : Nat) : List Line → Prop where
  | nothing : (∀ t, ¬ Mentions g r t) → Shown g name r []
  | field {v t} : Mentions g r t →
    ((∀ ref ∈ v.names, isIdentifier ref) ↔ ∀ m ∈ t, isIdentifier (getName g m)) →
    Shown g name r [.field name v]

/-- What is shown for a field is valid if the names in it are identifiers. -/
lemma Shown.valid_iff (shown : Shown g name r lines) : (∀ line ∈ lines, line.Valid) ↔
    ∀ t, Mentions g r t → isIdentifier name ∧ ∀ m ∈ t, isIdentifier (getName g m) := by
  cases shown with
  | nothing none => simpa using fun t mentions => absurd mentions (none t)
  | @field v t mentions same =>
    have valid : (∀ line ∈ [Line.field name v], line.Valid) ↔
        isIdentifier name ∧ ∀ ref ∈ v.names, isIdentifier ref := by
      rw [List.forall_mem_singleton, Line.Valid, Line.names, List.forall_mem_cons]
    rw [valid, same]
    refine ⟨fun holds t' mentions' => ?_, fun holds => holds t mentions⟩
    obtain rfl := mentions.unique mentions'
    exact holds

/-- An embedded type is shown by its basic type, or by its own name. -/
lemma shown_embedded {A : Nat} (e : embeddedField g name A (getName g r) = .ok lines)
    (primitive : ∀ B, toBasicType g (some A) = .ok (some B) → Mentions g r none)
    (embedded : toBasicType g (some A) = .ok none → Mentions g r (some r)) : Shown g name r lines := by
  rw [embeddedField] at e
  obtain ⟨BTy, below, e⟩ := bind_eq_ok.1 e
  cases BTy with
  | some B =>
    cases e
    obtain ⟨name, bits, node⟩ := toBasicTypeLoop_basic below
    apply Shown.field (primitive B below)
    simpa [Value.names] using toPythonType_identifier node
  | none =>
    cases e
    apply Shown.field (embedded below)
    simp [Value.names]

/-- An array is shown by its element type. -/
lemma shown_array {bits : Nat} {base : Option Nat} {elements : List DINode} {field : String}
    (node : g.node r = .composite .arrayType name bits base elements)
    (e : printArray g field r base = .ok lines) : Shown g field r lines := by
  rw [printArray] at e
  cases resolved : resolve g base with
  | none =>
    rw [resolved] at e
    cases e
    apply Shown.nothing
    intro t
    apply not_mentions
    · simp [IsRecord, node, DIType.getTag]
    · simp [node, DIType.getTag]
    · rw [node]
      exact resolved
  | some p =>
    rw [resolved] at e
    obtain ⟨k, element, e⟩ := bind_eq_ok.1 e
    split at e
    · cases e
    split at e
    case isTrue char =>
      cases e
      apply Shown.field (.string node resolved element char)
      simp [Value.names]
    case isFalse other =>
      cases e
      apply Shown.field (.list node resolved element other)
      simp [Value.names]

/-- A structure or union is shown by its name. -/
lemma shown_record {field : String} {print : Nat → Bool → Except Abort (List Line)}
    (record : IsRecord g r) (other : ¬ Unnamed g r)
    (e : printResolved g print field r false = .ok lines) : Shown g field r lines := by
  have named : getName g r ≠ "" := fun blank => other ⟨record, blank⟩
  have e' : embeddedField g field r (getName g r) = .ok lines := by
    rcases record with tag | tag
    · simpa only [printResolved, tag, named, if_false] using e
    · simpa only [printResolved, tag, named, if_false] using e
  apply shown_embedded e'
  · intro B below
    rw [toBasicType, toBasicTypeLoop] at below
    rcases record with tag | tag
    · simp [tag] at below
    · simp [tag] at below
  · exact fun _ => .record record named

/-- What is printed for a type that is no structure without a name. -/
lemma printResolved_shown (basic : BasicTypes g)
    {print : Nat → Bool → Except Abort (List Line)} (other : ¬ Unnamed g r)
    (e : printResolved g print name r false = .ok lines) : Shown g name r lines := by
  rcases Classical.em (IsRecord g r) with record | plain
  · exact shown_record record other e
  rw [printResolved] at e
  split at e
  case h_1 tag =>
    cases e
    obtain ⟨_, _, node⟩ := basic r tag
    apply Shown.field (.basic tag)
    simpa [Value.names] using toPythonType_identifier node
  case h_2 tag' name' bits base tag node =>
    obtain rfl : tag' = .typedef := by rwa [node] at tag
    rw [printTypedef] at e
    cases resolved : resolve g base with
    | none =>
      rw [resolved] at e
      cases e
      apply Shown.nothing
      intro t
      apply not_mentions plain
      · intro basic
        cases tag.symm.trans basic
      · rw [node]
        exact resolved
    | some A =>
      rw [resolved] at e
      apply shown_embedded e
      · exact fun B below => .primitive node resolved below
      · exact fun below => .typedef node resolved below
  case h_3 tag => exact absurd (.inr tag) plain
  case h_4 tag => exact absurd (.inl tag) plain
  case h_5 tag' name' bits base elements tag node =>
    obtain rfl : tag' = .arrayType := by rwa [node] at tag
    exact shown_array node e
  case h_6 tag' name' bits base tag node =>
    obtain rfl : tag' = .pointerType := by rwa [node] at tag
    split at e
    case h_1 resolved =>
      cases e
      apply Shown.nothing
      intro t
      apply not_mentions plain
      · intro basic
        cases tag.symm.trans basic
      · rw [node]
        exact resolved
    case h_2 p resolved =>
      cases e
      apply Shown.field (.pointer node resolved)
      simp [Value.names]
  case h_7 noBasic _ _ noTypedef noArray noPointer =>
    cases e
    apply Shown.nothing
    intro t mentions
    cases mentions with
    | basic tag => exact noBasic tag
    | record record => exact plain record
    | primitive node => exact noTypedef _ _ _ _ (by rw [node, DIType.getTag]) node
    | typedef node => exact noTypedef _ _ _ _ (by rw [node, DIType.getTag]) node
    | string node => exact noArray _ _ _ _ _ (by rw [node, DIType.getTag]) node
    | list node => exact noArray _ _ _ _ _ (by rw [node, DIType.getTag]) node
    | pointer node => exact noPointer _ _ _ _ (by rw [node, DIType.getTag]) node

/-! ### The names of a class -/

/-- What holds along all ways holds here, and along all ways from the next. -/
lemma forall_reflTransGen {α : Type} {R : α → α → Prop} {P : α → Prop} {a : α} :
    (∀ x, ReflTransGen R a x → P x) ↔ P a ∧ ∀ b, R a b → ∀ x, ReflTransGen R b x → P x := by
  refine ⟨fun all => ⟨all a .refl, fun b first x way => all x (way.head first)⟩, fun all x way => ?_⟩
  rcases way.cases_head with rfl | ⟨b, first, way⟩
  · exact all.1
  · exact all.2 b first x way

/-- In a type that is not composite there is at most the structure without a name. -/
lemma inside_plain (composite : isComposite g n = false) (resolved : resolve g (some n) = some r)
    (inside : Inside g n m) : m = r ∧ Unnamed g r := by
  cases inside with
  | element node => simp [isComposite, node] at composite
  | unnamed _ resolved' unnamed =>
    cases resolved.symm.trans resolved'
    exact ⟨rfl, unnamed⟩

/-- In a composite type, the fields of all elements are valid. -/
lemma printElements_valid (below : ∀ m lines, printDepth g depth m false = .ok lines →
      ((∀ line ∈ lines, line.Valid) ↔ ∀ x, ReflTransGen (Inside g) m x → Identified g x))
    {tag : Tag} {bits : Nat} {base : Option Nat} {elements : List DINode} {parts : List (List Line)}
    (node : g.node n = .composite tag name bits base elements) (resolved : (resolve g (some n)).isSome)
    (each : elements.mapM (printElement g (printDepth g depth · false)) = .ok parts) :
    (∀ line ∈ parts.flatten, line.Valid) ↔
      ∀ m, Inside g n m → ∀ x, ReflTransGen (Inside g) m x → Identified g x := by
  constructor
  · intro valid m inside
    cases inside with
    | unnamed plain => simp [isComposite, node] at plain
    | element node' _ mem derived =>
      cases node.symm.trans node'
      obtain ⟨lines, prints⟩ := ok_of_mapM each mem
      rw [printElement_derived derived] at prints
      apply (below m lines prints).1
      intro line there
      exact valid line ((mem_elements each).2 ⟨m, mem, ⟨_, _, _, _, derived⟩, lines, prints, there⟩)
  · intro valid line there
    obtain ⟨m, mem, ⟨_, _, _, _, derived⟩, lines, prints, there⟩ := (mem_elements each).1 there
    exact (below m lines prints).2 (valid m (.element node resolved mem derived)) line there

/-- The fields in a class are valid if and only if those of all types inside are. -/
lemma printDepth_valid (basic : BasicTypes g) (e : printDepth g depth n false = .ok lines) :
    (∀ line ∈ lines, line.Valid) ↔ ∀ x, ReflTransGen (Inside g) n x → Identified g x := by
  induction depth generalizing n lines with
  | zero => cases e
  | succ depth ih =>
    rw [forall_reflTransGen]
    cases resolved : resolve g (some n) with
    | none =>
      rw [printDepth_unresolved resolved] at e
      cases e
      refine iff_of_true nofun ⟨fun r t _ resolved' => ?_, fun m inside => ?_⟩
      · cases resolved.symm.trans resolved'
      · cases inside with
        | element _ some => simp [resolved] at some
        | unnamed _ resolved' => cases resolved.symm.trans resolved'
    | some r =>
      cases composite : isComposite g n with
      | true =>
        obtain ⟨tag, name, bits, base, elements, node⟩ := isComposite_node composite
        rw [printDepth_composite node resolved] at e
        obtain ⟨parts, each, e⟩ := bind_eq_ok.1 e
        cases e
        have own : Identified g n := by
          intro r t plain
          cases composite.symm.trans plain
        rw [and_iff_right own]
        exact printElements_valid (fun m lines e => ih e) node (by rw [resolved]; rfl) each
      | false =>
        have plain : ∀ tag name bits base elements, g.node n ≠ .composite tag name bits base elements := by
          intro tag name bits base elements node
          simp [isComposite, node] at composite
        rw [printDepth_plain plain resolved] at e
        rcases Classical.em (Unnamed g r) with unnamed | other
        · rw [printResolved_unnamed unnamed] at e
          rw [ih e]
          have own : Identified g n := by
            intro r' t _ resolved' other
            cases resolved.symm.trans resolved'
            exact absurd unnamed other
          rw [and_iff_right own]
          refine ⟨fun valid m inside => ?_, fun valid => valid r (.unnamed composite resolved unnamed)⟩
          rw [(inside_plain composite resolved inside).1]
          exact valid
        · rw [(printResolved_shown basic other e).valid_iff]
          refine ⟨fun valid => ⟨fun r' t _ resolved' _ mentions => ?_, fun m inside => ?_⟩,
            fun valid t mentions => valid.1 r t composite resolved other mentions⟩
          · cases resolved.symm.trans resolved'
            exact valid t mentions
          · exact absurd (inside_plain composite resolved inside).2 other

/-- Nothing is written for a type that is neither a structure, a union nor a typedef. -/
lemma writable_other (other : ¬ IsRecord g n) (typedef : (g.node n).getTag ≠ .typedef) : Writable g n where
  own cls := by
    obtain ⟨_, cls⟩ := cls
    split at cls
    case h_1 node => exact absurd (.inl (by rw [node, DIType.getTag])) other
    case h_2 node => exact absurd (.inr (by rw [node, DIType.getTag])) other
    case h_3 node => exact absurd (by rw [node, DIType.getTag]) typedef
    case h_4 => exact cls.elim
  target A aliases := by
    obtain ⟨name, bits, base, node, _⟩ := aliases
    exact absurd (by rw [node, DIType.getTag]) typedef
  fields S x body := by
    cases body with
    | record record => exact absurd record other
    | typedef node => exact absurd (by rw [node, DIType.getTag]) typedef

/-- The class of a structure can be written if all names in it are identifiers. -/
lemma writable_record (node : IsRecord g n) (cls : IsClass g n) :
    Writable g n ↔ isIdentifier (getName g n) ∧ ∀ x, ReflTransGen (Inside g) n x → Identified g x := by
  have noTypedef : (g.node n).getTag ≠ .typedef := by
    rcases node with tag | tag
    · rw [tag]
      nofun
    · rw [tag]
      nofun
  refine ⟨fun writable => ⟨writable.own cls, fun x => writable.fields n x (.record node)⟩,
    fun holds => ⟨fun _ => holds.1, fun A aliases => ?_, fun S x body => ?_⟩⟩
  · obtain ⟨name, bits, base, node', _⟩ := aliases
    exact absurd (by rw [node', DIType.getTag]) noTypedef
  · cases body with
    | record => exact holds.2 x
    | typedef node' => exact absurd (by rw [node', DIType.getTag]) noTypedef

/-- A typedef can be written if its name and that of its type are identifiers. -/
lemma writable_typedef {bits A : Nat} {base : Option Nat}
    (node : g.node n = .derived .typedef name bits base) (named : getName g n ≠ "")
    (resolved : resolve g base = some A) :
    Writable g n ↔ isIdentifier (getName g n) ∧
      (getName g A ≠ "" → toBasicType g (some A) = .ok none → isIdentifier (getName g A)) ∧
      (getName g A = "" → ∀ x, ReflTransGen (Inside g) A x → Identified g x) := by
  have cls : IsClass g n := by
    refine ⟨named, ?_⟩
    simp only [node, resolved, Option.isSome_some]
  refine ⟨fun writable => ⟨writable.own cls, fun named' below => ?_, fun blank x => ?_⟩,
    fun holds => ⟨fun _ => holds.1, fun A' aliases => ?_, fun S x body => ?_⟩⟩
  · exact writable.target A ⟨name, bits, base, node, resolved, named', below⟩
  · exact writable.fields A x (.typedef node resolved blank)
  · obtain ⟨_, _, _, node', resolved', named', below⟩ := aliases
    cases node.symm.trans node'
    cases resolved.symm.trans resolved'
    exact holds.2.1 named' below
  · cases body with
    | record record => simp [IsRecord, node, DIType.getTag] at record
    | typedef node' resolved' blank =>
      cases node.symm.trans node'
      cases resolved.symm.trans resolved'
      exact holds.2.2 blank x

/-- An alias is valid if both names are identifiers. -/
lemma valid_alias {value : String} :
    (∀ line ∈ [Line.alias name value], line.Valid) ↔ isIdentifier name ∧ isIdentifier value := by
  rw [List.forall_mem_singleton, Line.Valid, Line.names, List.forall_mem_cons, List.forall_mem_singleton]

/-- A class is valid if its name is an identifier and its lines are valid. -/
lemma valid_dataclass : (∀ line ∈ .dataclass name :: lines, line.Valid) ↔
    isIdentifier name ∧ ∀ line ∈ lines, line.Valid := by
  rw [List.forall_mem_cons, Line.Valid, Line.names, List.forall_mem_singleton]

/-- What is printed for a typedef is valid if the typedef can be written. -/
lemma printTypedef_valid (basic : BasicTypes g) {bits : Nat} {base : Option Nat}
    (node : g.node n = .derived .typedef name bits base)
    (named : getName g n ≠ "")
    (e : printTypedef g (printDepth g depth) (getName g n) n base true = .ok lines) :
    (∀ line ∈ lines, line.Valid) ↔ Writable g n := by
  rw [printTypedef] at e
  cases resolved : resolve g base with
  | none =>
    rw [resolved] at e
    cases e
    refine iff_of_true (fun line mem => absurd mem List.not_mem_nil)
      ⟨fun cls => ?_, fun A aliases => ?_, fun S x body => ?_⟩
    · simp [IsClass, node, resolved] at cls
    · obtain ⟨_, _, _, node', resolved', _⟩ := aliases
      cases node.symm.trans node'
      cases resolved.symm.trans resolved'
    · cases body with
      | record record => simp [IsRecord, node, DIType.getTag] at record
      | typedef node' resolved' =>
        cases node.symm.trans node'
        cases resolved.symm.trans resolved'
  | some A =>
    rw [writable_typedef node named resolved]
    simp only [resolved, Bool.not_true, Bool.false_eq_true, if_false] at e
    split at e
    case isTrue named' =>
      obtain ⟨BTy, below, e⟩ := bind_eq_ok.1 e
      cases BTy with
      | some B =>
        cases e
        obtain ⟨_, _, node'⟩ := toBasicTypeLoop_basic below
        rw [valid_alias, and_iff_left (toPythonType_identifier node')]
        simp [below, named']
      | none =>
        cases e
        rw [valid_alias]
        simp [below, named']
    case isFalse blank =>
      obtain ⟨members, inner, e⟩ := bind_eq_ok.1 e
      cases e
      rw [valid_dataclass, printDepth_valid basic inner]
      simp [not_not.1 blank]

/-- What is printed for a type with a name is valid if and only if its class or alias can be written. -/
lemma print_valid (names : Names g) (basic : BasicTypes g) (type : (g.node n).getTag ≠ .member)
    (named : getName g n ≠ "") (e : print g n true = .ok lines) :
    (∀ line ∈ lines, line.Valid) ↔ Writable g n := by
  cases node : g.node n with
  | basic name bits =>
    rw [print_basic node] at e
    cases e
    refine iff_of_true nofun (writable_other ?_ ?_)
    · simp [IsRecord, node, DIType.getTag]
    · simp [node, DIType.getTag]
  | subroutine => simp [getName, node, DIType.getName] at named
  | derived tag name bits base =>
    have name_eq : getName g n = name := by rw [getName, node, DIType.getName]
    rcases names.derived_name n tag name bits base node (name_eq ▸ named) with rfl | rfl
    · rw [print_typedef node] at e
      exact printTypedef_valid basic node named e
    · exact absurd (by rw [node, DIType.getTag]) type
  | composite tag name bits base elements =>
    have name_eq : getName g n = name := by rw [getName, node, DIType.getName]
    have record : tag = .structureType ∨ tag = .unionType →
        ((∀ line ∈ lines, line.Valid) ↔ Writable g n) := by
      intro kind
      have cls : IsClass g n := by
        refine ⟨named, ?_⟩
        rw [node]
        rcases kind with rfl | rfl <;> trivial
      have record : IsRecord g n := by rwa [IsRecord, node, DIType.getTag]
      rw [print_record node record named] at e
      obtain ⟨fields, inner, e⟩ := bind_eq_ok.1 e
      cases e
      rw [valid_dataclass, printDepth_valid basic inner, writable_record record cls]
    rcases names.composite_name n tag name bits base elements node (name_eq ▸ named) with
      kind | kind | ⟨k, rfl⟩
    · exact record (.inl kind)
    · exact record (.inr kind)
    · rw [print_unresolved node] at e
      cases e
      refine iff_of_true nofun (writable_other ?_ ?_)
      · simp [IsRecord, node, DIType.getTag]
      · simp [node, DIType.getTag]

/-- All lines of the file are valid if and only if each type that is printed can be written: of the types
that the walk comes to, these are the first of their names. So its own name, the name that a typedef of a
named type is an alias of, the names of its fields and those of the types that the fields mention are all
identifiers. -/
theorem identifiers_iff (g : DebugInfo) (names : Names g) (basic : BasicTypes g) {depth : Nat}
    {types : List Nat} {structTypes : List String} {ctx : GeneratorStruct}
    (ran : generate g depth types structTypes = .ok ctx) :
    ∃ reached, Reaches g types structTypes reached ∧
      ((∀ lines ∈ ctx.Output, ∀ line ∈ lines, line.Valid) ↔
        ∀ n, First (typeName g) [] reached n → Writable g n) := by
  obtain ⟨reached, comes, out, listed, printed⟩ := generate_comes names ran
  have type : ∀ n, First (typeName g) [] reached n →
      (g.node n).getTag ≠ .member ∧ getName g n ≠ "" := by
    intro n first
    obtain ⟨k, _, key, _⟩ := first
    exact ⟨(typeName_some key).1, (typeName_some key).2.1⟩
  refine ⟨reached, ⟨_, comes⟩, fun valid n first => ?_, fun writable lines mem => ?_⟩
  · obtain ⟨lines, mem, prints⟩ := forall₂_mem printed ((listed n).2 first)
    exact (print_valid names basic (type n first).1 (type n first).2 prints).1 (valid lines mem)
  · obtain ⟨n, mem, prints⟩ := forall₂_mem printed.flip mem
    have first := (listed n).1 mem
    exact (print_valid names basic (type n first).1 (type n first).2 prints).2 (writable n first)

/-- The basic types have Python names. -/
lemma shared_basic : BasicTypes sharedGraph := by
  intro n tag
  obtain _ | _ | _ | _ | _ | _ | n := n
  all_goals first
    | exact ⟨_, _, rfl⟩
    | cases tag

/-- A file whose names are all identifiers. -/
theorem identifiers_iff_shared : ∃ reached,
    Reaches sharedGraph [3, 2, 0] ["struct.X", "struct.S"] reached ∧
      ∀ n, First (typeName sharedGraph) [] reached n → Writable sharedGraph n := by
  have ran : generate sharedGraph 5 [3, 2, 0] ["struct.X", "struct.S"] = .ok ⟨[sharedName, "int", "S"],
      [[], [.dataclass sharedName, .field "a" (.primitive "Int32")],
        [.dataclass "S", .field "x" (.embedded sharedName)]]⟩ := rfl
  obtain ⟨reached, reaches, same⟩ := identifiers_iff sharedGraph shared_names shared_basic ran
  exact ⟨reached, reaches, same.1 (by decide)⟩

/-- The name of a type of thread identifiers. -/
def tidName : String := "k_tid_t"

/-- `struct k_thread { int n; }; typedef struct k_thread *k_tid_t; struct S { k_tid_t id; };` -/
def tidGraph : DebugInfo := .ofList [
  .composite .structureType "S" 64 none [.type 1],
  .derived .member "id" 64 (some 2),
  .derived .typedef tidName 0 (some 3),
  .derived .pointerType "" 64 (some 4),
  .composite .structureType "k_thread" 32 none [.type 5],
  .derived .member "n" 32 (some 6),
  .basic "int" 32] (by decide)

/-- The typedef of the pointer gets a class, and in it a field without a name: `    : PTR = …`. -/
theorem typedef_pointer_blank : ∃ ctx, generate tidGraph 6 [0] ["struct.S"] = .ok ctx ∧
    [.dataclass tidName, .field "" (.pointer "k_thread")] ∈ ctx.Output ∧
    ¬ ∀ lines ∈ ctx.Output, ∀ line ∈ lines, line.Valid := by
  have ran : generate tidGraph 6 [0] ["struct.S"] = .ok ⟨["S", tidName, "k_thread", "int"],
      [[], [.dataclass "k_thread", .field "n" (.primitive "Int32")],
        [.dataclass tidName, .field "" (.pointer "k_thread")],
        [.dataclass "S", .field "id" (.embedded tidName)]]⟩ := rfl
  refine ⟨_, ran, .tail _ (.tail _ (.head _)), fun valid => ?_⟩
  have blank := valid _ (.tail _ (.tail _ (.head _))) _ (.tail _ (.head _)) "" (.head _)
  cases blank

end Irx.Generator
