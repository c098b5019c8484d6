import Irx.Basic
import Irx.Lib.DepthFirst
import Irx.Generator.Generate

/-!
# The walk and its paragraphs

`generate_struct` is a depth-first walk over what `resolve2` refers to, targets of pointers among it
(`generate_struct_walk`). A paragraph of the file defines the name of its type, as a class or as an alias,
and nothing else (`print_shape`).
-/

namespace Irx.Generator
open Irx.Lib Irx.Debug

/-- The base type of a derived or composite type. -/
def DIType.getBaseType : DIType → Option Nat
  | .basic _ _ => none
  | .derived _ _ _ base => base
  | .composite _ _ _ base _ => base
  | .subroutine => none

/-- The names of C types: no type is made from a member; pointers, qualifiers and arrays have no names. -/
structure Names (g : DebugInfo) : Prop where
  base_type : ∀ n b, DIType.getBaseType (g.node n) = some b → (g.node b).getTag ≠ .member
  derived_name : ∀ n tag name bits base, g.node n = .derived tag name bits base → name ≠ "" →
    tag = .typedef ∨ tag = .member
  composite_name : ∀ n tag name bits base elements, g.node n = .composite tag name bits base elements →
    name ≠ "" → tag = .structureType ∨ tag = .unionType ∨ ∃ k, tag = .other k

section Graph

variable (g : DebugInfo)

/-- The name that the walk marks. -/
def typeName (n : Nat) : Option String :=
  if (g.node n).getTag = .member ∨ getName g n = "" then none else some (getName g n)

end Graph

/-! ### The walk -/

variable {g : DebugInfo} {n m depth : Nat} {ctx ctx' : GeneratorStruct} {out : List Nat}
  {lines : List Line} {line : Line} {types : List Nat} {structTypes : List String}

/-- Resolving ends at a type of one of the kinds. -/
lemma resolveUntil_tag {kinds : List Tag} {fuel : Nat} {DITy : Option Nat}
    (e : resolveUntil g kinds fuel DITy = some n) : (g.node n).getTag ∈ kinds := by
  induction fuel generalizing DITy with
  | zero =>
    cases DITy with
    | none => cases e
    | some _ => cases e
  | succ fuel ih =>
    cases DITy with
    | none => cases e
    | some m =>
      rw [resolveUntil] at e
      split at e
      · cases e
        assumption
      · split at e
        · exact ih e
        · cases e

/-- What `resolve` ends at. -/
lemma resolve_tag {DITy : Option Nat} (e : resolve g DITy = some n) : (g.node n).getTag ∈
    [Tag.baseType, .structureType, .unionType, .arrayType, .pointerType, .typedef] := by
  cases DITy with
  | none => cases e
  | some m => exact resolveUntil_tag e

/-- A type of one of the kinds resolves to itself. -/
lemma resolve_self (kind : (g.node n).getTag ∈
    [Tag.baseType, .structureType, .unionType, .arrayType, .pointerType, .typedef]) :
    resolve g (some n) = some n := by
  rw [resolve, resolveUntil, if_pos kind]

/-- Nothing resolves to a member. -/
lemma resolve_type {DITy : Option Nat} (e : resolve g DITy = some n) :
    (g.node n).getTag ≠ .member := by
  intro member
  have kind := resolve_tag e
  rw [member] at kind
  exact absurd kind (by decide)

/-- No type is made from a member. -/
lemma base_type_of_derived (names : Names g) {tag : Tag} {name : String} {bits : Nat} {base : Option Nat}
    (node : g.node n = .derived tag name bits base) (e : base = some m) : (g.node m).getTag ≠ .member := by
  apply names.base_type n m
  rw [node]
  exact e

/-- An element refers to no member. -/
lemma elementReference_type (names : Names g) {element : DINode} (e : elementReference g element = some m) :
    (g.node m).getTag ≠ .member := by
  cases element with
  | other => cases e
  | type k =>
    rw [elementReference] at e
    split at e
    · exact base_type_of_derived names ‹_› e
    · cases e

/-- A pointer or an array refers to no member. -/
lemma targetReference_type (names : Names g) (e : targetReference g n = some m) :
    (g.node m).getTag ≠ .member := by
  rw [targetReference] at e
  split at e
  · exact resolve_type e
  · exact base_type_of_derived names ‹_› e
  · exact base_type_of_derived names ‹_› e
  · apply names.base_type n m
    rw [‹g.node n = .composite _ _ _ _ _›]
    exact e
  · exact base_type_of_derived names ‹_› e
  · cases e

/-- References are types. -/
lemma reference_type (names : Names g) (mem : m ∈ references g n) : (g.node m).getTag ≠ .member := by
  rw [references] at mem
  split at mem
  · cases mem
  · obtain mem | mem := List.mem_append.1 mem
    · obtain ⟨element, _, e⟩ := List.mem_filterMap.1 mem
      exact elementReference_type names e
    · exact targetReference_type names (Option.mem_toList.1 mem)

/-- A type is called by its name if it has one. -/
lemma typeName_of_type (type : (g.node n).getTag ≠ .member) : typeName g n =
    if getName g n = "" then none else some (getName g n) := by
  rw [typeName]
  simp only [type, false_or]

/-- What is called by a name is no member and has this name. -/
lemma typeName_some {name : String} (key : typeName g n = some name) :
    (g.node n).getTag ≠ .member ∧ getName g n ≠ "" ∧ name = getName g n := by
  rw [typeName] at key
  split at key
  case isTrue => cases key
  case isFalse other => exact ⟨(not_or.1 other).1, (not_or.1 other).2, (Option.some.inj key).symm⟩

/-- A split of one of two related lists splits the other. -/
lemma forall₂_split {α β : Type} {R : α → β → Prop} {l l1 l2 : List α} {a : α} {k : List β}
    (related : List.Forall₂ R l k) (split : l = l1 ++ a :: l2) :
    ∃ k1 b k2, k = k1 ++ b :: k2 ∧ List.Forall₂ R l1 k1 ∧ R a b := by
  induction related generalizing l1 with
  | nil =>
    cases l1 with
    | nil => cases split
    | cons _ _ => cases split
  | @cons a' b l k here rest ih =>
    cases l1 with
    | nil =>
      cases split
      exact ⟨[], b, k, rfl, .nil, here⟩
    | cons x l1 =>
      cases split
      obtain ⟨k1, b', k2, rfl, front, there⟩ := ih rfl
      exact ⟨b :: k1, b', k2, rfl, .cons here front, there⟩

/-- Related to an element of a list is an element of the other list. -/
lemma forall₂_mem {α β : Type} {R : α → β → Prop} {l : List α} {k : List β} {a : α}
    (related : List.Forall₂ R l k) (mem : a ∈ l) : ∃ b ∈ k, R a b := by
  obtain ⟨l1, l2, split⟩ := List.append_of_mem mem
  obtain ⟨k1, b, k2, rfl, _, here⟩ := forall₂_split related split
  exact ⟨b, List.mem_append_right _ (.head _), here⟩

/-- The file is what the listed types print, and no empty name is marked. -/
def Printed (g : DebugInfo) (out : List Nat) (ctx : GeneratorStruct) : Prop :=
  "" ∉ ctx.done ∧ List.Forall₂ (fun n lines => print g n true = .ok lines) out ctx.Output

/-- A walk from a node, and then one from the rest of the list. -/
lemma walk_cons {key : Nat → Option String} {succ : Nat → List Nat} {done done1 done' : List String}
    {out out1 out' l : List Nat} (head : Walk key succ done out [n] done1 out1)
    (tail : Walk key succ done1 out1 l done' out') : Walk key succ done out (n :: l) done' out' := by
  cases head with
  | known named mem rest =>
    cases rest
    exact .known named mem tail
  | enter named fresh inner rest =>
    cases rest
    exact .enter named fresh inner tail
  | through unnamed inner rest =>
    cases rest
    exact .through unnamed inner tail

/-- A loop of `generate_struct` calls, each of which is a walk. -/
lemma fold_walk {step : GeneratorStruct → Nat → Except Abort GeneratorStruct} {l : List Nat}
    (each : ∀ m ∈ l, ∀ ctx ctx' out, step ctx m = .ok ctx' → Printed g out ctx →
      ∃ out', Walk (typeName g) (references g) ctx.done out [m] ctx'.done out' ∧
        Printed g out' ctx')
    (e : l.foldlM step ctx = .ok ctx') (printed : Printed g out ctx) :
    ∃ out', Walk (typeName g) (references g) ctx.done out l ctx'.done out' ∧
      Printed g out' ctx' := by
  induction l generalizing ctx out with
  | nil =>
    cases e
    exact ⟨out, .nil, printed⟩
  | cons m l ih =>
    rw [List.foldlM_cons] at e
    obtain ⟨ctx1, first, rest⟩ := bind_eq_ok.1 e
    obtain ⟨out1, head, printed1⟩ := each m (.head _) ctx ctx1 out first printed
    obtain ⟨out', tail, printed'⟩ := ih (fun m mem => each m (.tail _ mem)) rest printed1
    exact ⟨out', walk_cons head tail, printed'⟩

/-- `generate_struct` is a depth-first walk that prints the types it lists. -/
lemma generate_struct_walk (names : Names g) (type : (g.node n).getTag ≠ .member)
    (e : generate_struct g depth ctx n = .ok ctx')
    (printed : Printed g out ctx) :
    ∃ out', Walk (typeName g) (references g) ctx.done out [n] ctx'.done out' ∧
      Printed g out' ctx' := by
  induction depth generalizing n ctx ctx' out with
  | zero => cases e
  | succ depth ih =>
    have key := typeName_of_type type
    have below : ∀ m ∈ references g n, ∀ ctx ctx' out,
        generate_struct g depth ctx m = .ok ctx' → Printed g out ctx →
        ∃ out', Walk (typeName g) (references g) ctx.done out [m] ctx'.done out' ∧
          Printed g out' ctx' :=
      fun m mem ctx ctx' out e printed => ih (reference_type names mem) e printed
    rw [generate_struct] at e
    by_cases unnamed : getName g n = ""
    · rw [if_pos unnamed] at key
      split at e
      case isTrue mem => exact absurd (unnamed ▸ mem) printed.1
      case isFalse =>
        obtain ⟨out', walk, printed'⟩ := fold_walk below e printed
        exact ⟨out', .through key walk .nil, printed'⟩
    · rw [if_neg unnamed] at key
      split at e
      case isTrue mem =>
        cases e
        exact ⟨out, .known key mem .nil, printed⟩
      case isFalse fresh =>
        obtain ⟨ctx1, inner, e⟩ := bind_eq_ok.1 e
        obtain ⟨lines, wrote, e⟩ := bind_eq_ok.1 e
        cases e
        have marked : Printed g out
            { ctx with done := ctx.done ++ [getName g n] } := by
          refine ⟨fun blank => ?_, printed.2⟩
          obtain blank | blank := List.mem_append.1 blank
          · exact printed.1 blank
          · exact unnamed (List.mem_singleton.1 blank).symm
        obtain ⟨out', walk, printed'⟩ := fold_walk below inner marked
        refine ⟨out' ++ [n], .enter key fresh walk .nil, printed'.1, ?_⟩
        exact List.rel_append printed'.2 (.cons wrote .nil)

/-! ### What is printed -/

/-- The name that a line binds. -/
def Line.defines : Line → Option String
  | .dataclass name => some name
  | .alias name _ => some name
  | .field _ _ => none

/-- A type with a name for which the generator has a definition: a structure, a union, or a typedef that
leads to a type. -/
def IsClass (g : DebugInfo) (n : Nat) : Prop :=
  getName g n ≠ "" ∧ match g.node n with
    | .composite .structureType _ _ _ _ => True
    | .composite .unionType _ _ _ _ => True
    | .derived .typedef _ _ base => (resolve g base).isSome
    | _ => False

/-- The node is a structure or a union. -/
def IsRecord (g : DebugInfo) (n : Nat) : Prop :=
  (g.node n).getTag = .structureType ∨ (g.node n).getTag = .unionType

/-- A structure or union without a name: its fields are printed in the class around it. -/
def Unnamed (g : DebugInfo) (n : Nat) : Prop := IsRecord g n ∧ getName g n = ""

/-- What is printed for an embedded type are fields of the name. -/
lemma embeddedField_field {name cls : String} {DITy : Nat}
    (e : embeddedField g name DITy cls = .ok lines) (mem : line ∈ lines) : ∃ v, line = .field name v := by
  rw [embeddedField] at e
  obtain ⟨BTy, _, e⟩ := bind_eq_ok.1 e
  split at e
  all_goals
    cases e
    exact ⟨_, List.mem_singleton.1 mem⟩

/-- What is printed for an array are fields of the name. -/
lemma printArray_field {name : String} {DIDTy : Nat} {base : Option Nat}
    (e : printArray g name DIDTy base = .ok lines) (mem : line ∈ lines) : ∃ v, line = .field name v := by
  rw [printArray] at e
  split at e
  · cases e
    cases mem
  · obtain ⟨PTRDITy, _, e⟩ := bind_eq_ok.1 e
    split at e
    · cases e
    · split at e
      all_goals
        cases e
        exact ⟨_, List.mem_singleton.1 mem⟩

/-- For a structure or union without a name, `print` goes on in it. -/
lemma printResolved_unnamed {print : Nat → Bool → Except Abort (List Line)} {start : Bool}
    {name : String} {R : Nat} (unnamed : Unnamed g R) :
    printResolved g print name R start = print R start := by
  obtain ⟨tag | tag, blank⟩ := unnamed
  · simp only [printResolved, tag, blank, if_true]
  · simp only [printResolved, tag, blank, if_true]

/-- In a class, each other type gets fields of the name, and no type below it is printed. -/
lemma printResolved_field {print : Nat → Bool → Except Abort (List Line)} {name : String} {R : Nat}
    (print' : Nat → Bool → Except Abort (List Line)) (other : ¬ Unnamed g R) :
    printResolved g print name R false = printResolved g print' name R false ∧
      ∀ lines, printResolved g print name R false = .ok lines →
        ∀ line ∈ lines, ∃ v, line = .field name v := by
  rw [printResolved, printResolved]
  split
  · refine ⟨rfl, fun lines e line mem => ?_⟩
    cases e
    exact ⟨_, List.mem_singleton.1 mem⟩
  · rw [printTypedef, printTypedef]
    split
    · refine ⟨rfl, fun lines e line mem => ?_⟩
      cases e
      cases mem
    · exact ⟨rfl, fun lines e line mem => embeddedField_field e mem⟩
  · split
    case isTrue blank => exact absurd ⟨.inr ‹_›, blank⟩ other
    case isFalse => exact ⟨rfl, fun lines e line mem => embeddedField_field e mem⟩
  · split
    case isTrue blank => exact absurd ⟨.inl ‹_›, blank⟩ other
    case isFalse => exact ⟨rfl, fun lines e line mem => embeddedField_field e mem⟩
  · exact ⟨rfl, fun lines e line mem => printArray_field e mem⟩
  · split
    · refine ⟨rfl, fun lines e line mem => ?_⟩
      cases e
      cases mem
    · refine ⟨rfl, fun lines e line mem => ?_⟩
      cases e
      exact ⟨_, List.mem_singleton.1 mem⟩
  · refine ⟨rfl, fun lines e line mem => ?_⟩
    cases e
    cases mem

/-- In a class, only fields are printed. -/
lemma printResolved_fields {print : Nat → Bool → Except Abort (List Line)}
    (prints : ∀ n lines, print n false = .ok lines → ∀ line ∈ lines, line.defines = none)
    {name : String} {R : Nat} (e : printResolved g print name R false = .ok lines) (mem : line ∈ lines) :
    line.defines = none := by
  by_cases unnamed : Unnamed g R
  case pos =>
    rw [printResolved_unnamed unnamed] at e
    exact prints _ _ e line mem
  case neg =>
    obtain ⟨v, rfl⟩ := (printResolved_field print unnamed).2 lines e line mem
    rfl

/-- What is written for a list is written for its parts. -/
lemma mem_flatten_of_mapM {α ε : Type} {f : α → Except ε (List Line)} {l : List α}
    {parts : List (List Line)} (e : l.mapM f = .ok parts) :
    line ∈ parts.flatten ↔ ∃ a ∈ l, ∃ lines, f a = .ok lines ∧ line ∈ lines := by
  induction l generalizing parts with
  | nil =>
    cases e
    simp
  | cons a l ih =>
    rw [List.mapM_cons] at e
    obtain ⟨lines, first, e⟩ := bind_eq_ok.1 e
    obtain ⟨rest, later, e⟩ := bind_eq_ok.1 e
    cases e
    rw [List.flatten_cons, List.mem_append, ih later, List.exists_mem_cons_iff, first]
    simp only [Except.ok.injEq, exists_eq_left']

/-- If all parts are printed, so is each of them. -/
lemma ok_of_mapM {α ε : Type} {f : α → Except ε (List Line)} {l : List α} {parts : List (List Line)}
    {a : α} (e : l.mapM f = .ok parts) (mem : a ∈ l) : ∃ lines, f a = .ok lines := by
  induction l generalizing parts with
  | nil => cases mem
  | cons b l ih =>
    rw [List.mapM_cons] at e
    obtain ⟨lines, first, e⟩ := bind_eq_ok.1 e
    obtain ⟨rest, later, _⟩ := bind_eq_ok.1 e
    obtain rfl | mem := List.mem_cons.1 mem
    · exact ⟨lines, first⟩
    · exact ih later mem

/-- An element that is a derived type is printed as one. -/
lemma printElement_derived {print : Nat → Except Abort (List Line)} {tag : Tag} {name : String} {bits : Nat}
    {base : Option Nat} (node : g.node m = .derived tag name bits base) :
    printElement g print (.type m) = print m := by
  rw [printElement, node]

/-- What is written for elements is written for derived types among them. -/
lemma mem_elements {print : Nat → Except Abort (List Line)} {elements : List DINode}
    {parts : List (List Line)} (e : elements.mapM (printElement g print) = .ok parts) :
    line ∈ parts.flatten ↔ ∃ m, .type m ∈ elements ∧
      (∃ tag name bits base, g.node m = .derived tag name bits base) ∧
      ∃ lines, print m = .ok lines ∧ line ∈ lines := by
  rw [mem_flatten_of_mapM e]
  constructor
  · rintro ⟨element, mem, lines, prints, there⟩
    cases element with
    | other =>
      cases prints
      cases there
    | type m =>
      cases node : g.node m with
      | derived tag name bits base =>
        rw [printElement_derived node] at prints
        exact ⟨m, mem, ⟨tag, name, bits, base, node⟩, lines, prints, there⟩
      | _ =>
        rw [printElement, node] at prints
        cases prints
        cases there
  · rintro ⟨m, mem, ⟨tag, name, bits, base, node⟩, lines, prints, there⟩
    exact ⟨.type m, mem, lines, (printElement_derived node).trans prints, there⟩

/-- Nothing is printed for a type that does not resolve. -/
lemma printDepth_unresolved (resolved : resolve g (some n) = none) :
    printDepth g (depth + 1) n false = .ok [] := by
  have closed : opensClass g n false = false := Bool.and_false _
  rw [printDepth]
  simp only [closed, Bool.false_eq_true, if_false, resolved]

/-- A composite type is printed by its elements, if it is not the top of a class. -/
lemma printDepth_composite {tag : Tag} {name : String} {bits r : Nat} {base : Option Nat}
    {elements : List DINode} (node : g.node n = .composite tag name bits base elements)
    (resolved : resolve g (some n) = some r) : printDepth g (depth + 1) n false =
      (do let parts ← elements.mapM (printElement g (printDepth g depth · false)); .ok parts.flatten) := by
  have closed : opensClass g n false = false := Bool.and_false _
  rw [printDepth]
  simp only [closed, Bool.false_eq_true, if_false, Bool.false_and, List.nil_append, resolved, node]

/-- Another type is printed as what it resolves to. -/
lemma printDepth_plain {r : Nat}
    (plain : ∀ tag name bits base elements, g.node n ≠ .composite tag name bits base elements)
    (resolved : resolve g (some n) = some r) :
    printDepth g (depth + 1) n false = printResolved g (printDepth g depth) (getName g n) r false := by
  have closed : opensClass g n false = false := Bool.and_false _
  rw [printDepth]
  simp only [closed, Bool.false_eq_true, if_false, Bool.false_and, List.nil_append, resolved]
  cases node : g.node n with
  | composite => exact absurd node (plain _ _ _ _ _)
  | _ => cases printResolved g (printDepth g depth) (getName g n) r false <;> rfl

/-- What is printed inside a class defines nothing. -/
lemma printDepth_fields (e : printDepth g depth n false = .ok lines)
    (mem : line ∈ lines) : line.defines = none := by
  induction depth generalizing n lines line with
  | zero => cases e
  | succ depth ih =>
    cases resolved : resolve g (some n) with
    | none =>
      rw [printDepth_unresolved resolved] at e
      cases e
      cases mem
    | some r =>
      rcases Classical.em (∃ tag name bits base elements, g.node n = .composite tag name bits base elements)
        with ⟨tag, name, bits, base, elements, node⟩ | plain
      · rw [printDepth_composite node resolved] at e
        obtain ⟨parts, each, e⟩ := bind_eq_ok.1 e
        cases e
        obtain ⟨m, _, _, lines, e, mem⟩ := (mem_elements each).1 mem
        exact ih e mem
      · push Not at plain
        rw [printDepth_plain plain resolved] at e
        exact printResolved_fields (fun _ _ e _ mem => ih e mem) e mem

/-- A type for which the generator writes a class: a structure, a union, or a typedef of a type without a
name. -/
def OpensClass (g : DebugInfo) (n : Nat) : Prop :=
  match g.node n with
  | .composite .structureType _ _ _ _ => True
  | .composite .unionType _ _ _ _ => True
  | .derived .typedef _ _ base => ∃ A, resolve g base = some A ∧ getName g A = ""
  | _ => False

/-- What opens a class with a name is one. -/
lemma opensClass_isClass (named : getName g n ≠ "") (opens : OpensClass g n) : IsClass g n := by
  refine ⟨named, ?_⟩
  rw [OpensClass] at opens
  split at opens
  · trivial
  · trivial
  · obtain ⟨A, e, _⟩ := opens
    simp only [e, Option.isSome_some]
  · exact opens.elim

/-- What `print` writes for a type with a name. -/
inductive Shape (g : DebugInfo) (n : Nat) : List Line → Prop where
  | nothing : ¬ IsClass g n → Shape g n []
  | dataclass {fields} : OpensClass g n → (∀ line ∈ fields, line.defines = none) →
      Shape g n (.dataclass (getName g n) :: fields)
  | renamed {value} : IsClass g n → ¬ OpensClass g n → Shape g n [.alias (getName g n) value]

/-- A typedef is an alias, or the class of a type without a name. -/
lemma printTypedef_shape {name : String} {bits : Nat} {base : Option Nat} (named : getName g n ≠ "")
    (node : g.node n = .derived .typedef name bits base)
    (e : printTypedef g (printDepth g depth) (getName g n) n base true = .ok lines) :
    Shape g n lines := by
  rw [printTypedef] at e
  cases target : resolve g base with
  | none =>
    simp only [target] at e
    cases e
    refine .nothing ?_
    rintro ⟨_, leads⟩
    simp only [node, target] at leads
    cases leads
  | some A =>
    simp only [target, Bool.not_true, Bool.false_eq_true, if_false] at e
    split at e
    case isTrue aliased =>
      have closes : ¬ OpensClass g n := by
        rw [OpensClass, node]
        rintro ⟨A', e, unnamed⟩
        cases target.symm.trans e
        exact aliased unnamed
      have cls : IsClass g n := by
        refine ⟨named, ?_⟩
        simp only [node, target, Option.isSome_some]
      obtain ⟨BTy, _, e⟩ := bind_eq_ok.1 e
      split at e
      all_goals
        cases e
        exact .renamed cls closes
    case isFalse unnamed =>
      obtain ⟨members, inner, same⟩ := bind_eq_ok.1 e
      cases same
      refine .dataclass ?_ fun line mem => printDepth_fields inner mem
      rw [OpensClass, node]
      exact ⟨A, target, not_not.1 unnamed⟩

/-- At the top, a typedef is printed by its base type. -/
lemma print_typedef {name : String} {bits : Nat} {base : Option Nat}
    (node : g.node n = .derived .typedef name bits base) :
    print g n true = printTypedef g (printDepth g (g.rank n)) (getName g n) n base true := by
  have resolved : resolve g (some n) = some n := by
    apply resolve_self
    simp [node, DIType.getTag]
  have closed : opensClass g n true = false := by simp [opensClass, node, DIType.getTag]
  rw [print, printDepth]
  simp only [resolved, closed, node, printResolved, DIType.getTag, Bool.false_eq_true, if_false,
    Bool.not_false, Bool.and_true, List.nil_append]
  cases printTypedef g (printDepth g (g.rank n)) (getName g n) n base true <;> rfl

/-- At the top, nothing is printed for a basic type. -/
lemma print_basic {name : String} {bits : Nat} (node : g.node n = .basic name bits) :
    print g n true = .ok [] := by
  have resolved : resolve g (some n) = some n := by
    apply resolve_self
    simp [node, DIType.getTag]
  have closed : opensClass g n true = false := by simp [opensClass, node, DIType.getTag]
  rw [print, printDepth]
  simp only [resolved, closed, node, printResolved, DIType.getTag]
  rfl

/-- At the top, nothing is printed for a composite type of another kind. -/
lemma print_unresolved {k : Nat} {name : String} {bits : Nat} {base : Option Nat} {elements : List DINode}
    (node : g.node n = .composite (.other k) name bits base elements) : print g n true = .ok [] := by
  have unresolved : resolve g (some n) = none := by
    rw [resolve, resolveUntil]
    simp [node, DIType.getTag]
  have closed : opensClass g n true = false := by simp [opensClass, node, DIType.getTag]
  rw [print, printDepth]
  simp only [unresolved, closed]
  rfl

/-- A structure or union with a name has its class, and the fields that it has inside of another one. -/
lemma print_record {tag : Tag} {name : String} {bits : Nat} {base : Option Nat} {elements : List DINode}
    (node : g.node n = .composite tag name bits base elements) (record : IsRecord g n)
    (named : getName g n ≠ "") :
    print g n true = (do
      let fields ← printDepth g (g.rank n + 1) n false
      .ok (.dataclass (getName g n) :: fields)) := by
  have resolved : resolve g (some n) = some n := by
    apply resolve_self
    rcases record with tag | tag <;> simp [tag]
  have opened : opensClass g n true = true := by
    rcases record with tag | tag <;> simp [opensClass, tag, named]
  rw [printDepth_composite node resolved, print, printDepth]
  simp only [resolved, opened, node, if_true, Bool.not_true, Bool.and_false, bind_assoc, ok_bind]
  rfl

/-- A paragraph is empty, or defines the name of its type in the first line and nothing else. -/
lemma print_shape (names : Names g) (type : (g.node n).getTag ≠ .member) (named : getName g n ≠ "")
    (e : print g n true = .ok lines) : Shape g n lines := by
  cases node : g.node n with
  | basic name bits =>
    rw [print_basic node] at e
    cases e
    refine .nothing fun cls => ?_
    rw [IsClass, node] at cls
    exact cls.2
  | subroutine =>
    rw [getName, node] at named
    exact absurd rfl named
  | derived tag name bits base =>
    have name_eq : getName g n = name := by rw [getName, node, DIType.getName]
    obtain rfl | rfl := names.derived_name n tag name bits base node (name_eq ▸ named)
    · rw [print_typedef node] at e
      exact printTypedef_shape named node e
    · rw [node] at type
      exact absurd rfl type
  | composite tag name bits base elements =>
    have name_eq : getName g n = name := by rw [getName, node, DIType.getName]
    have opens : tag = .structureType ∨ tag = .unionType → Shape g n lines := by
      intro kind
      have record : IsRecord g n := by rwa [IsRecord, node, DIType.getTag]
      rw [print_record node record named] at e
      obtain ⟨fields, inner, e⟩ := bind_eq_ok.1 e
      cases e
      refine .dataclass ?_ fun line mem => printDepth_fields inner mem
      rw [OpensClass, node]
      obtain rfl | rfl := kind <;> trivial
    obtain rfl | rfl | ⟨k, rfl⟩ := names.composite_name n tag name bits base elements node (name_eq ▸ named)
    · exact opens (.inl rfl)
    · exact opens (.inr rfl)
    · rw [print_unresolved node] at e
      cases e
      refine .nothing fun cls => ?_
      rw [IsClass, node] at cls
      exact cls.2

/-- A paragraph defines no name but that of its type, which it has a definition for. -/
lemma print_defines (names : Names g) {name : String} (type : (g.node n).getTag ≠ .member)
    (named : getName g n ≠ "") (e : print g n true = .ok lines) (mem : line ∈ lines)
    (defines : line.defines = some name) : name = getName g n ∧ IsClass g n := by
  cases print_shape names type named e with
  | nothing _ => cases mem
  | dataclass opens fields =>
    obtain rfl | mem := List.mem_cons.1 mem
    · exact ⟨(Option.some.inj defines).symm, opensClass_isClass named opens⟩
    · cases (fields line mem).symm.trans defines
  | renamed cls _ =>
    rw [List.mem_singleton.1 mem] at defines
    exact ⟨(Option.some.inj defines).symm, cls⟩

/-- A definition is no member. -/
lemma IsClass.type (cls : IsClass g n) : (g.node n).getTag ≠ .member := by
  intro member
  obtain ⟨_, cls⟩ := cls
  cases node : g.node n with
  | derived tag name bits base =>
    rw [node] at member
    obtain rfl : tag = .member := member
    rw [node] at cls
    exact cls
  | basic => simp [node] at cls
  | subroutine => simp [node] at cls
  | composite tag name bits base elements =>
    rw [node] at member
    obtain rfl : tag = .member := member
    rw [node] at cls
    exact cls

/-- The paragraph of a type with a definition defines its name. -/
lemma print_class (names : Names g) (cls : IsClass g n) (e : print g n true = .ok lines) :
    ∃ line ∈ lines, line.defines = some (getName g n) := by
  cases print_shape names cls.type cls.1 e with
  | nothing none => exact absurd cls none
  | dataclass _ _ => exact ⟨_, .head _, rfl⟩
  | renamed _ _ => exact ⟨_, .head _, rfl⟩

/-- The walk does not start at a member. -/
lemma start_type {ST : String} (e : start g types ST = some n) :
    (g.node n).getTag ≠ .member := by
  rw [start] at e
  split at e
  · cases e
  · have found := List.find?_some e
    intro member
    rw [member] at found
    simp at found

/-- None of the starts is a member. -/
lemma starts_type (mem : n ∈ starts g types structTypes) :
    (g.node n).getTag ≠ .member := by
  obtain ⟨ST, _, e⟩ := List.mem_filterMap.1 mem
  exact start_type e

end Irx.Generator
