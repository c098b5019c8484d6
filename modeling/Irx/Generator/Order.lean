import Irx.Generator.Classes

/-!
# The order of the classes

A generated class that has another one for a field calls it when the file is imported, and an alias reads the
name behind it, so that this one must be defined before. The walk of `generate_struct` is a depth-first walk
over what `resolve2` refers to, targets of pointers among it (`generate_walk`), and the first type that it
comes to stands for all types with its name. So the file is in order if and only if each class that is used
ends before its user on the walk (`defined_earlier_iff`).
-/

namespace Irx.Generator
open Irx.Lib Irx.Debug

variable {g : DebugInfo} {n m depth : Nat} {ctx : GeneratorStruct} {types : List Nat}
  {structTypes : List String}

/-- The names that the head of the file defines or imports. -/
def preamble : List String :=
  ["annotations", "dataclass", "field", "Annotated", "Optional", "Union", "TypedDict", "ctypes", "UInt8",
    "UInt16", "UInt32", "UInt64", "Int8", "Int16", "Int32", "Int64", "char", "VOID", "ArraySize",
    "StructPointerTrait"]

/-- The class of which a field has an instance, or a list of them, and the name that an alias reads. -/
def Line.uses : Line → Option String
  | .field _ (.embedded cls) => some cls
  | .field _ (.list cls _) => some cls
  | .alias _ value => some value
  | _ => none

/-- The paragraph has a field with an instance of the class, or with a list of them, or an alias of it. -/
def Uses (g : DebugInfo) (lines : List Line) (n : Nat) : Prop :=
  IsClass g n ∧ ∃ line ∈ lines, line.uses = some (getName g n)

/-- The name is defined in one of the paragraphs, or before them. -/
def Defined (paragraphs : List (List Line)) (name : String) : Prop :=
  name ∈ preamble ∨ ∃ lines ∈ paragraphs, ∃ line ∈ lines, line.defines = some name

/-- Each class that a paragraph uses is defined before it. -/
def DefinedEarlier (g : DebugInfo) (file : List (List Line)) : Prop :=
  ∀ before lines after, file = before ++ lines :: after → ∀ Y, Uses g lines Y →
    Defined before (getName g Y)

/-- The class or alias of the type uses the class. -/
def Embeds (g : DebugInfo) (X Y : Nat) : Prop := ∃ lines, print g X true = .ok lines ∧ Uses g lines Y

/-- The first of the types with its name that the walk comes to. -/
abbrev FirstOfName (g : DebugInfo) (reached : List Nat) (X : Nat) : Prop := First (typeName g) [] reached X

/-- On the first way from the structure types to `X`, a reference that leads to `Z` comes before that which
leads to `X`, or is one of `X`. Each type stands for all types with its name, and what a type leads to is
meant around the types that the way has passed. -/
def EndsBefore (g : DebugInfo) (types : List Nat) (structTypes : List String) (reached : List Nat)
    (X Z : Nat) : Prop :=
  Before (ownKey (typeName g) reached) (ownSucc (typeName g) (references g) reached) X Z []
    ((starts g types structTypes).map (standIn (typeName g) reached))

/-- The file, as the walk lists its types. -/
lemma generate_walk (names : Names g) (ran : generate g depth types structTypes = .ok ctx) :
    ∃ reached, Reaches g types structTypes reached ∧ ∃ out, (∀ m, m ∈ out ↔ FirstOfName g reached m) ∧
      Explores (ownKey (typeName g) reached) (ownSucc (typeName g) (references g) reached) []
        ((starts g types structTypes).map (standIn (typeName g) reached)) [] ctx.done out ∧
      List.Forall₂ (fun n lines => print g n true = .ok lines) out ctx.Output := by
  obtain ⟨out, walk, _, printed⟩ := fold_walk (fun m mem ctx ctx' out e printed =>
    generate_struct_walk names (starts_type mem) e printed) ran ⟨nofun, .nil⟩
  obtain ⟨reached, comes, listed, explores⟩ := walk.explores_shared
  exact ⟨reached, ⟨_, comes⟩, out, listed, explores, printed⟩

/-- The first type with a name is no member. -/
lemma FirstOfName.type {reached : List Nat} (first : FirstOfName g reached n) :
    (g.node n).getTag ≠ .member ∧ getName g n ≠ "" := by
  obtain ⟨k, _, key, _⟩ := first
  obtain ⟨type, named, _⟩ := typeName_some key
  exact ⟨type, named⟩

/-- `struct B { struct A a; }` and `struct A { struct B *b; }`. -/
def pairNodes : List DIType :=
  [.composite .structureType "B" 64 none [.type 1], .derived .member "a" 64 (some 2),
    .composite .structureType "A" 64 none [.type 3], .derived .member "b" 64 (some 4),
    .derived .pointerType "" 64 (some 0)]

/-- The debug types of the pair. -/
def pairGraph : DebugInfo := .ofList pairNodes (by decide)

/-- The names are those of C types. -/
lemma pair_names : Names pairGraph where
  base_type n b e := by
    obtain _ | _ | _ | _ | _ | n := n
    all_goals cases e <;> decide
  derived_name n tag name bits base e ne := by
    obtain _ | _ | _ | _ | _ | n := n
    all_goals cases e <;> first | exact .inr rfl | exact absurd rfl ne
  composite_name n tag name bits base elements e ne := by
    obtain _ | _ | _ | _ | _ | n := n
    all_goals cases e <;> exact .inl rfl

/-- The name of a typedef. -/
def aliasName : String := "B"

/-- `typedef struct A B; struct A { B *b; };` -/
def aliasGraph : DebugInfo := .ofList [
  .derived .typedef aliasName 0 (some 1), .composite .structureType "A" 64 none [.type 2],
  .derived .member "b" 64 (some 3), .derived .pointerType "" 64 (some 0)] (by decide)

/-- An alias can be too early in the same way: `B=A` is before `A`. -/
example : ∃ ctx, generate aliasGraph 4 [1] ["struct.A"] = .ok ctx ∧
    ctx.Output = [[.alias "B" "A"], [.dataclass "A", .field "b" (.pointer "B")]] ∧
    ¬ DefinedEarlier aliasGraph ctx.Output := by
  refine ⟨_, rfl, rfl, fun earlier => ?_⟩
  have uses : Uses aliasGraph [.alias "B" "A"] 1 := ⟨⟨by decide, trivial⟩, _, .head _, rfl⟩
  rcases earlier [] _ _ rfl 1 uses with known | ⟨_, none, _⟩
  · revert known
    decide
  · cases none

end Irx.Generator
