import Irx.Generator.Walk

/-!
# The classes of the file

`generate_struct` remembers the types it has dealt with by their names, which a structure and a typedef may
share. So the name of a structure or a union gets a class if and only if the first type with this name that
the walk comes to is one for which a class is written (`class_defined_iff`): after a typedef of a type that
has a name, only the alias is there.
-/

namespace Irx.Generator
open Irx.Lib Irx.Debug

/-- The file has a class with the name. -/
def HasClass (file : List (List Line)) (name : String) : Prop := ∃ lines ∈ file, .dataclass name ∈ lines

/-- The types that the walk comes to, in this order. -/
def Reaches (g : DebugInfo) (types : List Nat) (structTypes : List String) (reached : List Nat) : Prop :=
  ∃ done, Comes (typeName g) (references g) [] (starts g types structTypes) reached done

variable {g : DebugInfo} {n m depth : Nat} {ctx : GeneratorStruct} {lines : List Line} {types : List Nat}
  {structTypes : List String} {done done' : List String} {l visits : List Nat}

/-- The walk comes to no members. -/
lemma comes_type (names : Names g) (comes : Comes (typeName g) (references g) done l visits done')
    (types : ∀ n ∈ l, (g.node n).getTag ≠ .member) (mem : n ∈ visits) : (g.node n).getTag ≠ .member := by
  have below : ∀ m, ∀ n ∈ references g m, (g.node n).getTag ≠ .member :=
    fun m n mem => reference_type names mem
  induction comes with
  | nil => cases mem
  | known _ _ _ ih =>
    obtain rfl | mem := List.mem_cons.1 mem
    · exact types _ (.head _)
    · exact ih (fun m mem => types m (.tail _ mem)) mem
  | enter _ _ _ _ inner rest =>
    obtain rfl | mem := List.mem_cons.1 mem
    · exact types _ (.head _)
    · obtain mem | mem := List.mem_append.1 mem
      · exact inner (below _) mem
      · exact rest (fun m mem => types m (.tail _ mem)) mem
  | through _ _ _ inner rest =>
    obtain rfl | mem := List.mem_cons.1 mem
    · exact types _ (.head _)
    · obtain mem | mem := List.mem_append.1 mem
      · exact inner (below _) mem
      · exact rest (fun m mem => types m (.tail _ mem)) mem

/-- A node prints the class of its own name only. -/
lemma print_class_iff (names : Names g) (type : (g.node n).getTag ≠ .member) (named : getName g n ≠ "")
    (e : print g n true = .ok lines) {name : String} :
    .dataclass name ∈ lines ↔ OpensClass g n ∧ name = getName g n := by
  cases print_shape names type named e with
  | nothing none => simpa using fun opens => absurd (opensClass_isClass named opens) none
  | @dataclass fields opens plain =>
    rw [List.mem_cons, Line.dataclass.injEq, and_iff_right opens, or_iff_left]
    intro mem
    cases plain _ mem
  | renamed _ closed => simpa using fun opens => absurd opens closed

/-- The file, as the walk comes to its types: there is a paragraph for the first type with a name. -/
lemma generate_comes (names : Names g) (ran : generate g depth types structTypes = .ok ctx) :
    ∃ reached, Comes (typeName g) (references g) [] (starts g types structTypes) reached ctx.done ∧
      ∃ out, (∀ m, m ∈ out ↔ First (typeName g) [] reached m) ∧
        List.Forall₂ (fun n lines => print g n true = .ok lines) out ctx.Output := by
  obtain ⟨out, walk, _, printed⟩ := fold_walk (fun m mem ctx ctx' out e printed =>
    generate_struct_walk names (starts_type mem) e printed) ran ⟨nofun, .nil⟩
  obtain ⟨reached, comes, new, grows, listed⟩ := walk.comes
  rw [List.nil_append] at grows
  exact ⟨reached, comes, out, grows ▸ listed, printed⟩

/-- The file has a class for a structure or a union that the walk comes to if and only if the first type with
its name that the walk comes to is a structure, a union, or a typedef of a type without a name. -/
theorem class_defined_iff (g : DebugInfo) (names : Names g) {depth : Nat} {types : List Nat}
    {structTypes : List String} {ctx : GeneratorStruct}
    (ran : generate g depth types structTypes = .ok ctx) :
    ∃ reached, Reaches g types structTypes reached ∧ ∀ n ∈ reached, IsRecord g n → getName g n ≠ "" →
      (HasClass ctx.Output (getName g n) ↔
        ∃ first, reached.find? (fun m => getName g m = getName g n) = some first ∧ OpensClass g first) := by
  obtain ⟨reached, comes, out, listed, printed⟩ := generate_comes names ran
  refine ⟨reached, ⟨_, comes⟩, fun n mem _ named => ?_⟩
  have types : ∀ m ∈ reached, (g.node m).getTag ≠ .member := fun m mem =>
    comes_type names comes (fun m mem => starts_type mem) mem
  have marked : ∀ m ∈ reached, typeName g m = some (getName g n) ↔ getName g m = getName g n := by
    intro m mem
    rw [typeName_of_type (types m mem)]
    split
    case isTrue unnamed =>
      rw [unnamed]
      exact ⟨nofun, fun same => absurd same.symm named⟩
    case isFalse => rw [Option.some.injEq]
  have found : reached.find? (fun m => typeName g m = some (getName g n)) =
      reached.find? (fun m => getName g m = getName g n) := by
    apply List.find?_congr
    intro m mem
    rw [decide_eq_decide]
    exact marked m mem
  have first : ∀ m, First (typeName g) [] reached m ∧ getName g m = getName g n ↔
      reached.find? (fun m => getName g m = getName g n) = some m := by
    intro m
    rw [← found]
    constructor
    · rintro ⟨⟨k, _, key, e⟩, same⟩
      have there := List.mem_of_find?_eq_some e
      cases key.symm.trans ((marked m there).2 same)
      exact e
    · intro e
      have there := List.mem_of_find?_eq_some e
      have key : typeName g m = some (getName g n) := by simpa using List.find?_some e
      exact ⟨⟨_, List.not_mem_nil, key, e⟩, (marked m there).1 key⟩
  constructor
  · rintro ⟨lines, inside, cls⟩
    obtain ⟨m, mem, prints⟩ := forall₂_mem printed.flip inside
    have early := (listed m).1 mem
    obtain ⟨k, _, key, e⟩ := id early
    have there := List.mem_of_find?_eq_some e
    have name : getName g m ≠ "" := by
      rw [typeName_of_type (types m there)] at key
      intro unnamed
      rw [if_pos unnamed] at key
      cases key
    obtain ⟨opens, same⟩ := (print_class_iff names (types m there) name prints).1 cls
    exact ⟨m, (first m).1 ⟨early, same.symm⟩, opens⟩
  · rintro ⟨m, e, opens⟩
    obtain ⟨early, same⟩ := (first m).2 e
    obtain ⟨lines, inside, prints⟩ := forall₂_mem printed ((listed m).2 early)
    refine ⟨lines, inside, ?_⟩
    have type := types m (List.mem_of_find?_eq_some e)
    exact (print_class_iff names type (same ▸ named) prints).2 ⟨opens, same.symm⟩

/-- The name that two types share. -/
def sharedName : String := "X"

/-- `typedef struct X { int a; } X; struct S { X x; };` -/
def sharedGraph : DebugInfo := .ofList [
  .composite .structureType "S" 32 none [.type 1],
  .derived .member "x" 32 (some 2),
  .derived .typedef sharedName 0 (some 3),
  .composite .structureType sharedName 32 none [.type 4],
  .derived .member "a" 32 (some 5),
  .basic "int" 32] (by decide)

/-- The names are those of C types. -/
lemma shared_names : Names sharedGraph where
  base_type n b e := by
    obtain _ | _ | _ | _ | _ | _ | n := n
    all_goals cases e <;> decide
  derived_name n tag name bits base e _ := by
    obtain _ | _ | _ | _ | _ | _ | n := n
    all_goals cases e <;> first | exact .inr rfl | exact .inl rfl
  composite_name n tag name bits base elements e _ := by
    obtain _ | _ | _ | _ | _ | _ | n := n
    all_goals cases e <;> exact .inl rfl

/-- With `X` itself first, the file has its class. -/
theorem class_defined_iff_shared : ∃ reached, Reaches sharedGraph [3, 2, 0] ["struct.X", "struct.S"] reached ∧
    ∀ n ∈ reached, IsRecord sharedGraph n → getName sharedGraph n ≠ "" →
      (HasClass [[], [.dataclass sharedName, .field "a" (.primitive "Int32")],
          [.dataclass "S", .field "x" (.embedded sharedName)]] (getName sharedGraph n) ↔
        ∃ first, reached.find? (fun m => getName sharedGraph m = getName sharedGraph n) = some first ∧
          OpensClass sharedGraph first) := by
  have ran : generate sharedGraph 5 [3, 2, 0] ["struct.X", "struct.S"] = .ok ⟨[sharedName, "int", "S"],
      [[], [.dataclass sharedName, .field "a" (.primitive "Int32")],
        [.dataclass "S", .field "x" (.embedded sharedName)]]⟩ := rfl
  exact class_defined_iff sharedGraph shared_names ran

/-- From `S`, the walk comes to the typedef first: the file has `X=X` and no class for the structure. -/
theorem class_missing : ∃ ctx reached,
    generate sharedGraph 5 [0, 2, 3] ["struct.S", "struct.X"] = .ok ctx ∧
      Reaches sharedGraph [0, 2, 3] ["struct.S", "struct.X"] reached ∧
      3 ∈ reached ∧ IsRecord sharedGraph 3 ∧ getName sharedGraph 3 ≠ "" ∧
      ¬ HasClass ctx.Output (getName sharedGraph 3) := by
  have ran : generate sharedGraph 5 [0, 2, 3] ["struct.S", "struct.X"] = .ok ⟨["S", sharedName],
      [[.alias sharedName sharedName], [.dataclass "S", .field "x" (.embedded sharedName)]]⟩ := rfl
  have known : Comes (typeName sharedGraph) (references sharedGraph) ["S", sharedName] [3] [3]
      ["S", sharedName] := .known rfl (by decide : sharedName ∈ _) .nil
  have again : Comes (typeName sharedGraph) (references sharedGraph) ["S", sharedName] [2] [2]
      ["S", sharedName] := .known rfl (by decide : sharedName ∈ _) .nil
  have key : typeName sharedGraph 2 = some sharedName := rfl
  have typedef : Comes (typeName sharedGraph) (references sharedGraph) ["S"] [2] [2, 3]
      ["S", sharedName] := .enter key (by decide : sharedName ∉ ["S"]) known .nil
  have key' : typeName sharedGraph 0 = some "S" := rfl
  have walk : Comes (typeName sharedGraph) (references sharedGraph) [] [0, 2] [0, 2, 3, 2]
      ["S", sharedName] := .enter key' List.not_mem_nil typedef again
  refine ⟨_, _, ran, ⟨_, walk⟩, by decide, .inl rfl, by decide, ?_⟩
  rintro ⟨lines, mem, cls⟩
  rw [List.mem_pair] at mem
  obtain rfl | rfl := mem
  · cases List.mem_singleton.1 cls
  · revert cls
    decide

end Irx.Generator
