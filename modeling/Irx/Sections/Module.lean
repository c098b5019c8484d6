import Irx.Basic

/-!
# Modules with sections

A module is the list of its global variables, its aliases and the names of its functions. Its symbol
table gives a name once, and an initializer has the type of its variable; both are fields. References
are by name: an alias takes the name of the variable it replaces, so replacing all uses of the
variable changes nothing else.
-/

namespace Irx.Sections

/-- A type: an array, or another one by its name. -/
inductive IRType where
  | named (name : String)
  | array (count : Nat) (elem : IRType)
  deriving DecidableEq

/-- `isArrayTy`. -/
def IRType.isArrayTy : IRType → Bool
  | .array _ _ => true
  | .named _ => false

/-- `getArrayElementType`, which asserts that the type is an array. -/
def IRType.getArrayElementType : IRType → Except Abort IRType
  | .array _ elem => .ok elem
  | .named _ => .error .assertion

/-- A constant: a value of a type, the null value of a type, or an array. -/
inductive Constant where
  | value (type : IRType) (text : String)
  | null (type : IRType)
  | array (elem : IRType) (elems : List Constant)

/-- The type of a constant. -/
def Constant.getType : Constant → IRType
  | .value type _ => type
  | .null type => type
  | .array elem elems => .array elems.length elem

/-- A global variable; a declaration has no initializer. -/
structure GlobalVariable where
  name : String
  section_ : String
  valueType : IRType
  initializer : Option Constant
  typed : ∀ C ∈ initializer, C.getType = valueType

/-- `getInitializer`, which asserts that there is one. -/
def GlobalVariable.getInitializer (G : GlobalVariable) : Except Abort Constant :=
  match G.initializer with
  | some C => .ok C
  | none => .error .assertion

/-- An alias for a place in the array `area` of `count` elements: the two 32-bit indices of a
`getelementptr`. -/
structure GlobalAlias where
  name : String
  valueType : IRType
  area : String
  count : Nat
  index0 : Nat
  index1 : Nat

/-- A 32-bit index as the signed number that `getelementptr` takes it for. -/
def signed32 (index : Nat) : Int :=
  if index < 2147483648 then index else (index : Int) - 4294967296

/-- The place of an alias, in elements from the start of its array. -/
def GlobalAlias.position (A : GlobalAlias) : Int :=
  signed32 A.index0 * A.count + signed32 A.index1

/-- The names of a symbol table. -/
def symbolTable (globals : List GlobalVariable) (aliases : List GlobalAlias)
    (functions : List String) : List String :=
  globals.map GlobalVariable.name ++ (aliases.map GlobalAlias.name ++ functions)

/-- A module. -/
structure Module where
  globals : List GlobalVariable
  aliases : List GlobalAlias
  functions : List String
  nodup : (symbolTable globals aliases functions).Nodup

namespace Module

/-- All names of the module. -/
def names (M : Module) : List String := symbolTable M.globals M.aliases M.functions

/-- `getNamedGlobal`. -/
def getNamedGlobal (M : Module) (name : String) : Option GlobalVariable :=
  M.globals.find? fun G => G.name = name

/-- What is found is a global of the name. -/
lemma getNamedGlobal_some {M : Module} {name : String} {G : GlobalVariable}
    (found : M.getNamedGlobal name = some G) : G ∈ M.globals ∧ G.name = name :=
  ⟨List.mem_of_find?_eq_some found, of_decide_eq_true (List.find?_some found :)⟩

/-- No two globals have one name. -/
lemma globals_nodup (M : Module) : (M.globals.map GlobalVariable.name).Nodup :=
  (List.nodup_append.1 M.nodup).1

/-- A global is found by its name. -/
lemma getNamedGlobal_of_mem {M : Module} {G : GlobalVariable} (mem : G ∈ M.globals) :
    M.getNamedGlobal G.name = some G := by
  cases found : M.getNamedGlobal G.name with
  | none =>
    have absent := List.find?_eq_none.1 found G mem
    exact absurd (decide_eq_true rfl) absent
  | some G' =>
    obtain ⟨mem', same⟩ := getNamedGlobal_some found
    rw [List.inj_on_of_nodup_map M.globals_nodup mem' mem same]

/-- No two aliases have one name. -/
lemma alias_unique {M : Module} {A B : GlobalAlias} (memA : A ∈ M.aliases) (memB : B ∈ M.aliases)
    (same : A.name = B.name) : A = B :=
  List.inj_on_of_nodup_map (List.nodup_append.1 (List.nodup_append.1 M.nodup).2.1).1 memA memB same

/-- An alias has the name of no global. -/
lemma alias_not_global {M : Module} {A : GlobalAlias} {G : GlobalVariable} (memA : A ∈ M.aliases)
    (memG : G ∈ M.globals) : A.name ≠ G.name := by
  have apart := (List.nodup_append.1 M.nodup).2.2
  have left := List.mem_map_of_mem (f := GlobalVariable.name) memG
  have right := List.mem_map_of_mem (f := GlobalAlias.name) memA
  exact (apart _ left _ (List.mem_append_left _ right)).symm

/-- A global with a new name can be added. -/
lemma nodup_addGlobal {M : Module} {G : GlobalVariable} (fresh : G.name ∉ M.names) :
    (symbolTable (M.globals ++ [G]) M.aliases M.functions).Nodup := by
  have front : (symbolTable (M.globals ++ [G]) M.aliases M.functions).Perm
      (G.name :: M.names) := by
    rw [symbolTable, List.map_append, List.append_assoc]
    exact List.perm_middle
  rw [front.nodup_iff, List.nodup_cons]
  exact ⟨fresh, M.nodup⟩

/-- The module with one more global variable. -/
def addGlobal (M : Module) (G : GlobalVariable) (fresh : G.name ∉ M.names) : Module :=
  ⟨M.globals ++ [G], M.aliases, M.functions, nodup_addGlobal fresh⟩

/-- An alias that takes the name of a removed global variable keeps the names different. -/
lemma nodup_replace {M : Module} {G : GlobalVariable} {A : GlobalAlias} (mem : G ∈ M.globals)
    (name : A.name = G.name) :
    (symbolTable (M.globals.filter fun G' => G'.name ≠ A.name) (M.aliases ++ [A])
      M.functions).Nodup := by
  obtain ⟨globals, rest, apart⟩ := List.nodup_append.1 M.nodup
  have taken : A.name ∈ M.globals.map GlobalVariable.name := name ▸ List.mem_map_of_mem mem
  have front : ((M.aliases ++ [A]).map GlobalAlias.name ++ M.functions).Perm
      (A.name :: (M.aliases.map GlobalAlias.name ++ M.functions)) := by
    rw [List.map_append, List.append_assoc]
    exact List.perm_middle
  refine List.nodup_append.2 ⟨globals.sublist (List.filter_sublist.map _), ?_, ?_⟩
  · rw [front.nodup_iff, List.nodup_cons]
    exact ⟨fun other => apart _ taken _ other rfl, rest⟩
  · intro n memG n' memR same
    subst same
    obtain ⟨G', memG', rfl⟩ := List.mem_map.1 memG
    obtain ⟨memG', ne⟩ := List.mem_filter.1 memG'
    obtain e | memR := List.mem_cons.1 (front.mem_iff.1 memR)
    · exact of_decide_eq_true ne e
    · exact apart _ (List.mem_map_of_mem memG') _ memR rfl

/-- The module with the alias in the place of a global variable. -/
def replace (M : Module) {G : GlobalVariable} (A : GlobalAlias) (mem : G ∈ M.globals)
    (name : A.name = G.name) : Module :=
  ⟨M.globals.filter fun G' => G'.name ≠ A.name, M.aliases ++ [A], M.functions,
    nodup_replace mem name⟩

end Module

/-- How the symbol table renames a new global whose name is taken. -/
structure Naming where
  rename : List String → String → String
  fresh : ∀ used name, rename used name ∉ used

/-- The name a new global gets. -/
def Naming.newName (N : Naming) (M : Module) (name : String) : String :=
  if name ∈ M.names then N.rename M.names name else name

/-- A new name is new. -/
lemma Naming.newName_fresh (N : Naming) (M : Module) (name : String) :
    N.newName M name ∉ M.names := by
  rw [newName]
  split
  case isTrue => exact N.fresh _ _
  case isFalse free => exact free

end Irx.Sections
