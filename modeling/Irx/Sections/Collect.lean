import Irx.Sections.Finders
import Irx.Sections.Module
import Irx.Lib.OrderedMap

/-!
# Emulation of the linker script

For every finder, `collectLinkerScriptSections` groups the matching globals by level and section name,
emits one array with their initializers in this order, and replaces the globals declared as start,
level and end symbols by aliases into the array.
-/

namespace Irx.Sections
open Irx.Lib

/-- The map `GVs` and the finder with the levels pushed so far. -/
structure Gathered where
  GVs : String → OrdMap String GlobalVariable
  finder : SectionFinder

/-- The body of the collecting loop for one global. -/
def gatherGlobal (g : Gathered) (Global : GlobalVariable) : Except Abort Gathered :=
  if Global.section_ = "" then .ok g
  else
    match g.finder.test Global.section_ with
    | none => .ok g
    | some sec =>
      if g.finder.hasLevel sec then do
        let level ← g.finder.level sec
        .ok ⟨Function.update g.GVs level ((g.GVs level).insert Global.section_ Global),
          g.finder.push_level level⟩
      else .ok g

/-- The collecting loop. -/
def gather (F : SectionFinder) (M : Module) : Except Abort Gathered :=
  M.globals.foldlM gatherGlobal ⟨fun _ => .empty, F⟩

/-- The collected globals in the order of the array. -/
def Gathered.collected (g : Gathered) : List GlobalVariable :=
  g.finder.list.flatMap fun level => (g.GVs level).values

/-- `indices`: where each level starts. -/
def Gathered.indices (g : Gathered) : List Nat :=
  (List.range g.finder.list.length).map fun k =>
    ((g.finder.list.take k).flatMap fun level => (g.GVs level).values).length

/-- `getDefaultType`. -/
def SectionFinder.getDefaultType (F : SectionFinder) : IRType :=
  match F.kind with
  | .native _ => .named "void ()*"
  | .static _ => .named "i8*"

/-- `getType`: by the start symbol, else by the end symbol, else the type found, else the default. -/
def SectionFinder.getType (F : SectionFinder) (M : Module) (Ty : Option IRType) : IRType :=
  match (M.getNamedGlobal F.start).or (M.getNamedGlobal F.stop) with
  | some TGV =>
    match TGV.valueType with
    | .array _ elem => elem
    | .named name => .named name
  | none => Ty.getD F.getDefaultType

/-- The elements that `emitLinkerScriptGlobal` stores: a value of another type becomes null. -/
def castedValues (Ty : IRType) (values : List Constant) : List Constant :=
  values.map fun v => if Ty ≠ v.getType then .null Ty else v

/-- The global variable that `emitLinkerScriptGlobal` creates under a name. -/
def SectionGV (name : String) (Ty : IRType) (values : List Constant) : GlobalVariable where
  name := name
  section_ := ""
  valueType := .array values.length Ty
  initializer := some (.array Ty (castedValues Ty values))
  typed C mem := by
    cases mem
    rw [Constant.getType, castedValues, List.length_map]

/-- `emitLinkerScriptGlobal`: the module with the array. -/
def emitLinkerScriptGlobal (N : Naming) (M : Module) (sec : String) (Ty : IRType)
    (values : List Constant) : Module :=
  M.addGlobal (SectionGV (N.newName M sec) Ty values) (N.newName_fresh M sec)

/-- The array is appended to the globals. -/
lemma emitLinkerScriptGlobal_globals (N : Naming) (M : Module) (sec : String) (Ty : IRType)
    (values : List Constant) : (emitLinkerScriptGlobal N M sec Ty values).globals =
      M.globals ++ [SectionGV (N.newName M sec) Ty values] := rfl

/-- The indices of the `getelementptr` for an offset; the end of a filled array is written as the
start of the next one. -/
def gepIndices (count offset1 : Nat) : Nat × Nat :=
  if count ≠ 0 ∧ offset1 = count then (1, 0) else (0, offset1 % 4294967296)

/-- The alias that `emitLinkerScriptGlobalsOffset` creates. -/
def GA (sec : String) (valueType : IRType) (area : String) (count offset1 : Nat) : GlobalAlias :=
  ⟨sec, valueType, area, count, (gepIndices count offset1).1, (gepIndices count offset1).2⟩

/-- `emitLinkerScriptGlobalsOffset`: a declared symbol becomes an alias into the array
`globalVariable`. The type of the array is read first, also when an earlier symbol was the array itself
and has erased it. A symbol that is neither of the element type nor an array leaves the aliasee null, which
is dereferenced. -/
def emitLinkerScriptGlobalsOffset (M : Module) (sec : String) (values : List Constant)
    (globalVariable : GlobalVariable) (offset1 : Nat) : Except Abort Module :=
  if (M.getNamedGlobal globalVariable.name).isNone then .error .undefined
  else do
    let Ty ← globalVariable.valueType.getArrayElementType
    match found : M.getNamedGlobal sec with
    | none => .ok M
    | some offsetGV =>
      if offsetGV.valueType = Ty ∨ offsetGV.valueType.isArrayTy then
        .ok (M.replace (GA sec offsetGV.valueType globalVariable.name values.length offset1)
          (Module.getNamedGlobal_some found).1 (Module.getNamedGlobal_some found).2.symm)
      else .error .undefined

/-- The collected initializers. -/
def Gathered.values (g : Gathered) : Except Abort (List Constant) :=
  g.collected.mapM GlobalVariable.getInitializer

/-- The element type of the array: by the type of the first collected global. -/
def Gathered.elemType (g : Gathered) (M : Module) : IRType :=
  g.finder.getType M (g.collected.head?.map GlobalVariable.valueType)

/-- The symbols of the levels with their places. A level without a name has none. -/
def emitLevels (F : SectionFinder) (values : List Constant) (area : GlobalVariable) (M : Module)
    (level : String × Nat) : Except Abort Module :=
  if level.1 = "" then .ok M
  else do
    let name ← F.name level.1
    emitLinkerScriptGlobalsOffset M name values area level.2

/-- The start symbol, if there is a level. -/
def emitStart (g : Gathered) (values : List Constant) (area : GlobalVariable) (M : Module) :
    Except Abort Module :=
  match g.indices with
  | [] => .ok M
  | front :: _ => emitLinkerScriptGlobalsOffset M g.finder.start values area front

/-- The symbols of a finder: the start, the levels and the end. -/
def emitSymbols (g : Gathered) (values : List Constant) (area : GlobalVariable) (M : Module) :
    Except Abort Module := do
  let M ← emitStart g values area M
  let M ← (g.finder.list.zip g.indices).foldlM (emitLevels g.finder values area) M
  emitLinkerScriptGlobalsOffset M g.finder.stop values area (values.length + 1)

/-- The turn of a finder up to the array: what it gathered, the values and the module with the array. -/
def emitArea (N : Naming) (F : SectionFinder) (M : Module) :
    Except Abort (Gathered × List Constant × Module) := do
  let g ← gather F M
  let values ← g.values
  .ok (g, values, emitLinkerScriptGlobal N M F.sectionName (g.elemType M) values)

/-- The turn of a finder. -/
def collectFinder (N : Naming) (M : Module) (F : SectionFinder) : Except Abort Module := do
  let (g, values, M') ← emitArea N F M
  emitSymbols g values (SectionGV (N.newName M F.sectionName) (g.elemType M) values) M'

/-- The sections that `InitializeZephyrSectionFinders` starts with. -/
def mandatory : List String :=
  ["k_object_assignment", "k_p4wq_initparam", "_static_thread_data", "irq_alloc", "device",
    "_deferred_init", "k_heap"]

/-- The static section of a global that is not in the list yet is added to it. -/
def findSection (found : List String) (Global : GlobalVariable) : List String :=
  if Global.section_ = "" then found
  else
    match (SectionFinder.static "").test Global.section_ with
    | some object => if object ∈ found then found else found ++ [object]
    | none => found

/-- `InitializeZephyrSectionFinders`: the native finders, and one for each static object. -/
def InitializeZephyrSectionFinders (M : Module) : List SectionFinder :=
  (M.globals.foldl findSection mandatory).map .static ++ configs.map .native

/-- `collectLinkerScriptSections`: the turns of all finders. -/
def collectLinkerScriptSections (N : Naming) (M : Module) : Except Abort Module :=
  (InitializeZephyrSectionFinders M).foldlM (collectFinder N) M

/-- The finders that have a turn, each with the module that it finds. -/
def turns (N : Naming) : List SectionFinder → Module → List (SectionFinder × Module)
  | [], _ => []
  | F :: finders, M =>
    (F, M) :: match collectFinder N M F with
      | .ok M' => turns N finders M'
      | .error _ => []

end Irx.Sections
