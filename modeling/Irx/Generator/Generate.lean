import Irx.Generator.Print

/-!
# The walk of the generator

`generate_struct` marks the name of a type, has `resolve2` generate the types that it refers to, and prints
it then. Types without a name are walked through. The file is a list of paragraphs, one for each call of
`print`. `generate` starts the walk at the structure types of the module, in their order.
-/

namespace Irx.Generator
open Irx.Lib Irx.Debug

/-- The names in `done`, and what was written so far. -/
structure GeneratorStruct where
  done : List String
  Output : List (List Line)

section Generate

variable (g : DebugInfo)

/-- The elements that `resolve2` goes through. -/
def elements : DIType → List DINode
  | .composite _ _ _ _ elements => elements
  | _ => []

/-- For an element, `resolve2` generates the base type of a member. -/
def elementReference (element : DINode) : Option Nat :=
  match element with
  | .other => none
  | .type m =>
    match resolve g (some m), g.node m with
    | some _, .derived _ _ _ base => base
    | _, _ => none

/-- What the switch of `resolve2` over the resolved type generates. -/
def targetReference (DITyResolved : Nat) : Option Nat :=
  match (g.node DITyResolved).getTag, g.node DITyResolved with
  | .typedef, .derived _ _ _ base => resolve g base
  | .unionType, .derived _ _ _ base => base
  | .structureType, .derived _ _ _ base => base
  | .arrayType, .composite _ _ _ base _ => base
  | .pointerType, .derived _ _ _ base => base
  | _, _ => none

/-- The types that `resolve2` generates, in this order. For a null pointer `generate_struct` does nothing,
so that null pointers are left out. -/
def references (DITy : Nat) : List Nat :=
  match resolve g (some DITy) with
  | none => []
  | some DITyResolved =>
    (elements (g.node DITy)).filterMap (elementReference g) ++ (targetReference g DITyResolved).toList

/-- `resolve2`. -/
def resolve2 (generate_struct : GeneratorStruct → Nat → Except Abort GeneratorStruct)
    (ctx : GeneratorStruct) (DITy : Nat) : Except Abort GeneratorStruct :=
  (references g DITy).foldlM generate_struct ctx

/-- `generate_struct`, for at most the given depth of calls. -/
def generate_struct : Nat → GeneratorStruct → Nat → Except Abort GeneratorStruct
  | 0, _, _ => .error .undefined
  | depth + 1, ctx, CTy =>
    let name := getName g CTy
    if name ∈ ctx.done then .ok ctx
    else if name = "" then resolve2 g (generate_struct depth) ctx CTy
    else do
      let ctx ← resolve2 g (generate_struct depth) { ctx with done := ctx.done ++ [name] } CTy
      let lines ← print g CTy true
      .ok { ctx with Output := ctx.Output ++ [lines] }

/-- The first of the types with the name that is a structure, a union or a typedef. -/
def findStructDebugInfo2 (types : List Nat) (name : String) : Option Nat :=
  types.find? fun Ty => getName g Ty = name &&
    ((g.node Ty).getTag = .structureType || (g.node Ty).getTag = .unionType ||
      (g.node Ty).getTag = .typedef)

/-- The second part of `name.split(".")`. -/
def split (name : String) : String := String.ofList ((name.toList.dropWhile (· ≠ '.')).drop 1)

/-- `block_list`. -/
def block_list (name : String) : Bool :=
  name ∈ ["log_msg", "log_msg_ptr", "mpsc_pbuf_buffer_config.160", "mpsc_pbuf_generic"]

/-- Where the walk for a structure type starts, if anywhere. -/
def start (types : List Nat) (ST : String) : Option Nat :=
  if block_list (split ST) then none else findStructDebugInfo2 g types (split ST)

/-- Where the walk starts for the structure types of the module. -/
def starts (types : List Nat) (structTypes : List String) : List Nat :=
  structTypes.filterMap (start g types)

/-- The file for a module with these debug types and these structure types. -/
def generate (depth : Nat) (types : List Nat) (structTypes : List String) :
    Except Abort GeneratorStruct :=
  (starts g types structTypes).foldlM (generate_struct g depth) ⟨[], []⟩

end Generate

end Irx.Generator
