import Irx.Debug.Graph

/-!
# What the generator prints

`generator-struct` writes a dataclass for every structure, from the debug types that `Irx.Debug.Graph`
describes. `print` writes the class or the alias of a type (`start`), or a field of a class. Comments and
blank lines are left out; a line stands for its text.
-/

namespace Irx.Generator
open Irx.Lib Irx.Debug

/-- Annotation and default of a field. -/
inductive Value where
  /-- `type = 0` -/
  | primitive (type : String)
  /-- `cls = field(default_factory=cls)` -/
  | embedded (cls : String)
  /-- `Annotated(str, ArraySize(n)) = field(default_factory=str)` -/
  | string (n : Nat)
  /-- `Annotated(list[cls], ArraySize(n)) = field(default_factory=lambda: [cls()] * n)` -/
  | list (cls : String) (n : Nat)
  /-- `PTR = field(default_factory=lambda: PTR(cls))` -/
  | pointer (cls : String)
  deriving DecidableEq

/-- A line of the generated file. -/
inductive Line where
  /-- `@dataclass class name(StructPointerTrait):` with its field `__ptr__` -/
  | dataclass (name : String)
  /-- `name=value` -/
  | alias (name value : String)
  /-- `name: value` -/
  | field (name : String) (value : Value)
  deriving DecidableEq

section Print

variable (g : DebugInfo)

/-- `resolveUntil`, for at most the given number of rounds. -/
def resolveUntil (kinds : List Tag) : Nat → Option Nat → Option Nat
  | _, none => none
  | 0, some _ => none
  | fuel + 1, some n =>
    if (g.node n).getTag ∈ kinds then some n
    else
      match g.node n with
      | .derived _ _ _ base => resolveUntil kinds fuel base
      | _ => none

/-- The type below members and qualifiers. -/
def resolve (DITy : Option Nat) : Option Nat :=
  match DITy with
  | none => none
  | some n => resolveUntil g
    [.baseType, .structureType, .unionType, .arrayType, .pointerType, .typedef] (g.rank n + 1) (some n)

/-- `toPythonType`. -/
def toPythonType (n : Nat) : String :=
  match g.node n with
  | .basic name bits =>
    (if "unsigned".toList.isPrefixOf name.toList then "U" else "") ++ "Int" ++ toString bits
  | _ => ""

/-- `getSizeInBits`. -/
def getSizeInBits (n : Nat) : Nat :=
  match g.node n with
  | .basic _ bits => bits
  | .derived _ _ bits _ => bits
  | .composite _ _ bits _ _ => bits
  | .subroutine => 0

/-- `getName`. -/
def getName (n : Nat) : String := (g.node n).getName

/-- A field with a basic type below it, or with an instance of a class. -/
def embeddedField (name : String) (DITy : Nat) (cls : String) : Except Abort (List Line) := do
  match ← toBasicType g (some DITy) with
  | some BTy => .ok [.field name (.primitive (toPythonType g BTy))]
  | none => .ok [.field name (.embedded cls)]

/-- A typedef: its alias or class, or a field of this type. -/
def printTypedef (print : Nat → Bool → Except Abort (List Line)) (name : String) (DIDTy : Nat)
    (base : Option Nat) (start : Bool) : Except Abort (List Line) :=
  match resolve g base with
  | none => .ok []
  | some DIAliaseeTy =>
    if !start then embeddedField g name DIAliaseeTy (getName g DIDTy)
    else if getName g DIAliaseeTy ≠ "" then do
      match ← toBasicType g (some DIAliaseeTy) with
      | some BTy => .ok [.alias name (toPythonType g BTy)]
      | none => .ok [.alias (getName g DIDTy) (getName g DIAliaseeTy)]
    else do
      let members ← print DIAliaseeTy false
      .ok (.dataclass name :: members)

/-- The elements of an array: for a pointer that is a composite type, what it points to. -/
def arrayElement (PTRDITy : Nat) : Except Abort Nat :=
  match g.node PTRDITy with
  | .composite .pointerType _ _ base _ => (resolve g base).elim (.error .undefined) .ok
  | _ => .ok PTRDITy

/-- A field for an array. -/
def printArray (name : String) (DIDTy : Nat) (base : Option Nat) : Except Abort (List Line) :=
  match resolve g base with
  | none => .ok []
  | some PTRDITy => do
    let PTRDITy ← arrayElement g PTRDITy
    if getSizeInBits g PTRDITy = 0 then .error .undefined
    else
      let n := getSizeInBits g DIDTy / getSizeInBits g PTRDITy
      if getName g PTRDITy = "char" then .ok [.field name (.string n)]
      else .ok [.field name (.list (getName g PTRDITy) n)]

/-- The switch of `print` over the resolved type. -/
def printResolved (print : Nat → Bool → Except Abort (List Line)) (name : String)
    (DITyResolved : Nat) (start : Bool) : Except Abort (List Line) :=
  match (g.node DITyResolved).getTag, g.node DITyResolved with
  | .baseType, _ =>
    if start then .ok [] else .ok [.field name (.primitive (toPythonType g DITyResolved))]
  | .typedef, .derived _ _ _ base => printTypedef g print name DITyResolved base start
  | .unionType, _ | .structureType, _ =>
    if getName g DITyResolved = "" then print DITyResolved start
    else embeddedField g name DITyResolved (getName g DITyResolved)
  | .arrayType, .composite _ _ _ base _ => printArray g name DITyResolved base
  | .pointerType, .derived _ _ _ base =>
    match resolve g base with
    | none => .ok []
    | some PTRDITy => .ok [.field name (.pointer (getName g PTRDITy))]
  | _, _ => .ok []

/-- An element of a composite type. -/
def printElement (print : Nat → Except Abort (List Line)) (element : DINode) :
    Except Abort (List Line) :=
  match element with
  | .other => .ok []
  | .type m =>
    match g.node m with
    | .derived _ _ _ _ => print m
    | _ => .ok []

/-- Whether the type begins a class. -/
def opensClass (n : Nat) (start : Bool) : Bool :=
  ((g.node n).getTag = .unionType || (g.node n).getTag = .structureType) && getName g n ≠ "" && start

/-- `print`, for at most the given depth of calls. -/
def printDepth : Nat → Nat → Bool → Except Abort (List Line)
  | 0, _, _ => .error .undefined
  | depth + 1, DITy, start => do
    let opens := opensClass g DITy start
    let header := if opens then [Line.dataclass (getName g DITy)] else []
    let start := start && !opens
    match resolve g (some DITy) with
    | none => .ok header
    | some DITyResolved =>
      match g.node DITy with
      | .composite _ _ _ _ elements => do
        let members ← elements.mapM (printElement g (printDepth depth · start))
        .ok (header ++ members.flatten)
      | _ => do
        let lines ← printResolved g (printDepth depth) (getName g DITy) DITyResolved start
        .ok (header ++ lines)

/-- The rank bounds the depth: `print` only goes to parts of a type. -/
def print (DITy : Nat) (start : Bool) : Except Abort (List Line) :=
  printDepth g (g.rank DITy + 1) DITy start

end Print

end Irx.Generator
