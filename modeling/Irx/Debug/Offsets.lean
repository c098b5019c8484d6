import Irx.Debug.Graph

/-!
# Offsets of struct fields

`offsetInBitsFromPath` finds the LLVM type and the debug type of a struct by name, both through
caches, turns a path into indices and sums the offsets of these in the LLVM type.
-/

namespace Irx.Debug
open Irx.Lib

/-- What the lookups see of a module: the debug types, those of them that the finder lists, the
identified struct types by name, and the data layout. Comparing a layout with itself is true. -/
structure IRModule where
  debug : DebugInfo
  types : List Nat
  structTypes : List (String × LType)
  layout : DataLayout
  isLayoutIdentical : LType → LType → Bool
  identical_self : ∀ S, isLayoutIdentical S S = true

/-- `DICache` and `STCache`. -/
structure Caches where
  di : String → Option (Option Nat)
  st : String → Option (Option LType)

/-- An index, and the type to go on with instead of the element's, if any. -/
structure TypedIndex where
  STy : Option LType
  index : Nat

/-- The answer about a field. -/
structure BasicTypeInfo where
  basicType : String
  size_in_bits : Nat
  size_in_bytes : Nat
  gep : List Nat
  STys : List (Option LType)

section Lookup

variable (M : IRModule)

/-- A structure type of the name. -/
def isStructNamed (name : String) (n : Nat) : Bool :=
  match M.debug.node n with
  | .composite .structureType name' _ _ _ => name' = name
  | _ => false

/-- `findStructDebugInfo`. Without a cache a hit is written to a null pointer. -/
def findStructDebugInfo (name : String) (DICache : Option (String → Option (Option Nat))) :
    Except Abort (Option Nat × Option (String → Option (Option Nat))) :=
  match DICache.bind (· name) with
  | some hit => .ok (hit, DICache)
  | none =>
    match M.types.find? (isStructNamed M name) with
    | some CTy =>
      match DICache with
      | none => .error .undefined
      | some cache => .ok (some CTy, some (Function.update cache name (some (some CTy))))
    | none => .ok (none, DICache.map fun cache => Function.update cache name (some none))

/-- A name without its last point and what follows. -/
def stripedName (sname : String) : String :=
  if '.' ∈ sname.toList then
    String.ofList ((sname.toList.reverse.dropWhile (· ≠ '.')).drop 1).reverse
  else sname

/-- The search of `getTypeByName`: the first match, unless the check of the others fails. Each other
match is compared with itself. -/
def getTypeByNameUncached (name : String) : Option LType :=
  match M.structTypes.filter fun S => S.1 = name || stripedName S.1 = name with
  | [] => none
  | Ty :: others => if others.all fun S => M.isLayoutIdentical S.2 S.2 then some Ty.2 else none

/-- `getTypeByName` through the cache. -/
def getTypeByName (name : String) (caches : Caches) : Option LType × Caches :=
  match caches.st name with
  | some hit => (hit, caches)
  | none =>
    let STy := getTypeByNameUncached M name
    (STy, { caches with st := Function.update caches.st name (some STy) })

/-- `getStructTypeByName`: the LLVM type with the prefix of structures. -/
def getStructTypeByName (name : String) (caches : Caches) : Except Abort (LType × Caches) :=
  match getTypeByName M ("struct." ++ name) caches with
  | (some Ty, caches) => .ok (Ty, caches)
  | (none, _) => .error .assertion

/-- The type is always null: the code that would look it up is commented out. -/
def DITypedIndex2TypedIndex (DITI : DITypedIndex) : TypedIndex := ⟨none, DITI.index⟩

/-- The part of `getStructFieldInfo2` behind the search: what it says of the indices found. -/
def fieldInfo (DIGEP : List DITypedIndex) : Except Abort BasicTypeInfo :=
  match DIGEP.getLast? with
  | none => .ok ⟨"unknown", 0, 0, [], []⟩
  | some back => do
    let GEP := DIGEP.map DITypedIndex2TypedIndex
    let size ← getDIFieldSize M.debug back.DITy
    let DIBTy ← resolveDerivedTypeBaseType M.debug back.DITy
    let basicType ← DIType2StringType M.debug DIBTy
    .ok ⟨basicType, size, size / 8, GEP.map TypedIndex.index, GEP.map TypedIndex.STy⟩

/-- `getStructFieldInfo2`: the direct search from the structure of the name. -/
def getStructFieldInfo2 (name : String) (needle : List String) (caches : Caches) :
    Except Abort (BasicTypeInfo × Caches) := do
  let (CTy, DICache) ← findStructDebugInfo M name (some caches.di)
  let DIGEP ← GEP M.debug CTy needle
  let info ← fieldInfo M DIGEP
  .ok (info, { caches with di := DICache.getD caches.di })

/-- `GEPIndices`: the indices of the answer, with their types where the answer has them. -/
def GEPIndices (name : String) (path : List String) (caches : Caches) :
    Except Abort (List TypedIndex × Caches) := do
  let (info, caches) ← getStructFieldInfo2 M name path caches
  let typedIndices := info.gep.zipIdx.map fun (index, i) => ⟨(info.STys[i]?).join, index⟩
  if typedIndices.length > 0 then .ok (typedIndices, caches) else .error .assertion

/-- The loop of `GEP2Offset`. -/
def offsetLoop (D : DataLayout) : LType → Nat → List TypedIndex → Except Abort Nat
  | _, total, [] => .ok total
  | Ty, total, idx :: indices =>
    match idx.STy.getD Ty with
    | .struct elems =>
      match elems[idx.index]? with
      | none => .error .assertion
      | some elem =>
        offsetLoop D elem (word (total + D.elementOffset elems idx.index)) indices
    | .array _ elem => offsetLoop D elem (word (total + word (D.allocSize elem * idx.index))) indices
    | _ => .error .assertion

/-- `GEP2Offset`: the offset of the element in bits. -/
def GEP2Offset (Ty : LType) (indices : List TypedIndex) : Except Abort Nat :=
  match indices with
  | [] => .error .undefined
  | front :: _ => do
    let total ← offsetLoop M.layout (.array (front.index + 1) Ty) 0 indices
    .ok (word (total * 8))

/-- `offsetInBitsFromPath`. -/
def offsetInBitsFromPath (name : String) (path : List String) (caches : Caches) :
    Except Abort (Nat × Caches) := do
  let (Ty, caches) ← getStructTypeByName M name caches
  let (indices, caches) ← GEPIndices M name path caches
  let offset_bit ← GEP2Offset M Ty indices
  if offset_bit &&& 0x07 = 0 then .ok (offset_bit, caches) else .error .assertion

end Lookup

end Irx.Debug
