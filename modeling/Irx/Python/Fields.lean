import Irx.Lib.Bytes

/-!
# Fields of a structure from Python

`set_struct_primitive` packs a Python value for the basic type of a field and copies the bytes to the
field; `get_struct_primitive` copies the bytes of the field to a buffer and converts them back, with an
object of Python's side as placeholder. The values are those that `set_struct` hands down. What follows
the buffer in memory is arbitrary: a conversion may read beyond its end.
-/

namespace Irx.Python
open Irx.Lib

/-- A Python value. -/
inductive PyObj where
  | none
  | bool (b : Bool)
  | int (n : ℤ)
  | str (s : String)
  | bytes (b : List UInt8)
  deriving DecidableEq

/-- The exceptions, with the texts that this code gives. -/
inductive PyError where
  | indexError
  | structError
  | attributeError
  | typeError
  | unicodeEncodeError
  | runtimeError (message : String)
  | systemError (message : String)
  deriving DecidableEq

namespace PyObj

/-- The Python type of a value. -/
inductive PyType where
  | NoneType
  | bool
  | int
  | str
  | bytes
  deriving DecidableEq

/-- `type(data)`. -/
def type : PyObj → PyType
  | .none => .NoneType
  | .bool _ => .bool
  | .int _ => .int
  | .str _ => .str
  | .bytes _ => .bytes

/-- The number of an instance of `int`, which a `bool` is too. -/
def toInt : PyObj → Option ℤ
  | .bool b => some b.toInt
  | .int n => some n
  | _ => .none

/-- `isinstance(data, int)`. -/
def isInt (data : PyObj) : Bool := data.toInt.isSome

/-- The truth value. -/
def truth : PyObj → Bool
  | .none => false
  | .bool b => b
  | .int n => n ≠ 0
  | .str s => s ≠ ""
  | .bytes b => b ≠ []

/-- `==`: numbers are equal by value, other objects if they are the same. -/
def eq (a b : PyObj) : Bool :=
  match a.toInt, b.toInt with
  | some m, some n => m = n
  | _, _ => a = b

/-- Values of one type are integers or are not. -/
lemma isInt_of_type {a b : PyObj} (same : a.type = b.type) : a.isInt = b.isInt := by
  cases a <;> cases b <;> first | rfl | cases same

/-- A number is equal to a value exactly if that is this number. -/
lemma eq_int (m : ℤ) (data : PyObj) : (PyObj.int m).eq data ↔ data.toInt = some m := by
  cases data <;> simp [eq, toInt, eq_comm]

end PyObj

/-- The width and the range of an integer format character of `struct`. -/
def intFormat : Char → Option (Nat × ℤ × ℤ)
  | 'B' => some (1, 0, 2 ^ 8)
  | 'H' => some (2, 0, 2 ^ 16)
  | 'h' => some (2, -2 ^ 15, 2 ^ 15)
  | 'I' => some (4, 0, 2 ^ 32)
  | 'i' => some (4, -2 ^ 31, 2 ^ 31)
  | 'Q' => some (8, 0, 2 ^ 64)
  | 'q' => some (8, -2 ^ 63, 2 ^ 63)
  | 'P' => some (8, -2 ^ 63, 2 ^ 64)
  | _ => none

/-- `struct.pack` of one value. -/
def pack (format : Char) (data : PyObj) : Except PyError (List UInt8) :=
  if format = '?' then .ok [if data.truth then 1 else 0]
  else
    match intFormat format, data.toInt with
    | some (k, low, high), some n =>
      if low ≤ n ∧ n < high then .ok (packed k n) else .error .structError
    | _, _ => .error .structError

/-- `get_ptr_struct_type`: the format character of a pointer. -/
def get_ptr_struct_type (pointerSize : Nat) : Char :=
  if pointerSize = 32 then 'I'
  else if pointerSize = 64 then 'Q'
  else 'P'

/-- `data.ljust(size, '\x00').encode('ascii')`. -/
def ljustEncode (size : Nat) : PyObj → Except PyError (List UInt8)
  | .str s =>
    let padded := s.toList ++ List.replicate (size - s.length) '\x00'
    if padded.all (·.toNat < 128) then .ok (padded.map fun c => UInt8.ofNat c.toNat)
    else .error .unicodeEncodeError
  | .bytes _ => .error .typeError
  | _ => .error .attributeError

/-- `str(pydata, 'UTF8').rstrip('\x00')`, and the bytes themselves where they are no text. -/
def decodeRstrip (pydata : List UInt8) : PyObj :=
  match String.fromUTF8? pydata.toByteArray with
  | some s => .str (String.ofList (s.toList.rdropWhile (· = '\x00')))
  | none => .bytes pydata

/-- A field: its path, what `getStructFieldInfo2` says of it, and where it is in memory. -/
structure Field where
  path : List String
  basicType : String
  size_in_bytes : Nat
  addr : Nat

/-- The text of an exception about a field that is not implemented. -/
def notImplemented (field sep type : String) : String :=
  "Convert to C-mem not implemented for field '" ++ field ++ "'" ++ sep ++ " type: " ++ type

/-- The branches of `set_struct_primitive` for a field of the name `k`: the bytes that are handed to
`irx_struct_set`, if any. -/
def packedField (pointerSize : Nat) (k bt : String) (size_in_bytes : Nat) (data : PyObj) :
    Except PyError (Option (List UInt8)) :=
  if bt ∈ ["unsigned int"] ∧ data.isInt then (pack 'I' data).map some
  else if bt ∈ ["int"] then (pack 'i' data).map some
  else if bt ∈ ["bool"] then (pack '?' data).map some
  else if bt ∈ ["PTR"] then
    if data = .none then .ok none else (pack (get_ptr_struct_type pointerSize) data).map some
  else if bt ∈ ["char"] then (ljustEncode size_in_bytes data).map some
  else if bt ∈ ["unsigned char"] then (pack 'B' data).map some
  else if bt ∈ ["unsigned short"] then (pack 'H' data).map some
  else if bt ∈ ["short"] then (pack 'h' data).map some
  else if bt ∈ ["unsigned long long"] then (pack 'Q' data).map some
  else if bt ∈ ["long long"] then (pack 'q' data).map some
  else if bt ∈ ["unknown"] then .ok none
  else .error (.runtimeError (notImplemented ("b'" ++ k ++ "'") "" bt))

/-- `set_struct_primitive` on the bytes of the field. -/
def set_struct_primitive (pointerSize : Nat) (F : Field) (mem : Bytes) (data : PyObj) :
    Except PyError Bytes :=
  match F.path.getLast? with
  | none => .error .indexError
  | some k => (packedField pointerSize k F.basicType F.size_in_bytes data).map fun value =>
    value.elim mem (write mem F.addr)

/-- The buffer after `irx_struct_get`: the bytes of the field, and then what follows it in memory. -/
def buffer (F : Field) (mem heap : Bytes) : Bytes := fun i =>
  if i < F.size_in_bytes then mem (F.addr + i) else heap (i - F.size_in_bytes)

/-- `get_struct_primitive`. The masks `0xFF`, `0xFFFF` and `0xFFFFFFFF` are remainders. -/
def get_struct_primitive (pointerSize : Nat) (F : Field) (mem heap : Bytes) (data : PyObj) :
    Except PyError PyObj :=
  if F.path = [] then .error .indexError
  else if F.size_in_bytes = 0 then .ok .none
  else
    let len := F.size_in_bytes
    let mem := buffer F mem heap
    let basicType := F.basicType
    if basicType ∈ ["PTR"] then
      if pointerSize = 32 then .ok (.int (unsigned mem 0 8 % 2 ^ 32)) else .ok (.int (signed mem 0 8))
    else if basicType ∈ ["char"] ∧ len > 1 then .ok (decodeRstrip (read mem 0 len))
    else if data.isInt ∧ basicType ∈ ["unsigned int", "int", "unsigned long", "long"] then
      .ok (.int (signed mem 0 4))
    else if data.isInt ∧ basicType ∈ ["char"] then .ok (.int (signed mem 0 1 % 2 ^ 8))
    else if data.isInt ∧ basicType ∈ ["unsigned char"] then .ok (.int (unsigned mem 0 1 % 2 ^ 8))
    else if data.isInt ∧ basicType ∈ ["unsigned short"] then .ok (.int (unsigned mem 0 2 % 2 ^ 16))
    else if data.isInt ∧ basicType ∈ ["short"] then .ok (.int (signed mem 0 2 % 2 ^ 16))
    else if basicType ∈ ["bool"] then .ok (.bool (unsigned mem 0 1 % 2 ^ 8 ≠ 0))
    else if data.isInt ∧ basicType ∈ ["unsigned long long", "long long"] then
      .ok (.int (signed mem 0 8))
    else if basicType ∈ ["unknown"] then .ok .none
    else .error (.systemError (notImplemented (".".intercalate F.path) "." basicType))

end Irx.Python
