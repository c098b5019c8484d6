import Irx.Basic
import Irx.Python.Fields

/-!
# Reading a field back

What `get_struct_primitive` returns after `set_struct_primitive` on one field. The two dispatch on the
basic type separately, and the reading of the unsigned and short types is not the one that the packing
asks for.
-/

namespace Irx.Python
open Irx.Lib

/-- The basic types that are packed, with the size of an array of characters. -/
inductive Leaf where
  | unsignedInt
  | int
  | bool
  | PTR
  | char (size : Nat)
  | unsignedChar
  | unsignedShort
  | short
  | unsignedLongLong
  | longLong

namespace Leaf

/-- The name of the basic type. -/
def basicType : Leaf → String
  | unsignedInt => "unsigned int"
  | int => "int"
  | bool => "bool"
  | PTR => "PTR"
  | char _ => "char"
  | unsignedChar => "unsigned char"
  | unsignedShort => "unsigned short"
  | short => "short"
  | unsignedLongLong => "unsigned long long"
  | longLong => "long long"

/-- The size of a field of the type. -/
def size (pointerSize : Nat) : Leaf → Nat
  | unsignedInt => 4
  | int => 4
  | bool => 1
  | PTR => pointerSize / 8
  | char size => size
  | unsignedChar => 1
  | unsignedShort => 2
  | short => 2
  | unsignedLongLong => 8
  | longLong => 8

/-- A field of the type. -/
def field (leaf : Leaf) (pointerSize : Nat) (path : List String) (addr : Nat) : Field :=
  ⟨path, leaf.basicType, leaf.size pointerSize, addr⟩

@[simp] lemma field_path (leaf : Leaf) (pointerSize : Nat) (path : List String) (addr : Nat) :
    (leaf.field pointerSize path addr).path = path := rfl

@[simp] lemma field_basicType (leaf : Leaf) (pointerSize : Nat) (path : List String) (addr : Nat) :
    (leaf.field pointerSize path addr).basicType = leaf.basicType := rfl

@[simp] lemma field_size (leaf : Leaf) (pointerSize : Nat) (path : List String) (addr : Nat) :
    (leaf.field pointerSize path addr).size_in_bytes = leaf.size pointerSize := rfl

@[simp] lemma field_addr (leaf : Leaf) (pointerSize : Nat) (path : List String) (addr : Nat) :
    (leaf.field pointerSize path addr).addr = addr := rfl

/-- A text for an array of characters fits into it and does not end in a NUL. -/
def Fits : Leaf → PyObj → Prop
  | char size, .str s => s.length ≤ size ∧ s.toList.getLast? ≠ some '\x00'
  | _, _ => True

/-- The values that are read back equal. -/
def ReadBack (pointerSize : Nat) : Leaf → PyObj → Prop
  | unsignedInt, data => ∀ n ∈ data.toInt, n < 2 ^ 31
  | bool, data => data.toInt = some 0 ∨ data.toInt = some 1
  | PTR, data => data ≠ .none ∧ (pointerSize = 64 → ∀ n ∈ data.toInt, n < 2 ^ 63)
  | char size, _ => 2 ≤ size
  | short, data => ∀ n ∈ data.toInt, 0 ≤ n
  | unsignedLongLong, data => ∀ n ∈ data.toInt, n < 2 ^ 63
  | _, _ => True

/-- The format of a number. -/
def format (pointerSize : Nat) : Leaf → Option Char
  | unsignedInt => some 'I'
  | int => some 'i'
  | bool => none
  | PTR => some (get_ptr_struct_type pointerSize)
  | char _ => none
  | unsignedChar => some 'B'
  | unsignedShort => some 'H'
  | short => some 'h'
  | unsignedLongLong => some 'Q'
  | longLong => some 'q'

/-- The number that a buffer is read as. -/
def number (pointerSize : Nat) (mem : Bytes) : Leaf → Option ℤ
  | unsignedInt => some (signed mem 0 4)
  | int => some (signed mem 0 4)
  | bool => none
  | PTR => some (if pointerSize = 32 then unsigned mem 0 8 % 2 ^ 32 else signed mem 0 8)
  | char _ => none
  | unsignedChar => some (unsigned mem 0 1 % 2 ^ 8)
  | unsignedShort => some (unsigned mem 0 2 % 2 ^ 16)
  | short => some (signed mem 0 2 % 2 ^ 16)
  | unsignedLongLong => some (signed mem 0 8)
  | longLong => some (signed mem 0 8)

end Leaf

variable {pointerSize addr : Nat} {path : List String} {leaf : Leaf} {F : Field}
  {mem mem' heap : Bytes} {format : Char} {data placeholder : PyObj}

/-- A value is packed as an integer of its format, in the range of the format. -/
lemma pack_eq_ok {k : Nat} {low high : ℤ} (known : intFormat format = some (k, low, high))
    (ran : (pack format data).map (write mem addr) = .ok mem') :
    ∃ n, data.toInt = some n ∧ low ≤ n ∧ n < high ∧ mem' = write mem addr (packed k n) := by
  have other : format ≠ '?' := by
    rintro rfl
    cases known
  rw [pack, if_neg other, known] at ran
  cases number : data.toInt with
  | none =>
    rw [number] at ran
    cases ran
  | some n =>
    rw [number] at ran
    dsimp only at ran
    split at ran
    case isTrue range =>
      cases ran
      exact ⟨n, rfl, range.1, range.2, rfl⟩
    case isFalse => cases ran

/-- The bytes just written to a field are the start of its buffer. -/
lemma read_buffer (F : Field) (mem heap : Bytes) (value : List UInt8)
    (size : F.size_in_bytes = value.length) :
    read (buffer F (write mem F.addr value) heap) 0 value.length = value := by
  have same : read (buffer F (write mem F.addr value) heap) 0 value.length =
      read (write mem F.addr value) F.addr value.length := by
    refine read_congr fun i lt => ?_
    rw [Nat.zero_add, buffer, if_pos (size ▸ lt)]
  rw [same, read_write]

/-- What is packed is written. -/
@[simp] lemma map_some_elim (bytes : Except PyError (List UInt8)) :
    ((bytes.map some).map fun value => value.elim mem (write mem addr)) = bytes.map (write mem addr) := by
  cases bytes with
  | ok => rfl
  | error => rfl

/-- For a known field, what is packed is written. -/
lemma set_struct_primitive_packed {k : String} (last : F.path.getLast? = some k) :
    set_struct_primitive pointerSize F mem data =
      (packedField pointerSize k F.basicType F.size_in_bytes data).map fun value =>
        value.elim mem (write mem F.addr) := by
  rw [set_struct_primitive, last]

/-- Only a path that has an end is accepted. -/
lemma path_of_accepted (accepted : set_struct_primitive pointerSize F mem data = .ok mem') :
    ∃ k, F.path.getLast? = some k := by
  rw [set_struct_primitive] at accepted
  cases last : F.path.getLast? with
  | none =>
    rw [last] at accepted
    cases accepted
  | some k => exact ⟨k, rfl⟩

/-- A number is packed in the format of its type; the pointer `None` is not packed. -/
lemma set_number (known : leaf.format pointerSize = some format)
    (accepted : set_struct_primitive pointerSize (leaf.field pointerSize path addr) mem data =
      .ok mem') :
    (leaf = .PTR ∧ data = .none) ∨
      (pack format data).map (write mem addr) = .ok mem' := by
  obtain ⟨k, last⟩ := path_of_accepted accepted
  rw [set_struct_primitive_packed last, packedField] at accepted
  cases leaf with
  | bool => cases known
  | char size => cases known
  | unsignedInt =>
    -- the only number whose packing asks for an `int` first
    cases known
    by_cases number : data.isInt
    · right
      simpa [Leaf.basicType, number] using accepted
    · simp only [Leaf.field_basicType, Leaf.basicType, number] at accepted
      cases accepted
  | PTR =>
    cases known
    by_cases null : data = .none
    · exact .inl ⟨rfl, null⟩
    · right
      simpa [Leaf.basicType, null] using accepted
  | int | unsignedChar | unsignedShort | short | unsignedLongLong | longLong =>
    cases known
    right
    simpa [Leaf.basicType] using accepted

/-- A number is read as its type is, if the placeholder is a number. -/
lemma get_number {n : ℤ} (last : path ≠ []) (sized : 32 ≤ pointerSize)
    (known : leaf.number pointerSize
      (buffer (leaf.field pointerSize path addr) mem heap) = some n)
    (number : leaf = .PTR ∨ placeholder.isInt) :
    get_struct_primitive pointerSize (leaf.field pointerSize path addr) mem heap placeholder =
      .ok (.int n) := by
  rw [get_struct_primitive, Leaf.field_path, if_neg last]
  cases leaf with
  | bool => cases known
  | char size => cases known
  | PTR =>
    have filled : pointerSize / 8 ≠ 0 := by omega
    cases known
    simp only [Leaf.field_size, Leaf.size, filled, Leaf.field_basicType, Leaf.basicType, if_false,
      List.mem_singleton, if_true]
    split <;> rfl
  | unsignedInt | int | unsignedChar | unsignedShort | short | unsignedLongLong | longLong =>
    obtain e | number := number
    · cases e
    · obtain rfl := Option.some.inj known
      simp only [Leaf.field_size, Leaf.size, Leaf.field_basicType, Leaf.basicType, number,
        List.mem_cons, List.not_mem_nil, String.reduceEq, or_false, or_true, and_true, and_false,
        false_and, if_true, if_false, OfNat.ofNat_ne_zero, one_ne_zero]

/-- A number that was accepted is in the range of its format, and the buffer holds it packed. -/
lemma number_buffered (heap : Bytes) {k : Nat} {low high : ℤ}
    (formatted : leaf.format pointerSize = some format)
    (known : intFormat format = some (k, low, high)) (sized : leaf.size pointerSize = k)
    (accepted : set_struct_primitive pointerSize (leaf.field pointerSize path addr) mem data =
      .ok mem') :
    (leaf = .PTR ∧ data = .none) ∨
      ∃ n, data.toInt = some n ∧ low ≤ n ∧ n < high ∧
        read (buffer (leaf.field pointerSize path addr) mem' heap) 0 k = packed k n := by
  obtain null | ran := set_number formatted accepted
  · exact .inl null
  · obtain ⟨n, number, above, below, rfl⟩ := pack_eq_ok known ran
    have here := read_buffer (leaf.field pointerSize path addr) mem heap (packed k n)
      (by rw [length_packed, Leaf.field_size, sized])
    rw [length_packed] at here
    exact .inr ⟨n, number, above, below, here⟩

/-- A number is read back equal if it is the number that its buffer is read as. -/
lemma number_back_iff {n v : ℤ} (last : path ≠ []) (sized : 32 ≤ pointerSize)
    (number : data.toInt = some n) (same : placeholder.type = data.type)
    (known : leaf.number pointerSize
      (buffer (leaf.field pointerSize path addr) mem heap) = some v) :
    (∃ r, get_struct_primitive pointerSize (leaf.field pointerSize path addr) mem heap placeholder =
      .ok r ∧ r.eq data) ↔ n = v := by
  have int : placeholder.isInt := by
    rw [PyObj.isInt_of_type same, PyObj.isInt, number, Option.isSome_some]
  rw [get_number last sized known (.inr int)]
  constructor
  · rintro ⟨_, ⟨⟩, equal⟩
    exact Option.some.inj (number.symm.trans ((PyObj.eq_int v data).1 equal))
  · rintro rfl
    exact ⟨_, rfl, (PyObj.eq_int n data).2 number⟩

/-- A null pointer is not read back as `None`. -/
lemma null_not_back (last : path ≠ []) (sized : 32 ≤ pointerSize) :
    ¬ ∃ r, get_struct_primitive pointerSize (Leaf.PTR.field pointerSize path addr) mem heap
      placeholder = .ok r ∧ r.eq .none := by
  rintro ⟨r, ran, equal⟩
  rw [get_number last sized rfl (.inl rfl)] at ran
  cases ran
  cases equal

/-- The low half of the eight bytes that a 32-bit pointer is read from. -/
lemma low_half {n : ℤ} (here : read mem 0 4 = packed 4 n) (low : 0 ≤ n) (high : n < 2 ^ 32) :
    (unsigned mem 0 8 % 2 ^ 32 : ℤ) = n := by
  have cut : (unsigned mem 0 8 : ℤ) % 256 ^ 4 = unsigned mem 0 4 % 256 ^ 4 := by
    exact_mod_cast congrArg (Nat.cast (R := ℤ)) (unsigned_mod mem 0 4 4)
  rw [unsigned_of_packed here] at cut
  omega

/-- The bytes of an ASCII text are decoded to the text. -/
lemma fromUTF8_ascii {l : List Char} (ascii : ∀ c ∈ l, c.toNat < 128) :
    String.fromUTF8? (l.map fun c => UInt8.ofNat c.toNat).toByteArray = some (String.ofList l) := by
  have encoded : (l.map fun c => UInt8.ofNat c.toNat).toByteArray = l.utf8Encode := by
    rw [List.utf8Encode]
    congr 1
    induction l with
    | nil => rfl
    | cons c l ih =>
      have low : c.val.toNat ≤ 127 := Nat.lt_succ_iff.1 (ascii c (.head _))
      rw [List.map_cons, List.flatMap_cons, ih fun c mem => ascii c (.tail _ mem),
        String.utf8EncodeChar, if_pos low]
      rfl
  rw [encoded, String.fromUTF8?, dif_pos ByteArray.isValidUTF8_utf8Encode]
  rfl

/-- Stripping takes away the padding, and no more from a text that does not end in a NUL. -/
lemma rdropWhile_padding {l : List Char} (last : l.getLast? ≠ some '\x00') (k : Nat) :
    (l ++ List.replicate k '\x00').rdropWhile (· = '\x00') = l := by
  induction k with
  | zero =>
    rw [List.replicate_zero, List.append_nil, List.rdropWhile_eq_self_iff]
    intro ne nul
    rw [List.getLast?_eq_some_getLast ne, of_decide_eq_true nul] at last
    exact last rfl
  | succ k ih =>
    rw [List.replicate_succ', ← List.append_assoc, List.rdropWhile_concat_pos _ _ _ (by decide), ih]

/-- A truth value is packed as one byte and read back as a `bool`. -/
lemma bool_back (accepted : set_struct_primitive pointerSize (Leaf.bool.field pointerSize path addr)
      mem data = .ok mem') :
    get_struct_primitive pointerSize (Leaf.bool.field pointerSize path addr) mem' heap placeholder =
      .ok (.bool data.truth) := by
  obtain ⟨k, last⟩ := path_of_accepted accepted
  have path_ne : path ≠ [] := by
    rintro rfl
    cases last
  have ran : (pack '?' data).map (write mem addr) = .ok mem' := by
    rw [set_struct_primitive_packed last, packedField] at accepted
    simpa [Leaf.basicType] using accepted
  cases ran
  have here : read (buffer (Leaf.bool.field pointerSize path addr)
      (write mem addr [if data.truth then 1 else 0]) heap) 0 1 = [if data.truth then 1 else 0] :=
    read_buffer _ _ _ _ rfl
  rw [get_struct_primitive, Leaf.field_path, if_neg path_ne]
  simp only [Leaf.field_size, Leaf.size, Leaf.field_basicType, Leaf.basicType, List.mem_cons,
    List.not_mem_nil, String.reduceEq, or_false, and_false, false_and, if_true, if_false,
    one_ne_zero]
  rw [unsigned, here]
  cases data.truth <;> rfl

/-- A truth value equals exactly the values 0 and 1 that are numbers. -/
lemma truth_eq_iff (data : PyObj) :
    (PyObj.bool data.truth).eq data ↔ data.toInt = some 0 ∨ data.toInt = some 1 := by
  cases data with
  | none => decide
  | bool b => cases b <;> decide
  | int n =>
    by_cases zero : n = 0
    · subst zero
      decide
    · simp [PyObj.eq, PyObj.toInt, PyObj.truth, zero, eq_comm]
  | str s => simp [PyObj.eq, PyObj.toInt]
  | bytes b => simp [PyObj.eq, PyObj.toInt]

/-- An array of characters accepts ASCII texts, and it is filled with NULs. -/
lemma char_accepted {size : Nat}
    (accepted : set_struct_primitive pointerSize ((Leaf.char size).field pointerSize path addr) mem
      data = .ok mem') :
    ∃ s : String, data = .str s ∧
      (∀ c ∈ s.toList ++ List.replicate (size - s.length) '\x00', c.toNat < 128) ∧
      mem' = write mem addr ((s.toList ++ List.replicate (size - s.length) '\x00').map
        fun c => UInt8.ofNat c.toNat) := by
  obtain ⟨k, last⟩ := path_of_accepted accepted
  have ran : (ljustEncode size data).map (write mem addr) = .ok mem' := by
    rw [set_struct_primitive_packed last, packedField] at accepted
    simpa [Leaf.basicType, Leaf.size] using accepted
  cases data with
  | str s =>
    rw [ljustEncode] at ran
    split at ran
    case isTrue ascii =>
      cases ran
      exact ⟨s, rfl, fun c mem => of_decide_eq_true (List.all_eq_true.1 ascii c mem), rfl⟩
    case isFalse => cases ran
  | none | bool b | int n | bytes b => cases ran

/-- A text is read back from an array of characters, unless that has less than two elements. -/
lemma char_back_iff {size : Nat} (fits : (Leaf.char size).Fits data)
    (same : placeholder.type = data.type)
    (accepted : set_struct_primitive pointerSize ((Leaf.char size).field pointerSize path addr) mem
      data = .ok mem') :
    (∃ r, get_struct_primitive pointerSize ((Leaf.char size).field pointerSize path addr) mem' heap
      placeholder = .ok r ∧ r.eq data) ↔ 2 ≤ size := by
  have path_ne : path ≠ [] := by
    obtain ⟨k, last⟩ := path_of_accepted accepted
    rintro rfl
    cases last
  obtain ⟨s, rfl, ascii, rfl⟩ := char_accepted accepted
  obtain ⟨short, stripped⟩ := fits
  have number : placeholder.isInt = false := PyObj.isInt_of_type same
  rw [get_struct_primitive, Leaf.field_path, if_neg path_ne]
  obtain rfl | rfl | long : size = 0 ∨ size = 1 ∨ 2 ≤ size := by omega
  · -- nothing is read from an array without elements
    constructor
    · rintro ⟨_, ⟨⟩, equal⟩
      cases equal
    · exact fun h => absurd h (by decide)
  · -- one character is read as a number only
    constructor
    · rintro ⟨r, ran, _⟩
      simp [Leaf.size, Leaf.basicType, number] at ran
    · exact fun h => absurd h (by decide)
  · have filled : size ≠ 0 := by omega
    have length : ((s.toList ++ List.replicate (size - s.length) '\x00').map
        fun c => UInt8.ofNat c.toNat).length = size := by
      rw [List.length_map, List.length_append, List.length_replicate, String.length_toList]
      omega
    have here := read_buffer ((Leaf.char size).field pointerSize path addr) mem heap _ length.symm
    rw [length] at here
    have text : decodeRstrip ((s.toList ++ List.replicate (size - s.length) '\x00').map
        fun c => UInt8.ofNat c.toNat) = .str s := by
      simp only [decodeRstrip, fromUTF8_ascii ascii, String.toList_ofList,
        rdropWhile_padding stripped, String.ofList_toList]
    refine iff_of_true ⟨.str s, ?_, decide_eq_true rfl⟩ long
    simp only [Leaf.field_size, Leaf.size, Leaf.field_basicType, Leaf.basicType, List.mem_cons,
      List.not_mem_nil, String.reduceEq, or_false, if_false, filled, true_and]
    rw [if_pos (show 1 < size from long), ← text]
    exact congrArg (fun value => Except.ok (decodeRstrip value)) here

/-- The value that was set is read back equal exactly if the reading of its type fits it. -/
theorem read_back_iff (supported : pointerSize = 32 ∨ pointerSize = 64)
    (accepted : set_struct_primitive pointerSize (leaf.field pointerSize path addr) mem data =
      .ok mem')
    (fits : leaf.Fits data) (same : placeholder.type = data.type) :
    (∃ r, get_struct_primitive pointerSize (leaf.field pointerSize path addr) mem' heap placeholder =
      .ok r ∧ r.eq data) ↔ leaf.ReadBack pointerSize data := by
  have path_ne : path ≠ [] := by
    obtain ⟨k, last⟩ := path_of_accepted accepted
    rintro rfl
    cases last
  have sized : 32 ≤ pointerSize := by omega
  cases leaf with
  | bool =>
    rw [bool_back accepted]
    refine Iff.trans ⟨?_, fun equal => ⟨_, rfl, equal⟩⟩ (truth_eq_iff data)
    rintro ⟨_, ⟨⟩, equal⟩
    exact equal
  | char size => exact char_back_iff fits same accepted
  | unsignedInt =>
    obtain ⟨⟨⟩, _⟩ | ⟨n, number, above, below, here⟩ :=
      number_buffered heap (k := 4) rfl rfl rfl accepted
    rw [number_back_iff path_ne sized number same rfl, signed_of_packed here, Leaf.ReadBack]
    simp only [number, Option.mem_some_iff, forall_eq']
    exact bmod_iff_of_nonneg (k := 3) above
  | int =>
    obtain ⟨⟨⟩, _⟩ | ⟨n, number, above, below, here⟩ :=
      number_buffered heap (k := 4) rfl rfl rfl accepted
    rw [number_back_iff path_ne sized number same rfl, signed_of_packed here]
    exact iff_of_true (bmod_of_range (k := 3) above below).symm trivial
  | PTR =>
    -- a pointer is packed in the width of the target, but always read from eight bytes
    obtain rfl | rfl := supported
    · obtain ⟨_, rfl⟩ | ⟨n, number, above, below, here⟩ :=
        number_buffered heap (k := 4) rfl rfl rfl accepted
      · exact iff_of_false (null_not_back path_ne sized) fun back => back.1 rfl
      · rw [number_back_iff path_ne sized number same rfl, if_pos rfl, low_half here above below]
        refine iff_of_true rfl ⟨?_, fun other => absurd other (by decide)⟩
        rintro rfl
        cases number
    · obtain ⟨_, rfl⟩ | ⟨n, number, above, below, here⟩ :=
        number_buffered heap (k := 8) rfl rfl rfl accepted
      · exact iff_of_false (null_not_back path_ne sized) fun back => back.1 rfl
      · have packed_ : data ≠ .none := by
          rintro rfl
          cases number
        rw [number_back_iff path_ne sized number same rfl, if_neg (by decide),
          signed_of_packed here, Leaf.ReadBack]
        simp only [number, Option.mem_some_iff, forall_eq', ne_eq, packed_, not_false_eq_true,
          true_and, forall_const]
        exact bmod_iff_of_nonneg (k := 7) above
  | unsignedChar =>
    obtain ⟨⟨⟩, _⟩ | ⟨n, number, above, below, here⟩ :=
      number_buffered heap (k := 1) rfl rfl rfl accepted
    rw [number_back_iff path_ne sized number same rfl, unsigned_of_packed here]
    refine iff_of_true ?_ trivial
    omega
  | unsignedShort =>
    obtain ⟨⟨⟩, _⟩ | ⟨n, number, above, below, here⟩ :=
      number_buffered heap (k := 2) rfl rfl rfl accepted
    rw [number_back_iff path_ne sized number same rfl, unsigned_of_packed here]
    refine iff_of_true ?_ trivial
    omega
  | short =>
    -- the mask leaves the numbers that are not negative
    obtain ⟨⟨⟩, _⟩ | ⟨n, number, above, below, here⟩ :=
      number_buffered heap (k := 2) rfl rfl rfl accepted
    have kept : n.bmod (256 ^ 2) = n := bmod_of_range (k := 1) above below
    rw [number_back_iff path_ne sized number same rfl, signed_of_packed here, kept, Leaf.ReadBack]
    simp only [number, Option.mem_some_iff, forall_eq']
    omega
  | unsignedLongLong =>
    obtain ⟨⟨⟩, _⟩ | ⟨n, number, above, below, here⟩ :=
      number_buffered heap (k := 8) rfl rfl rfl accepted
    rw [number_back_iff path_ne sized number same rfl, signed_of_packed here, Leaf.ReadBack]
    simp only [number, Option.mem_some_iff, forall_eq']
    exact bmod_iff_of_nonneg (k := 7) above
  | longLong =>
    obtain ⟨⟨⟩, _⟩ | ⟨n, number, above, below, here⟩ :=
      number_buffered heap (k := 8) rfl rfl rfl accepted
    rw [number_back_iff path_ne sized number same rfl, signed_of_packed here]
    exact iff_of_true (bmod_of_range (k := 7) above below).symm trivial

/-- A short name in an array of 16 characters is read back. -/
theorem read_back_iff_name :
    ∃ r, get_struct_primitive 64 ((Leaf.char 16).field 64 ["name"] 0)
      (write (fun _ => 255) 0 ([116, 52] ++ List.replicate 14 0)) (fun _ => 255) (.str "") = .ok r ∧
        r.eq (.str "t4") := by
  have accepted : set_struct_primitive 64 ((Leaf.char 16).field 64 ["name"] 0) (fun _ => 255)
      (.str "t4") = .ok (write (fun _ => 255) 0 ([116, 52] ++ List.replicate 14 0)) := rfl
  have fits : (Leaf.char 16).Fits (.str "t4") := ⟨by decide, by decide⟩
  exact (read_back_iff (.inr rfl) accepted fits rfl).2 (show 2 ≤ 16 by decide)

/-- The largest limit of a semaphore is read back as -1. -/
theorem largest_limit_not_back :
    ∃ mem' : Bytes, set_struct_primitive 64 (Leaf.unsignedInt.field 64 ["limit"] 0) (fun _ => 0)
        (.int 4294967295) = .ok mem' ∧
      get_struct_primitive 64 (Leaf.unsignedInt.field 64 ["limit"] 0) mem' (fun _ => 0) (.int 0) =
        .ok (.int (-1)) ∧
      ¬ (PyObj.int (-1)).eq (.int 4294967295) := by
  have here := read_buffer (Leaf.unsignedInt.field 64 ["limit"] 0) (fun _ => 0) (fun _ => 0)
    (packed 4 4294967295) rfl
  rw [length_packed] at here
  have sign : (4294967295 : ℤ).bmod (256 ^ 4) = -1 := by decide
  refine ⟨write (fun _ => 0) (Leaf.unsignedInt.field 64 ["limit"] 0).addr (packed 4 4294967295), rfl, ?_,
    by decide⟩
  rw [get_number (by decide) (by decide) rfl (.inr rfl), signed_of_packed here, sign]

end Irx.Python
