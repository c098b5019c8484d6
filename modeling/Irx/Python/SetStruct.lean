import Irx.Debug.Unions
import Irx.Python.Fields
import Irx.Python.Proxy

/-!
# Writing an object into a structure

`set_struct` goes through an object, a list by its indices and a dataclass by its fields, and writes every
value to the field of its path, in the size of the packed value: neither the index nor the length of a
string is compared with the array. `set_struct_confined_iff` says for which objects all that is written
stays in the fields named.
-/

namespace Irx.Python
open Irx.Lib Irx.Debug Irx.Memory

mutual

/-- A Python object as `set_struct` looks at it. -/
inductive PyTree where
  | value (data : PyObj)
  | PTR (ptr : PyObj)
  | list (items : PyItems)
  | dict
  | dataclass (fields : PyFields)
  | other

/-- The items of a list. -/
inductive PyItems where
  | nil
  | cons (v : PyTree) (rest : PyItems)

/-- The fields of a dataclass with their names. -/
inductive PyFields where
  | nil
  | cons (name : String) (data : PyTree) (rest : PyFields)

end

/-- A write of `irx_struct_set`: to which path, and what was copied where. -/
structure FieldWrite where
  path : List String
  addr : Nat
  value : List UInt8
  deriving DecidableEq

/-- The memory of the host, the caches of the lookups, and the writes so far. -/
structure Host where
  mem : Bytes
  caches : Caches
  writes : List FieldWrite

/-- What ends a call early: an assertion or exception of the C++ side, or an exception of Python's. -/
inductive Stop where
  | aborted (a : Abort)
  | raised (e : PyError)
  deriving DecidableEq

/-- What is left after a call, and what ended it early. -/
abbrev Ended := Host × Option Stop

/-- The call goes on if it has not ended. -/
def Ended.andThen (r : Ended) (next : Host → Ended) : Ended :=
  match r with
  | (h, none) => next h
  | (h, some stop) => (h, some stop)

/-- Nothing more is done. -/
lemma andThen_done (r : Ended) : r.andThen (fun h => (h, none)) = r := by
  obtain ⟨h, stop⟩ := r
  cases stop with
  | none => rfl
  | some => rfl

/-- A path as Python prints it. -/
def reprPath (path : List String) : String :=
  "[" ++ ", ".intercalate (path.map fun k => "b'" ++ k ++ "'") ++ "]"

/-- The interpreter as `set_struct` uses it. -/
structure PyIRModuleInterpreter where
  irx : IRModule
  allocator : MapAllocator
  pointerSize : Nat

namespace PyIRModuleInterpreter

variable (P : PyIRModuleInterpreter) (name : String) (thread_ptr : Nat)

/-- `irx_struct_set`: the write is noted with its address. -/
def irx_struct_set (path : List String) (value : List UInt8) (h : Host) : Ended :=
  match fieldAddress P.irx P.allocator name thread_ptr path h.caches with
  | .error a => (h, some (.aborted a))
  | .ok (p, caches) => (⟨write h.mem p value, caches, h.writes ++ [⟨path, p, value⟩]⟩, none)

/-- `set_struct_primitive`: what the lookup says is packed and written. -/
def set_struct_primitive (data : PyObj) (path : List String) (h : Host) : Ended :=
  match path.getLast? with
  | none => (h, some (.raised .indexError))
  | some k =>
    match getStructFieldInfo2 P.irx name path h.caches with
    | .error a => (h, some (.aborted a))
    | .ok (info, caches) =>
      match packedField P.pointerSize k info.basicType info.size_in_bytes data with
      | .error e => ({ h with caches := caches }, some (.raised e))
      | .ok none => ({ h with caches := caches }, none)
      | .ok (some value) => P.irx_struct_set name thread_ptr path value { h with caches := caches }

mutual

/-- `vars` of a `dict` raises a `TypeError`. -/
def set_struct : PyTree → List String → Host → Ended
  | .value data, path, h =>
    if data = .none then (h, none) else P.set_struct_primitive name thread_ptr data path h
  | .PTR ptr, path, h => P.set_struct_primitive name thread_ptr ptr path h
  | .list items, path, h => set_items items path 0 h
  | .dict, _, h => (h, some (.raised .typeError))
  | .dataclass fields, path, h => set_fields fields path h
  | .other, path, h => (h, some (.raised (.runtimeError
      ("Convert to C-mem not implemented for field '" ++ reprPath path ++ "'"))))

/-- The loop over a list. -/
def set_items : PyItems → List String → Nat → Host → Ended
  | .nil, _, _, h => (h, none)
  | .cons v rest, path, k, h =>
    (set_struct v (path ++ [toString k]) h).andThen (set_items rest path (k + 1))

/-- The loop over the fields of a dataclass. -/
def set_fields : PyFields → List String → Host → Ended
  | .nil, _, h => (h, none)
  | .cons k data rest, path, h =>
    if isDunder k then set_fields rest path h
    else (set_struct data (path ++ [k]) h).andThen (set_fields rest path)

end

end PyIRModuleInterpreter

/-! ### What there is to write -/

/-- A value with its path, or where an exception is raised. -/
inductive Visit where
  | set (path : List String) (data : PyObj)
  | raise (e : PyError)

mutual

/-- The values that `set_struct` comes to in an object, in their order. -/
def visits : PyTree → List String → List Visit
  | .value data, path => if data = .none then [] else [.set path data]
  | .PTR ptr, path => [.set path ptr]
  | .list items, path => itemVisits items path 0
  | .dict, _ => [.raise .typeError]
  | .dataclass fields, path => fieldVisits fields path
  | .other, path => [.raise (.runtimeError
      ("Convert to C-mem not implemented for field '" ++ reprPath path ++ "'"))]

/-- The values in the items, from an index on. -/
def itemVisits : PyItems → List String → Nat → List Visit
  | .nil, _, _ => []
  | .cons v rest, path, k => visits v (path ++ [toString k]) ++ itemVisits rest path (k + 1)

/-- The values in the fields. -/
def fieldVisits : PyFields → List String → List Visit
  | .nil, _ => []
  | .cons k data rest, path =>
    if isDunder k then fieldVisits rest path
    else visits data (path ++ [k]) ++ fieldVisits rest path

end

/-- The letters of a text. -/
def PyObj.letters : PyObj → Nat
  | .str s => s.length
  | _ => 0

/-- The bytes that a value takes: a number those of its basic type, a text those of the field or its own
letters, whatever is more. -/
def width (pointerSize : Nat) (bt : String) (size_in_bytes : Nat) (data : PyObj) : Nat :=
  if bt = "char" then max size_in_bytes data.letters
  else if bt = "PTR" then if pointerSize = 32 then 4 else 8
  else if bt ∈ ["unsigned long long", "long long"] then 8
  else if bt ∈ ["unsigned int", "int"] then 4
  else if bt ∈ ["unsigned short", "short"] then 2
  else 1

section Confined

variable (P : PyIRModuleInterpreter) (name : String)

/-- The value is packed, and the indices of its path lead to the element of the structure type at this
offset in bytes. -/
inductive Sends (path : List String) (data : PyObj) : List UInt8 → Nat → Prop where
  | mk {k info value is Ty o} :
    path.getLast? = some k → Told P.irx name path info →
    packedField P.pointerSize k info.basicType info.size_in_bytes data = .ok (some value) →
    info.gep = 0 :: is → getTypeByNameUncached P.irx ("struct." ++ name) = some Ty →
    walk P.irx.layout Ty is = some o → Sends path data value (word (8 * o) / 8)

/-- Nothing is written for the value. -/
def Skips (path : List String) (data : PyObj) : Prop :=
  ∃ k info, path.getLast? = some k ∧ Told P.irx name path info ∧
    packedField P.pointerSize k info.basicType info.size_in_bytes data = .ok none

/-- The call goes on behind the value. -/
def Passes : Visit → Prop
  | .set path data => Skips P name path data ∨ ∃ value o, Sends P name path data value o
  | .raise _ => False

/-- The call comes to the value in the list: all before it are passed. -/
def ComesTo (vs : List Visit) (path : List String) (data : PyObj) : Prop :=
  ∃ front back, vs = front ++ .set path data :: back ∧ ∀ v ∈ front, Passes P name v

variable (bounds : Nat → List Nat) (offset : Nat → Nat) (c : Nat)

/-- So many bytes touch only bytes of a field of this size if they start `d` bits behind it. -/
def WidthFits (bits : Nat) (d : Int) (width : Nat) : Prop := width = 0 ∨ (-8 < d ∧ d + 8 * width < bits + 8)

/-- Every index of the path is below the bound of its array, the elements that the steps of the path have in
the structure type start no further than `d` bits behind the field, and from there on the width of the value
is no more than the field has left. -/
def StaysInField (path : List String) (data : PyObj) : Prop :=
  ∃ info, Told P.irx name path info ∧
    (width P.pointerSize info.basicType info.size_in_bytes data = 0 ∨
      ∃ T steps bits d, getTypeByNameUncached P.irx ("struct." ++ name) = some T ∧
        NamesAt P.irx.debug bounds offset ⟨c, 0⟩ path steps bits ∧ Shifted P.irx.layout T (way steps) d ∧
        WidthFits bits d (width P.pointerSize info.basicType info.size_in_bytes data))

/-- The value is written, and it does not stay in its field. -/
def Overruns (path : List String) (data : PyObj) : Prop :=
  (∃ value o, Sends P name path data value o) ∧ ¬ StaysInField P name bounds offset c path data

/-- The write stays in the bytes of the field that its path names. -/
def Confined (vptr : Nat) (w : FieldWrite) : Prop :=
  ∀ j < w.value.length, ∃ x, w.addr + j = vptr + x ∧ InField P.irx.debug bounds offset c w.path x

end Confined

variable {P : PyIRModuleInterpreter} {name : String} {thread_ptr c o : Nat} {bounds : Nat → List Nat}
variable {offset : Nat → Nat} {path : List String} {data : PyObj} {value : List UInt8} {h : Host}
variable {r : Ended}

/-! ### One value -/

/-- A packed integer has the size of its format. -/
lemma pack_length {format : Char} {k : Nat} {low high : ℤ} (known : intFormat format = some (k, low, high))
    (e : (pack format data).map some = .ok (some value)) : value.length = k := by
  have other : format ≠ '?' := by
    rintro rfl
    cases known
  rw [pack, if_neg other, known] at e
  cases number : data.toInt with
  | none =>
    rw [number] at e
    cases e
  | some n =>
    simp only [number] at e
    split at e
    case isTrue =>
      cases e
      exact length_packed k n
    case isFalse => cases e

/-- What is packed as an integer of the basic type has the width of the value. -/
lemma pack_width {pointerSize size : Nat} {bt t : String} {format : Char} {k : Nat} {low high : ℤ}
    (is : bt ∈ [t]) (known : intFormat format = some (k, low, high))
    (wide : width pointerSize t size data = k) (e : (pack format data).map some = .ok (some value)) :
    value.length = width pointerSize bt size data := by
  obtain rfl := List.mem_singleton.1 is
  rw [wide]
  exact pack_length known e

/-- What is packed has the width of the value. -/
lemma packedField_length {pointerSize size : Nat} {k bt : String}
    (e : packedField pointerSize k bt size data = .ok (some value)) :
    value.length = width pointerSize bt size data := by
  rw [packedField] at e
  split at e
  case isTrue is => exact pack_width is.1 (rfl : intFormat 'I' = _) rfl e
  split at e
  case isTrue is => exact pack_width is (rfl : intFormat 'i' = _) rfl e
  split at e
  case isTrue is =>
    obtain rfl := List.mem_singleton.1 is
    cases e
    rfl
  split at e
  case isTrue is =>
    obtain rfl := List.mem_singleton.1 is
    split at e
    case isTrue => cases e
    case isFalse =>
      rw [get_ptr_struct_type] at e
      rw [width, if_neg (by decide), if_pos rfl]
      split
      case isTrue small =>
        rw [if_pos small] at e
        exact pack_length (rfl : intFormat 'I' = _) e
      case isFalse large =>
        rw [if_neg large] at e
        split at e
        case isTrue => exact pack_length (rfl : intFormat 'Q' = _) e
        case isFalse => exact pack_length (rfl : intFormat 'P' = _) e
  split at e
  case isTrue is =>
    obtain rfl := List.mem_singleton.1 is
    cases data with
    | str s =>
      rw [ljustEncode] at e
      split at e
      case isTrue =>
        cases e
        rw [List.length_map, List.length_append, List.length_replicate, String.length_toList, width,
          if_pos rfl, PyObj.letters]
        omega
      case isFalse => cases e
    | none | bool b | int n | bytes b => cases e
  split at e
  case isTrue is => exact pack_width is (rfl : intFormat 'B' = _) rfl e
  split at e
  case isTrue is => exact pack_width is (rfl : intFormat 'H' = _) rfl e
  split at e
  case isTrue is => exact pack_width is (rfl : intFormat 'h' = _) rfl e
  split at e
  case isTrue is => exact pack_width is (rfl : intFormat 'Q' = _) rfl e
  split at e
  case isTrue is => exact pack_width is (rfl : intFormat 'q' = _) rfl e
  split at e
  case isTrue => cases e
  case isFalse => cases e

/-- For a value one thing is written to one place. -/
lemma Sends.unique {value' : List UInt8} {o' : Nat} (first : Sends P name path data value o)
    (second : Sends P name path data value' o') : value = value' ∧ o = o' := by
  cases first with
  | mk last told packed start typed walked =>
    cases second with
    | mk last' told' packed' start' typed' walked' =>
      cases last.symm.trans last'
      cases told.unique told'
      cases packed.symm.trans packed'
      cases start.symm.trans start'
      cases typed.symm.trans typed'
      cases walked.symm.trans walked'
      exact ⟨rfl, rfl⟩

/-- What is skipped is not written. -/
lemma Skips.not_sends (skips : Skips P name path data) : ¬ Sends P name path data value o := by
  intro sends
  obtain ⟨k, info, last, told, nothing⟩ := skips
  cases sends with
  | mk last' told' packed =>
    cases last.symm.trans last'
    cases told.unique told'
    cases nothing.symm.trans packed

/-- What the call for one value leaves. -/
inductive Sets (P : PyIRModuleInterpreter) (name : String) (vptr : Nat) (path : List String)
    (data : PyObj) (h : Host) : Ended → Prop where
  | sends {value o caches} : Sends P name path data value o → caches.Coherent P.irx →
    Sets P name vptr path data h (⟨write h.mem (word (vptr + o)) value, caches,
      h.writes ++ [⟨path, word (vptr + o), value⟩]⟩, none)
  | skips {caches} : Skips P name path data → caches.Coherent P.irx →
    Sets P name vptr path data h ({ h with caches := caches }, none)
  | stops {caches stop} : ¬ Passes P name (.set path data) →
    Sets P name vptr path data h ({ h with caches := caches }, some stop)

/-- The three ways a value can go. -/
lemma set_struct_primitive_sets {vptr : Nat} (name : String) (path : List String) (data : PyObj)
    (coherent : h.caches.Coherent P.irx)
    (translated : vvptr2vptr P.allocator thread_ptr = .ok vptr) :
    Sets P name vptr path data h (P.set_struct_primitive name thread_ptr data path h) := by
  rw [PyIRModuleInterpreter.set_struct_primitive]
  cases last : path.getLast? with
  | none =>
    apply Sets.stops
    rintro (⟨k, _, last', _⟩ | ⟨_, _, sends⟩)
    · cases last.symm.trans last'
    · cases sends with
      | mk last' => cases last.symm.trans last'
  | some k =>
    obtain ⟨info, caches, told, coherent1, e⟩ | ⟨untold, _, e⟩ :=
      getStructFieldInfo2_cases name path coherent
    case inr =>
      simp only [e]
      apply Sets.stops
      rintro (⟨_, info, _, told, _⟩ | ⟨_, _, sends⟩)
      · exact untold info told
      · cases sends with
        | mk _ told => exact untold _ told
    simp only [e]
    cases bytes : packedField P.pointerSize k info.basicType info.size_in_bytes data with
    | error e =>
      apply Sets.stops
      rintro (⟨_, _, last', told', nothing⟩ | ⟨_, _, sends⟩)
      · cases last.symm.trans last'
        cases told.unique told'
        cases bytes.symm.trans nothing
      · cases sends with
        | mk last' told' packed =>
          cases last.symm.trans last'
          cases told.unique told'
          cases bytes.symm.trans packed
    | ok sent =>
      cases sent with
      | none => exact .skips ⟨k, info, last, told, bytes⟩ coherent1
      | some value =>
        simp only
        rw [PyIRModuleInterpreter.irx_struct_set, fieldAddress, bind_ok translated]
        obtain ⟨is, Ty, o, caches', start, typed, walked, coherent2, found⟩ | ⟨nowhere, _, failed⟩ :=
          offsetInBitsFromPath_cases coherent1 told
        · rw [bind_ok found]
          exact .sends (.mk last told bytes start typed walked) coherent2
        · rw [bind_error failed]
          apply Sets.stops
          rintro (skips | ⟨_, _, sends⟩)
          · obtain ⟨_, _, last', told', nothing⟩ := skips
            cases last.symm.trans last'
            cases told.unique told'
            cases bytes.symm.trans nothing
          · cases sends with
            | mk _ told' _ start typed walked =>
              cases told.unique told'
              exact nowhere _ _ _ start typed walked

/-! ### All values -/

/-- The values are written in their order until the call ends. -/
def perform (P : PyIRModuleInterpreter) (name : String) (thread_ptr : Nat) : List Visit → Host → Ended
  | [], h => (h, none)
  | .set path data :: rest, h =>
    (P.set_struct_primitive name thread_ptr data path h).andThen (perform P name thread_ptr rest)
  | .raise e :: _, h => (h, some (.raised e))

/-- The first values, and then the others. -/
lemma perform_append (front back : List Visit) (h : Host) :
    perform P name thread_ptr (front ++ back) h =
      (perform P name thread_ptr front h).andThen (perform P name thread_ptr back) := by
  induction front generalizing h with
  | nil => rfl
  | cons v front ih =>
    cases v with
    | raise e => rfl
    | set path data =>
      rw [List.cons_append, perform, perform]
      cases P.set_struct_primitive name thread_ptr data path h with
      | mk h' stop =>
        cases stop with
        | none => exact ih h'
        | some stop => rfl

mutual

/-- `set_struct` goes through the values one by one. -/
lemma set_struct_eq : ∀ (obj : PyTree) (path : List String) (h : Host),
    P.set_struct name thread_ptr obj path h = perform P name thread_ptr (visits obj path) h
  | .value data, path, h => by
    rw [PyIRModuleInterpreter.set_struct, visits]
    split
    · rfl
    · exact (andThen_done _).symm
  | .PTR ptr, path, h => by
    rw [PyIRModuleInterpreter.set_struct, visits]
    exact (andThen_done _).symm
  | .list items, path, h => by
    rw [PyIRModuleInterpreter.set_struct, visits]
    exact set_items_eq items path 0 h
  | .dict, path, h => by
    rw [PyIRModuleInterpreter.set_struct, visits]
    rfl
  | .dataclass fields, path, h => by
    rw [PyIRModuleInterpreter.set_struct, visits]
    exact set_fields_eq fields path h
  | .other, path, h => by
    rw [PyIRModuleInterpreter.set_struct, visits]
    rfl

/-- So does the loop over the items. -/
lemma set_items_eq : ∀ (items : PyItems) (path : List String) (k : Nat) (h : Host),
    P.set_items name thread_ptr items path k h = perform P name thread_ptr (itemVisits items path k) h
  | .nil, path, k, h => by
    rw [PyIRModuleInterpreter.set_items, itemVisits]
    rfl
  | .cons v rest, path, k, h => by
    rw [PyIRModuleInterpreter.set_items, itemVisits, perform_append, set_struct_eq v]
    exact congrArg _ (funext fun h => set_items_eq rest path (k + 1) h)

/-- So does the loop over the fields. -/
lemma set_fields_eq : ∀ (fields : PyFields) (path : List String) (h : Host),
    P.set_fields name thread_ptr fields path h = perform P name thread_ptr (fieldVisits fields path) h
  | .nil, path, h => by
    rw [PyIRModuleInterpreter.set_fields, fieldVisits]
    rfl
  | .cons k data rest, path, h => by
    rw [PyIRModuleInterpreter.set_fields, fieldVisits]
    split
    · exact set_fields_eq rest path h
    · rw [perform_append, set_struct_eq data]
      exact congrArg _ (funext fun h => set_fields_eq rest path h)

end

/-- There is nothing to come to. -/
lemma not_comesTo_nil : ¬ ComesTo P name [] path data := by
  rintro ⟨front, back, e, _⟩
  cases front with
  | nil => cases e
  | cons => cases e

/-- The call comes to the first value, or passes it and comes to a later one. -/
lemma comesTo_cons_iff {v : Visit} {vs : List Visit} : ComesTo P name (v :: vs) path data ↔
    v = .set path data ∨ Passes P name v ∧ ComesTo P name vs path data := by
  constructor
  · rintro ⟨front, back, e, passed⟩
    cases front with
    | nil =>
      cases e
      exact .inl rfl
    | cons v' front =>
      cases e
      exact .inr ⟨passed _ (.head _), front, back, rfl, fun v mem => passed v (.tail _ mem)⟩
  · rintro (rfl | ⟨pass, front, back, rfl, passed⟩)
    · exact ⟨[], vs, rfl, fun v mem => by cases mem⟩
    · exact ⟨v :: front, back, rfl, List.forall_mem_cons.2 ⟨pass, passed⟩⟩

/-- The writes of a call, one after the other, make up what it does to the memory; they are those of the
values that the call comes to. -/
lemma perform_writes {vptr : Nat} (name : String) (vs : List Visit) (coherent : h.caches.Coherent P.irx)
    (translated : vvptr2vptr P.allocator thread_ptr = .ok vptr) :
    ∃ ws, (perform P name thread_ptr vs h).1.writes = h.writes ++ ws ∧
      (perform P name thread_ptr vs h).1.mem = ws.foldl (fun m w => write m w.addr w.value) h.mem ∧
      ∀ w, w ∈ ws ↔ ∃ path data value o, ComesTo P name vs path data ∧
        Sends P name path data value o ∧ w = ⟨path, word (vptr + o), value⟩ := by
  induction vs generalizing h with
  | nil =>
    refine ⟨[], (List.append_nil _).symm, rfl, fun w => iff_of_false (List.not_mem_nil) ?_⟩
    rintro ⟨path, data, _, _, reached, _⟩
    exact not_comesTo_nil reached
  | cons v vs ih =>
    cases v with
    | raise e =>
      refine ⟨[], (List.append_nil _).symm, rfl, fun w => iff_of_false (List.not_mem_nil) ?_⟩
      rintro ⟨path, data, _, _, reached, _⟩
      obtain e | ⟨pass, _⟩ := comesTo_cons_iff.1 reached
      · cases e
      · exact pass
    | set path data =>
      rw [perform]
      have sets := set_struct_primitive_sets name path data coherent translated
      generalize P.set_struct_primitive name thread_ptr data path h = r at sets
      cases sets with
      | @sends value o caches sends coherent' =>
        obtain ⟨ws, writes, mem, all⟩ := ih (h := ⟨write h.mem (word (vptr + o)) value, caches,
          h.writes ++ [⟨path, word (vptr + o), value⟩]⟩) coherent'
        refine ⟨⟨path, word (vptr + o), value⟩ :: ws, ?_, mem, fun w => ?_⟩
        · exact writes.trans (List.append_assoc ..)
        · rw [List.mem_cons, all]
          constructor
          · rintro (rfl | ⟨path', data', value', o', reached, sends', rfl⟩)
            · exact ⟨_, _, _, _, comesTo_cons_iff.2 (.inl rfl), sends, rfl⟩
            · exact ⟨_, _, _, _, comesTo_cons_iff.2 (.inr ⟨.inr ⟨_, _, sends⟩, reached⟩), sends', rfl⟩
          · rintro ⟨path', data', value', o', reached, sends', rfl⟩
            obtain e | ⟨_, reached⟩ := comesTo_cons_iff.1 reached
            · cases e
              obtain ⟨rfl, rfl⟩ := sends.unique sends'
              exact .inl rfl
            · exact .inr ⟨_, _, _, _, reached, sends', rfl⟩
      | @skips caches skips coherent' =>
        obtain ⟨ws, writes, mem, all⟩ := ih (h := { h with caches := caches }) coherent'
        refine ⟨ws, writes, mem, fun w => ?_⟩
        rw [all]
        constructor
        · rintro ⟨path', data', value', o', reached, sends', rfl⟩
          exact ⟨_, _, _, _, comesTo_cons_iff.2 (.inr ⟨.inl skips, reached⟩), sends', rfl⟩
        · rintro ⟨path', data', value', o', reached, sends', rfl⟩
          obtain e | ⟨_, reached⟩ := comesTo_cons_iff.1 reached
          · cases e
            exact absurd sends' skips.not_sends
          · exact ⟨_, _, _, _, reached, sends', rfl⟩
      | stops stays =>
        refine ⟨[], (List.append_nil _).symm, rfl, fun w => iff_of_false (List.not_mem_nil) ?_⟩
        rintro ⟨path', data', _, _, reached, sends', _⟩
        obtain e | ⟨pass, _⟩ := comesTo_cons_iff.1 reached
        · cases e
          exact stays (.inr ⟨_, _, sends'⟩)
        · exact stays pass

/-! ### Where the writes go -/

/-- In bits, the offset is a `size_t`. -/
lemma Sends.small (sends : Sends P name path data value o) : o < 2 ^ 61 := by
  cases sends with
  | @mk _ _ _ _ _ o' =>
    have lt := word_lt (8 * o')
    omega

/-- A write is confined if and only if all bytes from the element on are bytes of the field. -/
lemma confined_iff {vptr size : Nat} (layout : CLayout P.irx.debug bounds offset)
    (whole : bitsOf P.irx.debug c ≤ 8 * size) (host : vptr + size < 2 ^ 64) (small : o < 2 ^ 61) :
    Confined P bounds offset c vptr ⟨path, word (vptr + o), value⟩ ↔
      ∀ j < value.length, InField P.irx.debug bounds offset c path (o + j) := by
  constructor
  · intro confined j lt
    obtain ⟨x0, first, held0⟩ := confined 0 (Nat.zero_lt_of_lt lt)
    obtain ⟨x, here, held⟩ := confined j lt
    have := held0.lt layout whole
    -- the address has not wrapped around, as it is not below the structure
    have straight : word (vptr + o) = vptr + o := by
      apply word_of_lt
      by_contra wrapped
      simp only [word] at first
      omega
    simp only [straight] at here
    have same : x = o + j := by omega
    rwa [same] at held
  · intro held j lt
    have := (held j lt).lt layout whole
    have straight : word (vptr + o) = vptr + o := word_of_lt (by omega)
    refine ⟨o + j, ?_, held j lt⟩
    show word (vptr + o) + j = _
    rw [straight, Nat.add_assoc]

/-- What is written touches only bytes of its field exactly if it stays there. -/
lemma Sends.stays_iff (ctypes : CTypes P.irx.debug bounds) (declared : Declared P.irx.debug)
    (layout : CLayout P.irx.debug bounds offset)
    (found : P.irx.types.find? (isStructNamed P.irx name) = some c)
    (small : bitsOf P.irx.debug c < 2 ^ 64 - 8) (sends : Sends P name path data value o) :
    StaysInField P name bounds offset c path data ↔
      ∀ j < value.length, InField P.irx.debug bounds offset c path (o + j) := by
  obtain ⟨last, told, packed, start, typed, walked⟩ := sends
  rename_i k info is T o
  have length := packedField_length packed
  constructor
  · rintro ⟨info', told', empty | ⟨T', steps, bits, d, typed', names, ⟨_, shift, divides⟩, holds⟩⟩ j lt
    · cases told.unique told'
      omega
    cases told.unique told'
    cases typed.symm.trans typed'
    obtain ⟨o', walked', rfl⟩ := shift_iff.1 shift
    have same : o = o' := by
      obtain nothing | indices := told.gep_steps ctypes declared found names
      · cases nothing.symm.trans start
      · cases indices.symm.trans start
        rw [way_indices, walked] at walked'
        exact Option.some.inj walked'
    subst same
    rw [way_offsets] at divides
    have inside : bitOffset steps + bits ≤ bitsOf P.irx.debug c := names.fits layout
    obtain empty | ⟨low, high⟩ := holds
    · omega
    refine ⟨steps, bits, names, ?_, ?_⟩
    · simp only [word]
      omega
    · simp only [word]
      omega
  · intro held
    refine ⟨info, told, ?_⟩
    by_cases empty : width P.pointerSize info.basicType info.size_in_bytes data = 0
    case pos => exact .inl empty
    case neg =>
      obtain ⟨steps, bits, names, low, _⟩ := held 0 (by omega)
      obtain ⟨steps', bits', names', _, high⟩ := held (value.length - 1) (by omega)
      obtain ⟨rfl, rfl⟩ := names.unique ctypes declared names'
      have indices : is = steps.map Step.index := by
        obtain nothing | indices := told.gep_steps ctypes declared found names
        · cases nothing.symm.trans start
        · exact (List.cons.inj (start.symm.trans indices)).2
      subst indices
      refine .inr ⟨T, steps, bits, 8 * ((word (8 * o) / 8 : Nat) : Int) - bitOffset steps, typed, names,
        ?_, ?_⟩
      · refine shifted_iff.2 ⟨o, by rw [way_indices, walked], ?_⟩
        rw [way_offsets]
        simp only [word]
        omega
      · right
        rw [← length]
        omega

/-- Where the elements of the structure type start where the fields do, indices below the bounds and a value
that is no wider than its field are enough. -/
lemma stays_of_short {info : BasicTypeInfo} {T : LType} {steps : List Step} {bits : Nat}
    (told : Told P.irx name path info) (typed : getTypeByNameUncached P.irx ("struct." ++ name) = some T)
    (names : NamesAt P.irx.debug bounds offset ⟨c, 0⟩ path steps bits)
    (level : Shifted P.irx.layout T (way steps) 0)
    (short : 8 * width P.pointerSize info.basicType info.size_in_bytes data ≤ bits) :
    StaysInField P name bounds offset c path data :=
  ⟨info, told, .inr ⟨T, steps, bits, 0, typed, names, level, .inr ⟨by decide, by omega⟩⟩⟩

/-- So it is for what a compiler makes of the debug types, but behind unions and in structures with
bit-fields. -/
theorem stays_of_beside {info : BasicTypeInfo} {lower : Nat → LType} {steps : List Step} {bits : Nat}
    (ctypes : CTypes P.irx.debug bounds)
    (lowering : Lowering P.irx.debug lower bounds offset P.irx.layout) (told : Told P.irx name path info)
    (typed : getTypeByNameUncached P.irx ("struct." ++ name) = some (lower c))
    (names : NamesAt P.irx.debug bounds offset ⟨c, 0⟩ path steps bits)
    (beside : SideBySide P.irx.debug lower P.irx.layout steps)
    (short : 8 * width P.pointerSize info.basicType info.size_in_bytes data ≤ bits) :
    StaysInField P name bounds offset c path data := by
  refine stays_of_short told typed names ?_ short
  have level := (names.shifted ctypes lowering).2 beside
  rwa [placeType_type] at level

/-- A byte that a list of writes changes is one of the bytes written. -/
lemma foldl_write_changed {ws : List FieldWrite} {m : Bytes} {y : Nat}
    (changed : ws.foldl (fun m w => write m w.addr w.value) m y ≠ m y) :
    ∃ w ∈ ws, ∃ j < w.value.length, y = w.addr + j := by
  induction ws generalizing m with
  | nil => exact absurd rfl changed
  | cons w ws ih =>
    by_cases here : write m w.addr w.value y = m y
    case pos =>
      rw [List.foldl_cons, ← here] at changed
      obtain ⟨w', mem, bytes⟩ := ih changed
      exact ⟨w', .tail _ mem, bytes⟩
    case neg =>
      refine ⟨w, .head _, y - w.addr, ?_, ?_⟩
      · by_contra out
        exact here (write_outside (by omega))
      · by_contra out
        exact here (write_outside (by omega))

/-- For every object and every live block of the structure: all that `set_struct` writes stays in the bytes
of the fields that the paths name if and only if no value that it comes to overruns. Then every byte that
is changed lies in the block, in a field that the object mentions. -/
theorem set_struct_confined_iff {P : PyIRModuleInterpreter} {M : Memory.Module} {s : MyInterpreter}
    {b : Block} {name : String} {c : Nat} {bounds : Nat → List Nat} {offset : Nat → Nat} {h : Host}
    (run : (api M).Outcome (.ok s)) (live : s.allocator.Live b) (shared : P.allocator = s.allocator)
    (found : P.irx.types.find? (isStructNamed P.irx name) = some c)
    (coherent : h.caches.Coherent P.irx) (ctypes : CTypes P.irx.debug bounds)
    (declared : Declared P.irx.debug) (layout : CLayout P.irx.debug bounds offset)
    (whole : bitsOf P.irx.debug c ≤ 8 * b.size) (start : h.writes = []) (obj : PyTree) :
    let after := (P.set_struct name b.vvptr obj [] h).1
    ((∀ w ∈ after.writes, Confined P bounds offset c b.vptr w) ↔
      ∀ path data, ComesTo P name (visits obj []) path data →
        ¬ Overruns P name bounds offset c path data) ∧
    ((∀ w ∈ after.writes, Confined P bounds offset c b.vptr w) → ∀ y, after.mem y ≠ h.mem y →
      ∃ path data x, ComesTo P name (visits obj []) path data ∧ y = b.vptr + x ∧ x < b.size ∧
        InField P.irx.debug bounds offset c path x) := by
  intro after
  obtain ⟨base, mark, A, extra, inv⟩ := outcome_invariant run
  have known := inv.rep.live_iff.1 live
  have host := inv.rep.host b known
  have size : b.size ≤ vvsize := by
    obtain ⟨low, high⟩ := inv.rep.consistent.inside b live
    rw [Block.stop, endAddr] at high
    omega
  rw [vvsize] at size
  have translated : vvptr2vptr P.allocator b.vvptr = .ok b.vptr := by
    have inside := inv.rep.vvptr2vptr_inside known le_rfl (Nat.le_add_right _ _)
    rwa [Nat.sub_self, Nat.add_zero, ← shared] at inside
  obtain ⟨ws, writes, mem, all⟩ := perform_writes name (visits obj []) coherent translated
  rw [← set_struct_eq, start, List.nil_append] at writes
  rw [← set_struct_eq] at mem
  have each : ∀ path data value o, Sends P name path data value o →
      (Confined P bounds offset c b.vptr ⟨path, word (b.vptr + o), value⟩ ↔
        StaysInField P name bounds offset c path data) := fun path data value o sends =>
    (confined_iff layout whole (by omega) sends.small).trans
      (sends.stays_iff ctypes declared layout found (by omega)).symm
  refine ⟨⟨fun confined path data reached => ?_, fun fits w there => ?_⟩, fun confined y changed => ?_⟩
  · rintro ⟨⟨value, o, sends⟩, out⟩
    have written : (⟨path, word (b.vptr + o), value⟩ : FieldWrite) ∈ after.writes := by
      show _ ∈ (P.set_struct name b.vvptr obj [] h).1.writes
      rw [writes]
      exact (all _).2 ⟨path, data, value, o, reached, sends, rfl⟩
    exact out ((each _ _ _ _ sends).1 (confined _ written))
  · have written : w ∈ ws := by rwa [← writes]
    obtain ⟨path, data, value, o, reached, sends, rfl⟩ := (all w).1 written
    refine (each _ _ _ _ sends).2 ?_
    by_contra out
    exact fits path data reached ⟨⟨value, o, sends⟩, out⟩
  · have changed : ws.foldl (fun m w => write m w.addr w.value) h.mem y ≠ h.mem y := by rwa [← mem]
    obtain ⟨w, written, j, lt, rfl⟩ := foldl_write_changed changed
    obtain ⟨path, data, value, o, reached, sends, rfl⟩ := (all w).1 written
    have there : (⟨path, word (b.vptr + o), value⟩ : FieldWrite) ∈ after.writes := by
      show _ ∈ (P.set_struct name b.vvptr obj [] h).1.writes
      rwa [writes]
    obtain ⟨x, here, held⟩ := confined _ there j lt
    exact ⟨path, data, x, reached, here, held.lt layout whole, held⟩

/-- The debug types of `struct label { char name[4]; int id; }`. -/
def labelDebug : DebugInfo := .ofList [
  .composite .structureType "label" 64 none [.type 1, .type 2],
  .derived .member "name" 32 (some 3),
  .derived .member "id" 32 (some 5),
  .composite .arrayType "" 32 (some 4) [.other],
  .basic "char" 8,
  .basic "int" 32] (by decide)

/-- The bounds of the arrays. -/
def labelBounds (n : Nat) : List Nat := if n = 3 then [4] else []

/-- Where the members are, in bits. -/
def labelOffset (x : Nat) : Nat := if x = 2 then 32 else 0

/-- An interpreter with `struct label` and live blocks. -/
def labelInterpreter : PyIRModuleInterpreter where
  irx := {
    debug := labelDebug
    types := [0]
    structTypes := [("struct.label", .struct [.array 4 (.scalar 8), .scalar 32])]
    layout := .packed
    isLayoutIdentical := fun _ _ => true
    identical_self := fun _ => rfl }
  allocator := dlistState.allocator
  pointerSize := 32

/-- A label with this as its name. -/
def labelOf (name : PyTree) : PyTree :=
  .dataclass (.cons "name" name (.cons "id" (.value (.int 7)) .nil))

/-- The block that `structAlloc` has returned. -/
def labelBlock : Block := ⟨0x5000012c, 0x7f0000004000, 96, 3⟩

/-- The writes for an object at the block. -/
def labelWrites (obj : PyTree) : List FieldWrite :=
  (labelInterpreter.set_struct "label" labelBlock.vvptr obj []
    ⟨fun _ => 0, ⟨fun _ => none, fun _ => none⟩, []⟩).1.writes

/-- There is one structure. -/
lemma label_record {c : Nat} (record : isRecord labelDebug c) : c = 0 := by
  by_cases lt : c < 6
  · have all : ∀ c < 6, isRecord labelDebug c → c = 0 := by decide
    exact all c lt record
  · have out : labelDebug.node c = .subroutine := List.getD_eq_default _ _ (not_lt.1 lt)
    rw [isRecord, out] at record
    cases record

/-- The structure has two members. -/
lemma label_member {x : Nat} (mem : .type x ∈ (labelDebug.node 0).elements) : x = 1 ∨ x = 2 := by
  have all : ∀ e ∈ (labelDebug.node 0).elements, e = .type 1 ∨ e = .type 2 := by decide
  obtain e | e := all _ mem
  · cases e
    exact .inl rfl
  · cases e
    exact .inr rfl

/-- The members are where C has them. -/
lemma label_layout : CLayout labelDebug labelBounds labelOffset where
  member c x name bits base record mem node := by
    cases label_record record
    obtain rfl | rfl := label_member mem
    all_goals
      cases node
      decide
  field x name bits b k node e composite := by
    by_cases lt : x < 6
    · have all : ∀ x < 6, (labelDebug.node x).getTag = .member → x = 1 ∨ x = 2 := by decide
      obtain rfl | rfl := all x lt (by rw [node]; rfl)
      · cases node
        have array : Debug.bare labelDebug 3 = some 3 := rfl
        cases array.symm.trans e
        decide
      · cases node
        have int : Debug.bare labelDebug 5 = some 5 := rfl
        cases int.symm.trans e
        cases composite
    · have out : labelDebug.node x = .subroutine := List.getD_eq_default _ _ (not_lt.1 lt)
      cases out.symm.trans node
  array a name bits b elements node := by
    by_cases lt : a < 6
    · have all : ∀ a < 6, (labelDebug.node a).getTag = .arrayType → a = 3 := by decide
      cases all a lt (by rw [node]; rfl)
      cases node
      decide
    · have out : labelDebug.node a = .subroutine := List.getD_eq_default _ _ (not_lt.1 lt)
      cases out.symm.trans node

/-- All other nodes are function types. -/
lemma label_node (n : Nat) : n < 6 ∨ labelDebug.node n = .subroutine := by
  by_cases lt : n < 6
  · exact .inl lt
  · exact .inr (List.getD_eq_default _ _ (not_lt.1 lt))

/-- Only the structure has elements. -/
lemma label_elements {m : Nat} (mem : .type m ∈ (labelDebug.node c).elements) :
    c = 0 ∧ (m = 1 ∨ m = 2) := by
  obtain lt | out := label_node c
  · have all : ∀ c < 6, ∀ e ∈ (labelDebug.node c).elements, c = 0 ∨ e = .other := by decide
    obtain rfl | other := all c lt _ mem
    · exact ⟨rfl, label_member mem⟩
    · cases other
  · rw [out] at mem
    cases mem

/-- The debug types are those of C. -/
lemma label_ctypes : CTypes labelDebug labelBounds where
  member c m _ _ mem := by
    obtain ⟨rfl, rfl | rfl⟩ := label_elements mem
    · exact ⟨rfl, _, _, _, _, rfl, rfl, fun e => absurd e (by decide)⟩
    · exact ⟨rfl, _, _, _, _, rfl, rfl, fun e => absurd e (by decide)⟩
  array a name bits base elements node := by
    obtain lt | out := label_node a
    · have all : ∀ a < 6, (labelDebug.node a).getTag = .arrayType → a = 3 := by decide
      cases all a lt (by rw [node]; rfl)
      cases node
      exact ⟨List.cons_ne_nil _ _, 4, 4, rfl, rfl, nofun⟩
    · cases out.symm.trans node
  unique field c x x' has has' := by
    refine has.unique_of_named (fun c m _ mem => ?_) (fun c m m' _ mem mem' same => ?_) has'
    · obtain ⟨rfl, rfl | rfl⟩ := label_elements mem
      all_goals decide
    · obtain ⟨rfl, rfl | rfl⟩ := label_elements mem
      all_goals
        obtain ⟨_, rfl | rfl⟩ := label_elements mem'
        all_goals first
          | rfl
          | exact absurd same (by decide)

/-- The members have names, so each is reached by its own element. -/
lemma label_via {m x : Nat} {field : String} (mem : .type m ∈ (labelDebug.node c).elements)
    (via : Via labelDebug (Debug.bare labelDebug) field m x) : x = m := by
  obtain ⟨_, _, _, _, same⟩ | ⟨_, _, _, node, _⟩ := via
  · exact same
  · have unnamed : (labelDebug.node m).getName = "" := congrArg DIType.getName node
    obtain ⟨rfl, rfl | rfl⟩ := label_elements mem
    all_goals exact absurd unnamed (by decide)

/-- They are those of declarations. -/
lemma label_declared : Declared labelDebug where
  listed c front m back e mem := by
    have nodup : (labelDebug.node c).elements.Nodup := by
      obtain lt | out := label_node c
      · have all : ∀ c < 6, (labelDebug.node c).elements.Nodup := by decide
        exact all c lt
      · rw [out]
        exact List.nodup_nil
    rw [e] at nodup
    exact (List.nodup_append.1 nodup).2.2 _ mem _ (.head _) rfl
  once c field m m' x mem mem' via via' := (label_via mem via).symm.trans (label_via mem' via')
  name x field bits base node := by
    obtain lt | out := label_node x
    · have all : ∀ x < 6, index? (labelDebug.node x).getName = none := by decide
      have named := all x lt
      rwa [node] at named
    · cases out.symm.trans node

/-- Where the name is. -/
lemma label_names_name : NamesAt labelDebug labelBounds labelOffset ⟨0, 0⟩ ["name"] [⟨0, 0, 0⟩] 32 := by
  have listed : (labelDebug.node 0).elements = [] ++ .type 1 :: [.type 2] := rfl
  exact .last (.member (x := 1) rfl (.named rfl listed rfl (by decide)) rfl)

/-- Where the number is. -/
lemma label_names_id : NamesAt labelDebug labelBounds labelOffset ⟨0, 0⟩ ["id"] [⟨0, 1, 32⟩] 32 := by
  have listed : (labelDebug.node 0).elements = [.type 1] ++ .type 2 :: [] := rfl
  exact .last (.member (x := 2) rfl (.named rfl listed rfl (by decide)) rfl)

/-- A name of three letters stays in its field, and the number behind it in its own. -/
theorem set_struct_confined_iff_short :
    labelWrites (labelOf (.value (.str "abc"))) =
      [⟨["name"], 0x7f0000004000, [97, 98, 99, 0]⟩, ⟨["id"], 0x7f0000004004, [7, 0, 0, 0]⟩] ∧
    ∀ w ∈ labelWrites (labelOf (.value (.str "abc"))),
      Confined labelInterpreter labelBounds labelOffset 0 labelBlock.vptr w := by
  have live : dlistState.allocator.Live labelBlock := ⟨by decide, rfl⟩
  have name : StaysInField labelInterpreter "label" labelBounds labelOffset 0 ["name"] (.str "abc") :=
    stays_of_short rfl rfl label_names_name ((shifted_struct (i := 0) rfl).2 shifted_nil) (by decide)
  have number : StaysInField labelInterpreter "label" labelBounds labelOffset 0 ["id"] (.int 7) :=
    stays_of_short rfl rfl label_names_id ((shifted_struct (i := 1) rfl).2 shifted_nil) (by decide)
  have found : labelInterpreter.irx.types.find? (isStructNamed labelInterpreter.irx "label") = some 0 :=
    rfl
  have whole : bitsOf labelDebug 0 ≤ 8 * labelBlock.size := by decide
  have shared : labelInterpreter.allocator = dlistState.allocator := rfl
  have both := set_struct_confined_iff (P := labelInterpreter) (c := 0)
    (h := ⟨fun _ => 0, ⟨fun _ => none, fun _ => none⟩, []⟩) dlist_run live shared found coherent_empty
    label_ctypes label_declared label_layout whole rfl (labelOf (.value (.str "abc")))
  refine ⟨by decide +kernel, both.1.2 fun path data reached => ?_⟩
  obtain ⟨front, back, e, _⟩ := reached
  have listed : Visit.set path data ∈ [.set ["name"] (.str "abc"), .set ["id"] (.int 7)] := by
    have all : visits (labelOf (.value (.str "abc"))) [] =
        [.set ["name"] (.str "abc"), .set ["id"] (.int 7)] := rfl
    rw [← all, e]
    exact List.mem_append_right _ (.head _)
  obtain first | second := List.mem_cons.1 listed
  · cases first
    exact fun overruns => overruns.2 name
  · cases List.mem_singleton.1 second
    exact fun overruns => overruns.2 number

/-- Letters that are items of a list. -/
def letters : List String → PyItems
  | [] => .nil
  | letter :: rest => .cons (.value (.str letter)) (letters rest)

/-- The last four of eight letters are written over the number behind the name, and so is the fifth item of
a list. -/
theorem long_name_overruns :
    (⟨["name"], 0x7f0000004000, [97, 98, 99, 100, 101, 102, 103, 104]⟩ ∈
        labelWrites (labelOf (.value (.str "abcdefgh"))) ∧
      ¬ Confined labelInterpreter labelBounds labelOffset 0 0x7f0000004000
        ⟨["name"], 0x7f0000004000, [97, 98, 99, 100, 101, 102, 103, 104]⟩) ∧
    (⟨["name", "4"], 0x7f0000004004, [101]⟩ ∈
        labelWrites (labelOf (.list (letters ["a", "b", "c", "d", "e"]))) ∧
      ¬ Confined labelInterpreter labelBounds labelOffset 0 0x7f0000004000
        ⟨["name", "4"], 0x7f0000004004, [101]⟩) := by
  refine ⟨⟨by decide +kernel, fun confined => ?_⟩, ⟨by decide +kernel, fun confined => ?_⟩⟩
  · obtain ⟨x, here, steps, bits, names, low, high⟩ := confined 4 (by decide)
    have fourth : x = 4 := by
      have here : 0x7f0000004000 + 4 = 0x7f0000004000 + x := here
      omega
    obtain ⟨rfl, rfl⟩ := names.unique label_ctypes label_declared label_names_name
    have high : 8 * x < 0 + 32 := high
    omega
  · obtain ⟨x, _, steps, bits, names, _⟩ := confined 0 (by decide)
    have valid : Valid labelDebug labelBounds ⟨0, 0⟩ ["name", "4"] :=
      (namesAt_iff label_ctypes (List.cons_ne_nil _ _)).1 ⟨steps, bits, names⟩
    obtain ⟨p, selects, valid⟩ := valid_cons.1 valid
    have array : Selects labelDebug labelBounds ⟨0, 0⟩ "name" ⟨3, 0⟩ :=
      .member rfl (.named (x := 1) rfl (.head _) rfl (by decide)) rfl
    cases selects.unique label_ctypes array
    obtain ⟨q, selects, _⟩ := valid_cons.1 valid
    obtain ⟨bound, i, dimension, numeral, lt⟩ := inBounds_of_selects (x := 4) rfl selects
    cases dimension
    have four : index? "4" = some 4 := rfl
    cases four.symm.trans numeral
    omega

end Irx.Python
