import Irx.Exec.Narrow
import Irx.Python.Isolation
import Irx.Python.ReadBack

/-!
# Fields in interpreted code and in Python

Interpreted code has the address of a structure in the interpreter and adds the offset of the field, which
is the one that `offset_of` tells Python; its loads and stores translate the address. Python passes the
address of the structure, which `irx_struct_set` and `irx_struct_get` translate before they add the offset.
Both ways lead to the same bytes. So a field with a number or a pointer is one variable for both sides:
`Exchanges` says what changes it, and each side reads what was last written by either of them
(`fields_shared`).
-/

namespace Irx.Python
open Irx.Lib Irx.Debug Irx.Memory System
open Irx.Exec (Engine Target Machine Instruction Operands ConstantGraph LittleEndian hostAddress storedValue
  visitStoreInst_little visitLoadInst_little dlistTarget bytesEngine noConstants storePointer loadPointer)

/-! ### The number that Python reads -/

namespace Leaf

variable {leaf : Leaf} {pointerSize k : Nat} {format : Char} {mem : Bytes} {n : ℤ}

/-- A leaf has a known type. -/
lemma basicType_ne_unknown (leaf : Leaf) : leaf.basicType ≠ "unknown" := by
  cases leaf <;> simp [basicType]

/-- A number is packed in the size of its field. -/
lemma intFormat_size (supported : pointerSize = 32 ∨ pointerSize = 64)
    (number : leaf.format pointerSize = some format) :
    ∃ low high, intFormat format = some (leaf.size pointerSize, low, high) := by
  cases leaf with
  | bool => cases number
  | char => cases number
  | PTR =>
    obtain rfl | rfl := supported
    · cases number
      exact ⟨_, _, rfl⟩
    · cases number
      exact ⟨_, _, rfl⟩
  | unsignedInt | int | unsignedChar | unsignedShort | short | unsignedLongLong | longLong =>
    cases number
    exact ⟨_, _, rfl⟩

/-- A number has a size. -/
lemma size_ne_zero (supported : pointerSize = 32 ∨ pointerSize = 64)
    (number : leaf.format pointerSize = some format) : leaf.size pointerSize ≠ 0 := by
  cases leaf with
  | char => cases number
  | PTR =>
    rw [size]
    omega
  | bool | unsignedInt | int | unsignedChar | unsignedShort | short | unsignedLongLong | longLong =>
    rw [size]
    decide

/-- What is read with sign is what was packed, as far as the bytes hold it. -/
lemma signed_modEq (here : read mem 0 k = Lib.packed k n) : signed mem 0 k ≡ n [ZMOD 256 ^ k] := by
  rw [signed_of_packed here]
  exact_mod_cast Int.bmod_emod (x := n) (m := 256 ^ k)

/-- What is read without sign is so too. -/
lemma unsigned_modEq (here : read mem 0 k = Lib.packed k n) :
    (unsigned mem 0 k : ℤ) ≡ n [ZMOD 256 ^ k] := by
  rw [unsigned_of_packed here]
  exact Int.mod_modEq _ _

/-- The number that Python reads agrees with the bytes of the field. -/
lemma number_modEq (supported : pointerSize = 32 ∨ pointerSize = 64)
    (number : leaf.format pointerSize = some format)
    (here : read mem 0 (leaf.size pointerSize) = Lib.packed (leaf.size pointerSize) n) :
    ∃ r, leaf.number pointerSize mem = some r ∧ r ≡ n [ZMOD 256 ^ leaf.size pointerSize] := by
  cases leaf with
  | bool => cases number
  | char => cases number
  | unsignedInt | int | unsignedLongLong | longLong => exact ⟨_, rfl, signed_modEq here⟩
  | PTR =>
    obtain rfl | rfl := supported
    · -- only the low half of the eight bytes is the pointer
      have low := low_half (here.trans (packed_emod 4 n).symm) (Int.emod_nonneg _ (by decide))
        (Int.emod_lt_of_pos _ (by decide))
      refine ⟨n % 256 ^ 4, ?_, Int.mod_modEq _ _⟩
      rw [Leaf.number, if_pos rfl, low]
    · refine ⟨signed mem 0 8, ?_, signed_modEq here⟩
      rw [Leaf.number, if_neg (by decide)]
  | unsignedChar | unsignedShort => exact ⟨_, rfl, (Int.mod_modEq _ _).trans (unsigned_modEq here)⟩
  | short => exact ⟨_, rfl, (Int.mod_modEq _ _).trans (signed_modEq here)⟩

end Leaf

/-! ### A field of both sides -/

/-- `offset_of`. -/
def PyIRModuleInterpreter.offset_of (P : PyIRModuleInterpreter) (name : String) (path : List String)
    (caches : Caches) : Except Stop (Nat × Caches) :=
  match offsetInBitsFromPath P.irx name path caches with
  | .error a => .error (.aborted a)
  | .ok (nbits, caches) =>
    if nbits &&& 0x07 ≠ 0 then
      .error (.raised (.runtimeError s!"Got an offset {nbits} bits and is not dividable by 8"))
    else .ok (nbits / 8, caches)

/-- A number or pointer in the structure in a block, at the offset that `offset_of` gives, and the type with
which interpreted code loads and stores it. -/
structure SharedField {Ty GV : Type} (T : Target Ty GV) (E : Engine GV Bytes)
    (load : Ty → Bytes → Nat → Except Abort GV) (P : PyIRModuleInterpreter) where
  name : String
  path : List String
  leaf : Leaf
  info : BasicTypeInfo
  block : Block
  offset : Nat
  ty : Ty
  number : GV → Nat
  named : path ≠ []
  told : Told P.irx name path info
  basicType : info.basicType = leaf.basicType
  size_in_bytes : info.size_in_bytes = leaf.size P.pointerSize
  numeric : (leaf.format P.pointerSize).isSome
  supported : P.pointerSize = 32 ∨ P.pointerSize = 64
  known : ∃ caches caches', caches.Coherent P.irx ∧ P.offset_of name path caches = .ok (offset, caches')
  inside : offset + leaf.size P.pointerSize ≤ block.size
  little : LittleEndian T E load ty (leaf.size P.pointerSize) number

namespace SharedField

variable {Ty GV : Type} {T : Target Ty GV} {E : Engine GV Bytes}
  {load : Ty → Bytes → Nat → Except Abort GV} {P : PyIRModuleInterpreter} (F : SharedField T E load P)
  (M : Memory.Module) (G : ConstantGraph) (typeOf : Instruction → Ty) (isFunctionPointer : Ty → Bool)

/-- The size of the field in bytes. -/
def size : Nat := F.leaf.size P.pointerSize

/-- The address of the field in the host. -/
def place : Nat := F.block.vptr + F.offset

/-- The address of the field in the interpreter. -/
def address : Nat := F.block.vvptr + F.offset

/-- The state is sound, and the bytes of the field are those of the number. -/
structure Has (s : Session) (n : ℤ) : Prop where
  run : (api M).Outcome (.ok s.interpreter)
  disjoint : s.interpreter.allocator.HostDisjoint
  coherent : s.host.caches.Coherent P.irx
  live : s.interpreter.allocator.Live F.block
  bytes : read s.host.mem F.place F.size = Lib.packed F.size n

/-- What Python writes for the value is in the structure, and beside the field. -/
def Beside (s : Session) (name : String) (path : List String) (data : PyObj) : Prop :=
  ∀ value o, Sends (s.python P) name path data value o → o + value.length ≤ F.block.size ∧
    (o + value.length ≤ F.offset ∨ F.offset + F.size ≤ o)

/-- The number that the field has after the values of an object are written. -/
def lastSet : List Visit → ℤ → ℤ
  | [], n => n
  | .set path data :: rest, n => lastSet rest (if path = F.path then data.toInt.getD n else n)
  | .raise _ :: rest, n => lastSet rest n

variable (T E load) in
/-- A store of interpreted code over the memory of Python. -/
structure Stores (s : Session) (I : Instruction) (ops : Operands) (v dst : GV) (m m' : Machine GV Bytes) :
    Prop where
  memory : m.memory = s.host.mem
  value : (E.onBytes T load typeOf isFunctionPointer).operand M s.interpreter.allocator G I 0 ops m = .ok v
  place : (E.onBytes T load typeOf isFunctionPointer).operand M s.interpreter.allocator G I 1 ops m =
    .ok dst
  ran : (E.onBytes T load typeOf isFunctionPointer).visitStoreInst M s.interpreter.allocator G I ops m =
    .ok m'

/-- One step of Python or of interpreted code over one memory, with the number last written to the field. -/
inductive Exchanges : Session × ℤ → Session × ℤ → Prop
  | set {s : Session} {n data host} :
    (s.python P).set_struct_primitive F.name F.block.vvptr data F.path s.host = (host, none) →
    Exchanges (s, n) ({ s with host := host }, data.toInt.getD n)
  | setBeside {s : Session} {n name path data host} : F.Beside s name path data →
    (s.python P).set_struct_primitive name F.block.vvptr data path s.host = (host, none) →
    Exchanges (s, n) ({ s with host := host }, n)
  | set_struct {s : Session} {n obj host} :
    (∀ path data, .set path data ∈ visits obj [] → path = F.path ∨ F.Beside s F.name path data) →
    (s.python P).set_struct F.name F.block.vvptr obj [] s.host = (host, none) →
    Exchanges (s, n) ({ s with host := host }, F.lastSet (visits obj []) n)
  | store {s : Session} {n I ops v dst m m'} :
    Stores T E load M G typeOf isFunctionPointer s I ops v dst m m' → typeOf I = F.ty →
    E.PointerVal dst = F.address →
    Exchanges (s, n) ({ s with host := { s.host with mem := m'.memory } },
      F.number (storedValue E s.interpreter.allocator (isFunctionPointer F.ty) v))
  | storeBeside {s : Session} {n I ops v dst m m' k number} :
    Stores T E load M G typeOf isFunctionPointer s I ops v dst m m' →
    LittleEndian T E load (typeOf I) k number →
    (hostAddress s.interpreter.allocator (E.PointerVal dst) + k ≤ F.place ∨
      F.place + F.size ≤ hostAddress s.interpreter.allocator (E.PointerVal dst)) →
    Exchanges (s, n) ({ s with host := { s.host with mem := m'.memory } }, n)
  | elsewhere {s s' : Session} {n} {call : StructCall} : call.Allowed P M s → Elsewhere F.block s call →
    call.run P M s = .ok s' → Exchanges (s, n) (s', n)

variable {F M G typeOf isFunctionPointer} {s s' : Session} {n n' : ℤ}

/-- The offset is that of the element with the indices of the field. -/
lemma element (F : SharedField T E load P) : ∃ is Ty o, F.info.gep = 0 :: is ∧
    getTypeByNameUncached P.irx ("struct." ++ F.name) = some Ty ∧ walk P.irx.layout Ty is = some o ∧
    F.offset = word (8 * o) / 8 := by
  obtain ⟨caches, caches', coherent, known⟩ := F.known
  rw [PyIRModuleInterpreter.offset_of] at known
  obtain ⟨is, Ty, o, caches1, start, typed, walked, _, found⟩ | ⟨_, _, failed⟩ :=
    offsetInBitsFromPath_cases coherent F.told
  · rw [found] at known
    dsimp only at known
    split at known
    · cases known
    · exact ⟨is, Ty, o, start, typed, walked, (Prod.mk.inj (Except.ok.inj known)).1.symm⟩
  · rw [failed] at known
    cases known

/-- The block ends in the memory of the host. -/
lemma Has.host_lt (has : F.Has M s n) : F.block.vptr + F.block.size < 2 ^ 64 := by
  obtain ⟨_, _, A, _, inv⟩ := outcome_invariant has.run
  exact inv.rep.host F.block (inv.rep.live_iff.1 has.live)

/-- The place of the field is reached without wrapping around. -/
lemma Has.word_place (has : F.Has M s n) : word (F.block.vptr + F.offset) = F.place := by
  have inside := F.inside
  have host := has.host_lt
  exact word_of_lt (by omega)

/-- Both sides come to the same place. -/
lemma Has.hostAddress_address (has : F.Has M s n) :
    hostAddress s.interpreter.allocator F.address = F.place := by
  have inside := F.inside
  have at_ := Exec.hostAddress_inside has.run has.live (p := F.address) (Nat.le_add_right _ _)
    (by rw [address, Block.stop]; omega)
  rwa [address, Nat.add_sub_cancel_left] at at_

/-- The interpreter finds the place of the field. -/
lemma Has.elementAddress (has : F.Has M s n) :
    (s.python P).elementAddress F.name F.block.vptr F.info = some F.place := by
  obtain ⟨is, Ty, o, start, typed, walked, at_⟩ := F.element
  have straight := has.word_place
  rw [at_] at straight
  have element : (s.python P).elementAddress F.name F.block.vptr F.info =
      some (word (F.block.vptr + word (8 * o) / 8)) := by
    simp [PyIRModuleInterpreter.elementAddress, Session.python, start, typed, walked]
  rw [element, straight]

/-- What Python writes are the bytes of the number; nothing is written for the pointer `None`. -/
lemma packed_number {pointerSize : Nat} {leaf : Leaf} {k : String} {data : PyObj} {value : List UInt8}
    {path : List String} (mem : Bytes) (addr : Nat) (supported : pointerSize = 32 ∨ pointerSize = 64)
    (numeric : (leaf.format pointerSize).isSome) (last : path.getLast? = some k)
    (e : packedField pointerSize k leaf.basicType (leaf.size pointerSize) data = .ok (some value)) :
    ∃ n, data.toInt = some n ∧
      write mem addr value = write mem addr (Lib.packed (leaf.size pointerSize) n) := by
  obtain ⟨format, formatted⟩ := Option.isSome_iff_exists.1 numeric
  have accepted : set_struct_primitive pointerSize (leaf.field pointerSize path addr) mem data =
      .ok (write mem addr value) := by
    rw [set_struct_primitive_packed (k := k) last, Leaf.field_basicType, Leaf.field_size, e]
    rfl
  obtain ⟨rfl, rfl⟩ | ran := set_number formatted accepted
  · cases e
  · obtain ⟨low, high, known⟩ := Leaf.intFormat_size supported formatted
    obtain ⟨n, number, _, _, same⟩ := pack_eq_ok known ran
    exact ⟨n, number, same⟩

namespace Has

/-- Python writes the number it is given, and a pointer `None` leaves the field as it is. -/
lemma set (has : F.Has M s n) {data : PyObj} {host : Host}
    (e : (s.python P).set_struct_primitive F.name F.block.vvptr data F.path s.host = (host, none)) :
    F.Has M { s with host := host } (data.toInt.getD n) := by
  have translated : vvptr2vptr (s.python P).allocator F.block.vvptr = .ok F.block.vptr :=
    translated_of_live has.run has.live
  have sets := set_struct_primitive_sets (P := s.python P) F.name F.path data (h := s.host) has.coherent
    translated
  rw [e] at sets
  cases sets with
  | sends sends coherent =>
    cases sends with
    | @mk _ _ value is Ty o last told packed start typed walked =>
      cases F.told.unique told
      rw [F.basicType, F.size_in_bytes] at packed
      obtain ⟨is', Ty', o', start', typed', walked', at_⟩ := F.element
      cases (List.cons.inj (start.symm.trans start')).2
      cases typed.symm.trans typed'
      cases walked.symm.trans walked'
      obtain ⟨m, number, same⟩ := packed_number s.host.mem F.place F.supported F.numeric last packed
      refine ⟨has.run, has.disjoint, coherent, has.live, ?_⟩
      dsimp only
      rw [← at_, has.word_place, same, number, Option.getD_some]
      have here := read_write s.host.mem F.place (Lib.packed F.size m)
      rwa [length_packed] at here
  | skips skips coherent =>
    obtain ⟨k, info, _, told, nothing⟩ := skips
    cases F.told.unique told
    rw [F.basicType] at nothing
    have null : data = .none := by
      obtain ⟨_, null⟩ | unknown := packed_none nothing
      · exact null
      · exact absurd unknown F.leaf.basicType_ne_unknown
    cases null
    exact ⟨has.run, has.disjoint, coherent, has.live, has.bytes⟩

/-- What Python writes beside the field leaves it as it is. -/
lemma setBeside (has : F.Has M s n) {name : String} {path : List String} {data : PyObj} {host : Host}
    (apart : F.Beside s name path data)
    (e : (s.python P).set_struct_primitive name F.block.vvptr data path s.host = (host, none)) :
    F.Has M { s with host := host } n := by
  have sets := set_struct_primitive_sets (P := s.python P) name path data (h := s.host) has.coherent
    (translated_of_live has.run has.live)
  rw [e] at sets
  cases sets with
  | @sends value o _ sends coherent =>
    obtain ⟨within, beside⟩ := apart value o sends
    have host := has.host_lt
    refine ⟨has.run, has.disjoint, coherent, has.live, ?_⟩
    dsimp only
    rw [word_of_lt (show F.block.vptr + o < 2 ^ 64 by omega),
      read_write_of_apart (by rw [place]; omega)]
    exact has.bytes
  | skips _ coherent => exact ⟨has.run, has.disjoint, coherent, has.live, has.bytes⟩

/-- An object is written value by value, with the field among them. -/
lemma perform {vs : List Visit} {host : Host} (has : F.Has M s n)
    (all : ∀ path data, .set path data ∈ vs → path = F.path ∨ F.Beside s F.name path data)
    (e : perform (s.python P) F.name F.block.vvptr vs s.host = (host, none)) :
    F.Has M { s with host := host } (F.lastSet vs n) := by
  induction vs generalizing s n with
  | nil =>
    cases e
    exact has
  | cons v vs ih =>
    cases v with
    | raise => cases e
    | set path data =>
      rw [Irx.Python.perform] at e
      cases call : (s.python P).set_struct_primitive F.name F.block.vvptr data path s.host with
      | mk host1 stop =>
        rw [call] at e
        cases stop with
        | some => cases e
        | none =>
          have rest : ∀ path data, .set path data ∈ vs → path = F.path ∨ F.Beside s F.name path data :=
            fun path data mem => all path data (.tail _ mem)
          rw [lastSet]
          by_cases own : path = F.path
          · subst own
            rw [if_pos rfl]
            have first : F.Has M { s with host := host1 } (data.toInt.getD n) := has.set call
            exact ih (s := { s with host := host1 }) first rest e
          · obtain same | apart := all path data (.head _)
            · exact absurd same own
            · rw [if_neg own]
              have first : F.Has M { s with host := host1 } n := has.setBeside apart call
              exact ih (s := { s with host := host1 }) first rest e

section Stores

variable {I : Instruction} {ops : Operands} {v dst : GV} {m m' : Machine GV Bytes}

/-- A store of interpreted code to the field writes its number. -/
lemma store (has : F.Has M s n) (stores : Stores T E load M G typeOf isFunctionPointer s I ops v dst m m')
    (typed : typeOf I = F.ty) (there : E.PointerVal dst = F.address) :
    F.Has M { s with host := { s.host with mem := m'.memory } }
      (F.number (storedValue E s.interpreter.allocator (isFunctionPointer F.ty) v)) := by
  have little : LittleEndian T E load (typeOf I) F.size F.number := typed ▸ F.little
  cases stores.ran.symm.trans (visitStoreInst_little little stores.value stores.place)
  refine ⟨has.run, has.disjoint, has.coherent, has.live, ?_⟩
  dsimp only
  rw [there, has.hostAddress_address, typed, packed_natCast]
  have here := read_write m.memory F.place (littleEndian F.size
    (F.number (storedValue E s.interpreter.allocator (isFunctionPointer F.ty) v)))
  rwa [length_littleEndian] at here

/-- A store beside the field leaves it as it is. -/
lemma storeBeside (has : F.Has M s n) {k : Nat} {number : GV → Nat}
    (stores : Stores T E load M G typeOf isFunctionPointer s I ops v dst m m')
    (little : LittleEndian T E load (typeOf I) k number)
    (apart : hostAddress s.interpreter.allocator (E.PointerVal dst) + k ≤ F.place ∨
      F.place + F.size ≤ hostAddress s.interpreter.allocator (E.PointerVal dst)) :
    F.Has M { s with host := { s.host with mem := m'.memory } } n := by
  cases stores.ran.symm.trans (visitStoreInst_little little stores.value stores.place)
  refine ⟨has.run, has.disjoint, has.coherent, has.live, ?_⟩
  dsimp only
  rw [read_write_of_apart (by rwa [length_littleEndian]), stores.memory]
  exact has.bytes

end Stores

/-- A call of Python that writes nothing to the structure leaves the field as it is. -/
lemma elsewhere (has : F.Has M s n) {call : StructCall} (allowed : call.Allowed P M s)
    (other : Elsewhere F.block s call) (ran : call.run P M s = .ok s') : F.Has M s' n := by
  have keeps : s.Keeps P M F.block s := ⟨has.run, has.disjoint, has.coherent, has.live, rfl⟩
  have keeps' := keeps.step allowed other ran
  refine ⟨keeps'.run, keeps'.disjoint, keeps'.coherent, keeps'.live, ?_⟩
  rw [← has.bytes]
  refine read_congr fun i lt => ?_
  have inside := F.inside
  have bytes := congrArg (·[F.offset + i]?) keeps'.bytes
  have within : F.offset + i < F.block.size := by
    rw [size] at lt
    omega
  simpa [Lib.read, place, within, Nat.add_assoc] using bytes

/-- Each step leaves the number in the field. -/
lemma step (has : F.Has M s n) (step : F.Exchanges M G typeOf isFunctionPointer (s, n) (s', n')) :
    F.Has M s' n' := by
  cases step with
  | set e => exact has.set e
  | setBeside apart e => exact has.setBeside apart e
  | set_struct all e =>
    rw [set_struct_eq] at e
    exact has.perform all e
  | store stores typed there => exact has.store stores typed there
  | storeBeside stores little apart => exact has.storeBeside stores little apart
  | elsewhere allowed other ran => exact has.elsewhere allowed other ran

/-- Steps of both sides, in any order. -/
lemma steps (has : F.Has M s n)
    (steps : Relation.ReflTransGen (F.Exchanges M G typeOf isFunctionPointer) (s, n) (s', n')) :
    F.Has M s' n' := by
  suffices all : ∀ t, Relation.ReflTransGen (F.Exchanges M G typeOf isFunctionPointer) (s, n) t →
      F.Has M t.1 t.2 from all _ steps
  intro t steps
  induction steps with
  | refl => exact has
  | tail _ one ih => exact ih.step one

/-- What Python reads. -/
lemma get (has : F.Has M s n) {beyond : List String → Bytes} {data : PyObj}
    (asked : F.leaf = .PTR ∨ data.isInt) :
    ∃ r host, (s.python P).get_struct_primitive F.name F.block.vvptr beyond data F.path s.host =
      .ok (.int r, host) ∧ r ≡ n [ZMOD 256 ^ F.size] := by
  obtain ⟨format, formatted⟩ := Option.isSome_iff_exists.1 F.numeric
  have buffered : read (buffer (F.leaf.field P.pointerSize F.path F.place) s.host.mem (beyond F.path)) 0
      F.size = Lib.packed F.size n := by
    rw [← has.bytes]
    refine read_congr fun i lt => ?_
    rw [Nat.zero_add, buffer, if_pos (by rwa [Leaf.field_size]), Leaf.field_addr]
  obtain ⟨r, number, alike⟩ := Leaf.number_modEq F.supported formatted buffered
  have sized : 32 ≤ P.pointerSize := by
    have := F.supported
    omega
  have got : Irx.Python.get_struct_primitive P.pointerSize (F.leaf.field P.pointerSize F.path F.place)
      s.host.mem (beyond F.path) data = .ok (.int r) := get_number F.named sized number asked
  have positive : F.info.size_in_bytes ≠ 0 := by
    rw [F.size_in_bytes]
    exact Leaf.size_ne_zero F.supported formatted
  have told : (s.python P).reading F.name F.block.vptr beyond s.host.mem F.path data = some (.int r) := by
    rw [reading_told (P := s.python P) F.told F.named, if_neg positive, has.elementAddress,
      Option.bind_some, F.basicType, F.size_in_bytes]
    exact congrArg Except.toOption got
  have answers := @get_struct_primitive_answers (s.python P) F.name F.block.vptr F.block.vvptr beyond s.host
    F.path data has.coherent (translated_of_live has.run has.live)
  rw [told] at answers
  obtain ⟨⟨v, host⟩, returned, rfl, _⟩ := answers.of_some
  exact ⟨r, host, returned, alike⟩

/-- What interpreted code reads. -/
lemma loads (has : F.Has M s n) {I : Instruction} {ops : Operands} {m : Machine GV Bytes} {src : GV}
    (same : m.memory = s.host.mem) (runnable : m.ecStack ≠ []) (typed : typeOf I = F.ty)
    (place : (E.onBytes T load typeOf isFunctionPointer).operand M s.interpreter.allocator G I 0 ops m =
      .ok src) (there : E.PointerVal src = F.address) :
    ∃ m', (E.onBytes T load typeOf isFunctionPointer).visitLoadInst M s.interpreter.allocator G I ops m =
      .ok m' ∧ (F.number (E.registerValue I.id m') : ℤ) = n % 256 ^ F.size := by
  have little : LittleEndian T E load (typeOf I) F.size F.number := typed ▸ F.little
  obtain ⟨m', ran, number⟩ := visitLoadInst_little little runnable place
  refine ⟨m', ran, ?_⟩
  rw [number, there, has.hostAddress_address, same]
  exact unsigned_of_packed has.bytes

end Has

/-- A field with a number or a pointer is one variable for interpreted code and for Python. Whatever either
side writes to it, and whatever they do elsewhere, each of them then reads the number that was last written
by either, up to the size of the field. -/
theorem fields_shared (run : (api M).Outcome (.ok s.interpreter))
    (disjoint : s.interpreter.allocator.HostDisjoint) (coherent : s.host.caches.Coherent P.irx)
    (live : s.interpreter.allocator.Live F.block)
    (steps : Relation.ReflTransGen (F.Exchanges M G typeOf isFunctionPointer)
      (s, unsigned s.host.mem F.place F.size) (s', n)) :
    (∀ beyond data, F.leaf = .PTR ∨ data.isInt → ∃ r host,
      (s'.python P).get_struct_primitive F.name F.block.vvptr beyond data F.path s'.host =
        .ok (.int r, host) ∧ r ≡ n [ZMOD 256 ^ F.size]) ∧
    ∀ I ops m src, m.memory = s'.host.mem → m.ecStack ≠ [] → typeOf I = F.ty →
      (E.onBytes T load typeOf isFunctionPointer).operand M s'.interpreter.allocator G I 0 ops m =
        .ok src → E.PointerVal src = F.address →
      ∃ m', (E.onBytes T load typeOf isFunctionPointer).visitLoadInst M s'.interpreter.allocator G I ops m =
        .ok m' ∧ (F.number (E.registerValue I.id m') : ℤ) = n % 256 ^ F.size := by
  have start : F.Has M s (unsigned s.host.mem F.place F.size : ℤ) :=
    ⟨run, disjoint, coherent, live, read_eq_packed _ _ _⟩
  have has := start.steps steps
  refine ⟨fun beyond data asked => has.get asked, ?_⟩
  intro I ops m src same runnable typed place there
  exact has.loads same runnable typed place there

end SharedField

/-- A call that has returned has no exception. -/
lemma set_struct_done {P : PyIRModuleInterpreter} {name : String} {thread_ptr : Nat} {obj : PyTree}
    {path : List String} {h : Host} (done : (P.set_struct name thread_ptr obj path h).2.isNone = true) :
    P.set_struct name thread_ptr obj path h = ((P.set_struct name thread_ptr obj path h).1, none) :=
  Prod.ext rfl (Option.isNone_iff_eq_none.1 done)

/-- Loads and stores of integers as the execution engine has them. -/
def loadInt (size : Nat) (mem : Bytes) (addr : Nat) : Except Abort Nat := .ok (unsigned mem addr size)

/-- The number of a label is four bytes behind its start. -/
lemma label_offset : ∃ caches caches', caches.Coherent labelInterpreter.irx ∧
    labelInterpreter.offset_of "label" ["id"] caches = .ok (4, caches') := by
  have four : (labelInterpreter.offset_of "label" ["id"] ⟨fun _ => none, fun _ => none⟩).toOption.map
      Prod.fst = some 4 := by decide +kernel
  obtain ⟨⟨o, caches'⟩, known, rfl⟩ := Option.map_eq_some_iff.1 four
  exact ⟨_, caches', coherent_empty, toOption_eq_some.1 known⟩

/-- The `id` of the label, which interpreted code has as an integer of four bytes. -/
def labelId : SharedField dlistTarget bytesEngine loadInt labelInterpreter where
  name := "label"
  path := ["id"]
  leaf := .int
  info := ⟨"int", 32, 4, [0, 1], [none, none]⟩
  block := labelBlock
  offset := 4
  ty := 4
  number := id
  named := List.cons_ne_nil _ _
  told := label_told_id
  basicType := rfl
  size_in_bytes := rfl
  numeric := rfl
  supported := .inl rfl
  known := label_offset
  inside := by decide
  little := .engine rfl (fun _ _ => ⟨_, rfl, rfl⟩) fun v =>
    show littleEndian 4 v = littleEndian 4 v from rfl

/-- The engine for instructions with integers of four bytes. -/
abbrev intEngine : Engine Nat Bytes := bytesEngine.onBytes dlistTarget loadInt (fun _ => 4) fun _ => false

/-- Register `7` holds `5`, and register `8` the address of the `id`. -/
def idMachine (mem : Bytes) : Machine Nat Bytes where
  ecStack := [⟨"main", 0, [], none, fun V =>
    if V = .register 7 then some 5 else if V = .register 8 then some 0x50000130 else none, [], []⟩]
  exitValue := 0
  memory := mem

/-- The interpreter with a label of zeros. -/
def idSession : Session := ⟨dlistState, labelWorld.host⟩

/-- The name of a label is in front of its `id`. -/
lemma name_beside : labelId.Beside idSession "label" ["name"] (.str "abc") := by
  intro value o sends
  have known : Sends (idSession.python labelInterpreter) "label" ["name"] (.str "abc") [97, 98, 99, 0] 0 :=
    .mk rfl label_told_name rfl rfl rfl rfl
  obtain ⟨rfl, rfl⟩ := sends.unique known
  exact ⟨by decide, .inl (by decide)⟩

/-- Python has written a label there. -/
def setSession : Session :=
  { idSession with host := ((idSession.python labelInterpreter).set_struct labelId.name labelId.block.vvptr
      (labelTree "abc").value.tree [] idSession.host).1 }

/-- What `set_struct` comes to in a label. -/
lemma label_values : visits (labelTree "abc").value.tree [] =
    [.set ["name"] (.str "abc"), .set ["id"] (.int 7)] := rfl

/-- The number of the label is set. -/
lemma id_set (n : ℤ) : labelId.Exchanges dlistModule noConstants (fun _ => 4) (fun _ => false)
    (idSession, n) (setSession, 7) := by
  have done : ((idSession.python labelInterpreter).set_struct labelId.name labelId.block.vvptr
      (labelTree "abc").value.tree [] idSession.host).2.isNone = true := by decide +kernel
  have beside : ∀ path data, .set path data ∈ visits (labelTree "abc").value.tree [] →
      path = labelId.path ∨ labelId.Beside idSession labelId.name path data := by
    intro path data mem
    rw [label_values, List.mem_cons, List.mem_singleton] at mem
    obtain e | e := mem
    · cases e
      exact .inr name_beside
    · cases e
      exact .inl rfl
  have seven : labelId.lastSet (visits (labelTree "abc").value.tree []) n = 7 := by
    have other : ["name"] ≠ labelId.path := by decide
    have own : ["id"] = labelId.path := rfl
    rw [label_values, SharedField.lastSet, if_neg other, SharedField.lastSet, if_pos own]
    rfl
  rw [← seven]
  exact .set_struct beside (set_struct_done done)

/-- Interpreted code stores five to the `id`. -/
lemma id_stored (s : Session) (same : s.interpreter = dlistState) (n : ℤ) :
    ∃ s' : Session, s'.interpreter = dlistState ∧
      labelId.Exchanges dlistModule noConstants (fun _ => 4) (fun _ => false) (s, n) (s', 5) := by
  obtain ⟨interpreter, host⟩ := s
  cases same
  have value : intEngine.operand dlistModule dlistState.allocator noConstants storePointer 0 (fun _ => none)
      (idMachine host.mem) = .ok 5 := rfl
  have place : intEngine.operand dlistModule dlistState.allocator noConstants storePointer 1 (fun _ => none)
      (idMachine host.mem) = .ok 0x50000130 := rfl
  have store := SharedField.Exchanges.store (F := labelId) (s := ⟨dlistState, host⟩) (n := n)
    ⟨rfl, value, place, visitStoreInst_little labelId.little value place⟩ rfl rfl
  have five : (labelId.number (storedValue bytesEngine dlistState.allocator false 5) : ℤ) = 5 := rfl
  rw [five] at store
  exact ⟨_, rfl, store⟩

/-- Python writes a label with the `id` seven, interpreted code stores five there, and both read five. -/
theorem fields_shared_label : ∃ s : Session, s.interpreter = dlistState ∧
    (∃ r host, (s.python labelInterpreter).get_struct_primitive "label" labelBlock.vvptr (fun _ _ => 0)
      (.int 0) ["id"] s.host = .ok (.int r, host) ∧ r ≡ 5 [ZMOD 256 ^ 4]) ∧
    ∃ m, intEngine.visitLoadInst dlistModule dlistState.allocator noConstants loadPointer (fun _ => none)
      (idMachine s.host.mem) = .ok m ∧ bytesEngine.registerValue 2 m = 5 := by
  have live : dlistState.allocator.Live labelBlock := ⟨by decide, rfl⟩
  obtain ⟨s, same, store⟩ := id_stored setSession rfl 7
  obtain ⟨python, interpreted⟩ :=
    SharedField.fields_shared dlist_run dlist_hostDisjoint coherent_empty live
      (.tail (.single (id_set _)) store)
  refine ⟨s, same, python _ (.int 0) (.inr rfl), ?_⟩
  have place : intEngine.operand dlistModule s.interpreter.allocator noConstants loadPointer 0
      (fun _ => none) (idMachine s.host.mem) = .ok 0x50000130 := rfl
  obtain ⟨m, ran, number⟩ := interpreted loadPointer (fun _ => none) (idMachine s.host.mem) _ rfl
    (List.cons_ne_nil _ _) rfl place rfl
  rw [same] at ran
  exact ⟨m, ran, by exact_mod_cast number⟩

end Irx.Python
