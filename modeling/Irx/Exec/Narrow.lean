import Irx.Exec.Untyped
import Irx.Memory.Holes

/-!
# Pointers of a 32-bit target in memory

On a 32-bit target a store keeps the lowest four bytes of a pointer, and a load fills up with zeros. The
interpreter's addresses fit, and functions are stored by their interpreter addresses. A stack slot is
memory of the host, and its address is stored as it is. `pointer_roundtrip_iff` says when the pointer that
is loaded back leads to the same object.
-/

namespace Irx.Exec
open Irx.Lib System
open Memory (dlistModule dlistState)

section Embedding

variable {Ty GV : Type} (E : Engine GV Bytes) (T : Target Ty GV)
variable (load : Ty → Bytes → Nat → Except Abort GV) (typeOf : Instruction → Ty)
variable (isFunctionPointer : Ty → Bool)

/-- The engine with the loads and stores of `MyInterpreter`, where `typeOf` is the type of the value that
an instruction loads or stores. -/
def Engine.onBytes : Engine GV Bytes :=
  { E with
    LoadValueFromMemory := fun LI m Ptr => Exec.LoadValueFromMemory T E load (typeOf LI) m Ptr
    StoreValueToMemory := fun SI m Val Ptr => Exec.StoreValueToMemory T E Val (typeOf SI) m Ptr
    storesFunctionPointer := fun SI => isFunctionPointer (typeOf SI) }

/-- A type of pointers of a 32-bit target. -/
structure NarrowPointer (ty : Ty) : Prop where
  isPointerTy : T.isPointerTy ty = true
  storeSize : T.getTypeStoreSize ty = 4

end Embedding

/-- Where a pointer in a register comes from: a block of the allocator (a global or a `structAlloc`), a
defined function, or a stack slot. -/
inductive Source where
  | block
  | function
  | slot
  deriving DecidableEq

/-- The pointer leads to the host address: into a live block or right behind it, to a function by either
of its addresses, or to memory of the host apart from all blocks. -/
def Source.LeadsTo (M : Memory.Module) (s : Memory.MyInterpreter) (p object : Nat) : Source → Prop
  | .block => ∃ b, s.allocator.Live b ∧ b.vvptr ≤ p ∧ p ≤ b.stop ∧ object = b.vptr + (p - b.vvptr)
  | .function => ∃ f ∈ M.functions, f.mapped = true ∧ object = f.address ∧
      (p = f.address ∨ p = guestAddress s.allocator f.address)
  | .slot => object = p ∧ (p < Memory.startAddr ∨ Memory.endAddr < p) ∧
      ∀ b, s.allocator.Live b → p < b.vptr ∨ b.vptr + b.size < p

/-- The host has given no memory inside the interpreter's addresses. -/
def HostApart (s : Memory.MyInterpreter) : Prop :=
  ∀ b, s.allocator.Live b → b.vptr < Memory.startAddr ∨ Memory.endAddr < b.vptr

variable {Ty GV : Type} {E : Engine GV Bytes} {T : Target Ty GV} {M : Memory.Module}
variable {s : Memory.MyInterpreter} {p object k : Nat} {ty : Ty}

/-- A narrow pointer is copied to the host. -/
lemma NarrowPointer.copied (narrow : NarrowPointer T ty) : copied T ty = true := by
  rw [Exec.copied, storeBytes, narrow.isPointerTy, narrow.storeSize]
  exact Bool.or_true _

/-- A narrow pointer has four bytes. -/
lemma NarrowPointer.storeBytes (narrow : NarrowPointer T ty) : storeBytes T ty = 4 := by
  rw [Exec.storeBytes, narrow.storeSize]

/-! ### Addresses -/

/-- What no block starts at has no interpreter address. -/
lemma guestAddress_unknown (run : (Memory.api M).Outcome (.ok s))
    (unknown : ∀ b, s.allocator.Live b → b.vptr ≠ p) : guestAddress s.allocator p = 0 := by
  obtain ⟨_, _, A, _, inv⟩ := Memory.outcome_invariant run
  rw [guestAddress, inv.rep.vptr2vvptr_unknown fun b hb => unknown b (inv.rep.live_iff.2 hb)]
  rfl

/-- An address in a live block is translated by its offset. -/
lemma hostAddress_inside (run : (Memory.api M).Outcome (.ok s)) {b : Memory.Block}
    (live : s.allocator.Live b) (lo : b.vvptr ≤ p) (hi : p ≤ b.stop) :
    hostAddress s.allocator p = b.vptr + (p - b.vvptr) := by
  obtain ⟨_, _, A, _, inv⟩ := Memory.outcome_invariant run
  rw [hostAddress, inv.rep.vvptr2vptr_inside (inv.rep.live_iff.1 live) lo hi]
  rfl

/-- The interpreter address of a function. -/
lemma function_guestAddress (run : (Memory.api M).Outcome (.ok s)) {f : Memory.Function}
    (mem : f ∈ M.functions) (mapped : f.mapped = true) :
    Memory.startAddr ≤ guestAddress s.allocator f.address ∧
      guestAddress s.allocator f.address ≤ Memory.endAddr ∧
      hostAddress s.allocator (guestAddress s.allocator f.address) = f.address := by
  obtain ⟨A, b, rep, memb, e⟩ := Memory.function_block run mem mapped
  have vvptr : guestAddress s.allocator f.address = b.vvptr := by
    rw [guestAddress, ← e, rep.vptr2vvptr memb]
    rfl
  refine ⟨?_, ?_, hostAddress_guestAddress run mem mapped⟩
  · rw [vvptr]
    exact A.above b memb
  · rw [vvptr]
    exact (Nat.le_add_right _ _).trans (rep.stop_lt memb).le

/-- A translated address is inside the host memory of a live block, null, or unchanged. -/
lemma hostAddress_cases (run : (Memory.api M).Outcome (.ok s)) (k : Nat) :
    (∃ b, s.allocator.Live b ∧ b.vptr ≤ hostAddress s.allocator k ∧
      hostAddress s.allocator k ≤ b.vptr + b.size) ∨
    hostAddress s.allocator k = 0 ∨ hostAddress s.allocator k = k := by
  obtain ⟨_, _, A, _, inv⟩ := Memory.outcome_invariant run
  have r := inv.rep
  by_cases covered : ∃ b ∈ A.blocks, b.vvptr ≤ k ∧ k ≤ b.stop
  case pos =>
    obtain ⟨b, hb, lo, hi⟩ := covered
    refine .inl ⟨b, r.live_iff.2 hb, ?_⟩
    rw [hostAddress_inside run (r.live_iff.2 hb) lo hi]
    rw [Memory.Block.stop] at hi
    omega
  case neg =>
    have hole : ∀ b ∈ A.blocks, ¬ (b.vvptr ≤ k ∧ k ≤ b.stop) :=
      fun b hb inside => covered ⟨b, hb, inside⟩
    right
    rw [hostAddress, Memory.vvptr2vptr]
    cases s.allocator.has k with
    | true =>
      left
      rw [if_pos rfl, Memory.MapAllocator.vvptr2vptr, r.laid.find_hole hole]
      rfl
    | false => exact .inr rfl

/-! ### What is stored -/

/-- The pointer that `visitStoreInst` stores. -/
def storedPointer (s : Memory.MyInterpreter) (isFunction : Bool) (p : Nat) : Nat :=
  if isFunction && guestAddress s.allocator p != 0 then guestAddress s.allocator p else p

/-- A pointer without interpreter address is stored as it is. -/
lemma storedPointer_unknown {isFunction : Bool} (none : guestAddress s.allocator p = 0) :
    storedPointer s isFunction p = p := by
  rw [storedPointer, none, bne_self_eq_false, Bool.and_false]
  rfl

/-- The lowest four bytes of the stored pointer lead to the same host object, unless it is a stack slot
beyond them. -/
lemma storedPointer_leads (run : (Memory.api M).Outcome (.ok s)) (apart : HostApart s)
    {source : Source} {isFunction : Bool}
    (leads : source.LeadsTo M s p object) (typed : source = .function → isFunction = true) :
    hostAddress s.allocator (storedPointer s isFunction p % 4294967296) = object ↔
      (source = .slot → p < 4294967296) := by
  have bounds : Memory.startAddr = 0x50000000 ∧ Memory.endAddr = 0x58000000 := by decide
  -- an address of the interpreter is no address of the host
  have guest : Memory.startAddr ≤ p → p ≤ Memory.endAddr → guestAddress s.allocator p = 0 := by
    intro lo hi
    refine guestAddress_unknown run fun b live same => ?_
    have := apart b live
    omega
  cases source with
  | block =>
    obtain ⟨b, live, lo, hi, rfl⟩ := leads
    obtain ⟨_, _, A, _, inv⟩ := Memory.outcome_invariant run
    have above := A.above b (inv.rep.live_iff.1 live)
    have below := inv.rep.stop_lt (inv.rep.live_iff.1 live)
    rw [storedPointer_unknown (guest (by omega) (by omega)), Nat.mod_eq_of_lt (by omega),
      hostAddress_inside run live lo hi]
    exact iff_of_true rfl fun slot => by cases slot
  | function =>
    obtain ⟨f, mem, mapped, rfl, address⟩ := leads
    obtain ⟨lo, hi, back⟩ := function_guestAddress run mem mapped
    have stored : storedPointer s isFunction p = guestAddress s.allocator f.address := by
      obtain rfl | rfl := address
      · have nonnull : (guestAddress s.allocator f.address != 0) = true := by
          rw [bne_iff_ne]
          omega
        rw [storedPointer, typed rfl, nonnull]
        rfl
      · exact storedPointer_unknown (guest lo hi)
    rw [stored, Nat.mod_eq_of_lt (by omega), back]
    exact iff_of_true rfl fun slot => by cases slot
  | slot =>
    obtain ⟨rfl, outside, away⟩ := leads
    have unknown : guestAddress s.allocator object = 0 := by
      refine guestAddress_unknown run fun b live same => ?_
      have := away b live
      omega
    rw [storedPointer_unknown unknown]
    constructor
    · intro back _
      by_contra large
      obtain ⟨b, live, inside⟩ | null | same := hostAddress_cases run (object % 4294967296)
      · rw [back] at inside
        have := away b live
        omega
      · omega
      · have := Nat.mod_lt object (show 4294967296 > 0 by decide)
        omega
    · intro small
      obtain ⟨_, _, A, _, inv⟩ := Memory.outcome_invariant run
      rw [Nat.mod_eq_of_lt (small rfl), hostAddress, inv.rep.vvptr2vptr_outside outside]
      rfl

/-! ### Loads and stores of numbers -/

/-- The interpreter loads and stores values of the type as little-endian numbers of some bytes: a type that
`MyInterpreter` copies as the pointer of the value, another one if the execution engine does so. -/
inductive LittleEndian (T : Target Ty GV) (E : Engine GV Bytes)
    (load : Ty → Bytes → Nat → Except Abort GV) : Ty → Nat → (GV → Nat) → Prop
  | copied {ty : Ty} : Exec.copied T ty = true → storeBytes T ty ≤ 8 →
    (∀ v p, E.PointerVal (E.setPointerVal v p) = p) →
    LittleEndian T E load ty (storeBytes T ty) E.PointerVal
  | engine {ty : Ty} {k : Nat} {number : GV → Nat} : Exec.copied T ty = false →
    (∀ m Ptr, ∃ v, load ty m Ptr = .ok v ∧ number v = unsigned m Ptr k) →
    (∀ v, (T.StoreValueToMemory v ty).1 = littleEndian k (number v)) → LittleEndian T E load ty k number

/-- The value that `visitStoreInst` stores: a function pointer is the address in the interpreter. -/
def storedValue (E : Engine GV Bytes) (a : Memory.MapAllocator) (isFunction : Bool) (v : GV) : GV :=
  if isFunction && guestAddress a (E.PointerVal v) != 0 then
    E.setPointerVal v (guestAddress a (E.PointerVal v)) else v

section Numbers

variable {load : Ty → Bytes → Nat → Except Abort GV} {typeOf : Instruction → Ty}
  {isFunctionPointer : Ty → Bool} {number : GV → Nat} {a : Memory.MapAllocator} {G : ConstantGraph}
  {I : Instruction} {ops : Operands} {m : Machine GV Bytes} {v dst src : GV}

/-- What is loaded is the number in memory. -/
lemma LittleEndian.loads (little : LittleEndian T E load ty k number) (m : Bytes) (Ptr : Nat) :
    ∃ v, LoadValueFromMemory T E load ty m Ptr = .ok v ∧ number v = unsigned m Ptr k := by
  cases little with
  | copied copy small pointerVal => exact ⟨_, LoadValueFromMemory_copied copy small, pointerVal _ _⟩
  | engine own loads =>
    rw [LoadValueFromMemory, own]
    exact loads m Ptr

/-- What is stored are the bytes of the number. -/
lemma LittleEndian.stores (little : LittleEndian T E load ty k number) (v : GV) (m : Bytes) (Ptr : Nat) :
    StoreValueToMemory T E v ty m Ptr = .ok (write m Ptr (littleEndian k (number v))) := by
  cases little with
  | copied copy small => exact StoreValueToMemory_copied copy small
  | engine own _ stores =>
    rw [StoreValueToMemory, own, ← stores]
    rfl

/-- A narrow pointer is stored as a number of four bytes. -/
lemma NarrowPointer.little (narrow : NarrowPointer T ty)
    (pointerVal : ∀ v p, E.PointerVal (E.setPointerVal v p) = p) :
    LittleEndian T E load ty 4 E.PointerVal := by
  have copied : LittleEndian T E load ty _ _ :=
    .copied narrow.copied (by rw [narrow.storeBytes]; decide) pointerVal
  rwa [narrow.storeBytes] at copied

/-- What a store leaves at its place. -/
lemma visitStoreInst_little (little : LittleEndian T E load (typeOf I) k number)
    (value : (E.onBytes T load typeOf isFunctionPointer).operand M a G I 0 ops m = .ok v)
    (place : (E.onBytes T load typeOf isFunctionPointer).operand M a G I 1 ops m = .ok dst) :
    (E.onBytes T load typeOf isFunctionPointer).visitStoreInst M a G I ops m = .ok { m with
      memory := write m.memory (hostAddress a (E.PointerVal dst))
        (littleEndian k (number (storedValue E a (isFunctionPointer (typeOf I)) v))) } := by
  rw [Engine.visitStoreInst, bind_ok value, bind_ok place]
  exact bind_ok (little.stores (storedValue E a (isFunctionPointer (typeOf I)) v) _ _) _

/-- What a load leaves in its register. -/
lemma visitLoadInst_little (little : LittleEndian T E load (typeOf I) k number) (runnable : m.ecStack ≠ [])
    (place : (E.onBytes T load typeOf isFunctionPointer).operand M a G I 0 ops m = .ok src) :
    ∃ m', (E.onBytes T load typeOf isFunctionPointer).visitLoadInst M a G I ops m = .ok m' ∧
      number (E.registerValue I.id m') = unsigned m.memory (hostAddress a (E.PointerVal src)) k := by
  obtain ⟨v, loaded, read⟩ := little.loads m.memory (hostAddress a (E.PointerVal src))
  obtain ⟨SF, rest, stack⟩ := List.exists_cons_of_ne_nil runnable
  obtain ⟨m', assigned⟩ : ∃ m', (m.modifyBack fun SF => SF.setValue (.register I.id) v) = .ok m' := by
    rw [Machine.modifyBack, stack]
    exact ⟨_, rfl⟩
  refine ⟨m', ?_, ?_⟩
  · rw [Engine.visitLoadInst, bind_ok place]
    exact (bind_ok loaded _).trans assigned
  · rw [registerValue_setValue assigned, read]

end Numbers

/-- What a store of a pointer leaves at its place. -/
lemma visitStoreInst_pointer {load : Ty → Bytes → Nat → Except Abort GV} {typeOf : Instruction → Ty}
    {isFunctionPointer : Ty → Bool} {G : ConstantGraph} {SI : Instruction} {ops : Operands}
    {m : Machine GV Bytes} {v dst : GV} (pointerVal : ∀ v p, E.PointerVal (E.setPointerVal v p) = p)
    (narrow : NarrowPointer T (typeOf SI))
    (value : (E.onBytes T load typeOf isFunctionPointer).operand M s.allocator G SI 0 ops m = .ok v)
    (place : (E.onBytes T load typeOf isFunctionPointer).operand M s.allocator G SI 1 ops m = .ok dst) :
    (E.onBytes T load typeOf isFunctionPointer).visitStoreInst M s.allocator G SI ops m = .ok { m with
      memory := write m.memory (hostAddress s.allocator (E.PointerVal dst))
        (littleEndian 4 (storedPointer s (isFunctionPointer (typeOf SI)) (E.PointerVal v))) } := by
  have pointer : E.PointerVal (storedValue E s.allocator (isFunctionPointer (typeOf SI)) v) =
      storedPointer s (isFunctionPointer (typeOf SI)) (E.PointerVal v) := by
    rw [storedPointer, storedValue]
    split
    · exact pointerVal _ _
    · rfl
  rw [← pointer]
  exact visitStoreInst_little (narrow.little pointerVal) value place

/-- What a load of a pointer leaves in its register. -/
lemma visitLoadInst_pointer {load : Ty → Bytes → Nat → Except Abort GV} {typeOf : Instruction → Ty}
    {isFunctionPointer : Ty → Bool} {G : ConstantGraph} {LI : Instruction} {ops : Operands}
    {m : Machine GV Bytes} {src : GV} (pointerVal : ∀ v p, E.PointerVal (E.setPointerVal v p) = p)
    (narrow : NarrowPointer T (typeOf LI)) (runnable : m.ecStack ≠ [])
    (place : (E.onBytes T load typeOf isFunctionPointer).operand M s.allocator G LI 0 ops m = .ok src) :
    ∃ m', (E.onBytes T load typeOf isFunctionPointer).visitLoadInst M s.allocator G LI ops m = .ok m' ∧
      E.PointerVal (E.registerValue LI.id m') =
        unsigned m.memory (hostAddress s.allocator (E.PointerVal src)) 4 :=
  visitLoadInst_little (narrow.little pointerVal) runnable place

/-- A pointer in a register of a 32-bit target, stored by `visitStoreInst` and loaded back by
`visitLoadInst` from the same place, leads to the same host object exactly if it is no address of a stack
slot beyond four bytes. Stores and loads of pointers always succeed. -/
theorem pointer_roundtrip_iff {Ty GV : Type} {E : Engine GV Bytes} {T : Target Ty GV}
    {load : Ty → Bytes → Nat → Except Abort GV} {typeOf : Instruction → Ty}
    {isFunctionPointer : Ty → Bool} {M : Memory.Module} {s : Memory.MyInterpreter} {G : ConstantGraph}
    {SI LI : Instruction} {ops : Operands} {m : Machine GV Bytes} {v dst : GV} {source : Source}
    {object : Nat} (pointerVal : ∀ v p, E.PointerVal (E.setPointerVal v p) = p)
    (run : (Memory.api M).Outcome (.ok s)) (apart : HostApart s)
    (storeType : NarrowPointer T (typeOf SI)) (loadType : NarrowPointer T (typeOf LI))
    (value : (E.onBytes T load typeOf isFunctionPointer).operand M s.allocator G SI 0 ops m = .ok v)
    (place : (E.onBytes T load typeOf isFunctionPointer).operand M s.allocator G SI 1 ops m = .ok dst)
    (leads : source.LeadsTo M s (E.PointerVal v) object)
    (typed : source = .function → isFunctionPointer (typeOf SI) = true) :
    ∃ m1, (E.onBytes T load typeOf isFunctionPointer).visitStoreInst M s.allocator G SI ops m = .ok m1 ∧
      ∀ ops' m' src, m'.ecStack ≠ [] →
        (E.onBytes T load typeOf isFunctionPointer).operand M s.allocator G LI 0 ops' m' = .ok src →
        hostAddress s.allocator (E.PointerVal src) = hostAddress s.allocator (E.PointerVal dst) →
        (∀ i < 4, m'.memory (hostAddress s.allocator (E.PointerVal dst) + i) =
          m1.memory (hostAddress s.allocator (E.PointerVal dst) + i)) →
        ∃ m2, (E.onBytes T load typeOf isFunctionPointer).visitLoadInst M s.allocator G LI ops' m' =
            .ok m2 ∧
          (hostAddress s.allocator (E.PointerVal (E.registerValue LI.id m2)) = object ↔
            (source = .slot → E.PointerVal v < 4294967296)) := by
  refine ⟨_, visitStoreInst_pointer pointerVal storeType value place, ?_⟩
  intro ops' m' src runnable from' same kept
  obtain ⟨m2, ran, loaded⟩ := visitLoadInst_pointer pointerVal loadType runnable from'
  refine ⟨m2, ran, ?_⟩
  have bytes : read m'.memory (hostAddress s.allocator (E.PointerVal dst)) 4 =
      littleEndian 4 (storedPointer s (isFunctionPointer (typeOf SI)) (E.PointerVal v)) := by
    have there := read_write m.memory (hostAddress s.allocator (E.PointerVal dst))
      (littleEndian 4 (storedPointer s (isFunctionPointer (typeOf SI)) (E.PointerVal v)))
    rw [length_littleEndian] at there
    exact (read_congr kept).trans there
  rw [loaded, same, unsigned, bytes, ofLittleEndian_littleEndian]
  exact storedPointer_leads run apart leads typed

/-- An engine whose values are pointers, with a memory of bytes. -/
def bytesEngine : Engine Nat Bytes where
  visit := fun _ _ m => .ok m
  getConstantExprValue := fun _ _ _ => 0
  getConstantValue := fun _ _ => 0
  LoadValueFromMemory := fun _ _ _ => .ok 0
  StoreValueToMemory := fun _ m _ _ => .ok m
  storesFunctionPointer := fun _ => false
  isCast := fun _ => false
  PointerVal := id
  setPointerVal := fun _ p => p
  GenericValue := 0
  zero := fun _ => 0

/-- A target whose only type is that of four-byte pointers. -/
def pointerTarget : Target Nat Nat :=
  { dlistTarget with isPointerTy := fun ty => ty = 4 }

/-- The pointers of the target are narrow. -/
lemma pointerTarget_narrow : NarrowPointer pointerTarget 4 := ⟨rfl, rfl⟩

/-- The engine on the memory, for instructions that load and store pointers to data. -/
def pointerEngine : Engine Nat Bytes :=
  bytesEngine.onBytes pointerTarget (fun _ _ _ => .error .undefined) (fun _ => 4) fun _ => false

/-- A store of register `7` to where register `8` points, and a load from there. -/
def storePointer : Instruction :=
  ⟨1, .store, [.register 7, .register 8], [], none, .register 8, false, none⟩

/-- The instruction that loads a pointer. -/
def loadPointer : Instruction := ⟨2, .load, [.register 8], [], none, .register 8, false, none⟩

/-- Register `7` holds the pointer, and register `8` the address of the array of threads. -/
def pointerAt (p : Nat) : Machine Nat Bytes where
  ecStack := [⟨"main", 0, [], none, fun V =>
    if V = .register 7 then some p else if V = .register 8 then some 0x50000000 else none, [], []⟩]
  exitValue := 0
  memory := fun _ => 0

/-- The host address to which a pointer leads after it was stored and loaded back. -/
def roundTrip (p : Nat) : Except Abort Nat := do
  let m ← pointerEngine.visitStoreInst dlistModule dlistState.allocator noConstants storePointer
    (fun _ => none) (pointerAt p)
  let m ← pointerEngine.visitLoadInst dlistModule dlistState.allocator noConstants loadPointer
    (fun _ => none) m
  .ok (hostAddress dlistState.allocator (pointerEngine.registerValue 2 m))

/-- Host addresses are above those of the interpreter. -/
lemma dlist_hostApart : HostApart dlistState := by
  intro b live
  have le := (Memory.dlist_blocks live).1
  exact .inr (Nat.lt_of_lt_of_le (by decide) le)

/-- A pointer to the block of a `structAlloc` comes back. -/
theorem pointer_roundtrip_iff_structAlloc : roundTrip 0x5000012c = .ok 0x7f0000004000 := by
  have live : dlistState.allocator.Live ⟨0x5000012c, 0x7f0000004000, 96, 3⟩ := ⟨by decide, rfl⟩
  have leads : Source.block.LeadsTo dlistModule dlistState 0x5000012c 0x7f0000004000 :=
    ⟨_, live, le_rfl, by decide, rfl⟩
  have value : pointerEngine.operand dlistModule dlistState.allocator noConstants storePointer 0
      (fun _ => none) (pointerAt 0x5000012c) = .ok 0x5000012c := rfl
  have place : pointerEngine.operand dlistModule dlistState.allocator noConstants storePointer 1
      (fun _ => none) (pointerAt 0x5000012c) = .ok 0x50000000 := rfl
  obtain ⟨m1, stored, back⟩ := @pointer_roundtrip_iff _ _ _ _ _ _ _ _ _ _ storePointer loadPointer
    _ _ _ _ _ _ (fun _ _ => rfl) Memory.dlist_run dlist_hostApart pointerTarget_narrow pointerTarget_narrow
    value place leads fun other => by cases other
  have ran : pointerEngine.visitStoreInst dlistModule dlistState.allocator noConstants storePointer
      (fun _ => none) (pointerAt 0x5000012c) = .ok { pointerAt 0x5000012c with
        memory := write (fun _ => 0) 0x7f0000001000 (littleEndian 4 0x5000012c) } := rfl
  cases ran.symm.trans stored
  obtain ⟨m2, loaded, iff⟩ := back (fun _ => none) _ 0x50000000 (List.cons_ne_nil _ _) rfl rfl
    fun _ _ => rfl
  refine (bind_ok ran _).trans ((bind_ok loaded _).trans (congrArg Except.ok ?_))
  exact iff.2 fun other => by cases other

/-- The address of a stack slot beyond four bytes comes back cut off. -/
theorem slot_cut_off :
    Source.slot.LeadsTo dlistModule dlistState 0x7ffc00001000 0x7ffc00001000 ∧
      roundTrip 0x7ffc00001000 = .ok 0x1000 := by
  refine ⟨⟨rfl, by decide, fun b live => .inr ?_⟩, rfl⟩
  exact (Memory.dlist_blocks live).2.trans_lt (by decide)

end Irx.Exec
