import Irx.Memory.Interpreter
import Irx.Memory.Ranges

/-!
# The address space behind the allocator

The purpose of the allocator, stated without its data structures: an `AddressSpace` is a chain of
blocks below a bump address inside the interpreter's 128 MB. It grows by a block at the bump
address, loses blocks, and is rewound to an address above all its blocks.

`Represents` ties a `MapAllocator` to an address space: both maps, the holder list and the bump
address are determined by the blocks. The rest of the file derives from it what each operation of the
allocator does (`Represents.find`, `Represents.add`, `Represents.free`), so that no later proof
opens the maps again.
-/

namespace Irx.Memory
open Irx.Lib

/-- All of a list, and one more. -/
lemma forall_mem_snoc {α : Type*} {P : α → Prop} {l : List α} {x : α} (hl : ∀ y ∈ l, P y)
    (hx : P x) : ∀ y ∈ l ++ [x], P y := by
  intro y hy
  rcases List.mem_append.1 hy with hy | hy
  · exact hl y hy
  · rwa [List.mem_singleton.1 hy]

/-- A key that no element of a list has keeps the keys of the extended list distinct. -/
lemma nodup_map_snoc {α κ : Type*} {key : α → κ} {l : List α} {x : α} (nd : (l.map key).Nodup)
    (new : ∀ y ∈ l, key y ≠ key x) : ((l ++ [x]).map key).Nodup := by
  rw [List.map_append, List.nodup_append']
  refine ⟨nd, List.nodup_singleton _, ?_⟩
  rw [List.map_singleton, List.disjoint_singleton]
  intro mem
  obtain ⟨y, hy, e⟩ := List.mem_map.1 mem
  exact new y hy e

/-- A chain of blocks below a bump address, all inside the interpreter's range. -/
structure AddressSpace where
  blocks : List Block
  bump : Nat
  chain : Chain Block.vvptr Block.stop blocks
  above : ∀ b ∈ blocks, startAddr ≤ b.vvptr
  below : ∀ b ∈ blocks, b.stop < bump
  start_le : startAddr ≤ bump
  le_end : bump ≤ endAddr

namespace AddressSpace

/-- The space without blocks. -/
def empty : AddressSpace where
  blocks := []
  bump := startAddr
  chain := .nil
  above := nofun
  below := nofun
  start_le := le_refl _
  le_end := by decide

/-- The space with a new block at the bump address. -/
def grow (A : AddressSpace) (vptr size node : Nat) (room : A.bump + stride size ≤ endAddr) :
    AddressSpace where
  blocks := A.blocks ++ [⟨A.bump, vptr, size, node⟩]
  bump := A.bump + stride size
  chain := A.chain.append_last (Nat.le_add_right _ _) A.below
  above := forall_mem_snoc A.above A.start_le
  below := forall_mem_snoc (fun b hb => Nat.lt_add_right _ (A.below b hb))
    (Nat.add_lt_add_left (lt_stride size) _)
  start_le := Nat.le_add_right_of_le A.start_le
  le_end := room

/-- A new block is at the end. -/
lemma grow_blocks (A : AddressSpace) (vptr size node : Nat) (room : A.bump + stride size ≤ endAddr) :
    (A.grow vptr size node room).blocks = A.blocks ++ [⟨A.bump, vptr, size, node⟩] := rfl

/-- The space after some blocks were freed. -/
def drop (A : AddressSpace) (bs : List Block) (sub : bs.Sublist A.blocks) : AddressSpace where
  blocks := bs
  bump := A.bump
  chain := A.chain.sublist sub
  above b hb := A.above b (sub.subset hb)
  below b hb := A.below b (sub.subset hb)
  start_le := A.start_le
  le_end := A.le_end

/-- The space with its bump address moved back to an address above every block. -/
def rewind (A : AddressSpace) (mark : Nat) (lower : startAddr ≤ mark) (upper : mark ≤ A.bump)
    (clear : ∀ b ∈ A.blocks, b.stop < mark) : AddressSpace where
  blocks := A.blocks
  bump := mark
  chain := A.chain
  above := A.above
  below := clear
  start_le := lower
  le_end := upper.trans A.le_end

end AddressSpace

/-- The allocator stores exactly the blocks of the address space. -/
structure Represents (a : MapAllocator) (A : AddressSpace) : Prop where
  start : a.vvmemStart.entries = A.blocks.map (fun b => (b.vvptr, b.node))
  stop : a.vvmemEnd.entries = A.blocks.map (fun b => (b.stop, b.node))
  holder : a.allocationsHolder = A.blocks.map Block.holderNode
  bump : a.vma.lastAllocAddr = A.bump
  nodes : (A.blocks.map Block.node).Nodup
  fresh : ∀ b ∈ A.blocks, b.node < a.nextNode
  vptrs : (A.blocks.map Block.vptr).Nodup
  nonnull : ∀ b ∈ A.blocks, b.vptr ≠ 0
  host : ∀ b ∈ A.blocks, b.vptr + b.size < 18446744073709551616

namespace Represents

variable {a : MapAllocator} {A : AddressSpace} {b : Block} {k : Nat}

/-- A new allocator has no blocks. -/
lemma empty : Represents {} .empty where
  start := rfl
  stop := rfl
  holder := rfl
  bump := rfl
  nodes := .nil
  fresh := nofun
  vptrs := .nil
  nonnull := nofun
  host := nofun

/-- Blocks end before the end of the addresses. -/
lemma stop_lt (_ : Represents a A) (hb : b ∈ A.blocks) : b.stop < endAddr :=
  (A.below b hb).trans_le A.le_end

/-- The maps are laid out by the blocks. -/
lemma laid (r : Represents a A) : Laid a A.blocks where
  row := A.chain.row
  start := r.start
  stop := r.stop
  nodes := r.nodes
  fresh := r.fresh
  held n hn := by
    rw [r.holder] at hn
    exact List.mem_map.1 hn

/-- No address lies in two blocks. -/
lemma alone (_ : Represents a A) (hb : b ∈ A.blocks) (inside : b.Contains k) :
    ∀ c ∈ A.blocks, c.Contains k → c = b := by
  intro c hc inside'
  by_contra ne
  exact Set.disjoint_left.1 (A.chain.disjoint hc hb ne) inside' inside

/-- In a block the block is found. -/
lemma find (r : Represents a A) (hb : b ∈ A.blocks) (lo : b.vvptr ≤ k) (hi : k ≤ b.stop) :
    a.find k = some ⟨(b.vvptr, b.node), (b.stop, b.node), b.node⟩ :=
  r.laid.find_alone hb ⟨lo, hi⟩ (r.alone hb ⟨lo, hi⟩)

/-- In a block there is something. -/
lemma has (r : Represents a A) (hb : b ∈ A.blocks) (lo : b.vvptr ≤ k) (hi : k ≤ b.stop) :
    a.has k = true := r.laid.has hb ⟨lo, hi⟩

/-- Above the blocks nothing is found. -/
lemma find_above (r : Represents a A) (above : A.bump ≤ k) : a.find k = none :=
  r.laid.find_hole fun c hc inside => ((A.below c hc).trans_le above).not_ge inside.2

/-- The allocation of a block is held. -/
lemma held (r : Represents a A) (hb : b ∈ A.blocks) : b.holderNode ∈ a.allocationsHolder := by
  rw [r.holder]
  exact List.mem_map_of_mem hb

/-- The weak pointer of a block leads to its memory. -/
lemma deref (r : Represents a A) (hb : b ∈ A.blocks) : a.deref b.node = .ok ⟨b.vptr, b.size⟩ :=
  r.laid.deref hb (r.held hb)

/-- The bump address moves by the stride of the request, or the generator exits. -/
lemma next (r : Represents a A) {size : Nat} (small : size < 9223372036854775808) :
    a.vma.next size =
      if A.bump + stride size ≤ endAddr then
        .ok (A.bump, { a.vma with lastAllocAddr := A.bump + stride size })
      else .error .exhausted := by
  have le := A.le_end
  rw [← r.bump] at le ⊢
  exact next_eq le small

/-- `put` at the bump address extends the represented space by one block. -/
lemma put (r : Represents a A) {vptr size : Nat} (host : HostGives a vptr size)
    (room : A.bump + stride size ≤ endAddr) :
    Represents
      (MapAllocator.put { a with vma := { a.vma with lastAllocAddr := A.bump + stride size } }
        A.bump vptr size).2
      (A.grow vptr size a.nextNode room) := by
  have le := A.le_end
  have bound : endAddr = 0x58000000 := by decide
  have stop : word (A.bump + size) = A.bump + size := by
    have := lt_stride size
    exact word_of_lt (by omega)
  constructor
  -- the bump address is above all keys, so both maps get the new entry at their end
  case start =>
    change (a.vvmemStart.insert A.bump a.nextNode).entries = _
    rw [OrdMap.insert_last, r.start, AddressSpace.grow_blocks, List.map_append]
    · rfl
    · rw [r.start, List.forall_mem_map]
      exact fun c hc => (A.chain.proper c hc).trans_lt (A.below c hc)
  case stop =>
    change (a.vvmemEnd.insert (word (A.bump + size)) a.nextNode).entries = _
    rw [OrdMap.insert_last, r.stop, stop, AddressSpace.grow_blocks, List.map_append]
    · rfl
    · rw [r.stop, stop, List.forall_mem_map]
      exact fun c hc => Nat.lt_add_right _ (A.below c hc)
  case holder =>
    change a.allocationsHolder ++ _ = _
    rw [r.holder, AddressSpace.grow_blocks, List.map_append]
    rfl
  case bump => rfl
  case nodes =>
    exact nodup_map_snoc r.nodes fun c hc => (r.fresh c hc).ne
  case fresh =>
    exact forall_mem_snoc (fun c hc => Nat.lt_succ_of_lt (r.fresh c hc)) (Nat.lt_succ_self _)
  case vptrs =>
    exact nodup_map_snoc r.vptrs fun c hc => host.distinct _ (r.held hc)
  case nonnull => exact forall_mem_snoc r.nonnull host.nonnull
  case host => exact forall_mem_snoc r.host host.fits

/-- `add` exits for want of addresses, or returns a block at the bump address. The overlap check
never fires. -/
lemma add (r : Represents a A) {vptr size : Nat} (host : HostGives a vptr size) :
    (¬ A.bump + stride size ≤ endAddr ∧ a.add vptr size = .error .exhausted) ∨
    ∃ (room : A.bump + stride size ≤ endAddr) (a' : MapAllocator),
      a.add vptr size = .ok (⟨A.bump, vptr, size⟩, a') ∧
      Represents a' (A.grow vptr size a.nextNode room) ∧
      a'.allocations = a.allocations ∧ a'.vma.freezeStack = a.vma.freezeStack := by
  have le := A.le_end
  have bound : endAddr = 0x58000000 := by decide
  have nx := r.next host.small
  by_cases room : A.bump + stride size ≤ endAddr
  · rw [if_pos room] at nx
    have lt := lt_stride size
    -- nothing is mapped from the bump address on
    have here : a.find A.bump = none := r.find_above le_rfl
    have past : a.find (word (A.bump + size + 1)) = none := by
      rw [word_of_lt (by omega)]
      exact r.find_above (by omega)
    refine .inr ⟨room, _, ?_, r.put host room, rfl, rfl⟩
    rw [MapAllocator.add, nx]
    change (if (a.find A.bump).isSome || (a.find (word (A.bump + size + 1))).isSome then _ else _) = _
    rw [here, past]
    rfl
  · rw [if_neg room] at nx
    refine .inl ⟨room, ?_⟩
    rw [MapAllocator.add, nx]
    rfl

/-- What the allocator owns in the host plays no part. -/
lemma withAllocations (r : Represents a A) (ps : List Nat) :
    Represents { a with allocations := ps } A :=
  ⟨r.start, r.stop, r.holder, r.bump, r.nodes, r.fresh, r.vptrs, r.nonnull, r.host⟩

/-- The parts of the space around a block form a smaller list. -/
lemma sublist_middle {pre post : List Block} (e : A.blocks = pre ++ b :: post) :
    (pre ++ post).Sublist A.blocks := by
  rw [e]
  exact sublist_around

/-- The allocator without a block represents the space without it. -/
lemma removed (r : Represents a A) {pre post : List Block} (e : A.blocks = pre ++ b :: post) :
    Represents (a.removed b) (A.drop (pre ++ post) (sublist_middle e)) := by
  have sub := sublist_middle e
  have laid := r.laid
  rw [e] at laid
  constructor
  case start => exact laid.removed.start
  case stop => exact laid.removed.stop
  -- the holder drops by host pointer, and those are different
  case holder =>
    have nd := r.vptrs
    rw [e] at nd
    change a.allocationsHolder.filter (fun n => n.data.vptr ≠ b.vptr) = _
    rw [r.holder, List.filter_map, e]
    exact congrArg (List.map Block.holderNode) (filter_ne_middle nd)
  case bump => exact r.bump
  case nodes => exact laid.removed.nodes
  case fresh => exact fun c hc => r.fresh c (sub.subset hc)
  case vptrs => exact r.vptrs.sublist (sub.map _)
  case nonnull => exact fun c hc => r.nonnull c (sub.subset hc)
  case host => exact fun c hc => r.host c (sub.subset hc)

/-- `free` of the base of a block drops exactly that block. -/
lemma free (r : Represents a A) {pre post : List Block} (e : A.blocks = pre ++ b :: post) :
    ∃ a', a.free b.vvptr = .ok a' ∧ Represents a' (A.drop (pre ++ post) (sublist_middle e)) ∧
      a'.allocations = a.allocations.filter (fun p => p ≠ b.vptr) ∧ a'.vma = a.vma := by
  have hb : b ∈ A.blocks := by
    rw [e]
    exact List.mem_append_right _ List.mem_cons_self
  have freed := r.laid.free hb (r.alone hb b.contains_start) (r.held hb)
  exact ⟨_, freed, (r.withAllocations _).removed e, rfl, rfl⟩

/-- Freezing changes no block. -/
lemma freeze (r : Represents a A) : Represents a.freeze A :=
  ⟨r.start, r.stop, r.holder, r.bump, r.nodes, r.fresh, r.vptrs, r.nonnull, r.host⟩

/-- `reset` rewinds the space to the frozen address. -/
lemma reset (r : Represents a A) {mark : Nat} {rest : List Nat}
    (frozen : a.vma.freezeStack = mark :: rest) (lower : startAddr ≤ mark) (upper : mark ≤ A.bump)
    (clear : ∀ b ∈ A.blocks, b.stop < mark) :
    ∃ a', a.reset = .ok a' ∧ Represents a' (A.rewind mark lower upper clear) ∧
      a'.allocations = a.allocations ∧ a'.vma = ⟨mark, rest⟩ := by
  refine ⟨{ a with vma := ⟨mark, rest⟩ }, ?_, ?_, rfl, rfl⟩
  · rw [MapAllocator.reset, LinearVirtualMemoryAddressGenerator.reset, frozen]
    rfl
  · exact ⟨r.start, r.stop, r.holder, rfl, r.nodes, r.fresh, r.vptrs, r.nonnull, r.host⟩

end Represents

end Irx.Memory
