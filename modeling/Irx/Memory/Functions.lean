import Irx.Memory.ApiRuns

/-!
# Addresses of functions

`vptr2vvptr` finds the interpreter address of a host address that is the start of a block. Every defined
function is given a block when the interpreter is created and keeps it for all runs of the API
(`function_block`), so its two addresses translate into each other (`function_translate`).
-/

namespace Irx.Memory
open Irx.Lib

/-- `find_vvptr`: the first entry whose block starts at the host address. -/
def findVvptr (a : MapAllocator) (vptr : Nat) : List (Nat × Nat) → Except Abort (Option (Nat × Nat))
  | [] => .ok none
  | haystack :: rest => do
    let data ← a.deref haystack.2
    if data.vptr = vptr then .ok (some haystack) else findVvptr a vptr rest

/-- `vptr2vvptr`; `0` is the null pointer. -/
def MapAllocator.vptr2vvptr (a : MapAllocator) (vptr : Nat) : Except Abort Nat := do
  match ← findVvptr a vptr a.vvmemStart.entries with
  | none => .ok 0
  | some alloc_data => do
    let data ← a.deref alloc_data.2
    .ok (word (alloc_data.1 + (vptr - data.vptr)))

variable {M : Module} {a : MapAllocator} {A : AddressSpace} {s : MyInterpreter} {k : Nat}

namespace Represents

/-- The block of a host address is found in a list of blocks. -/
lemma findVvptr (r : Represents a A) {b : Block} {blocks : List Block} (sub : blocks ⊆ A.blocks)
    (mem : b ∈ blocks) (nodup : (blocks.map Block.vptr).Nodup) :
    Memory.findVvptr a b.vptr (blocks.map fun b => (b.vvptr, b.node)) = .ok (some (b.vvptr, b.node)) := by
  induction blocks with
  | nil => cases mem
  | cons c blocks ih =>
    obtain ⟨new, nodup⟩ := List.nodup_cons.1 nodup
    obtain ⟨here, sub⟩ := List.cons_subset.1 sub
    rw [List.map_cons, Memory.findVvptr, bind_ok (r.deref here)]
    obtain rfl | later := List.mem_cons.1 mem
    · exact if_pos rfl
    · have ne : c.vptr ≠ b.vptr := fun e => new (e ▸ List.mem_map_of_mem later)
      exact (if_neg ne).trans (ih sub later nodup)

/-- The start of a block is translated to the block. -/
lemma vptr2vvptr (r : Represents a A) {b : Block} (mem : b ∈ A.blocks) :
    a.vptr2vvptr b.vptr = .ok b.vvptr := by
  have found := r.findVvptr (List.Subset.refl _) mem r.vptrs
  rw [← r.start] at found
  have small := (Nat.le_add_right b.vvptr b.size).trans_lt (r.stop_lt mem)
  have bound : endAddr = 0x58000000 := by decide
  rw [MapAllocator.vptr2vvptr, bind_ok found]
  refine (bind_ok (r.deref mem) _).trans (congrArg Except.ok ?_)
  show word (b.vvptr + (b.vptr - b.vptr)) = b.vvptr
  rw [Nat.sub_self, Nat.add_zero, word_of_lt (by omega)]

/-- A host address at which no block starts has no interpreter address. -/
lemma vptr2vvptr_unknown (r : Represents a A) {vptr : Nat} (unknown : ∀ b ∈ A.blocks, b.vptr ≠ vptr) :
    a.vptr2vvptr vptr = .ok 0 := by
  have missed : ∀ blocks : List Block, blocks ⊆ A.blocks →
      Memory.findVvptr a vptr (blocks.map fun b => (b.vvptr, b.node)) = .ok none := by
    intro blocks sub
    induction blocks with
    | nil => rfl
    | cons b blocks ih =>
      obtain ⟨here, sub⟩ := List.cons_subset.1 sub
      rw [List.map_cons, Memory.findVvptr, bind_ok (r.deref here)]
      exact (if_neg (unknown b here)).trans (ih sub)
  have none := missed A.blocks (List.Subset.refl _)
  rw [← r.start] at none
  rw [MapAllocator.vptr2vvptr, bind_ok none]

/-- Outside of the addresses there is nothing. -/
lemma has_outside (r : Represents a A) (outside : k < startAddr ∨ endAddr < k) : a.has k = false := by
  rw [r.laid.has_eq_false_iff]
  obtain low | high := outside
  · exact .inl fun c hc => low.trans_le (A.above c hc)
  · exact .inr fun c hc => (r.stop_lt hc).trans high

/-- An address that is none of the interpreter's is its own translation. -/
lemma vvptr2vptr_outside (r : Represents a A) (outside : k < startAddr ∨ endAddr < k) :
    vvptr2vptr a k = .ok k := by
  rw [vvptr2vptr, r.has_outside outside]
  rfl

/-- The start of a block is translated back by the member function. -/
lemma vvptr2vptr_start (r : Represents a A) {b : Block} (mem : b ∈ A.blocks) :
    a.vvptr2vptr b.vvptr = .ok b.vptr := by
  have host := (Nat.le_add_right b.vptr b.size).trans_lt (r.host b mem)
  rw [MapAllocator.vvptr2vptr, r.find mem le_rfl (Nat.le_add_right _ _)]
  refine (bind_ok (r.deref mem) _).trans (congrArg Except.ok ?_)
  show word (b.vptr + (b.vvptr - b.vvptr)) = b.vptr
  rw [Nat.sub_self, Nat.add_zero, word_of_lt host]

end Represents

/-! ### Equal maps -/

/-- Two allocators with the same entries and the same data behind them. -/
structure SameMaps (a a' : MapAllocator) : Prop where
  start : a.vvmemStart = a'.vvmemStart
  stop : a.vvmemEnd = a'.vvmemEnd
  holder : a.allocationsHolder = a'.allocationsHolder

/-- Allocators that represent the same blocks have the same maps. -/
lemma Represents.sameMaps {a' : MapAllocator} {A' : AddressSpace} (r : Represents a A)
    (r' : Represents a' A') (blocks : A.blocks = A'.blocks) : SameMaps a a' where
  start := OrdMap.ext (by rw [r.start, r'.start, blocks])
  stop := OrdMap.ext (by rw [r.stop, r'.stop, blocks])
  holder := by rw [r.holder, r'.holder, blocks]

namespace SameMaps

variable {a' : MapAllocator} (same : SameMaps a a')
include same

/-- The same memory is there. -/
lemma deref (node : Nat) : a.deref node = a'.deref node := by
  rw [MapAllocator.deref, MapAllocator.deref, same.holder]

/-- The same addresses are there. -/
lemma has (k : Nat) : a.has k = a'.has k := by
  rw [MapAllocator.has, MapAllocator.has, same.start, same.stop]

/-- They lead to the same host addresses. -/
lemma vvptr2vptr (k : Nat) : a.vvptr2vptr k = a'.vvptr2vptr k := by
  rw [MapAllocator.vvptr2vptr, MapAllocator.vvptr2vptr, MapAllocator.find, MapAllocator.find,
    same.start, same.stop]
  simp only [same.deref]

/-- The same host addresses lead there. -/
lemma vptr2vvptr (vptr : Nat) : a.vptr2vvptr vptr = a'.vptr2vvptr vptr := by
  have search : ∀ entries, findVvptr a vptr entries = findVvptr a' vptr entries := by
    intro entries
    induction entries with
    | nil => rfl
    | cons entry entries ih => rw [findVvptr, findVvptr, same.deref, ih]
  rw [MapAllocator.vptr2vvptr, MapAllocator.vptr2vvptr, search, same.start]
  simp only [same.deref]

end SameMaps

/-! ### Blocks of functions -/

/-- A successful `add` stores the object behind those that are there. -/
lemma add_holder {vmem size : Nat} {alloc : IrxAlloc} {a' : MapAllocator}
    (e : a.add vmem size = .ok (alloc, a')) :
    a'.allocationsHolder = a.allocationsHolder ++ [⟨a.nextNode, ⟨vmem, size⟩⟩] := by
  obtain ⟨⟨vvmem, vma⟩, _, rest⟩ := bind_eq_ok.1 e
  dsimp only at rest
  split at rest
  case isTrue => cases rest
  case isFalse =>
    cases rest
    rfl

/-- The loop over the functions leaves a block for each that is mapped. -/
lemma mapFunctions_holder {fs : List Function} {a' : MapAllocator} (e : mapFunctions fs a = .ok a') :
    a.allocationsHolder ⊆ a'.allocationsHolder ∧
      ∀ f ∈ fs, f.mapped = true → ∃ n ∈ a'.allocationsHolder, n.data.vptr = f.address := by
  induction fs generalizing a with
  | nil =>
    cases e
    exact ⟨List.Subset.refl _, fun f mem => absurd mem List.not_mem_nil⟩
  | cons f fs ih =>
    rw [mapFunctions] at e
    split at e
    case isTrue =>
      obtain ⟨⟨alloc, a1⟩, first, rest⟩ := bind_eq_ok.1 e
      obtain ⟨grown, blocks⟩ := ih rest
      have holder := add_holder first
      refine ⟨fun n mem => grown (holder ▸ List.mem_append_left _ mem), fun f' mem mapped' => ?_⟩
      obtain rfl | later := List.mem_cons.1 mem
      · exact ⟨_, grown (holder ▸ List.mem_append_right _ (.head _)), rfl⟩
      · exact blocks f' later mapped'
    case isFalse unmapped =>
      obtain ⟨grown, blocks⟩ := ih e
      refine ⟨grown, fun f' mem mapped' => ?_⟩
      obtain rfl | later := List.mem_cons.1 mem
      · exact absurd mapped' unmapped
      · exact blocks f' later mapped'

/-- In every reachable state a defined function has a block at its host address. -/
lemma function_block (run : (api M).Outcome (.ok s)) {f : Function} (mem : f ∈ M.functions)
    (mapped : f.mapped = true) :
    ∃ A b, Represents s.allocator A ∧ b ∈ A.blocks ∧ b.vptr = f.address := by
  have holds := outcome_base (Q := fun base => ∃ b ∈ base, b.vptr = f.address) run ?_
  · obtain ⟨base, mark, A, extra, ⟨b, inBase, e⟩, inv⟩ := holds
    exact ⟨A, b, inv.rep, inv.blocks ▸ List.mem_append_left _ inBase, e⟩
  · intro s0 A created inv
    rw [createInterpreter] at created
    obtain ⟨⟨gs, a1⟩, _, created⟩ := bind_eq_ok.1 created
    obtain ⟨a2, mappedAll, created⟩ := bind_eq_ok.1 created
    cases created
    obtain ⟨n, memn, e⟩ := (mapFunctions_holder mappedAll).2 f mem mapped
    have holder : a2.allocationsHolder = A.blocks.map Block.holderNode := inv.rep.holder
    rw [holder] at memn
    obtain ⟨b, memb, rfl⟩ := List.mem_map.1 memn
    exact ⟨b, memb, e⟩

/-- In every reachable state the host address of a defined function has an interpreter address, which
translates back. -/
lemma function_translate (run : (api M).Outcome (.ok s)) {f : Function} (mem : f ∈ M.functions)
    (mapped : f.mapped = true) : ∃ vvptr, s.allocator.vptr2vvptr f.address = .ok vvptr ∧
      vvptr2vptr s.allocator vvptr = .ok f.address := by
  obtain ⟨A, b, rep, memb, e⟩ := function_block run mem mapped
  have back := rep.vvptr2vptr_inside memb le_rfl (Nat.le_add_right _ _)
  rw [Nat.sub_self, Nat.add_zero, e] at back
  exact ⟨b.vvptr, e ▸ rep.vptr2vvptr memb, back⟩

end Irx.Memory
