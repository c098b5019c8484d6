import Irx.Memory.Functions
import Irx.Memory.Holes

/-!
# Translation there and back

`vvptr2vptr` looks an address up in the ranges of the blocks, `vptr2vvptr` searches a block that starts at
the host address. So there and back is the identity for the start of a block and for no other address of
it (`vptr2vvptr_vvptr2vptr_iff`). A translated address is its own translation where the host has put no
block, its end included, among the interpreter's addresses (`Represents.translated_twice`).
-/

namespace Irx.Memory
open Irx.Lib System

/-- No two live blocks have a byte of host memory in common. -/
def MapAllocator.HostDisjoint (a : MapAllocator) : Prop :=
  ∀ b c, a.Live b → a.Live c → b ≠ c → b.vptr + b.size ≤ c.vptr ∨ c.vptr + c.size ≤ b.vptr

/-- No host address of a live block, and not the one past its end, is one of the interpreter's. -/
def MapAllocator.HostOutside (a : MapAllocator) : Prop :=
  ∀ b, a.Live b → ∀ h, b.vptr ≤ h → h ≤ b.vptr + b.size → h < startAddr ∨ endAddr < h

namespace Represents

variable {a : MapAllocator} {A : AddressSpace} {b : Block} {k : Nat}

/-- What `vptr2vvptr` makes of an address behind the start of a block is no address of the block. -/
lemma vptr2vvptr_behind (r : Represents a A) (mem : b ∈ A.blocks) {vptr : Nat} (behind : vptr ≠ b.vptr) :
    ∃ k, a.vptr2vvptr vptr = .ok k ∧ ¬ (b.vvptr ≤ k ∧ k ≤ b.stop) := by
  by_cases known : ∃ c ∈ A.blocks, c.vptr = vptr
  · obtain ⟨c, memc, rfl⟩ := known
    refine ⟨c.vvptr, r.vptr2vvptr memc, fun inside => ?_⟩
    have ne : c ≠ b := fun e => behind (e ▸ rfl)
    have apart := Set.disjoint_left.1 (A.chain.disjoint memc mem ne)
    exact apart ⟨le_rfl, Nat.le_add_right _ _⟩ inside
  · have unknown : ∀ c ∈ A.blocks, c.vptr ≠ vptr := fun c memc e => known ⟨c, memc, e⟩
    refine ⟨0, r.vptr2vvptr_unknown unknown, fun inside => ?_⟩
    have positive : 0 < startAddr := by decide
    exact (positive.trans_le (A.above b mem)).not_ge inside.1

/-- An address translates into a block that it lies in, to null between two blocks, and else to itself. -/
lemma vvptr2vptr_cases (r : Represents a A) (k : Nat) :
    (∃ b ∈ A.blocks, b.vvptr ≤ k ∧ k ≤ b.stop ∧ vvptr2vptr a k = .ok (b.vptr + (k - b.vvptr))) ∨
      vvptr2vptr a k = .ok 0 ∨ vvptr2vptr a k = .ok k := by
  by_cases inside : ∃ b ∈ A.blocks, b.vvptr ≤ k ∧ k ≤ b.stop
  · obtain ⟨b, mem, lo, hi⟩ := inside
    exact .inl ⟨b, mem, lo, hi, r.vvptr2vptr_inside mem lo hi⟩
  · have hole : ∀ b ∈ A.blocks, ¬ (b.vvptr ≤ k ∧ k ≤ b.stop) := fun b mem within => inside ⟨b, mem, within⟩
    rw [Memory.vvptr2vptr, MapAllocator.vvptr2vptr, r.laid.find_hole hole]
    cases a.has k with
    | true => exact .inr (.inl rfl)
    | false => exact .inr (.inr rfl)

/-- The host address of an address in a block is no address of the interpreter. -/
lemma hostOutside (r : Represents a A) (outside : a.HostOutside) (mem : b ∈ A.blocks)
    (hi : k ≤ b.stop) : b.vptr + (k - b.vvptr) < startAddr ∨ endAddr < b.vptr + (k - b.vvptr) := by
  rw [Block.stop] at hi
  exact outside b (r.live_iff.2 mem) _ (Nat.le_add_right _ _) (by omega)

/-- A translated address is its own translation. -/
lemma translated_twice (r : Represents a A) (outside : a.HostOutside) (k : Nat) :
    ∃ p, vvptr2vptr a k = .ok p ∧ vvptr2vptr a p = .ok p := by
  rcases r.vvptr2vptr_cases k with ⟨b, mem, _, hi, e⟩ | e | e
  · exact ⟨_, e, r.vvptr2vptr_outside (r.hostOutside outside mem hi)⟩
  · exact ⟨0, e, r.vvptr2vptr_outside (.inl (by decide))⟩
  · exact ⟨k, e, e⟩

end Represents

/-- In every reachable state and for every address of a live block: the translation to the host and back
gives the address again exactly if it is the start of the block. -/
theorem vptr2vvptr_vvptr2vptr_iff {M : Module} {s : MyInterpreter} (run : (api M).Outcome (.ok s))
    {b : Block} (live : s.allocator.Live b) {k : Nat} (lo : b.vvptr ≤ k) (hi : k < b.vvptr + b.size) :
    vvptr2vptr s.allocator k >>= s.allocator.vptr2vvptr = .ok k ↔ k = b.vvptr := by
  obtain ⟨base, mark, A, extra, inv⟩ := outcome_invariant run
  have r := inv.rep
  have mem := r.live_iff.1 live
  rw [bind_ok (r.vvptr2vptr_inside mem lo hi.le)]
  constructor
  · intro back
    by_contra other
    have behind : b.vptr + (k - b.vvptr) ≠ b.vptr := by omega
    obtain ⟨k', e, notInside⟩ := r.vptr2vvptr_behind mem behind
    cases e.symm.trans back
    exact notInside ⟨lo, hi.le⟩
  · rintro rfl
    rw [Nat.sub_self, Nat.add_zero]
    exact r.vptr2vvptr mem

/-- The start of the block of a `structAlloc` comes back. -/
theorem vptr2vvptr_vvptr2vptr_iff_start :
    vvptr2vptr dlistState.allocator 0x5000012c >>= dlistState.allocator.vptr2vvptr =
      .ok 0x5000012c := by
  have live : dlistState.allocator.Live ⟨0x5000012c, 0x7f0000004000, 96, 3⟩ := ⟨by decide, rfl⟩
  exact (vptr2vvptr_vvptr2vptr_iff dlist_run live le_rfl (by decide)).2 rfl

/-- The blocks are apart in the host. -/
lemma dlist_hostDisjoint : dlistState.allocator.HostDisjoint := by
  have apart : ∀ n ∈ dlistState.allocator.allocationsHolder,
      ∀ m ∈ dlistState.allocator.allocationsHolder, n.node ≠ m.node →
        n.data.vptr + n.data.size ≤ m.data.vptr ∨ m.data.vptr + m.data.size ≤ n.data.vptr := by decide
  obtain ⟨_, _, A, _, inv⟩ := outcome_invariant dlist_run
  intro b c liveb livec ne
  have memb := inv.rep.live_iff.1 liveb
  have memc := inv.rep.live_iff.1 livec
  have nodes : b.node ≠ c.node := fun e => ne (List.inj_on_of_nodup_map inv.rep.nodes memb memc e)
  exact apart _ (dlist_held liveb) _ (dlist_held livec) nodes

/-- They are outside of the addresses of the interpreter. -/
lemma dlist_hostOutside : dlistState.allocator.HostOutside := by
  intro b live h lo _
  have le := (dlist_blocks live).1
  exact .inr (Nat.lt_of_lt_of_le (by decide) (le.trans lo))

/-- The second word of the array `t` is translated to the host, and from there to null. -/
theorem second_word_lost :
    (api dlistModule).Outcome (.ok dlistState) ∧ dlistState.allocator.HostDisjoint ∧
      dlistState.allocator.Live ⟨0x50000000, 0x7f0000001000, 288, 0⟩ ∧
      vvptr2vptr dlistState.allocator 0x50000004 = .ok 0x7f0000001004 ∧
      vvptr2vptr dlistState.allocator 0x50000004 >>= dlistState.allocator.vptr2vvptr = .ok 0 := by
  refine ⟨dlist_run, dlist_hostDisjoint, ⟨by decide, rfl⟩, rfl, rfl⟩

end Irx.Memory
