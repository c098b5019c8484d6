import Irx.Memory.ApiRuns

/-!
# Addresses outside every block

`has` asks for a start at or below an address and for an end at or above it, of any two blocks; `find`
asks that both belong to one block. Between two blocks `has` holds and `find` comes to nothing, and such
an address translates to null instead of staying unchanged (`unmapped_iff`).
-/

namespace Irx.Memory
open Irx.Lib System

/-- In every reachable state and for every address: `has` fails and the address is its own translation
exactly if it is below all live blocks or above all of them. An address between two blocks, in neither of
them, translates to null. -/
theorem unmapped_iff {M : Module} {s : MyInterpreter} (run : (api M).Outcome (.ok s)) (k : Nat) :
    (s.allocator.has k = false ∧ vvptr2vptr s.allocator k = .ok k ↔
      (∀ b, s.allocator.Live b → k < b.vvptr) ∨ ∀ b, s.allocator.Live b → b.stop < k) ∧
    ((∃ b, s.allocator.Live b ∧ b.vvptr ≤ k) → (∃ b, s.allocator.Live b ∧ k ≤ b.stop) →
      (∀ b, s.allocator.Live b → ¬ (b.vvptr ≤ k ∧ k ≤ b.stop)) →
      s.allocator.has k = true ∧ vvptr2vptr s.allocator k = .ok 0) := by
  obtain ⟨base, mark, A, extra, inv⟩ := outcome_invariant run
  have r := inv.rep
  simp only [r.live_iff]
  have outside := r.laid.has_eq_false_iff (k := k)
  constructor
  · rw [← outside]
    refine and_iff_left_of_imp fun absent => ?_
    rw [vvptr2vptr, absent]
    rfl
  · rintro ⟨b, hb, lo⟩ ⟨c, hc, hi⟩ hole
    have present : s.allocator.has k = true := by
      rw [← Bool.not_eq_false, outside]
      rintro (below | above)
      · exact (below b hb).not_ge lo
      · exact (above c hc).not_ge hi
    refine ⟨present, ?_⟩
    rw [vvptr2vptr, present, if_pos rfl, MapAllocator.vvptr2vptr, r.laid.find_hole hole]

/-- The address `0` is below all blocks. -/
theorem unmapped_iff_null :
    dlistState.allocator.has 0 = false ∧ vvptr2vptr dlistState.allocator 0 = .ok 0 := by
  obtain ⟨_, _, A, _, inv⟩ := outcome_invariant dlist_run
  refine (unmapped_iff dlist_run 0).1.2 (.inl fun b live => ?_)
  have le := A.above b (inv.rep.live_iff.1 live)
  exact Nat.lt_of_lt_of_le (by decide) le

/-- Between the array `t` and the function `init` are three bytes of no block; an address of them is
translated to null. -/
theorem padding_translates_to_null :
    (api dlistModule).Outcome (.ok dlistState) ∧
      (∀ b, dlistState.allocator.Live b → ¬ (b.vvptr ≤ 0x50000122 ∧ 0x50000122 ≤ b.stop)) ∧
      dlistState.allocator.has 0x50000122 = true ∧
      vvptr2vptr dlistState.allocator 0x50000122 = .ok 0 := by
  have entries : dlistState.allocator.vvmemStart.entries =
      [(0x50000000, 0), (0x50000124, 1), (0x50000128, 2), (0x5000012c, 3)] := by decide
  have first : dlistState.allocator.deref 0 = .ok ⟨0x7f0000001000, 288⟩ := rfl
  refine ⟨dlist_run, ?_, by decide, by decide⟩
  rintro ⟨vvptr, vptr, size, node⟩ ⟨mem, data⟩ ⟨lo, hi⟩
  rw [entries] at mem
  simp only [List.mem_cons, Prod.mk.injEq, List.not_mem_nil, or_false] at mem
  simp only [Block.stop] at lo hi
  obtain ⟨rfl, rfl⟩ | later := mem
  · have same : 288 = size := (AllocationData.mk.inj (Except.ok.inj (first.symm.trans data))).2
    omega
  · omega

end Irx.Memory
