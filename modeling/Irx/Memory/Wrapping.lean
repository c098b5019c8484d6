import Irx.Memory.Ranges

/-!
# Sizes that wrap the address generator

The one check of `next` looks at the new bump address, after two sums modulo `2 ^ 64`: the size with the
alignment, and the bump address with that. `handouts` are the ranges that a sequence of calls hands out
before it exits. They lie inside the generator's range and apart from each other exactly when none of the
calls wraps a sum (`NoWrap`): a call that wraps never exits, and its range ends beyond every address.
-/

namespace Irx.Memory

namespace LinearVirtualMemoryAddressGenerator

/-- The addresses that a sequence of calls of `next` returns, each with the size asked for. A call that
exits ends the sequence. -/
def handouts (g : LinearVirtualMemoryAddressGenerator) : List Nat → List (Nat × Nat)
  | [] => []
  | size :: sizes =>
    match g.next size with
    | .error _ => []
    | .ok (vvmem, g) => (vvmem, size) :: g.handouts sizes

end LinearVirtualMemoryAddressGenerator

open LinearVirtualMemoryAddressGenerator

/-- Closed ranges `[v, v + size]` inside the generator's range, so without wrapping, and apart from each
other. -/
structure HandedOut (l : List (Nat × Nat)) : Prop where
  inside : ∀ r ∈ l, startAddr ≤ r.1 ∧ r.1 + r.2 ≤ endAddr
  apart : l.Pairwise fun r r' => Disjoint (Set.Icc r.1 (r.1 + r.2)) (Set.Icc r'.1 (r'.1 + r'.2))

/-- The sums of each request of a sequence stay below `2 ^ 64`, when the bump address moves by strides up
to the first request that it has no room for. -/
def NoWrap (bump : Nat) : List Nat → Prop
  | [] => True
  | size :: sizes =>
    bump + size + 4 < 18446744073709551616 ∧
      (bump + stride size ≤ endAddr → NoWrap (bump + stride size) sizes)

/-- The bump address is aligned and inside the range. -/
structure Settled (g : LinearVirtualMemoryAddressGenerator) : Prop where
  aligned : 4 ∣ g.lastAllocAddr
  start_le : startAddr ≤ g.lastAllocAddr
  le_end : g.lastAllocAddr ≤ endAddr

/-- A new generator is settled. -/
lemma settled_start : Settled {} := ⟨by decide, le_rfl, by decide⟩

variable {g : LinearVirtualMemoryAddressGenerator} {size : Nat}

/-- A request for which there is room keeps it settled. -/
lemma Settled.moved (st : Settled g) (room : g.lastAllocAddr + stride size ≤ endAddr) :
    Settled { g with lastAllocAddr := g.lastAllocAddr + stride size } where
  aligned := Nat.dvd_add st.aligned (Nat.dvd_mul_left 4 _)
  start_le := Nat.le_add_right_of_le st.start_le
  le_end := room

/-- A call that wraps returns the bump address: either the size with the alignment comes to 0, or the new
bump address is below the old one. -/
lemma Settled.next_wraps (st : Settled g) (lt : size < 18446744073709551616)
    (wraps : 18446744073709551616 ≤ g.lastAllocAddr + size + 4) :
    ∃ g', g.next size = .ok (g.lastAllocAddr, g') := by
  have aligned := st.aligned
  have le := st.le_end
  have below : word (g.lastAllocAddr + (word (size + 4) &&& alignMask)) ≤ g.lastAllocAddr := by
    rw [and_alignMask (word_lt _), word, word]
    rcases Nat.lt_or_ge (size + 4) 18446744073709551616 with small | large
    · rw [Nat.mod_eq_of_lt small]
      omega
    · have : (size + 4) % 18446744073709551616 < 4 := by omega
      rw [Nat.div_eq_of_lt this]
      omega
  have no_exit : ¬ word (g.lastAllocAddr + (word (size + 4) &&& alignMask)) > endAddr := by omega
  rw [LinearVirtualMemoryAddressGenerator.next, if_neg no_exit]
  exact ⟨_, rfl⟩

/-- Without a wrap the ranges follow one another from the bump address to the end of the generator's
range. -/
lemma Settled.handouts_of_noWrap (sizes : List Nat) (st : Settled g)
    (no : NoWrap g.lastAllocAddr sizes) :
    (∀ r ∈ g.handouts sizes, g.lastAllocAddr ≤ r.1 ∧ r.1 + r.2 ≤ endAddr) ∧
      (g.handouts sizes).Pairwise fun r r' => r.1 + r.2 < r'.1 := by
  induction sizes generalizing g with
  | nil => exact ⟨nofun, .nil⟩
  | cons size sizes ih =>
    have lt := lt_stride size
    have le := st.le_end
    rw [handouts, next_of_lt no.1]
    by_cases room : g.lastAllocAddr + stride size ≤ endAddr
    · rw [if_pos room]
      obtain ⟨inside, apart⟩ := ih (st.moved room) (no.2 room)
      constructor
      · intro r hr
        cases hr with
        | head => exact ⟨le_rfl, (Nat.add_le_add_left lt.le _).trans room⟩
        | tail _ hr => exact ⟨(Nat.le_add_right _ _).trans (inside r hr).1, (inside r hr).2⟩
      · apply List.Pairwise.cons _ apart
        intro r hr
        exact (Nat.add_lt_add_left lt _).trans_le (inside r hr).1
    · rw [if_neg room]
      exact ⟨nofun, .nil⟩

/-- Where the ranges lie inside, no call has wrapped: its range would end beyond every address. -/
lemma Settled.noWrap_of_inside (sizes : List Nat) (words : ∀ s ∈ sizes, s < 18446744073709551616)
    (st : Settled g) (inside : ∀ r ∈ g.handouts sizes, r.1 + r.2 ≤ endAddr) :
    NoWrap g.lastAllocAddr sizes := by
  induction sizes generalizing g with
  | nil => trivial
  | cons size sizes ih =>
    have bound : endAddr = 0x58000000 := by decide
    have small : g.lastAllocAddr + size + 4 < 18446744073709551616 := by
      apply Nat.lt_of_not_le
      intro wraps
      obtain ⟨g', e⟩ := st.next_wraps (words size (.head _)) wraps
      rw [handouts, e] at inside
      have := inside _ (.head _)
      omega
    refine ⟨small, fun room => ?_⟩
    rw [handouts, next_of_lt small, if_pos room] at inside
    exact ih (fun s hs => words s (.tail _ hs)) (st.moved room) fun r hr => inside r (.tail _ hr)

/-- The ranges handed out by a new generator lie inside its range and apart from each other if and only if
no call of the sequence wraps. -/
theorem handouts_handedOut_iff_noWrap (sizes : List Nat)
    (words : ∀ s ∈ sizes, s < 18446744073709551616) :
    HandedOut (({} : LinearVirtualMemoryAddressGenerator).handouts sizes) ↔
      NoWrap startAddr sizes := by
  constructor
  · intro handed
    exact settled_start.noWrap_of_inside sizes words fun r hr => (handed.inside r hr).2
  · intro no
    obtain ⟨inside, apart⟩ := settled_start.handouts_of_noWrap sizes no
    refine ⟨inside, apart.imp fun lt => ?_⟩
    rw [Set.disjoint_left]
    intro a ha ha'
    exact lt.not_ge (ha'.1.trans ha.2)

/-- Two requests for no bytes, and one for the rest. -/
theorem handouts_handedOut_zero_sizes :
    HandedOut (({} : LinearVirtualMemoryAddressGenerator).handouts [0, 0, 134217728]) :=
  (handouts_handedOut_iff_noWrap [0, 0, 134217728] (by decide)).2
    ⟨by decide, fun _ => ⟨by decide, fun _ => ⟨by decide, fun _ => trivial⟩⟩⟩

/-- A size just below `2 ^ 64` leaves the bump address where it is, so that the next call hands out the
same address. -/
theorem handouts_wrapped_size :
    ({} : LinearVirtualMemoryAddressGenerator).handouts [18446744073709551612, 8] =
        [(startAddr, 18446744073709551612), (startAddr, 8)] ∧
      ¬ ∀ sizes : List Nat, (∀ s ∈ sizes, s < 18446744073709551616) →
        HandedOut (({} : LinearVirtualMemoryAddressGenerator).handouts sizes) := by
  have run : ({} : LinearVirtualMemoryAddressGenerator).handouts [18446744073709551612, 8] =
      [(startAddr, 18446744073709551612), (startAddr, 8)] := by decide
  refine ⟨run, fun all => ?_⟩
  have handed := all [18446744073709551612, 8] (by decide)
  rw [run] at handed
  have apart := List.rel_of_pairwise_cons handed.apart (.head _)
  exact Set.disjoint_left.1 apart ⟨le_rfl, Nat.le_add_right _ _⟩ ⟨le_rfl, Nat.le_add_right _ _⟩

end Irx.Memory
