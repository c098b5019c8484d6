import Irx.Memory.Sessions

/-!
# End iterators in `find`

`find` compares `start->second` with `end->second` before it asks whether the two searches came to an
entry. Here the addresses are listed that a call passes to `find`, and whether one of the two iterators is
`end()` then. Everything up to the comparison is modelled; that the search counts as "not found" is
what the code after it intends. `finds_within_iff` says which calls never get there with an end iterator.
-/

namespace Irx.Memory
open Irx.Lib System

/-- A call that looks up addresses. -/
inductive Caller where
  | add (vmem size : Nat)
  | malloc (vmem size : Nat)
  | free (b : Block)
  | remove (b : Block)
  | vvptr2vptr (vvptr : Nat)

/-- The addresses of a request that `find` is asked for. -/
def MapAllocator.requestFinds (a : MapAllocator) (size : Nat) : List Nat :=
  match a.vma.next size with
  | .error _ => []
  | .ok (vvmem, _) => [vvmem, word (vvmem + size + 1)]

/-- The addresses that a call passes to `find`, which meets the same maps each time. -/
def MapAllocator.finds (a : MapAllocator) : Caller → List Nat
  | .add _ size => a.requestFinds size
  | .malloc _ size => a.requestFinds size
  | .free b => [b.vvptr, b.vvptr]
  | .remove b => [b.vvptr]
  | .vvptr2vptr vvptr => [vvptr]

/-- One of the two iterators that `find` dereferences is `end()`. -/
def MapAllocator.dereferencesEnd (a : MapAllocator) (vvptr : Nat) : Bool :=
  (findStart a.vvmemStart vvptr).isNone || (findEnd a.vvmemEnd vvptr).isNone

/-- Only live blocks are freed and removed. -/
def Session.AllowedCaller (s : Session) : Caller → Prop
  | .add _ size => size < 9223372036854775808
  | .malloc _ size => size < 9223372036854775808
  | .free b => b ∈ s.live
  | .remove b => b ∈ s.live
  | .vvptr2vptr _ => True

/-- The call is for a live block, or for an address from the lowest start to the highest end of live
blocks, or it is a request that exits for want of addresses. -/
def Session.Within (s : Session) : Caller → Prop
  | .add _ size => endAddr < s.allocator.vma.lastAllocAddr + stride size
  | .malloc _ size => endAddr < s.allocator.vma.lastAllocAddr + stride size
  | .free _ => True
  | .remove _ => True
  | .vvptr2vptr vvptr => (∃ b ∈ s.live, b.vvptr ≤ vvptr) ∧ ∃ b ∈ s.live, vvptr ≤ b.stop

namespace Session

variable {s : Session} {bs : List Block} {b : Block} {vvptr size : Nat}

/-- No end is dereferenced between a block before the address and one behind it. -/
lemma Sound.dereferencesEnd_eq_false_iff (sound : Sound s bs) :
    s.allocator.dereferencesEnd vvptr = false ↔
      (∃ b ∈ s.live, b.vvptr ≤ vvptr) ∧ ∃ b ∈ s.live, vvptr ≤ b.stop := by
  rw [MapAllocator.dereferencesEnd, Bool.or_eq_false_iff, Option.isNone_eq_false_iff,
    Option.isNone_eq_false_iff, Option.isSome_iff_ne_none, Option.isSome_iff_ne_none, ne_eq, ne_eq,
    sound.laid.findStart_eq_none_iff, sound.laid.findEnd_eq_none_iff]
  simp only [sound.live.mem_iff, not_forall, not_lt, exists_prop]

/-- The start of a live block is found. -/
lemma Sound.start_within (sound : Sound s bs) (live : b ∈ s.live) :
    s.allocator.dereferencesEnd b.vvptr = false :=
  sound.dereferencesEnd_eq_false_iff.2 ⟨⟨b, live, le_rfl⟩, b, live, Nat.le_add_right _ _⟩

/-- A request that gets an address asks for one above all ends. -/
lemma Tight.request_within_iff (tight : Tight s) (small : size < 9223372036854775808) :
    (∀ k ∈ s.allocator.requestFinds size, s.allocator.dereferencesEnd k = false) ↔
      endAddr < s.allocator.vma.lastAllocAddr + stride size := by
  obtain ⟨bs, sound⟩ := tight.sound
  rw [MapAllocator.requestFinds, next_eq sound.bump small]
  by_cases room : s.allocator.vma.lastAllocAddr + stride size ≤ endAddr
  · rw [if_pos room]
    refine iff_of_false (fun within => ?_) room.not_gt
    obtain ⟨_, b, live, above⟩ := sound.dereferencesEnd_eq_false_iff.1 (within _ (.head _))
    exact (tight.below b live).not_ge above
  · rw [if_neg room]
    exact iff_of_true (fun k none => absurd none List.not_mem_nil) (not_le.1 room)

end Session

/-- In every state that is reached without a reset to below a live block, and for every call: `find`
dereferences no end iterator exactly if the call is `free` or `remove` of a live block, a lookup of an
address from the lowest start to the highest end, or a request that exits before it searches. -/
theorem finds_within_iff {s : Session} (run : (sessions.under Session.Clear).Outcome (.ok s))
    {call : Caller} (allowed : s.AllowedCaller call) :
    (∀ k ∈ s.allocator.finds call, s.allocator.dereferencesEnd k = false) ↔ s.Within call := by
  have tight := run.holds (P := Session.Tight) (E := fun _ => True) .start ?_
  · obtain ⟨bs, sound⟩ := tight.sound
    cases call with
    | add _ size => exact tight.request_within_iff allowed
    | malloc _ size => exact tight.request_within_iff allowed
    | free b =>
      have within := sound.start_within allowed
      exact iff_of_true (List.forall_mem_cons.2 ⟨within, List.forall_mem_singleton.2 within⟩) trivial
    | remove b =>
      exact iff_of_true (List.forall_mem_singleton.2 (sound.start_within allowed)) trivial
    | vvptr2vptr vvptr => exact List.forall_mem_singleton.trans sound.dereferencesEnd_eq_false_iff
  · rintro s op tight ⟨allowed, clear⟩
    show Holds _ _ (s.step op)
    cases ran : s.step op with
    | error e => exact trivial
    | ok s' => exact (tight.step allowed clear ran).2

/-- The session after an object was added. -/
def oneObject : Session := sessionAfter [.add 0x7f0000001000 16]

/-- The state is reached. -/
lemma oneObject_run : (sessions.under Session.Clear).Outcome (.ok oneObject) :=
  Outcome.next .start (i := .add 0x7f0000001000 16)
    ⟨(by decide : 16 < 9223372036854775808), trivial⟩ rfl

/-- An address of the object is looked up without an end iterator, the next request meets one. -/
theorem finds_within_iff_object :
    oneObject.allocator.dereferencesEnd 0x50000008 = false ∧
      ¬ ∀ k ∈ oneObject.allocator.finds (.malloc 0x7f0000002000 4),
        oneObject.allocator.dereferencesEnd k = false := by
  have blocks : oneObject.live = [⟨0x50000000, 0x7f0000001000, 16, 0⟩] := rfl
  have small : 4 < 9223372036854775808 := by decide
  have inside := @finds_within_iff _ oneObject_run (.vvptr2vptr 0x50000008) trivial
  have request := @finds_within_iff _ oneObject_run (.malloc 0x7f0000002000 4) small
  refine ⟨inside.2 ?_ _ (.head _), fun within => ?_⟩
  · rw [Session.Within, blocks]
    decide
  · have full : endAddr < 0x50000014 + stride 4 := request.1 within
    revert full
    decide

/-- The first `add` searches empty maps. -/
theorem first_add_dereferences_end :
    (sessions.under Session.Clear).Outcome (.ok {}) ∧
      ({} : MapAllocator).finds (.add 0x7f0000001000 16) = [0x50000000, 0x50000011] ∧
      ({} : MapAllocator).dereferencesEnd 0x50000000 = true :=
  ⟨.start, rfl, rfl⟩

end Irx.Memory
