import Mathlib

/-!
# Computations with fuel

A recursion without a measure takes its fuel as a number. `Settles` says that the computation gives one
and the same result with every fuel from some number on, so that the recursion itself terminates. Results
that settle compose.
-/

namespace Irx.Lib

variable {ε α β : Type} {f g : Nat → Except ε α} {a : α} {b : β}

/-- With enough fuel the computation returns the result. -/
def Settles (f : Nat → Except ε α) (a : α) : Prop := ∃ n, ∀ fuel ≥ n, f fuel = .ok a

namespace Settles

/-- A result is there with any fuel. -/
lemma ok (a : α) : Settles (fun _ => (.ok a : Except ε α)) a := ⟨0, fun _ _ => rfl⟩

/-- Two computations that settle do so one after the other. -/
lemma bind {k : Nat → α → Except ε β} (first : Settles f a) (second : Settles (k · a) b) :
    Settles (fun fuel => f fuel >>= k fuel) b := by
  obtain ⟨m, first⟩ := first
  obtain ⟨n, second⟩ := second
  refine ⟨max m n, fun fuel le => ?_⟩
  show f fuel >>= k fuel = .ok b
  rw [first fuel (le_trans (le_max_left m n) le)]
  exact second fuel (le_trans (le_max_right m n) le)

/-- A call that takes one unit of fuel. -/
lemma call (body : Settles f a) (e : ∀ fuel, g (fuel + 1) = f fuel) : Settles g a := by
  obtain ⟨n, body⟩ := body
  refine ⟨n + 1, fun fuel le => ?_⟩
  obtain ⟨k, rfl⟩ := Nat.exists_eq_add_of_le' le
  exact (e (k + n)).trans (body (k + n) (Nat.le_add_left n k))

end Settles

end Irx.Lib
