import Mathlib

/-!
# Calls that answer like a partial function

A call threads a state and may fail with one of many errors; a partial function says what it is for. The
call answers the function if it returns where the function has a value, with a result that stands for it,
and fails where there is none. Answers compose like the calls do.
-/

namespace Irx.Lib

variable {ε : Type*} {α β γ δ : Type}

/-- The call returns what stands for the value, and fails if there is none. -/
inductive Answers (Q : α → β → Prop) : Except ε α → Option β → Prop where
  | returns {a b} : Q a b → Answers Q (.ok a) (some b)
  | fails e : Answers Q (.error e) none

/-- What has an answer has returned it. -/
lemma toOption_eq_some {x : Except ε α} {a : α} : x.toOption = some a ↔ x = .ok a := by
  cases x with
  | error => exact iff_of_false (fun e => by cases e) fun e => by cases e
  | ok => simp [Except.toOption]

namespace Answers

variable {Q : α → β → Prop} {R : γ → δ → Prop} {x : Except ε α} {r : Option β}

/-- What answers one question answers a weaker one. -/
lemma mono {Q' : α → β → Prop} (answers : Answers Q x r) (weaker : ∀ a b, Q a b → Q' a b) :
    Answers Q' x r := by
  cases answers with
  | returns here => exact .returns (weaker _ _ here)
  | fails e => exact .fails e

/-- What is returned stands for the value that there is. -/
lemma known (answers : Answers Q x r) : Answers (fun a b => r = some b ∧ Q a b) x r := by
  cases answers with
  | returns here => exact .returns ⟨rfl, here⟩
  | fails e => exact .fails e

/-- One call after the other. -/
lemma bind {f : α → Except ε γ} {g : β → Option δ} (first : Answers Q x r)
    (second : ∀ a b, Q a b → Answers R (f a) (g b)) : Answers R (x >>= f) (r >>= g) := by
  cases first with
  | returns here => exact second _ _ here
  | fails e => exact .fails e

/-- A call whose result is changed, and the value that it stands for. -/
lemma map {f : α → γ} {g : β → δ} (first : Answers Q x r) (second : ∀ a b, Q a b → R (f a) (g b)) :
    Answers R (x >>= fun a => .ok (f a)) (r.map g) := by
  cases first with
  | returns here => exact .returns (second _ _ here)
  | fails e => exact .fails e

/-- A call stands for another value too. -/
lemma map_value {g : β → δ} {R : α → δ → Prop} (first : Answers Q x r)
    (second : ∀ a b, Q a b → R a (g b)) : Answers R x (r.map g) := by
  cases first with
  | returns here => exact .returns (second _ _ here)
  | fails e => exact .fails e

/-- An answer was returned. -/
lemma of_some {b : β} (answers : Answers Q x (some b)) : ∃ a, x = .ok a ∧ Q a b := by
  cases answers with
  | returns here => exact ⟨_, rfl, here⟩

/-- Without an answer the computation has failed. -/
lemma of_none (answers : Answers Q x none) : ∃ e, x = .error e := by
  cases answers with
  | fails e => exact ⟨e, rfl⟩

/-- What a call returned stands for a value. -/
lemma of_ok {a : α} (answers : Answers Q (.ok a : Except ε α) r) : ∃ b, r = some b ∧ Q a b := by
  cases answers with
  | returns here => exact ⟨_, rfl, here⟩

end Answers

end Irx.Lib
