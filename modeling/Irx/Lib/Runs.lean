import Mathlib

/-!
# Runs of a fallible system against an environment

A system starts, or fails to start, and then takes one step per input; a step may fail and end the
run. The environment may only offer inputs that the current state allows. `Outcome` collects what a
finite run can end in, and `Outcome.holds` is the induction over runs: an invariant that the start
establishes and each allowed step keeps holds in every reached state, and only tolerated failures
end a run.
-/

namespace Irx.Lib

/-- A fallible start, a fallible step and the inputs each state allows. -/
structure System (ε σ ι : Type*) where
  start : Except ε σ
  step : σ → ι → Except ε σ
  allowed : σ → ι → Prop

namespace System

variable {ε σ ι : Type*} {S : System ε σ ι} {P : σ → Prop} {E : ε → Prop}

/-- The system with only those steps that meet a condition. -/
def under (S : System ε σ ι) (C : σ → ι → Prop) : System ε σ ι :=
  { S with allowed := fun s i => S.allowed s i ∧ C s i }

/-- What a finite run ends in. -/
inductive Outcome (S : System ε σ ι) : Except ε σ → Prop where
  | start : Outcome S S.start
  | step {s i} : Outcome S (.ok s) → S.allowed s i → Outcome S (S.step s i)

/-- A run, and a step from where it has come to. -/
lemma Outcome.next {s s' : σ} {i : ι} (run : S.Outcome (.ok s)) (al : S.allowed s i)
    (ran : S.step s i = .ok s') : S.Outcome (.ok s') := by
  rw [← ran]
  exact run.step al

/-- The system from a state on. -/
def continued (S : System ε σ ι) (s : σ) : System ε σ ι :=
  { S with start := .ok s }

/-- A run, and then one from the state it has reached. -/
lemma Outcome.append {s : σ} {o : Except ε σ} (run : S.Outcome (.ok s)) (more : (S.continued s).Outcome o) :
    S.Outcome o := by
  induction more with
  | start => exact run
  | step _ al ih => exact ih.step al

/-- The result is a state with `P` or a failure with `E`. -/
def Holds (P : σ → Prop) (E : ε → Prop) : Except ε σ → Prop
  | .ok s => P s
  | .error e => E e

/-- Induction over runs. -/
lemma Outcome.holds {o : Except ε σ} (run : S.Outcome o) (init : Holds P E S.start)
    (keep : ∀ s i, P s → S.allowed s i → Holds P E (S.step s i)) : Holds P E o := by
  induction run with
  | start => exact init
  | step _ al ih => exact keep _ _ ih al

end System

end Irx.Lib
