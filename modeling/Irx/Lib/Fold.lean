import Mathlib

/-!
# Folds over lists of updates

A fallible fold keeps what its step keeps, and is a plain fold where each of its steps is one. A fold
that rewrites a table one position at a time, each
time by the same function of the old entry, leaves at a position the function applied as often as
the list names that position.
-/

namespace Irx.Lib

/-- What every successful step keeps, a successful fold keeps. -/
lemma foldlM_keeps {ε : Type*} {σ α : Type} {step : σ → α → Except ε σ} {P : σ → Prop}
    {l : List α} (keeps : ∀ s, ∀ a ∈ l, ∀ s', P s → step s a = .ok s' → P s') {s s' : σ} (init : P s)
    (ran : l.foldlM step s = .ok s') : P s' := by
  induction l generalizing s with
  | nil =>
    cases ran
    exact init
  | cons a l ih =>
    rw [List.foldlM_cons] at ran
    cases first : step s a with
    | error e =>
      rw [first] at ran
      cases ran
    | ok s1 =>
      rw [first] at ran
      exact ih (fun s a mem => keeps s a (.tail _ mem)) (keeps s a (.head _) s1 init first) ran

/-- What a step does, another step does on what it sees of the state; so does a fold. -/
lemma foldlM_sees {ε : Type*} {σ τ α : Type} {step : σ → α → Except ε σ} {step' : τ → α → Except ε τ}
    (sees : σ → τ) {l : List α} {s s' : σ}
    (each : ∀ s, ∀ a ∈ l, ∀ s', step s a = .ok s' → step' (sees s) a = .ok (sees s'))
    (ran : l.foldlM step s = .ok s') : l.foldlM step' (sees s) = .ok (sees s') := by
  induction l generalizing s with
  | nil =>
    cases ran
    rfl
  | cons a l ih =>
    rw [List.foldlM_cons] at ran
    cases first : step s a with
    | error e =>
      rw [first] at ran
      cases ran
    | ok s1 =>
      rw [first] at ran
      rw [List.foldlM_cons, each s a (.head _) s1 first]
      exact ih (fun s a mem => each s a (.tail _ mem)) ran

/-- Where, under an invariant of the small steps, every step succeeds and folds a list of small
steps, the whole fold does. -/
lemma foldlM_eq_foldl_flatMap {ε : Type*} {σ α β : Type} {step : σ → α → Except ε σ}
    {small : σ → β → σ} {parts : α → List β} {P : σ → Prop} (keeps : ∀ s b, P s → P (small s b))
    {l : List α} {s : σ} (each : ∀ a ∈ l, ∀ s, P s → step s a = .ok ((parts a).foldl small s))
    (init : P s) : l.foldlM step s = .ok ((l.flatMap parts).foldl small s) := by
  induction l generalizing s with
  | nil => rfl
  | cons a l ih =>
    have after : ∀ (parts : List β) (s : σ), P s → P (parts.foldl small s) := by
      intro parts
      induction parts with
      | nil => exact fun _ init => init
      | cons b _ ih' => exact fun s init => ih' _ (keeps s b init)
    rw [List.foldlM_cons, each a (.head _) s init, List.flatMap_cons, List.foldl_append]
    exact ih (fun a mem => each a (.tail _ mem)) (after _ s init)

section Update

variable {ι β : Type*} [DecidableEq ι] [BEq ι] [LawfulBEq ι] {f : β → β} {t : ι → β} {l : List ι} {i : ι}

/-- A fold of updates applies the function once per occurrence of the position. -/
lemma foldl_update_apply :
    l.foldl (fun t j => Function.update t j (f (t j))) t i = f^[l.count i] (t i) := by
  induction l generalizing t with
  | nil => rfl
  | cons j l ih =>
    rw [List.foldl_cons, ih]
    by_cases h : j = i
    · subst h
      rw [Function.update_self, List.count_cons_self, Function.iterate_succ_apply]
    · rw [Function.update_of_ne (Ne.symm h), List.count_cons_of_ne h]

end Update

end Irx.Lib
