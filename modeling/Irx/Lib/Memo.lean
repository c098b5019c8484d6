import Mathlib.Logic.Function.Basic
import Mathlib.Tactic.Common

/-!
# Memo tables in a changing world

A table keeps the first answer to each question, while events change the world that the answers are about.
Events that ask look into the table first. All answers are fresh exactly if no question is asked twice with
a change of its answer in between (`Memo.fresh_iff`).
-/

namespace Irx.Lib

/-- A world and the answers kept. -/
structure Memo (W Q A : Type*) where
  world : W
  table : Q → Option A

namespace Memo

variable {W Q A E : Type*} [DecidableEq Q]

section Model

variable (fresh : W → Q → A) (change : W → E → W) (asks : E → Option Q)

/-- The answer to a question: the one kept, or else a fresh one. -/
def answer (m : Memo W Q A) (q : Q) : A := (m.table q).getD (fresh m.world q)

/-- An event changes the world, and if it asks, the answer is kept. -/
def next (m : Memo W Q A) (e : E) : Memo W Q A where
  world := change m.world e
  table := match asks e with
    | none => m.table
    | some q => Function.update m.table q (some (m.answer fresh q))

/-- The memo after some events. -/
def run (m : Memo W Q A) (es : List E) : Memo W Q A := es.foldl (next fresh change asks) m

/-- No answer is kept at the beginning. -/
def start (w : W) : Memo W Q A := ⟨w, fun _ => none⟩

end Model

variable {fresh : W → Q → A} {change : W → E → W} {asks : E → Option Q} {m : Memo W Q A}
variable {e : E} {es : List E} {q q' : Q} {a : A}

/-- The first event comes first. -/
lemma run_cons : run fresh change asks m (e :: es) = run fresh change asks (next fresh change asks m e) es :=
  rfl

/-- Later events come later. -/
lemma run_append {es' : List E} : run fresh change asks m (es ++ es') =
    run fresh change asks (run fresh change asks m es) es' := List.foldl_append

/-- The world does not depend on the table. -/
lemma run_world : (run fresh change asks m es).world = es.foldl change m.world := by
  induction es generalizing m with
  | nil => rfl
  | cons e es ih => exact ih

/-- An answer that was asked for is kept. -/
lemma next_asked (asked : asks e = some q) :
    (next fresh change asks m e).table = Function.update m.table q (some (m.answer fresh q)) := by
  simp only [next, asked]

/-- Without a question nothing is kept. -/
lemma next_silent (silent : asks e = none) : (next fresh change asks m e).table = m.table := by
  simp only [next, silent]

/-- An answer is kept for good. -/
lemma next_kept (kept : m.table q = some a) : (next fresh change asks m e).table q = some a := by
  cases asked : asks e with
  | none => rw [next_silent asked, kept]
  | some q' =>
    rw [next_asked asked]
    by_cases same : q = q'
    · subst same
      rw [Function.update_self, answer, kept]
      rfl
    · rw [Function.update_of_ne same, kept]

/-- What was kept stays. -/
lemma run_kept (kept : m.table q = some a) : (run fresh change asks m es).table q = some a := by
  induction es generalizing m with
  | nil => exact kept
  | cons e es ih => exact ih (next_kept kept)

/-- A new answer has been fresh when it was asked for. -/
lemma next_known (known : (next fresh change asks m e).table q = some a) :
    m.table q = some a ∨ (asks e = some q ∧ a = fresh m.world q) := by
  cases asked : asks e with
  | none =>
    rw [next_silent asked] at known
    exact .inl known
  | some q' =>
    rw [next_asked asked] at known
    by_cases same : q = q'
    · subst same
      rw [Function.update_self, answer] at known
      cases kept : m.table q with
      | none =>
        rw [kept] at known
        exact .inr ⟨rfl, (Option.some.inj known).symm⟩
      | some a' =>
        rw [kept] at known
        exact .inl known
    · rw [Function.update_of_ne same] at known
      exact .inl known

/-- What is kept was kept before, or asked for on the way. -/
lemma run_known (known : (run fresh change asks m es).table q = some a) : m.table q = some a ∨
    ∃ before e after, es = before ++ e :: after ∧ asks e = some q ∧
      a = fresh (run fresh change asks m before).world q := by
  induction es generalizing m with
  | nil => exact .inl known
  | cons e es ih =>
    obtain kept | ⟨before, e', after, rfl, asked, same⟩ := ih known
    · obtain kept | ⟨asked, same⟩ := next_known kept
      · exact .inl kept
      · exact .inr ⟨[], e, es, rfl, asked, same⟩
    · exact .inr ⟨e :: before, e', after, rfl, asked, same⟩

/-- All answers are fresh exactly if no question is asked again after its answer has changed. -/
theorem fresh_iff {w : W} : (∀ before e after q, es = before ++ e :: after → asks e = some q →
      (run fresh change asks (start w) before).answer fresh q = fresh (before.foldl change w) q) ↔
    ∀ before e middle e' after q, es = before ++ e :: (middle ++ e' :: after) → asks e = some q →
      asks e' = some q → fresh (before.foldl change w) q =
        fresh ((before ++ e :: middle).foldl change w) q := by
  constructor
  · intro faithful before e middle e' after q split asked asked'
    have first := faithful before e _ q split asked
    have kept : (run fresh change asks (start w) (before ++ e :: middle)).table q =
        some (fresh (before.foldl change w) q) := by
      rw [run_append, run_cons]
      refine run_kept ?_
      rw [next_asked asked, Function.update_self, first]
    have second := faithful (before ++ e :: middle) e' after q (by rw [split, List.append_assoc]; rfl) asked'
    rw [answer, kept] at second
    exact second
  · intro settled before e after q split asked
    rw [answer, run_world]
    cases known : (run fresh change asks (start w) before).table q with
    | none => rfl
    | some a =>
      obtain never | ⟨first, e', middle, rfl, asked', rfl⟩ := run_known known
      · cases never
      · rw [run_world]
        exact settled first e' middle e after q (by rw [split, List.append_assoc]; rfl) asked' asked

end Memo

end Irx.Lib
