import Mathlib

/-!
# Interrupted loops

`loop` runs a body while a condition holds; the body may fail, and it may ask to leave the loop
early. `session` is the client of such a loop: after an early exit it runs a handler and enters the
loop again, until the condition fails. `inlined` is the body that runs the handler on the spot and
never leaves. `session_eq_loop` says that the session and the loop over the inlined body are one and
the same run: they pass through the same states and end alike, after any number of steps.
-/

namespace Irx.Lib

universe u v

/-- How far a run has come: still running after the given number of steps, left early with steps to
spare, finished because the condition fails, or failed. -/
inductive Ending (ε : Type u) (σ : Type v) where
  | running (s : σ)
  | left (spare : Nat) (s : σ)
  | finished (s : σ)
  | failed (e : ε)

/-- A run: the states from which a step was taken, oldest first, and the ending. -/
structure Journey (ε : Type u) (σ : Type v) where
  path : List σ
  ending : Ending ε σ

variable {ε : Type u} {σ : Type v}

/-- A run continued by another one. -/
def Journey.after (path : List σ) (j : Journey ε σ) : Journey ε σ := ⟨path ++ j.path, j.ending⟩

/-- At most `n` steps of a body while the condition holds; `true` from the body leaves the loop. -/
def loop (live : σ → Bool) (body : σ → Except ε (Bool × σ)) : Nat → σ → Journey ε σ
  | 0, s => ⟨[], .running s⟩
  | n + 1, s =>
    if live s then
      match body s with
      | .error e => ⟨[s], .failed e⟩
      | .ok (true, s') => ⟨[s], .left n s'⟩
      | .ok (false, s') => (loop live body n s').after [s]
    else ⟨[], .finished s⟩

/-- The loop entered again after every early exit until the condition fails, with the handler run in
between; at most `k` entries and `n` steps. -/
def session (live : σ → Bool) (body : σ → Except ε (Bool × σ)) (handler : σ → Except ε σ) :
    Nat → Nat → σ → Journey ε σ
  | 0, _, s => ⟨[], .running s⟩
  | k + 1, n, s =>
    match loop live body n s with
    | ⟨path, .left m s'⟩ =>
      if live s' then
        match handler s' with
        | .error e => ⟨path, .failed e⟩
        | .ok s'' => (session live body handler k m s'').after path
      else ⟨path, .finished s'⟩
    | j => j

attribute [grind =] loop session

/-- The body that handles an early exit on the spot and goes on. -/
def inlined (body : σ → Except ε (Bool × σ)) (handler : σ → Except ε σ) (s : σ) :
    Except ε (Bool × σ) := do
  let (exit, s) ← body s
  if exit then do
    let s ← handler s
    .ok (false, s)
  else .ok (false, s)

/-- The state in which a run that did not fail ends. -/
def Ending.state? : Ending ε σ → Option σ
  | .running s => some s
  | .left _ s => some s
  | .finished s => some s
  | .failed _ => none

/-- All states that a run comes through. -/
def Journey.states (j : Journey ε σ) : List σ := j.path ++ j.ending.state?.toList

variable {live : σ → Bool} {body body' : σ → Except ε (Bool × σ)} {handler : σ → Except ε σ}
variable {n m k : Nat} {s s' : σ} {e : ε}

/-- A loop that must not go on has finished. -/
lemma loop_finished (dead : live s = false) : loop live body (n + 1) s = ⟨[], .finished s⟩ := by
  rw [loop, dead]
  rfl

/-- A loop fails where its body does. -/
lemma loop_failed (alive : live s = true) (b : body s = .error e) :
    loop live body (n + 1) s = ⟨[s], .failed e⟩ := by
  rw [loop, alive, b]
  rfl

/-- A loop is left where its body says so. -/
lemma loop_left (alive : live s = true) (b : body s = .ok (true, s')) :
    loop live body (n + 1) s = ⟨[s], .left n s'⟩ := by
  rw [loop, alive, b]
  rfl

/-- A loop goes on behind its body. -/
lemma loop_next (alive : live s = true) (b : body s = .ok (false, s')) :
    loop live body (n + 1) s = (loop live body n s').after [s] := by
  rw [loop, alive, b]
  rfl

/-- What every step keeps that is taken under a condition holds in all states of a run whose steps meet
the condition. -/
lemma loop_keeps {P C : σ → Prop} (keeps : ∀ s r s', P s → C s → body s = .ok (r, s') → P s')
    (init : P s) (met : ∀ t ∈ (loop live body n s).path, C t) :
    ∀ t ∈ (loop live body n s).states, P t := by
  have single : ∀ t ∈ [s], P t := List.forall_mem_singleton.2 init
  induction n generalizing s with
  | zero => exact single
  | succ n ih =>
    cases alive : live s with
    | false =>
      rw [loop_finished alive]
      exact single
    | true =>
      cases b : body s with
      | error e =>
        rw [loop_failed alive b]
        exact single
      | ok result =>
        obtain ⟨exit, s'⟩ := result
        cases exit with
        | true =>
          rw [loop_left alive b] at met ⊢
          have after := keeps s true s' init (met s (.head _)) b
          exact List.forall_mem_cons.2 ⟨init, List.forall_mem_singleton.2 after⟩
        | false =>
          rw [loop_next alive b] at met ⊢
          have after := keeps s false s' init (met s (.head _)) b
          have rest := ih after (fun t mem => met t (.tail _ mem)) (List.forall_mem_singleton.2 after)
          exact List.forall_mem_cons.2 ⟨init, rest⟩

/-- A session that may enter the loop again continues a longer run as it continues its rest. -/
lemma session_next (alive : live s = true) (b : body s = .ok (false, s')) :
    session live body handler (k + 1) (n + 1) s =
      (session live body handler (k + 1) n s').after [s] := by
  rw [session, session, loop_next alive b]
  obtain ⟨path, ending⟩ := loop live body n s'
  cases ending with
  | left m s1 =>
    cases alive1 : live s1 with
    | false => simp [Journey.after, alive1]
    | true =>
      cases h : handler s1 with
      | error e => simp [Journey.after, alive1, h]
      | ok s2 => simp [Journey.after, alive1, h]
  | running => rfl
  | finished => rfl
  | failed => rfl

/-- Where an early exit leaves the condition true, a session that has as many entries as steps is the
loop over the inlined body. -/
theorem session_eq_loop (keeps : ∀ s s', body s = .ok (true, s') → live s' = true)
    (enough : n ≤ k) :
    session live body handler k n s = loop live (inlined body handler) n s := by
  induction n generalizing k s with
  | zero =>
    cases k with
    | zero => rfl
    | succ k => rfl
  | succ n ih =>
    obtain ⟨k, rfl⟩ : ∃ j, k = j + 1 := ⟨k - 1, by omega⟩
    cases alive : live s with
    | false => rw [session, loop_finished alive, loop_finished alive]
    | true =>
      cases b : body s with
      | error e =>
        have b' : inlined body handler s = .error e := by
          rw [inlined, b]
          rfl
        rw [session, loop_failed alive b, loop_failed alive b']
      | ok r =>
        obtain ⟨exit, s1⟩ := r
        cases exit with
        | false =>
          have b' : inlined body handler s = .ok (false, s1) := by
            rw [inlined, b]
            rfl
          rw [session_next alive b, loop_next alive b', ih (by omega)]
        | true =>
          -- the handler answers the early exit and the session enters the loop again
          rw [session, loop_left alive b]
          cases h : handler s1 with
          | error e =>
            have b' : inlined body handler s = .error e := by
              rw [inlined, b]
              show (do
                let s ← handler s1
                Except.ok (false, s)) = _
              rw [h]
              rfl
            rw [loop_failed alive b']
            simp [keeps s s1 b, h]
          | ok s2 =>
            have b' : inlined body handler s = .ok (false, s2) := by
              rw [inlined, b]
              show (do
                let s ← handler s1
                Except.ok (false, s)) = _
              rw [h]
              rfl
            rw [loop_next alive b', ← ih (k := k) (by omega)]
            simp [keeps s s1 b, h]

end Irx.Lib
