import Mathlib

/-!
# Anchored patterns

Regular expressions without alternatives, matched from the first character on. A repetition takes as many
characters as it can and gives them back one by one when the rest of the pattern does not match, as the
backtracking matchers do. What was matched is given by its length and its capture groups.
-/

namespace Irx.Lib

/-- Classes of characters, their repetitions, sequences and capture groups. -/
inductive Pattern (α : Type*) where
  | empty
  | cls (p : α → Bool)
  | star (p : α → Bool)
  | seq (a b : Pattern α)
  | group (a : Pattern α)

/-- A match: its length and the texts of its groups, in the order of their ends. -/
structure Match (α : Type*) where
  length : Nat
  groups : List (List α)
  deriving DecidableEq, Repr

/-- The greedy repetition of a class before a continuation. -/
def repeated {α β : Type*} (p : α → Bool) (k : List α → Option β) : List α → Option β
  | [] => k []
  | c :: cs => if p c then (repeated p k cs).or (k (c :: cs)) else k (c :: cs)

namespace Pattern

variable {α β : Type*}

/-- The match of a pattern before a continuation, which gets the groups closed so far and the rest. -/
def run : Pattern α → (List (List α) → List α → Option β) → List (List α) → List α → Option β
  | .empty, k, gs, s => k gs s
  | .cls _, _, _, [] => none
  | .cls p, k, gs, c :: cs => if p c then k gs cs else none
  | .star p, k, gs, s => repeated p (k gs) s
  | .seq a b, k, gs, s => a.run (b.run k) gs s
  | .group a, k, gs, s =>
    a.run (fun gs rest => k (gs ++ [s.take (s.length - rest.length)]) rest) gs s

attribute [grind =] repeated run

/-- The match at the start of a text. -/
def search (r : Pattern α) (s : List α) : Option (Match α) :=
  r.run (fun gs rest => some ⟨s.length - rest.length, gs⟩) [] s

/-- One or more characters of a class. -/
def plus (p : α → Bool) : Pattern α := .seq (.cls p) (.star p)

/-- One pattern after the other. -/
def sequence (rs : List (Pattern α)) : Pattern α := rs.foldr .seq .empty

/-- The text itself. -/
def literal [BEq α] (text : List α) : Pattern α := sequence (text.map fun c => .cls (· == c))

/-- The least number of characters that a match has. -/
def width : Pattern α → Nat
  | .empty => 0
  | .cls _ => 1
  | .star _ => 0
  | .seq a b => a.width + b.width
  | .group a => a.width

/-- A repetition leaves an end of the text. -/
lemma repeated_consumes {p : α → Bool} {k : List α → Option β} {s : List α} {x : β}
    (h : repeated p k s = some x) : ∃ rest, k rest = some x ∧ rest <:+ s := by
  induction s with
  | nil => exact ⟨[], h, List.suffix_refl _⟩
  | cons c cs ih =>
    rw [repeated] at h
    cases pc : p c with
    | false =>
      rw [pc] at h
      exact ⟨c :: cs, h, List.suffix_refl _⟩
    | true =>
      rw [pc, if_pos rfl, Option.or_eq_some_iff] at h
      rcases h with longer | ⟨_, here⟩
      · obtain ⟨rest, e, suffix⟩ := ih longer
        exact ⟨rest, e, suffix.trans (List.suffix_cons c cs)⟩
      · exact ⟨c :: cs, here, List.suffix_refl _⟩

/-- A match leaves an end of the text to its continuation, and takes the width of the pattern. -/
lemma run_consumes (r : Pattern α) {k : List (List α) → List α → Option β} {gs : List (List α)}
    {s : List α} {x : β} (h : r.run k gs s = some x) :
    ∃ gs' rest, k gs' rest = some x ∧ rest <:+ s ∧ rest.length + r.width ≤ s.length := by
  induction r generalizing k gs s with
  | empty => exact ⟨gs, s, h, List.suffix_refl _, le_rfl⟩
  | cls p =>
    cases s with
    | nil => exact nomatch h
    | cons c cs =>
      rw [run] at h
      cases pc : p c with
      | false =>
        rw [pc] at h
        exact nomatch h
      | true =>
        rw [pc, if_pos rfl] at h
        exact ⟨gs, cs, h, List.suffix_cons c cs, le_rfl⟩
  | star p =>
    obtain ⟨rest, e, suffix⟩ := repeated_consumes h
    exact ⟨gs, rest, e, suffix, suffix.length_le⟩
  | seq a b iha ihb =>
    obtain ⟨gs₁, mid, h₁, suffix₁, le₁⟩ := iha h
    obtain ⟨gs₂, rest, h₂, suffix₂, le₂⟩ := ihb h₁
    refine ⟨gs₂, rest, h₂, suffix₂.trans suffix₁, ?_⟩
    rw [width]
    omega
  | group a ih =>
    obtain ⟨gs', rest, e, suffix, le⟩ := ih h
    exact ⟨_, rest, e, suffix, le⟩

/-- A match lies inside the text and is not shorter than the pattern is wide. -/
lemma search_length {r : Pattern α} {s : List α} {m : Match α} (h : r.search s = some m) :
    r.width ≤ m.length ∧ m.length ≤ s.length := by
  obtain ⟨gs, rest, e, _, le⟩ := r.run_consumes h
  cases e
  constructor
  · show r.width ≤ s.length - rest.length
    omega
  · exact Nat.sub_le _ _

/-! ### Greedy matches -/

section Greedy

variable {p : α → Bool} {k : List (List α) → List α → Option β} {gs : List (List α)} {xs s rest : List α}
  {x : β} {r : Pattern α} {c : α}

/-- A repetition takes all that it can if the rest then matches. -/
lemma repeated_some {k : List α → Option β} (all : ∀ c ∈ xs, p c = true)
    (stop : ∀ c ∈ rest.head?, p c = false) (found : k rest = some x) :
    repeated p k (xs ++ rest) = some x := by
  induction xs with
  | nil =>
    rw [List.nil_append]
    cases rest with
    | nil => exact found
    | cons c rest => rw [repeated, stop c rfl, if_neg Bool.false_ne_true, found]
  | cons c xs ih =>
    rw [List.cons_append, repeated, if_pos (all c (.head _)), ih fun c mem => all c (.tail _ mem)]
    rfl

/-- The pattern of a word takes the whole word. -/
lemma run_plus_some (ne : xs ≠ []) (all : ∀ c ∈ xs, p c = true) (stop : ∀ c ∈ rest.head?, p c = false)
    (found : k gs rest = some x) : (plus p).run k gs (xs ++ rest) = some x := by
  obtain ⟨c, xs, rfl⟩ := List.exists_cons_of_ne_nil ne
  rw [plus, run, List.cons_append, run, if_pos (all c (.head _)), run]
  exact repeated_some (fun c mem => all c (.tail _ mem)) stop found

/-- A literal takes its text. -/
lemma run_literal_append [BEq α] [LawfulBEq α] (xs rest : List α) :
    (literal xs).run k gs (xs ++ rest) = k gs rest := by
  induction xs with
  | nil => rfl
  | cons c xs ih =>
    rw [literal, List.map_cons, sequence, List.foldr_cons, run, List.cons_append, run,
      if_pos (beq_self_eq_true c)]
    exact ih

/-- A literal matches nothing else. -/
lemma run_literal_none [BEq α] [LawfulBEq α] (other : ¬ xs <+: s) : (literal xs).run k gs s = none := by
  induction xs generalizing s with
  | nil => exact absurd List.nil_prefix other
  | cons c xs ih =>
    rw [literal, List.map_cons, sequence, List.foldr_cons, run]
    cases s with
    | nil => rfl
    | cons d s =>
      rw [run]
      split
      · rename_i same
        cases eq_of_beq same
        exact ih fun more => other (List.cons_prefix_cons.2 ⟨rfl, more⟩)
      · rfl

/-- What a group gets is the text up to the rest. -/
lemma take_length_sub (xs rest : List α) : (xs ++ rest).take ((xs ++ rest).length - rest.length) = xs := by
  rw [List.length_append, Nat.add_sub_cancel, List.take_left]

/-- A group without groups inside gets the text that is matched. -/
lemma run_group_some
    (inner : ∀ k' : List (List α) → List α → Option β,
      k' gs rest = some x → r.run k' gs (xs ++ rest) = some x)
    (found : k (gs ++ [xs]) rest = some x) : (group r).run k gs (xs ++ rest) = some x := by
  refine inner _ ?_
  rw [take_length_sub]
  exact found

end Greedy

/-! ### Texts that a pattern refuses -/

/-- The pattern matches no text that begins with the character. -/
def refuses : Pattern α → α → Bool
  | .empty, _ => false
  | .cls p, c => !p c
  | .star _, _ => false
  | .seq a _, c => a.refuses c
  | .group a, c => a.refuses c

section Refuses

variable {p : α → Bool} {k : List (List α) → List α → Option β} {gs : List (List α)} {s cs : List α}
  {r : Pattern α} {c : α}

/-- A pattern that refuses the first character does not match. -/
lemma run_refuses (refuses : r.refuses c = true) : r.run k gs (c :: cs) = none := by
  induction r generalizing k gs with
  | empty | star => cases refuses
  | cls p => rw [run, if_neg (by simpa [Pattern.refuses] using refuses)]
  | seq a b iha => exact iha refuses
  | group a ih => exact ih refuses

/-- A repetition takes all that it can, if what follows refuses what it could leave. -/
lemma repeated_dropWhile {k : List α → Option β} (refuses : ∀ c cs, p c = true → k (c :: cs) = none)
    (s : List α) : repeated p k s = k (s.dropWhile p) := by
  induction s with
  | nil => rfl
  | cons c cs ih =>
    rw [repeated]
    cases pc : p c with
    | true => rw [if_pos rfl, ih, refuses c cs pc, Option.or_none, List.dropWhile_cons_of_pos pc]
    | false => rw [if_neg Bool.false_ne_true, List.dropWhile_cons_of_neg (by simp [pc])]

/-- A repetition before what refuses its characters takes all of them. -/
lemma run_plus_append {xs rest : List α} (refuses : ∀ c cs, p c = true → k gs (c :: cs) = none)
    (ne : xs ≠ []) (all : ∀ c ∈ xs, p c = true) (stop : ∀ c ∈ rest.head?, p c = false) :
    (plus p).run k gs (xs ++ rest) = k gs rest := by
  obtain ⟨c, xs, rfl⟩ := List.exists_cons_of_ne_nil ne
  rw [plus, run, List.cons_append, run, if_pos (all c (.head _)), run, repeated_dropWhile refuses,
    List.dropWhile_append_of_pos fun c mem => all c (.tail _ mem)]
  cases rest with
  | nil => rfl
  | cons d rest => rw [List.dropWhile_cons_of_neg (by simp [stop d rfl])]

/-- Two repetitions match alike before continuations that do. -/
lemma repeated_isSome {γ : Type*} {k : List α → Option β} {k' : List α → Option γ}
    (alike : ∀ rest, (k rest).isSome = (k' rest).isSome) (s : List α) :
    (repeated p k s).isSome = (repeated p k' s).isSome := by
  induction s with
  | nil => exact alike []
  | cons c cs ih =>
    rw [repeated, repeated]
    split
    · rw [Option.isSome_or, Option.isSome_or, ih, alike]
    · exact alike _

/-- If a pattern matches does not depend on what is made of its groups. -/
lemma run_isSome {γ : Type*} {k : List (List α) → List α → Option β}
    {k' : List (List α) → List α → Option γ}
    (alike : ∀ gs gs' rest, (k gs rest).isSome = (k' gs' rest).isSome) (gs gs' : List (List α))
    (s : List α) :
    (r.run k gs s).isSome = (r.run k' gs' s).isSome := by
  induction r generalizing k k' gs gs' s with
  | empty => exact alike gs gs' s
  | cls p =>
    cases s with
    | nil => rfl
    | cons c cs =>
      rw [run, run]
      split
      · exact alike gs gs' cs
      · rfl
  | star p => exact repeated_isSome (alike gs gs') s
  | seq a b iha ihb => exact iha (fun gs gs' rest => ihb alike gs gs' rest) gs gs' s
  | group a ih => exact ih (fun _ _ rest => alike _ _ rest) gs gs' s

end Refuses

end Pattern

end Irx.Lib
