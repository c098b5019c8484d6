import Mathlib

/-!
# Chains of closed ranges

A list of closed ranges `[lo b, hi b]` over a linear order. In a `Row` every range ends at or before the
start of the next one, so that two neighbours may share an end point; in a `Chain` it ends before. The lower
and the upper ends of a row increase, and an address of one range only is found from both sides: the range
has the greatest lower end at or below the address and the least upper end at or above it. A chain is
pairwise disjoint; it is kept by dropping ranges and by appending a range above all others. `exists_insertion`
is the place of a new element that is related to all elements of an ordered list.
-/

namespace Irx.Lib

variable {α β : Type*} [LinearOrder α] {lo hi : β → α}

/-- A range ends at or before the start of another one, and starts and ends before that. -/
def Precedes (lo hi : β → α) (b c : β) : Prop := hi b ≤ lo c ∧ lo b < lo c ∧ hi b < hi c

/-- What is before the middle is before what is behind it. -/
lemma Precedes.trans {b c d : β} (first : Precedes lo hi b c) (second : Precedes lo hi c d) :
    Precedes lo hi b d :=
  ⟨first.1.trans second.2.1.le, first.2.1.trans second.2.1, first.2.2.trans second.2.2⟩

/-- Every range ends at or before the start of each later one, and no range is inverted. -/
structure Row (lo hi : β → α) (l : List β) : Prop where
  before : l.Pairwise (Precedes lo hi)
  proper : ∀ b ∈ l, lo b ≤ hi b

namespace Row

/-- Two items of a row are equal, or one of them is before the other. -/
lemma separated {l : List β} {b c : β} (row : Row lo hi l) (hb : b ∈ l) (hc : c ∈ l) :
    b = c ∨ Precedes lo hi b c ∨ Precedes lo hi c b := by
  have : Std.Symm (fun x y => Precedes lo hi x y ∨ Precedes lo hi y x) := ⟨fun _ _ => Or.symm⟩
  have apart : l.Pairwise (fun x y => Precedes lo hi x y ∨ Precedes lo hi y x) := row.before.imp Or.inl
  by_cases e : b = c
  · exact .inl e
  · exact .inr (apart.forall hb hc e)

/-- No other range starts between the lower end of a range and an address that it does not share. -/
lemma greatest_lo {l : List β} {b c : β} {a : α} (row : Row lo hi l) (hb : b ∈ l) (hc : c ∈ l)
    (inside : a ≤ hi b) (alone : lo c ≤ a → a ≤ hi c → c = b) (le : lo c ≤ a) :
    c = b ∨ lo c < lo b := by
  rcases row.separated hb hc with e | before | before
  · exact .inl e.symm
  · exact .inl (alone le ((inside.trans before.1).trans (row.proper c hc)))
  · exact .inr before.2.1

/-- No other range ends between an address of a range that it does not share and the upper end. -/
lemma least_hi {l : List β} {b c : β} {a : α} (row : Row lo hi l) (hb : b ∈ l) (hc : c ∈ l)
    (inside : lo b ≤ a) (alone : lo c ≤ a → a ≤ hi c → c = b) (le : a ≤ hi c) :
    c = b ∨ hi b < hi c := by
  rcases row.separated hb hc with e | before | before
  · exact .inl e.symm
  · exact .inr before.2.2
  · exact .inl (alone (((row.proper c hc).trans before.1).trans inside) le)

end Row

/-- Every range ends before each later one starts, and no range is inverted. -/
structure Chain (lo hi : β → α) (l : List β) : Prop where
  before : l.Pairwise (fun b c => hi b < lo c)
  proper : ∀ b ∈ l, lo b ≤ hi b

namespace Chain

/-- There is nothing in the empty chain. -/
lemma nil : Chain lo hi [] := ⟨.nil, nofun⟩

/-- A chain is a row. -/
lemma row {l : List β} (ch : Chain lo hi l) : Row lo hi l where
  before := ch.before.imp_of_mem fun {b c} hb hc lt =>
    ⟨lt.le, (ch.proper b hb).trans_lt lt, lt.trans_le (ch.proper c hc)⟩
  proper := ch.proper

/-- What is left of a chain is a chain. -/
lemma sublist {l l' : List β} (ch : Chain lo hi l) (sub : l'.Sublist l) : Chain lo hi l' :=
  ⟨ch.before.sublist sub, fun b hb => ch.proper b (sub.subset hb)⟩

/-- A range above all others can be appended. -/
lemma append_last {l : List β} {b : β} (ch : Chain lo hi l) (proper : lo b ≤ hi b)
    (above : ∀ c ∈ l, hi c < lo b) : Chain lo hi (l ++ [b]) := by
  refine ⟨List.pairwise_append.2 ⟨ch.before, List.pairwise_singleton _ _, ?_⟩, ?_⟩
  · intro c hc d hd
    rw [List.mem_singleton.1 hd]
    exact above c hc
  · intro c hc
    rcases List.mem_append.1 hc with hc | hc
    · exact ch.proper c hc
    · rwa [List.mem_singleton.1 hc]

/-- Of two ranges of a chain, one ends before the other starts, or they are the same. -/
lemma separated {l : List β} {b c : β} (ch : Chain lo hi l) (hb : b ∈ l) (hc : c ∈ l) :
    b = c ∨ hi b < lo c ∨ hi c < lo b := by
  have : Std.Symm (fun x y => hi x < lo y ∨ hi y < lo x) := ⟨fun _ _ => Or.symm⟩
  have apart : l.Pairwise (fun x y => hi x < lo y ∨ hi y < lo x) := ch.before.imp Or.inl
  by_cases e : b = c
  · exact .inl e
  · exact .inr (apart.forall hb hc e)

/-- Different items of a chain have disjoint ranges. -/
lemma disjoint {l : List β} {b c : β} (ch : Chain lo hi l) (hb : b ∈ l) (hc : c ∈ l) (ne : b ≠ c) :
    Disjoint (Set.Icc (lo b) (hi b)) (Set.Icc (lo c) (hi c)) := by
  rw [Set.disjoint_left]
  rintro a ⟨l1, h1⟩ ⟨l2, h2⟩
  rcases ch.separated hb hc with e | lt | lt
  · exact ne e
  · exact lt_irrefl _ ((h1.trans_lt lt).trans_le l2)
  · exact lt_irrefl _ ((h2.trans_lt lt).trans_le l1)

end Chain

/-- A new element that stands before or behind each element of an ordered list has its place there. -/
lemma exists_insertion {R : β → β → Prop} {l : List β} {x : β}
    (trans : ∀ c ∈ l, ∀ d ∈ l, R x c → R c d → R x d) (ordered : l.Pairwise R)
    (apart : ∀ c ∈ l, R c x ∨ R x c) :
    ∃ pre post, l = pre ++ post ∧ (∀ c ∈ pre, R c x) ∧ (∀ c ∈ post, R x c) ∧
      (pre ++ x :: post).Pairwise R := by
  induction l with
  | nil => exact ⟨[], [], rfl, nofun, nofun, List.pairwise_singleton _ _⟩
  | cons c l ih =>
    obtain ⟨first, rest⟩ := List.pairwise_cons.1 ordered
    rcases apart c (.head _) with before | behind
    · have trans' : ∀ c ∈ l, ∀ d ∈ l, R x c → R c d → R x d :=
        fun c hc d hd => trans c (.tail _ hc) d (.tail _ hd)
      obtain ⟨pre, post, rfl, lower, upper, placed⟩ := ih trans' rest fun d hd => apart d (.tail _ hd)
      refine ⟨c :: pre, post, rfl, List.forall_mem_cons.2 ⟨before, lower⟩, upper, ?_⟩
      refine List.pairwise_cons.2 ⟨fun d hd => ?_, placed⟩
      rcases List.mem_append.1 hd with hd | hd
      · exact first d (List.mem_append_left _ hd)
      · rcases List.mem_cons.1 hd with rfl | hd
        · exact before
        · exact first d (List.mem_append_right _ hd)
    · have all : ∀ d ∈ c :: l, R x d := by
        refine List.forall_mem_cons.2 ⟨behind, fun d hd => ?_⟩
        exact trans c (.head _) d (.tail _ hd) behind (first d hd)
      exact ⟨[], c :: l, rfl, nofun, all, List.pairwise_cons.2 ⟨all, ordered⟩⟩

end Irx.Lib
