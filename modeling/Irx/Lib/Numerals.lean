import Irx.Lib.CTypes

/-!
# Numerals in the order of texts

A text may begin with a numeral: decimal digits, with underscores before them. Texts are compared
character by character, numbers by their value. `lt_iff_readsBefore` says what the order of two texts
means for numerals of which the first is the smaller one; it agrees with the order of the numbers if the
numerals have the same width (`readsBefore_of_length`), and not in general.
-/

namespace Irx.Lib

/-- The digits of the numeral that a text begins with. -/
def digits (cs : List Char) : List Char := (cs.dropWhile (· = '_')).takeWhile Char.isDigit

/-- The numeral that a text begins with, with the underscores before it. -/
def numeral (cs : List Char) : List Char := cs.takeWhile (· = '_') ++ digits cs

/-- What follows the numeral. -/
def behind (cs : List Char) : List Char := (cs.dropWhile (· = '_')).dropWhile Char.isDigit

/-- The number that a text begins with. -/
def number? (cs : List Char) : Option Nat :=
  if digits cs = [] then none else some (decimal (digits cs))

/-- Read from the left, the first of two numerals has the smaller character where they first differ, or
it ends there, and what follows it in its text is nothing or below the next character of the second. -/
def ReadsBefore : List Char → List Char → List Char → Prop
  | _, _, [] => False
  | [], tail, y :: _ => ∀ z ∈ tail.head?, z < y
  | x :: p, tail, y :: q => x < y ∨ x = y ∧ ReadsBefore p tail q

instance decidableReadsBefore : (p tail q : List Char) → Decidable (ReadsBefore p tail q)
  | p, tail, [] => by cases p <;> exact isFalse id
  | [], tail, y :: _ => inferInstanceAs (Decidable (∀ z ∈ tail.head?, z < y))
  | x :: p, tail, y :: q =>
    have := decidableReadsBefore p tail q
    inferInstanceAs (Decidable (x < y ∨ x = y ∧ ReadsBefore p tail q))

variable {p q tail tail' cs cs' w : List Char} {n m : Nat}

/-- The order of two texts in terms of their beginnings. -/
lemma append_lt_append_iff (longer : ¬ q <+: p)
    (other : ∀ z ∈ tail.head?, ∀ y rest, q = p ++ y :: rest → z ≠ y) :
    p ++ tail < q ++ tail' ↔ ReadsBefore p tail q := by
  induction p generalizing q with
  | nil =>
    cases q with
    | nil => exact absurd (List.prefix_refl _) longer
    | cons y q =>
      rw [ReadsBefore]
      cases tail with
      | nil => exact ⟨fun _ => nofun, fun _ => List.nil_lt_cons _ _⟩
      | cons z tail =>
        have ne := other z rfl y q rfl
        rw [List.nil_append, List.cons_append, List.cons_lt_cons_iff]
        constructor
        · rintro (lt | ⟨e, _⟩) z' mem
          · cases mem
            exact lt
          · exact absurd e ne
        · exact fun below => .inl (below z rfl)
  | cons x p ih =>
    cases q with
    | nil => exact absurd List.nil_prefix longer
    | cons y q =>
      rw [ReadsBefore, List.cons_append, List.cons_append, List.cons_lt_cons_iff]
      refine or_congr_right (and_congr_right fun e => ih ?_ ?_)
      · subst e
        exact fun pre => longer (List.cons_prefix_cons.2 ⟨rfl, pre⟩)
      · subst e
        exact fun z mem y' rest e => other z mem y' rest (congrArg _ e)

/-- A common beginning does not matter. -/
lemma append_left_lt_iff (w : List Char) : w ++ cs < w ++ cs' ↔ cs < cs' := by
  induction w with
  | nil => rfl
  | cons c w ih => rw [List.cons_append, List.cons_append, List.cons_lt_cons_self, ih]

/-- The same start decides nothing. -/
lemma readsBefore_append (w : List Char) :
    ReadsBefore (w ++ p) tail (w ++ q) ↔ ReadsBefore p tail q := by
  induction w with
  | nil => rfl
  | cons c w ih =>
    rw [List.cons_append, List.cons_append, ReadsBefore, ih]
    exact ⟨fun h => h.elim (fun lt => absurd lt (lt_irrefl c)) And.right, fun h => .inr ⟨rfl, h⟩⟩

/-- A text is its numeral and what is behind it. -/
lemma numeral_append_behind (cs : List Char) : numeral cs ++ behind cs = cs := by
  rw [numeral, behind, digits, List.append_assoc, List.takeWhile_append_dropWhile,
    List.takeWhile_append_dropWhile]

/-- The digits are digits. -/
lemma isDigit_of_mem_digits {c : Char} (mem : c ∈ digits cs) : c.isDigit = true :=
  List.mem_takeWhile_imp mem

/-- The underscores of a numeral are those that it begins with. -/
lemma takeWhile_numeral (some : digits cs ≠ []) :
    (numeral cs ++ w).takeWhile (· = '_') = cs.takeWhile (· = '_') := by
  obtain ⟨d, ds, e⟩ := List.exists_cons_of_ne_nil some
  have digit : d ≠ '_' := by
    rintro rfl
    have mem : '_' ∈ digits cs := e ▸ .head _
    exact absurd (isDigit_of_mem_digits mem) (by decide)
  have front : ∀ c ∈ cs.takeWhile (· = '_'), decide (c = '_') = true :=
    fun c mem => List.mem_takeWhile_imp (p := (decide <| · = '_')) mem
  rw [numeral, List.append_assoc, List.takeWhile_append_of_pos front, e, List.cons_append,
    List.takeWhile_cons_of_neg (by simpa using digit), List.append_nil]

/-- A numeral that begins with another one has its digits and further ones. -/
lemma digits_of_numeral_append (some : digits cs ≠ []) (some' : digits cs' ≠ [])
    (e : numeral cs' = numeral cs ++ w) : digits cs' = digits cs ++ w := by
  have same := takeWhile_numeral (w := []) some'
  rw [List.append_nil, e, takeWhile_numeral some] at same
  rw [numeral, numeral, same, List.append_assoc] at e
  exact List.append_cancel_left e

/-- More digits make no smaller number. -/
lemma le_foldl_decimal (n : Nat) (w : List Char) :
    n ≤ w.foldl (fun n c => 10 * n + (c.toNat - 48)) n := by
  induction w generalizing n with
  | nil => exact le_rfl
  | cons c w ih =>
    have step : n ≤ 10 * n + (c.toNat - 48) := by omega
    exact step.trans (ih _)

/-- A longer numeral is no smaller number. -/
lemma decimal_le_append (p w : List Char) : decimal p ≤ decimal (p ++ w) := by
  rw [decimal, decimal, List.foldl_append]
  exact le_foldl_decimal _ _

/-- The number that was read has digits. -/
lemma number?_eq_some (e : number? cs = some n) : digits cs ≠ [] ∧ decimal (digits cs) = n := by
  rw [number?] at e
  split at e
  case isTrue => cases e
  case isFalse some => exact ⟨some, Option.some.inj e⟩

/-- Two texts with numbers of which the first is smaller are in this order exactly if the first numeral
reads before the second one. -/
lemma lt_iff_readsBefore (first : number? cs = some n) (second : number? cs' = some m) (lt : n < m) :
    cs < cs' ↔ ReadsBefore (numeral cs) (behind cs) (numeral cs') := by
  obtain ⟨some, rfl⟩ := number?_eq_some first
  obtain ⟨some', rfl⟩ := number?_eq_some second
  have texts : cs < cs' ↔ numeral cs ++ behind cs < numeral cs' ++ behind cs' := by
    rw [numeral_append_behind, numeral_append_behind]
  refine texts.trans (append_lt_append_iff ?_ ?_)
  · rintro ⟨w, e⟩
    -- more digits make the number no smaller
    have le := decimal_le_append (digits cs') w
    rw [← digits_of_numeral_append some' some e.symm] at le
    omega
  · rintro z mem y rest e rfl
    have more := digits_of_numeral_append some some' e
    have mem' : z ∈ digits cs' := more ▸ List.mem_append_right _ (.head _)
    have digit : z.isDigit = true := isDigit_of_mem_digits mem'
    have stops : ¬ z.isDigit = true := by
      have := List.head?_dropWhile_not Char.isDigit (cs.dropWhile (· = '_'))
      rw [behind] at mem
      rw [mem] at this
      simpa using this
    exact stops digit

/-- What was read before moves up by the length. -/
lemma foldl_decimal (n : Nat) (w : List Char) :
    w.foldl (fun n c => 10 * n + (c.toNat - 48)) n = n * 10 ^ w.length + decimal w := by
  induction w generalizing n with
  | nil => simp [decimal]
  | cons c w ih =>
    have start := ih (10 * 0 + (c.toNat - 48))
    rw [decimal, List.foldl_cons, List.foldl_cons, ih, start, List.length_cons, pow_succ]
    ring

/-- The first digit counts most. -/
lemma decimal_cons (c : Char) (w : List Char) :
    decimal (c :: w) = (c.toNat - 48) * 10 ^ w.length + decimal w := by
  rw [decimal, List.foldl_cons, foldl_decimal, Nat.mul_zero, Nat.zero_add]

/-- The codes of the digits. -/
lemma toNat_of_isDigit {c : Char} (digit : c.isDigit = true) : 48 ≤ c.toNat ∧ c.toNat ≤ 57 := by
  rw [Char.isDigit, Bool.and_eq_true] at digit
  exact ⟨of_decide_eq_true digit.1, of_decide_eq_true digit.2⟩

/-- So many digits make no larger number. -/
lemma decimal_lt (all : ∀ c ∈ p, c.isDigit = true) : decimal p < 10 ^ p.length := by
  induction p with
  | nil => exact Nat.one_pos
  | cons c p ih =>
    have below := ih fun c mem => all c (.tail _ mem)
    have := toNat_of_isDigit (all c (.head _))
    have le : (c.toNat - 48) * 10 ^ p.length ≤ 9 * 10 ^ p.length :=
      Nat.mul_le_mul_right _ (by omega)
    rw [decimal_cons, List.length_cons, pow_succ]
    omega

/-- Numerals of one width read in the order of their values. -/
lemma readsBefore_of_length (all : ∀ c ∈ p, c.isDigit = true) (all' : ∀ c ∈ q, c.isDigit = true)
    (width : p.length = q.length) (lt : decimal p < decimal q) : ReadsBefore p tail q := by
  induction p generalizing q with
  | nil =>
    cases List.length_eq_zero_iff.1 width.symm
    exact absurd lt (lt_irrefl _)
  | cons x p ih =>
    cases q with
    | nil => cases width
    | cons y q =>
      have below := decimal_lt fun c mem => all' c (.tail _ mem)
      have first := toNat_of_isDigit (all x (.head _))
      have second := toNat_of_isDigit (all' y (.head _))
      have same : p.length = q.length := Nat.succ.inj width
      rw [decimal_cons, decimal_cons, same] at lt
      rw [ReadsBefore]
      rcases lt_trichotomy x y with less | rfl | more
      · exact .inl less
      · exact .inr ⟨rfl, ih (fun c mem => all c (.tail _ mem)) (fun c mem => all' c (.tail _ mem)) same
          (by omega)⟩
      · -- a larger first digit outweighs all that follow
        have step : y.toNat - 48 + 1 ≤ x.toNat - 48 := by
          have : y.toNat < x.toNat := more
          omega
        have := Nat.mul_le_mul_right (10 ^ q.length) step
        rw [Nat.succ_mul] at this
        omega

end Irx.Lib
