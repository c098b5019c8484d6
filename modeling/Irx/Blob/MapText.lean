import Irx.Blob.LinkerMap

/-!
# What the parser reads

A linker map is a text of sections, symbols and lines that are neither. `map_round_trip` says that
`map_parse` reads from it exactly its sections with their symbols, whatever stands between them: a blank line
may be taken up in the match of the symbol behind it, and a section may break off after its name, but no
entry is lost, split or read twice.
-/

namespace Irx.Blob
open Irx.Lib

/-- A number as the linker writes it, with zeros before it. -/
def hexText (pad n : Nat) : List Char := ['0', 'x'] ++ (List.replicate pad '0' ++ Nat.toDigits 16 n)

/-- A part of a linker map. -/
inductive MapItem where
  | scn (name gap : List Char) (pad addr : Nat) (gap' : List Char) (pad' size : Nat)
  | sym (indent : List Char) (pad addr : Nat) (gap name : List Char)
  | line (text : List Char)

namespace MapItem

/-- How the part is written. -/
def text : MapItem → List Char
  | scn name gap pad addr gap' pad' size =>
    name ++ (gap ++ (hexText pad addr ++ (gap' ++ hexText pad' size)))
  | sym indent pad addr gap name => indent ++ (hexText pad addr ++ (gap ++ (name ++ [' ', '=', ' ', '.'])))
  | line text => text ++ ['\n']

/-- What the part says of the sections. -/
def add (sections : List Section) : MapItem → List Section
  | scn name _ _ addr _ _ size => sections ++ [⟨name, addr, size, []⟩]
  | sym _ _ addr _ name =>
    sections.modifyLast fun scn => { scn with symbols := scn.symbols ++ [⟨name, addr⟩] }
  | line _ => sections

end MapItem

/-- A map with the items. -/
def mapText (items : List MapItem) : List Char := items.flatMap MapItem.text

/-- The sections that a map lists. -/
def sectionsOf (items : List MapItem) : List Section := items.foldl MapItem.add []

/-- What stands between the parts of an entry. -/
def Gap (gap : List Char) : Prop := gap ≠ [] ∧ ∀ c ∈ gap, isNonWord c = true

/-- A line with which no entry begins. -/
def Quiet (line : List Char) : Prop :=
  ∀ rest, sectionPattern.search (line ++ '\n' :: rest) = none ∧
    symbolPattern.search (line ++ '\n' :: rest) = none

/-- The lines that a linker writes between its entries: an indented word that is no number, such as an input
section, two words or more, such as the name of a file, and the address of a name that is given no value. -/
inductive Idle : List Char → Prop where
  | indented {lead c rest} : Gap lead → isWord c = true → c ≠ '0' → Idle (lead ++ c :: rest)
  | words {name gap c rest} : name ≠ [] → (∀ c ∈ name, isWord c = true) → name.head? ≠ some '0' → Gap gap →
    isWord c = true → c ≠ '0' → Idle (name ++ (gap ++ c :: rest))
  | object {lead pad n gap name rest} : Gap lead → Gap gap → name ≠ [] → (∀ c ∈ name, isWord c = true) →
    (∀ c ∈ rest.head?, isWord c = false) → ¬ [' ', '=', ' ', '.'] <+: rest →
    Idle (lead ++ (hexText pad n ++ (gap ++ (name ++ rest))))

/-- The item is written as the linker does, before the rest of the text. -/
def MapItem.Proper (rest : List Char) : MapItem → Prop
  | scn name gap _ addr gap' _ size =>
    name ≠ [] ∧ (∀ c ∈ name, isWord c = true) ∧ name.head? ≠ some '0' ∧ Gap gap ∧ Gap gap' ∧
      (gap ++ gap').count '\n' ≤ 1 ∧ addr < 2 ^ 64 ∧ size < 2 ^ 64 ∧ ∀ c ∈ rest.head?, isHex c = false
  | sym indent _ addr gap name =>
    Gap indent ∧ '\n' ∉ indent ∧ Gap gap ∧ '\n' ∉ gap ∧ name ≠ [] ∧ (∀ c ∈ name, isWord c = true) ∧
      addr < 2 ^ 64
  | line text => '\n' ∉ text ∧ ((∀ c ∈ text, isNonWord c = true) ∨ Quiet text)

/-- Every item is written as the linker does. -/
def MapProper : List MapItem → Prop
  | [] => True
  | item :: items => item.Proper (mapText items) ∧ MapProper items

variable {s rest xs : List Char} {n pad : Nat} {sections : List Section}

/-! ### Numbers -/

/-- The value of a hexadecimal digit. -/
lemma hexDigit_digitChar (lt : n < 16) : hexDigit n.digitChar = n := by
  interval_cases n <;> rfl

/-- A digit is a hexadecimal digit. -/
lemma isHex_digitChar (lt : n < 16) : isHex n.digitChar = true := by
  interval_cases n <;> rfl

/-- The value of the digits of a number is the number. -/
lemma hexValue_toDigits (n : Nat) : (Nat.toDigits 16 n).foldl (fun n c => 16 * n + hexDigit c) 0 = n := by
  induction n using Nat.strong_induction_on with
  | h n ih =>
    by_cases small : n < 16
    · rw [Nat.toDigits_of_lt_base small, List.foldl_cons, List.foldl_nil, hexDigit_digitChar small,
        Nat.mul_zero, Nat.zero_add]
    · rw [Nat.toDigits_of_base_le (by decide) (not_lt.1 small), List.foldl_append, ih (n / 16) (by omega),
        List.foldl_cons, List.foldl_nil, hexDigit_digitChar (Nat.mod_lt n (by decide))]
      omega

/-- All digits of a number are hexadecimal. -/
lemma isHex_toDigits (n : Nat) : ∀ c ∈ Nat.toDigits 16 n, isHex c = true := by
  induction n using Nat.strong_induction_on with
  | h n ih =>
    by_cases small : n < 16
    · rw [Nat.toDigits_of_lt_base small]
      exact List.forall_mem_singleton.2 (isHex_digitChar small)
    · rw [Nat.toDigits_of_base_le (by decide) (not_lt.1 small)]
      refine List.forall_mem_append.2 ⟨ih (n / 16) (by omega), ?_⟩
      exact List.forall_mem_singleton.2 (isHex_digitChar (Nat.mod_lt n (by decide)))

/-- Leading zeros have no value. -/
lemma foldl_zeros (pad : Nat) :
    (List.replicate pad '0').foldl (fun n c => 16 * n + hexDigit c) 0 = 0 := by
  induction pad with
  | zero => rfl
  | succ pad ih => rw [List.replicate_succ, List.foldl_cons]; exact ih

/-- The text of a number is read as the number. -/
lemma stoul_hexText (lt : n < 2 ^ 64) : stoul (hexText pad n) = .ok n := by
  have value : ((hexText pad n).drop 2).foldl (fun n c => 16 * n + hexDigit c) 0 = n := by
    show (List.replicate pad '0' ++ Nat.toDigits 16 n).foldl (fun n c => 16 * n + hexDigit c) 0 = n
    rw [List.foldl_append, foldl_zeros, hexValue_toDigits]
  rw [stoul, value]
  exact if_pos lt

/-! ### Matches -/

section Matches

variable {β : Type} {k : List (List Char) → List Char → Option β} {gs : List (List Char)} {x : β}
  {name gap gap' indent : List Char} {pad' addr size : Nat}

/-- The digits of a number, with the zeros before them. -/
lemma digits_hex (pad n : Nat) : List.replicate pad '0' ++ Nat.toDigits 16 n ≠ [] ∧
    ∀ c ∈ List.replicate pad '0' ++ Nat.toDigits 16 n, isHex c = true := by
  refine ⟨?_, List.forall_mem_append.2 ⟨fun c mem => ?_, isHex_toDigits n⟩⟩
  · by_cases small : n < 16
    · simp [Nat.toDigits_of_lt_base small]
    · simp [Nat.toDigits_of_base_le (by decide) (not_lt.1 small)]
  · rw [(List.mem_replicate.1 mem).2]
    rfl

/-- The pattern of a number takes the whole number. -/
lemma hexNumber_some (stop : ∀ c ∈ rest.head?, isHex c = false)
    (found : k (gs ++ [hexText pad n]) rest = some x) :
    hexNumber.run k gs (hexText pad n ++ rest) = some x := by
  obtain ⟨ne, hex⟩ := digits_hex pad n
  refine Pattern.run_group_some (fun k' found => ?_) found
  rw [Pattern.run, hexText, List.append_assoc]
  exact (Pattern.run_literal_append _ _).trans (Pattern.run_plus_some ne hex stop found)

/-- If the rest of the pattern refuses the digits, it matches behind the number only. -/
lemma number_append (refuses : ∀ c cs, isHex c = true → k gs (c :: cs) = none)
    (stop : ∀ c ∈ rest.head?, isHex c = false) :
    (Pattern.seq (.literal ['0', 'x']) (.plus isHex)).run k gs (hexText pad n ++ rest) = k gs rest := by
  obtain ⟨ne, hex⟩ := digits_hex pad n
  rw [Pattern.run, hexText, List.append_assoc, Pattern.run_literal_append,
    Pattern.run_plus_append refuses ne hex stop]

/-- A number before what is refused inside a number. -/
lemma hexNumber_append (refuses : ∀ gs c cs, isHex c = true → k gs (c :: cs) = none)
    (stop : ∀ c ∈ rest.head?, isHex c = false) :
    hexNumber.run k gs (hexText pad n ++ rest) = k (gs ++ [hexText pad n]) rest := by
  rw [hexNumber, Pattern.run, number_append ?_ stop, Pattern.take_length_sub]
  exact fun c cs => refuses _ c cs

/-- The pattern of a word takes the whole word. -/
lemma word_some {name : List Char} (ne : name ≠ []) (word : ∀ c ∈ name, isWord c = true)
    (stop : ∀ c ∈ rest.head?, isWord c = false) (found : k (gs ++ [name]) rest = some x) :
    (Pattern.group (.plus isWord)).run k gs (name ++ rest) = some x :=
  Pattern.run_group_some (fun _ found => Pattern.run_plus_some ne word stop found) found

/-- What a gap is followed by when a number is. -/
lemma Gap.head {gap : List Char} (proper : Gap gap) (rest : List Char) :
    ∃ c, (gap ++ rest).head? = some c ∧ isNonWord c = true := by
  obtain ⟨c, gap, rfl⟩ := List.exists_cons_of_ne_nil proper.1
  exact ⟨c, rfl, proper.2 c (.head _)⟩

/-- A hexadecimal digit is a character of a word. -/
lemma isWord_of_hex {c : Char} (hex : isHex c = true) : isWord c = true := by
  rw [isHex, Bool.or_eq_true, Bool.and_eq_true, Bool.and_eq_true] at hex
  simp only [decide_eq_true_eq] at hex
  simp only [isWord, Char.isAlphanum, Char.isAlpha, Char.isLower, Char.isDigit, Bool.or_eq_true,
    Bool.and_eq_true, decide_eq_true_eq]
  obtain ⟨low, high⟩ | ⟨low, high⟩ := hex
  · exact .inl (.inr ⟨low, high⟩)
  · exact .inl (.inl (.inr ⟨low, le_trans high (show 'f'.val ≤ 'z'.val by decide)⟩))

/-- Between words there are no hexadecimal digits. -/
lemma isHex_of_nonWord {c : Char} (non : isNonWord c = true) : isHex c = false := by
  by_contra hex
  rw [isNonWord, isWord_of_hex (Bool.not_eq_false _ ▸ hex)] at non
  cases non

/-- No word begins with a gap. -/
lemma Gap.no_word {gap : List Char} (proper : Gap gap) (rest : List Char) :
    ∀ c ∈ (gap ++ rest).head?, isWord c = false := by
  obtain ⟨c, head, non⟩ := proper.head rest
  rw [head]
  rintro _ ⟨⟩
  exact Bool.not_eq_true' _ ▸ non

/-- No number begins with a gap. -/
lemma Gap.no_hex {gap : List Char} (proper : Gap gap) (rest : List Char) :
    ∀ c ∈ (gap ++ rest).head?, isHex c = false := by
  obtain ⟨c, head, non⟩ := proper.head rest
  rw [head]
  rintro _ ⟨⟩
  exact isHex_of_nonWord non

/-- A number begins with a character of a word. -/
lemma hexText_head (pad n : Nat) (rest : List Char) :
    ∀ c ∈ (hexText pad n ++ rest).head?, isNonWord c = false := by
  rintro _ ⟨⟩
  rfl

/-- The pattern of a section matches the text of one. -/
lemma sectionPattern_search (ne : name ≠ []) (word : ∀ c ∈ name, isWord c = true) (first : Gap gap)
    (second : Gap gap') (stop : ∀ c ∈ rest.head?, isHex c = false) :
    sectionPattern.search (name ++ (gap ++ (hexText pad addr ++ (gap' ++ (hexText pad' size ++ rest))))) =
      some ⟨(name ++ (gap ++ (hexText pad addr ++ (gap' ++ hexText pad' size)))).length,
        [name, hexText pad addr, hexText pad' size]⟩ := by
  rw [Pattern.search, sectionPattern]
  refine word_some ne word (first.no_word _) (Pattern.run_plus_some first.1 first.2 (hexText_head _ _ _)
    (hexNumber_some (second.no_hex _) (Pattern.run_plus_some second.1 second.2 (hexText_head _ _ _)
      (hexNumber_some stop ?_))))
  have length : (name ++ (gap ++ (hexText pad addr ++ (gap' ++ (hexText pad' size ++ rest))))).length -
      rest.length = (name ++ (gap ++ (hexText pad addr ++ (gap' ++ hexText pad' size)))).length := by
    simp only [List.length_append]
    omega
  rw [← length]
  rfl

/-- The pattern of a symbol matches the text of one. -/
lemma symbolPattern_search (indent_ : Gap indent) (between : Gap gap) (ne : name ≠ [])
    (word : ∀ c ∈ name, isWord c = true) (rest : List Char) :
    symbolPattern.search (indent ++ (hexText pad addr ++ (gap ++ (name ++ ([' ', '=', ' ', '.'] ++ rest))))) =
      some ⟨(indent ++ (hexText pad addr ++ (gap ++ (name ++ [' ', '=', ' ', '.'])))).length,
        [hexText pad addr, name]⟩ := by
  have behind : ∀ c ∈ (name ++ ([' ', '=', ' ', '.'] ++ rest)).head?, isNonWord c = false := by
    obtain ⟨c, name, rfl⟩ := List.exists_cons_of_ne_nil ne
    rintro _ ⟨⟩
    rw [isNonWord, word c (.head _)]
    rfl
  have stop : ∀ c ∈ ([' ', '=', ' ', '.'] ++ rest).head?, isWord c = false := by
    rintro _ ⟨⟩
    rfl
  rw [Pattern.search, symbolPattern]
  refine Pattern.repeated_some indent_.2 (hexText_head _ _ _) (hexNumber_some (between.no_hex _)
    (Pattern.run_plus_some between.1 between.2 behind (word_some ne word stop
      ((Pattern.run_literal_append _ _).trans ?_))))
  have length : (indent ++ (hexText pad addr ++ (gap ++ (name ++ ([' ', '=', ' ', '.'] ++ rest))))).length -
      rest.length = (indent ++ (hexText pad addr ++ (gap ++ (name ++ [' ', '=', ' ', '.'])))).length := by
    simp only [List.length_append]
    omega
  rw [← length]
  rfl

end Matches

/-! ### Texts that do not match -/

section None

variable {lead line : List Char} {c : Char}

/-- A section does not begin between words. -/
lemma section_refuses (non : isNonWord c = true) (cs : List Char) :
    sectionPattern.search (c :: cs) = none := by
  refine Pattern.run_refuses ?_
  show (!isWord c) = true
  exact non

/-- A number begins with a zero. -/
lemma hexNumber_refuses (other : c ≠ '0') : hexNumber.refuses c = true := by
  show (!(c == '0')) = true
  simp [other]

/-- The pattern of a symbol goes on behind the whole gap. -/
lemma symbolPattern_dropWhile (s : List Char) : symbolPattern.search s = (Pattern.sequence [hexNumber,
    .plus isNonWord, .group (.plus isWord), .literal [' ', '=', ' ', '.']]).run
      (fun gs rest => some ⟨s.length - rest.length, gs⟩) [] (s.dropWhile isNonWord) := by
  refine Pattern.repeated_dropWhile (fun c cs non => Pattern.run_refuses (hexNumber_refuses ?_)) s
  rintro rfl
  cases non

/-- If the pattern of a symbol matches depends on what is behind the gap. -/
lemma symbolPattern_none {t : List Char} (same : s.dropWhile isNonWord = t.dropWhile isNonWord) :
    symbolPattern.search s = none ↔ symbolPattern.search t = none := by
  rw [← Option.not_isSome_iff_eq_none, ← Option.not_isSome_iff_eq_none, symbolPattern_dropWhile,
    symbolPattern_dropWhile, same]
  refine not_congr (iff_of_eq (congrArg (· = true) (Pattern.run_isSome ?_ _ _ _)))
  exact fun _ _ _ => rfl

/-- Behind a gap, the pattern of a symbol does not match what begins with no number. -/
lemma symbolPattern_other (other : (s.dropWhile isNonWord).head? ≠ some '0') :
    symbolPattern.search s = none := by
  rw [symbolPattern_dropWhile]
  cases behind : s.dropWhile isNonWord with
  | nil => rfl
  | cons c cs =>
    rw [behind] at other
    exact Pattern.run_refuses (hexNumber_refuses fun same => other (congrArg some same))

end None

/-! ### Lines -/

section Lines

variable {a b : List Char}

/-- The first occurrence is found. -/
lemma find_append {c : Char} (first : c ∉ a) (rest : List Char) :
    find (a ++ c :: rest) c 0 = some a.length := by
  have none : a.findIdx? (· == c) = none := by
    rw [List.findIdx?_eq_none_iff]
    exact fun x mem => beq_false_of_ne (ne_of_mem_of_not_mem mem first)
  rw [find, List.drop_zero, List.findIdx?_append, none]
  simp [List.findIdx?_cons]

/-- Nothing is found where there is none. -/
lemma find_none {c : Char} {start : Nat} (out : c ∉ s.drop start) : find s c start = none := by
  have none : (s.drop start).findIdx? (· == c) = none := by
    rw [List.findIdx?_eq_none_iff]
    exact fun x mem => beq_false_of_ne (ne_of_mem_of_not_mem mem out)
  rw [find, none]
  rfl

/-- What is searched ends with the second line break. -/
lemma firstLines_two (first : '\n' ∉ a) (second : '\n' ∉ b) (rest : List Char) :
    firstLines (a ++ '\n' :: (b ++ '\n' :: rest)) = a ++ '\n' :: (b ++ ['\n']) := by
  have behind : (a ++ '\n' :: (b ++ '\n' :: rest)).drop (a.length + 1) = b ++ '\n' :: rest := by
    rw [List.drop_append, List.drop_eq_nil_of_le (Nat.le_succ _)]
    simp
  have there : find (a ++ '\n' :: (b ++ '\n' :: rest)) '\n' (a.length + 1) =
      some (b.length + (a.length + 1)) := by
    have inner := find_append second rest
    rw [find, List.drop_zero] at inner
    rw [find, behind]
    simpa using inner
  have taken : (a ++ '\n' :: (b ++ '\n' :: rest)).take (b.length + (a.length + 1) + 1) =
      a ++ '\n' :: (b ++ ['\n']) := by
    have split : a ++ '\n' :: (b ++ '\n' :: rest) = (a ++ '\n' :: (b ++ ['\n'])) ++ rest := by simp
    rw [split]
    refine List.take_left' ?_
    simp
    omega
  rw [firstLines, find_append first]
  simp only [there, taken]
  exact if_neg (by simp)

/-- A text with less than two line breaks is searched as a whole. -/
lemma firstLines_few (few : s.count '\n' < 2) : firstLines s = s := by
  by_cases some : '\n' ∈ s
  · obtain ⟨a, b, rfl, first⟩ := List.eq_append_cons_of_mem some
    have second : '\n' ∉ b := by
      intro mem
      have := List.count_pos_iff.2 mem
      rw [List.count_append, List.count_cons_self] at few
      omega
    have behind : (a ++ '\n' :: b).drop (a.length + 1) = b := by
      rw [List.drop_append, List.drop_eq_nil_of_le (Nat.le_succ _)]
      simp
    have none : find (a ++ '\n' :: b) '\n' (a.length + 1) = none := find_none (by rwa [behind])
    rw [firstLines, find_append first]
    simp only [none]
    rfl
  · rw [firstLines, find_none (by simpa using some)]
    rfl

/-- The second line break ends what is searched. -/
lemma firstLines_break (once : xs.count '\n' = 1) (rest : List Char) :
    firstLines (xs ++ '\n' :: rest) = xs ++ ['\n'] := by
  obtain ⟨a, b, rfl, first⟩ := List.eq_append_cons_of_mem (List.count_pos_iff.1 (once ▸ Nat.one_pos))
  have second : '\n' ∉ b := by
    intro mem
    have := List.count_pos_iff.2 mem
    rw [List.count_append, List.count_cons_self] at once
    omega
  rw [List.append_assoc, List.cons_append, firstLines_two first second]
  simp

/-- The lines that are searched go at least one character beyond what has one line break. -/
lemma firstLines_append (once : xs.count '\n' ≤ 1) (rest : List Char) :
    ∃ rest', firstLines (xs ++ rest) = xs ++ rest' ∧ rest'.head? = rest.head? := by
  by_cases few : (xs ++ rest).count '\n' < 2
  · exact ⟨rest, firstLines_few few, rfl⟩
  · rw [List.count_append] at few
    obtain ⟨b, r, rfl, first⟩ :=
      List.eq_append_cons_of_mem (List.count_pos_iff.1 (show 0 < rest.count '\n' by omega))
    have none : b.count '\n' = 0 := List.count_eq_zero.2 first
    obtain zero | one : xs.count '\n' = 0 ∨ xs.count '\n' = 1 := by omega
    · -- both line breaks are in the rest
      have more : 0 < r.count '\n' := by
        rw [List.count_append, List.count_cons_self] at few
        omega
      obtain ⟨c, r, rfl, second⟩ := List.eq_append_cons_of_mem (List.count_pos_iff.1 more)
      refine ⟨b ++ '\n' :: (c ++ ['\n']), ?_, by cases b <;> rfl⟩
      rw [← List.append_assoc, firstLines_two (List.count_eq_zero.1 (by rw [List.count_append]; omega)) second,
        List.append_assoc]
    · refine ⟨b ++ ['\n'], ?_, by cases b <;> rfl⟩
      rw [← List.append_assoc, firstLines_break (by rw [List.count_append]; omega), List.append_assoc]

end Lines

/-! ### The loop -/

section Loop

variable {result : List Section} {s' w : List Char} {sections' : List Section}
  {name gap gap' indent : List Char} {addr size pad' : Nat} {items : List MapItem}

/-- The loop reads the text to its end and comes to the sections. -/
def Parses (s : List Char) (sections result : List Section) : Prop :=
  ∀ fuel > s.length, ∀ pos : Option Nat, pos.isSome = true →
    mapParseLoop fuel ⟨s, sections, pos⟩ = some (.ok result)

/-- One iteration, and then the others. -/
lemma Parses.step (moves : ∀ pos : Option Nat, pos.isSome = true → ∃ pos' : Option Nat, pos'.isSome = true ∧
      iteration ⟨s, sections, pos⟩ = .ok ⟨s', sections', pos'⟩)
    (others : Parses s' sections' result) : Parses s sections result := by
  intro fuel enough pos some
  obtain ⟨pos', some', moved⟩ := moves pos some
  obtain ⟨fuel, rfl⟩ := Nat.exists_eq_add_of_lt enough
  have shorter : s'.length < s.length := iteration_shortens moved (Option.isSome_iff_ne_none.1 some')
  rw [mapParseLoop, moved]
  simp only [some', if_true]
  exact others _ (by omega) pos' some'

/-- At the end of the text the sections are as they are. -/
lemma parses_nil (sections : List Section) : Parses [] sections sections := by
  intro fuel enough pos _
  obtain ⟨fuel, rfl⟩ := Nat.exists_eq_add_of_lt enough
  rfl

/-- A line with which nothing begins is left out. -/
lemma parses_garbage (one : '\n' ∉ xs)
    (sec : sectionPattern.search (firstLines (xs ++ '\n' :: rest)) = none)
    (sym : symbolPattern.search (firstLines (xs ++ '\n' :: rest)) = none)
    (others : Parses rest sections result) :
    Parses (xs ++ '\n' :: rest) sections result := by
  refine .step (fun pos _ => ⟨some xs.length, rfl, ?_⟩) others
  have behind : (xs ++ '\n' :: rest).drop (xs.length + 1) = rest := by
    rw [List.drop_append, List.drop_eq_nil_of_le (Nat.le_succ _)]
    simp
  rw [iteration]
  simp only [sec, sym, find_append one, behind]

/-- No line ends in a word. -/
lemma count_word (word : ∀ c ∈ xs, isWord c = true) : xs.count '\n' = 0 := by
  refine List.count_eq_zero.2 fun mem => ?_
  cases word _ mem

/-- No line ends in a number. -/
lemma count_hexText (pad n : Nat) : (hexText pad n).count '\n' = 0 := by
  refine count_word fun c mem => ?_
  obtain first | mem := List.mem_append.1 mem
  · obtain rfl | rfl : c = '0' ∨ c = 'x' := by simpa using first
    · rfl
    · rfl
  · obtain zero | digit := List.mem_append.1 mem
    · rw [(List.mem_replicate.1 zero).2]
      rfl
    · exact isWord_of_hex (isHex_toDigits n c digit)

/-- A section is read, and the rest after it. -/
lemma parses_section (proper : (MapItem.scn name gap pad addr gap' pad' size).Proper rest)
    (others : Parses rest (sections ++ [⟨name, addr, size, []⟩]) result) :
    Parses ((MapItem.scn name gap pad addr gap' pad' size).text ++ rest) sections result := by
  obtain ⟨ne, word, _, first, second, breaks, low, low', stop⟩ := proper
  have once : (MapItem.scn name gap pad addr gap' pad' size).text.count '\n' ≤ 1 := by
    rw [List.count_append] at breaks
    simp only [MapItem.text, List.count_append, count_word word, count_hexText]
    omega
  obtain ⟨rest', lines, head⟩ := firstLines_append once rest
  have found : sectionPattern.search ((MapItem.scn name gap pad addr gap' pad' size).text ++ rest') =
      some ⟨(MapItem.scn name gap pad addr gap' pad' size).text.length,
        [name, hexText pad addr, hexText pad' size]⟩ := by
    simp only [MapItem.text, List.append_assoc]
    exact sectionPattern_search ne word first second (by rwa [head])
  refine .step (fun pos some => ⟨pos, some, ?_⟩) others
  rw [iteration]
  simp only [lines, found, addSection, stoul_hexText low, stoul_hexText low', ok_bind, List.drop_left]

/-- A symbol is read together with a blank line before it. -/
lemma parses_symbol {lead : List Char} (proper : (MapItem.sym indent pad addr gap name).Proper rest)
    (blank : ∀ c ∈ lead, isNonWord c = true) (breaks : lead.count '\n' ≤ 1)
    (others : Parses rest ((MapItem.sym indent pad addr gap name).add sections) result) :
    Parses (lead ++ ((MapItem.sym indent pad addr gap name).text ++ rest)) sections result := by
  obtain ⟨⟨ne, non⟩, one, between, one', nameless, word, low⟩ := proper
  have whole : lead ++ ((MapItem.sym indent pad addr gap name).text ++ rest) =
      (MapItem.sym (lead ++ indent) pad addr gap name).text ++ rest := by
    simp only [MapItem.text, List.append_assoc]
  have once : (MapItem.sym (lead ++ indent) pad addr gap name).text.count '\n' ≤ 1 := by
    have suffix : [' ', '=', ' ', '.'].count '\n' = 0 := rfl
    simp only [MapItem.text, List.count_append, count_word word, count_hexText, List.count_eq_zero.2 one,
      List.count_eq_zero.2 one', suffix]
    omega
  have gap_ : Gap (lead ++ indent) :=
    ⟨fun nil => ne (List.append_eq_nil_iff.1 nil).2, List.forall_mem_append.2 ⟨blank, non⟩⟩
  rw [whole]
  generalize lead ++ indent = wide at once gap_
  obtain ⟨rest', lines, _⟩ := firstLines_append once rest
  have found : symbolPattern.search ((MapItem.sym wide pad addr gap name).text ++ rest') =
      some ⟨(MapItem.sym wide pad addr gap name).text.length, [hexText pad addr, name]⟩ := by
    simp only [MapItem.text, List.append_assoc]
    exact symbolPattern_search gap_ between nameless word rest'
  have other : sectionPattern.search ((MapItem.sym wide pad addr gap name).text ++ rest') = none := by
    obtain ⟨c, cs, rfl⟩ := List.exists_cons_of_ne_nil gap_.1
    exact section_refuses (gap_.2 c (.head _)) _
  refine .step (fun pos some => ⟨pos, some, ?_⟩) others
  rw [iteration]
  simp only [lines, other, found, addSymbol, stoul_hexText low, ok_bind, List.drop_left]
  rfl

/-- A line has at most one end. -/
lemma breaks_le (one : '\n' ∉ w) : (w ++ ['\n']).count '\n' ≤ 1 := by
  rw [List.count_append, List.count_eq_zero.2 one]
  rfl

/-- A blank line, with its break. -/
def BlankLine (b : List Char) : Prop := ∃ w, b = w ++ ['\n'] ∧ '\n' ∉ w ∧ ∀ c ∈ w, isNonWord c = true

/-- A blank line is left out, if no symbol follows. -/
lemma parses_blank (one : '\n' ∉ w) (blank : ∀ c ∈ w, isNonWord c = true)
    (sym : symbolPattern.search (firstLines (w ++ '\n' :: rest)) = none)
    (others : Parses rest sections result) :
    Parses (w ++ '\n' :: rest) sections result := by
  refine parses_garbage one ?_ sym others
  obtain ⟨rest', lines, _⟩ := firstLines_append (breaks_le one) rest
  rw [List.append_cons, lines]
  cases w with
  | nil => exact section_refuses rfl _
  | cons c w => exact section_refuses (blank c (.head _)) _

/-- A blank line is passed. -/
lemma dropWhile_blank (blank : ∀ c ∈ w, isNonWord c = true) (s : List Char) :
    (w ++ '\n' :: s).dropWhile isNonWord = s.dropWhile isNonWord := by
  rw [List.dropWhile_append_of_pos blank, List.dropWhile_cons_of_pos rfl]

/-- No symbol begins with a blank line and a word. -/
lemma blank_word {c : Char} (one : '\n' ∉ w) (blank : ∀ c ∈ w, isNonWord c = true) (word : isWord c = true)
    (zero : c ≠ '0') (cs : List Char) : symbolPattern.search (firstLines (w ++ '\n' :: c :: cs)) = none := by
  obtain ⟨rest', lines, head⟩ := firstLines_append (breaks_le one) (c :: cs)
  rw [List.append_cons, lines]
  cases rest' with
  | nil => cases head
  | cons d rest' =>
    cases head
    refine symbolPattern_other ?_
    rw [List.append_assoc, List.singleton_append, dropWhile_blank blank,
      List.dropWhile_cons_of_neg (by simp [isNonWord, word])]
    exact fun same => zero (Option.some.inj same)

/-- Nor with a blank line and one that is blank or with which nothing begins. -/
lemma blank_line {text : List Char} (one : '\n' ∉ w) (blank : ∀ c ∈ w, isNonWord c = true)
    (one' : '\n' ∉ text) (silent : (∀ c ∈ text, isNonWord c = true) ∨ Quiet text) (rest : List Char) :
    symbolPattern.search (firstLines (w ++ '\n' :: (text ++ '\n' :: rest))) = none := by
  have once : (w ++ '\n' :: text).count '\n' = 1 := by
    rw [List.count_append, List.count_cons_self, List.count_eq_zero.2 one, List.count_eq_zero.2 one']
  have lines := firstLines_break once rest
  rw [List.append_assoc, List.cons_append] at lines
  rw [lines, List.append_assoc, List.cons_append]
  obtain non | quiet := silent
  · refine symbolPattern_other ?_
    rw [dropWhile_blank blank, dropWhile_blank non]
    exact fun none => by cases none
  · exact (symbolPattern_none (dropWhile_blank blank _)).2 (quiet []).2

/-- Behind a blank line or not, the items are read one after the other. -/
lemma parses_items (proper : MapProper items) (sections : List Section) {lead : List Char}
    (blank : lead = [] ∨ BlankLine lead) :
    Parses (lead ++ mapText items) sections (items.foldl MapItem.add sections) := by
  induction items generalizing lead sections with
  | nil =>
    obtain rfl | ⟨w, rfl, one, non⟩ := blank
    · exact parses_nil sections
    · rw [mapText, List.flatMap_nil, List.append_nil]
      refine parses_blank one non ?_ (parses_nil sections)
      rw [firstLines_few (by simp [List.count_eq_zero.2 one])]
      refine symbolPattern_other ?_
      rw [dropWhile_blank non]
      exact fun none => by cases none
  | cons item items ih =>
    obtain ⟨here, others⟩ := proper
    have next := ih others (item.add sections) (.inl rfl)
    rw [List.foldl_cons, mapText, List.flatMap_cons]
    cases item with
    | scn name gap pad addr gap' pad' size =>
      have read := parses_section here next
      obtain rfl | ⟨w, rfl, one, non⟩ := blank
      · exact read
      · obtain ⟨ne, word, zero, _⟩ := here
        obtain ⟨c, name, rfl⟩ := List.exists_cons_of_ne_nil ne
        rw [List.append_assoc]
        have silent := blank_word one non (word c (.head _)) (fun same => zero (same ▸ rfl))
        exact parses_blank one non (silent _) read
    | sym indent pad addr gap name =>
      obtain rfl | ⟨w, rfl, one, non⟩ := blank
      · exact parses_symbol here (List.forall_mem_nil _) (Nat.zero_le _) next
      · refine parses_symbol here (List.forall_mem_append.2 ⟨non, ?_⟩) (breaks_le one) next
        exact List.forall_mem_singleton.2 rfl
    | line text =>
      obtain ⟨one', silent⟩ := here
      have split : (MapItem.line text).text ++ items.flatMap MapItem.text =
          text ++ '\n' :: mapText items := by
        simp [MapItem.text, mapText]
      have read : Parses (text ++ '\n' :: mapText items) sections (items.foldl MapItem.add sections) := by
        obtain non | quiet := silent
        · -- the blank line may belong to the next item
          have later := ih others sections (.inr ⟨text, rfl, one', non⟩)
          rwa [List.append_assoc, List.singleton_append] at later
        · obtain ⟨rest', lines, _⟩ := firstLines_append (breaks_le one') (mapText items)
          rw [List.append_assoc, List.append_assoc, List.singleton_append, List.singleton_append] at lines
          exact parses_garbage one' (lines ▸ (quiet rest').1) (lines ▸ (quiet rest').2) next
      rw [split]
      obtain rfl | ⟨w, rfl, one, non⟩ := blank
      · exact read
      · rw [List.append_assoc]
        exact parses_blank one non (blank_line one non one' silent _) read

end Loop

/-! ### Lines with which nothing begins -/

section Quiet

variable {lead gap name : List Char} {c : Char}

/-- A line that begins with a word after its indent has no section and no symbol. -/
lemma quiet_indented (indent : Gap lead) (word : isWord c = true) (zero : c ≠ '0') (rest : List Char) :
    Quiet (lead ++ c :: rest) := by
  intro rest'
  constructor
  · obtain ⟨d, lead, rfl⟩ := List.exists_cons_of_ne_nil indent.1
    exact section_refuses (indent.2 d (.head _)) _
  · refine symbolPattern_other ?_
    rw [List.append_assoc, List.dropWhile_append_of_pos indent.2, List.cons_append,
      List.dropWhile_cons_of_neg (by simp [isNonWord, word])]
    exact fun same => zero (Option.some.inj same)

/-- A line of two words has no section and no symbol. -/
lemma quiet_words (ne : name ≠ []) (word : ∀ c ∈ name, isWord c = true) (first : name.head? ≠ some '0')
    (between : Gap gap) (second : isWord c = true) (zero : c ≠ '0') (rest : List Char) :
    Quiet (name ++ (gap ++ c :: rest)) := by
  intro rest'
  have nonWord : ∀ {d}, isWord d = true → isNonWord d = false := fun word => by simp [isNonWord, word]
  constructor
  · rw [List.append_assoc, List.append_assoc, List.cons_append]
    rw [Pattern.search, sectionPattern]
    refine (Pattern.run_plus_append ?_ ne word (between.no_word _)).trans ?_
    · exact fun d cs word => Pattern.run_refuses (show (!isNonWord d) = true by rw [nonWord word]; rfl)
    · refine (Pattern.run_plus_append ?_ between.1 between.2 ?_).trans ?_
      · refine fun d cs non => Pattern.run_refuses (hexNumber_refuses ?_)
        rintro rfl
        cases non
      · rintro _ ⟨⟩
        exact nonWord second
      · exact Pattern.run_refuses (hexNumber_refuses zero)
  · obtain ⟨d, name, rfl⟩ := List.exists_cons_of_ne_nil ne
    refine symbolPattern_other ?_
    have first_word : ¬ isNonWord d = true := by simp [nonWord (word d (.head _))]
    rw [List.cons_append, List.cons_append, List.dropWhile_cons_of_neg first_word]
    exact first

/-- A line of an object file has no symbol. -/
lemma quiet_object {pad n : Nat} (indent : Gap lead) (between : Gap gap) (ne : name ≠ [])
    (word : ∀ c ∈ name, isWord c = true) {rest : List Char} (stop : ∀ c ∈ rest.head?, isWord c = false)
    (free : ¬ [' ', '=', ' ', '.'] <+: rest) :
    Quiet (lead ++ (hexText pad n ++ (gap ++ (name ++ rest)))) := by
  intro rest'
  have nonWord : ∀ {d}, isWord d = true → isNonWord d = false := fun word => by simp [isNonWord, word]
  constructor
  · obtain ⟨d, lead, rfl⟩ := List.exists_cons_of_ne_nil indent.1
    exact section_refuses (indent.2 d (.head _)) _
  · have behind : (lead ++ (hexText pad n ++ (gap ++ (name ++ rest))) ++ '\n' :: rest').dropWhile isNonWord =
        hexText pad n ++ (gap ++ (name ++ (rest ++ '\n' :: rest'))) := by
      simp only [List.append_assoc]
      rw [List.dropWhile_append_of_pos indent.2]
      rfl
    rw [symbolPattern_dropWhile, behind]
    refine (hexNumber_append ?_ (between.no_hex _)).trans ?_
    · exact fun gs d cs hex =>
        Pattern.run_refuses (show (!isNonWord d) = true by rw [nonWord (isWord_of_hex hex)]; rfl)
    · refine (Pattern.run_plus_append ?_ between.1 between.2 ?_).trans ?_
      · exact fun d cs non => Pattern.run_refuses (show (!isWord d) = true from non)
      · obtain ⟨d, name, rfl⟩ := List.exists_cons_of_ne_nil ne
        rintro _ ⟨⟩
        exact nonWord (word d (.head _))
      · refine (Pattern.run_plus_append ?_ ne word ?_).trans (Pattern.run_literal_none ?_)
        · exact fun d cs word => Pattern.run_refuses (by
            show (!(d == ' ')) = true
            rw [Bool.not_eq_true', beq_eq_false_iff_ne]
            rintro rfl
            cases word)
        · cases rest with
          | nil =>
            rintro _ ⟨⟩
            rfl
          | cons e rest => exact stop
        · intro begins
          obtain shorter | longer := List.prefix_or_prefix_of_prefix begins (List.prefix_append rest _)
          · exact free shorter
          · -- the line break is none of the characters of the literal
            obtain ⟨t, split⟩ := longer
            rw [← split, List.prefix_append_right_inj] at begins
            cases t with
            | nil => exact free (by rw [← split, List.append_nil])
            | cons d t =>
              cases (List.cons_prefix_cons.1 begins).1
              have mem : '\n' ∈ [' ', '=', ' ', '.'] := split ▸ List.mem_append_right rest (.head t)
              exact absurd mem (by decide)

/-- Lines between the items match neither pattern. -/
lemma Idle.quiet {line : List Char} (idle : Idle line) : Quiet line := by
  cases idle with
  | indented indent word zero => exact quiet_indented indent word zero _
  | words ne word first between second zero => exact quiet_words ne word first between second zero _
  | object indent between ne word stop free => exact quiet_object indent between ne word stop free

end Quiet

/-! ### Maps -/

/-- The map that lists sections with their symbols. -/
def itemsOf (sections : List Section) : List MapItem :=
  sections.flatMap fun scn => .scn scn.name [' '] 0 scn.addr [' '] 0 scn.size :: .line [] ::
    scn.symbols.flatMap fun symbol => [.sym [' '] 0 symbol.addr [' '] symbol.name, .line []]

/-- The names and numbers can be written in a map. -/
def Section.Proper (scn : Section) : Prop :=
  scn.name ≠ [] ∧ (∀ c ∈ scn.name, isWord c = true) ∧ scn.name.head? ≠ some '0' ∧ scn.addr < 2 ^ 64 ∧
    scn.size < 2 ^ 64 ∧
    ∀ symbol ∈ scn.symbols, symbol.name ≠ [] ∧ (∀ c ∈ symbol.name, isWord c = true) ∧ symbol.addr < 2 ^ 64

/-- The symbols are added to the last section, one after the other. -/
lemma foldl_symbols (front : List Section) (scn : Section) (symbols : List Symbol) :
    (symbols.flatMap fun symbol => [.sym [' '] 0 symbol.addr [' '] symbol.name, .line []]).foldl MapItem.add
      (front ++ [scn]) = front ++ [{ scn with symbols := scn.symbols ++ symbols }] := by
  induction symbols generalizing scn with
  | nil => simp
  | cons symbol symbols ih =>
    rw [List.flatMap_cons, List.foldl_append]
    simp only [List.foldl_cons, List.foldl_nil, MapItem.add, List.modifyLast_concat]
    rw [ih]
    simp

/-- The items of the sections add these sections. -/
lemma foldl_itemsOf (front sections : List Section) :
    (itemsOf sections).foldl MapItem.add front = front ++ sections := by
  induction sections generalizing front with
  | nil => simp [itemsOf]
  | cons scn sections ih =>
    have whole := foldl_symbols front ⟨scn.name, scn.addr, scn.size, []⟩ scn.symbols
    rw [List.nil_append] at whole
    rw [itemsOf, List.flatMap_cons, List.cons_append, List.cons_append, List.foldl_cons, List.foldl_cons,
      List.foldl_append]
    simp only [MapItem.add, whole]
    exact (ih (front ++ [scn])).trans (List.append_assoc front [scn] sections)

/-- A blank is a gap. -/
lemma gap_blank : Gap [' '] := ⟨List.cons_ne_nil _ _, List.forall_mem_singleton.2 rfl⟩

/-- The lines of symbols can be written before any other items. -/
lemma symbols_proper {symbols : List Symbol} {items : List MapItem}
    (proper : ∀ symbol ∈ symbols,
      symbol.name ≠ [] ∧ (∀ c ∈ symbol.name, isWord c = true) ∧ symbol.addr < 2 ^ 64)
    (others : MapProper items) : MapProper ((symbols.flatMap fun symbol =>
      [.sym [' '] 0 symbol.addr [' '] symbol.name, .line []]) ++ items) := by
  induction symbols with
  | nil => exact others
  | cons symbol symbols ih =>
    obtain ⟨ne, word, low⟩ := proper symbol (.head _)
    refine ⟨⟨gap_blank, by decide, gap_blank, by decide, ne, word, low⟩, ⟨List.not_mem_nil, .inl ?_⟩, ?_⟩
    · exact List.forall_mem_nil _
    · exact ih fun symbol mem => proper symbol (.tail _ mem)

/-- The items of proper sections can be written. -/
lemma itemsOf_proper {sections : List Section} (proper : ∀ scn ∈ sections, scn.Proper) :
    MapProper (itemsOf sections) := by
  induction sections with
  | nil => trivial
  | cons scn sections ih =>
    obtain ⟨ne, word, zero, low, low', symbols⟩ := proper scn (.head _)
    refine ⟨⟨ne, word, zero, gap_blank, gap_blank, by decide, low, low', ?_⟩, ⟨List.not_mem_nil, .inl ?_⟩, ?_⟩
    · rintro _ ⟨⟩
      rfl
    · exact List.forall_mem_nil _
    · exact symbols_proper symbols (ih fun scn mem => proper scn (.tail _ mem))

/-- `map_parse` reads from a linker map exactly the sections and symbols that are written in it, whatever
lines stand between them and however the numbers are padded; the lines that a linker writes may stand there,
and every list of sections is written in some map. -/
theorem map_round_trip :
    (∀ items, MapProper items → ∀ fuel > (mapText items).length,
      mapParse fuel (mapText items) = some (.ok (sectionsOf items))) ∧
    (∀ line, Idle line → Quiet line) ∧
    ∀ sections : List Section, (∀ scn ∈ sections, scn.Proper) →
      MapProper (itemsOf sections) ∧ sectionsOf (itemsOf sections) = sections := by
  refine ⟨fun items proper fuel enough => ?_, fun line idle => idle.quiet, fun sections proper => ?_⟩
  · exact parses_items proper [] (.inl rfl) fuel enough (some 0) rfl
  · exact ⟨itemsOf_proper proper, (foldl_itemsOf [] sections).trans (List.nil_append _)⟩

end Irx.Blob
