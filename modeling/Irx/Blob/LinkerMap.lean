import Irx.Basic
import Irx.Lib.Pattern

/-!
# The linker map

Embedding of `map_parse` of `extract-blob/extract-blob-linker-map.cc`. The content of the file is a list of
bytes, as characters; `\w` is the class of the C locale. The regular expressions are matched at the start
of the remaining text only, and `stoul` throws beyond 64 bits. The do-while loop takes a bound on its
iterations.

An iteration that goes on takes a match of at least one character or a line away from the text
(`iteration_shortens`), so that the loop ends after as many iterations as the content has characters, and
one more.
-/

namespace Irx.Blob
open Irx.Lib

/-- `struct Symbol`. -/
structure Symbol where
  name : List Char
  addr : Nat
  deriving DecidableEq, Repr

/-- `struct Section`. -/
structure Section where
  name : List Char
  addr : Nat
  size : Nat
  symbols : List Symbol
  deriving DecidableEq, Repr

/-- `\w`. -/
def isWord (c : Char) : Bool := c.isAlphanum || c == '_'

/-- `\W`. -/
def isNonWord (c : Char) : Bool := !isWord c

/-- `[0-9a-f]`. -/
def isHex (c : Char) : Bool := ('0' ≤ c && c ≤ '9') || ('a' ≤ c && c ≤ 'f')

/-- `(0x[0-9a-f]+)`. -/
def hexNumber : Pattern Char := .group (.seq (.literal ['0', 'x']) (.plus isHex))

/-- `^(\w+)\W+(0x[0-9a-f]+)\W+(0x[0-9a-f]+)`. -/
def sectionPattern : Pattern Char :=
  .sequence [.group (.plus isWord), .plus isNonWord, hexNumber, .plus isNonWord, hexNumber]

/-- `^\W*(0x[0-9a-f]+)\W+(\w+) = \.`. -/
def symbolPattern : Pattern Char :=
  .sequence [.star isNonWord, hexNumber, .plus isNonWord, .group (.plus isWord),
    .literal [' ', '=', ' ', '.']]

/-- The value of a digit of `[0-9a-f]`. -/
def hexDigit (c : Char) : Nat :=
  if c ≤ '9' then c.toNat - '0'.toNat else c.toNat - 'a'.toNat + 10

/-- `stoul` to base 16 of a text that the pattern of a number has matched. -/
def stoul (text : List Char) : Except Abort Nat :=
  let value := (text.drop 2).foldl (fun n c => 16 * n + hexDigit c) 0
  if value < 18446744073709551616 then .ok value else .error .outOfRange

/-- `find` of a character from a position on; `npos` is `none`. -/
def find (s : List Char) (c : Char) (start : Nat) : Option Nat :=
  ((s.drop start).findIdx? (· == c)).map (· + start)

/-- `str`: the first two lines, or the whole text if it has less than two. -/
def firstLines (s : List Char) : List Char :=
  let str :=
    match find s '\n' 0 with
    | none => []
    | some stop =>
      match find s '\n' (stop + 1) with
      | none => []
      | some stop => s.take (stop + 1)
  if str.length = 0 then s else str

/-- The variables of the loop; `pos` is `0` before the first iteration. -/
structure MapState where
  s : List Char
  sections : List Section := []
  pos : Option Nat := some 0
  deriving DecidableEq, Repr

/-- What a match of the section pattern adds. -/
def addSection (groups : List (List Char)) (sections : List Section) : Except Abort (List Section) :=
  match groups with
  | [name, addr, size] => do
    let addr ← stoul addr
    let size ← stoul size
    .ok (sections ++ [⟨name, addr, size, []⟩])
  | _ => .ok sections

/-- What a match of the symbol pattern adds, to the last section if there is one. -/
def addSymbol (groups : List (List Char)) (sections : List Section) : Except Abort (List Section) :=
  match groups with
  | [addr, name] => do
    let addr ← stoul addr
    .ok (sections.modifyLast fun scn => { scn with symbols := scn.symbols ++ [⟨name, addr⟩] })
  | _ => .ok sections

/-- The body of the loop. `continue` leaves `pos` as an earlier iteration has set it. -/
def iteration (m : MapState) : Except Abort MapState :=
  let str := firstLines m.s
  match sectionPattern.search str with
  | some found => do
    let sections ← addSection found.groups m.sections
    .ok { m with sections := sections, s := m.s.drop found.length }
  | none =>
    match symbolPattern.search str with
    | some found => do
      let sections ← addSymbol found.groups m.sections
      .ok { m with sections := sections, s := m.s.drop found.length }
    | none =>
      -- consume garbage until new line
      match find m.s '\n' 0 with
      | some pos => .ok { m with pos := some pos, s := m.s.drop (pos + 1) }
      | none => .ok { m with pos := none }

/-- The do-while loop with at most `fuel` iterations; `none` when these do not suffice. -/
def mapParseLoop : Nat → MapState → Option (Except Abort (List Section))
  | 0, _ => none
  | fuel + 1, m =>
    match iteration m with
    | .error e => some (.error e)
    | .ok m => if m.pos.isSome then mapParseLoop fuel m else some (.ok m.sections)

/-- `map_parse` on the content of the file. -/
def mapParse (fuel : Nat) (content : List Char) : Option (Except Abort (List Section)) :=
  mapParseLoop fuel { s := content }

example : mapParse 99 "text 0x10 0x2f\n  0x1a  _start = .\nend".toList =
    some (.ok [⟨"text".toList, 16, 47, [⟨"_start".toList, 26⟩]⟩]) := by decide +kernel

variable {s : List Char} {m m' : MapState}

/-- What is found is in the string. -/
lemma find_lt {c : Char} {pos : Nat} (h : find s c 0 = some pos) : pos < s.length := by
  rw [find, List.drop_zero, Option.map_eq_some_iff] at h
  obtain ⟨i, found, e⟩ := h
  obtain ⟨lt, _⟩ := List.findIdx?_eq_some_iff_getElem.1 found
  rwa [← e]

/-- The lines that are searched are a beginning of the text. -/
lemma firstLines_begins (s : List Char) : firstLines s <+: s := by
  cases first : find s '\n' 0 with
  | none => simp [firstLines, first]
  | some stop =>
    cases second : find s '\n' (stop + 1) with
    | none => simp [firstLines, first, second]
    | some stop' =>
      simp only [firstLines, first, second]
      split
      · exact List.prefix_refl _
      · exact List.take_prefix _ _

/-- A match takes away at least as many characters as its pattern is wide. -/
lemma length_drop_match {r : Pattern Char} {found : Match Char} (wide : 0 < r.width)
    (h : r.search (firstLines s) = some found) : (s.drop found.length).length < s.length := by
  obtain ⟨least, inside⟩ := Pattern.search_length h
  have := (firstLines_begins s).length_le
  rw [List.length_drop]
  omega

/-- Each iteration after which the loop goes on shortens the text. -/
lemma iteration_shortens (h : iteration m = .ok m') (goes_on : m'.pos ≠ none) :
    m'.s.length < m.s.length := by
  rw [iteration] at h
  cases scn : sectionPattern.search (firstLines m.s) with
  | some found =>
    rw [scn] at h
    obtain ⟨_, _, e⟩ := bind_eq_ok.1 h
    cases e
    exact length_drop_match (by decide) scn
  | none =>
    rw [scn] at h
    cases sym : symbolPattern.search (firstLines m.s) with
    | some found =>
      rw [sym] at h
      obtain ⟨_, _, e⟩ := bind_eq_ok.1 h
      cases e
      exact length_drop_match (by decide) sym
    | none =>
      rw [sym] at h
      cases garbage : find m.s '\n' 0 with
      | some pos =>
        rw [garbage] at h
        cases h
        have := find_lt garbage
        show (m.s.drop (pos + 1)).length < m.s.length
        rw [List.length_drop]
        omega
      | none =>
        rw [garbage] at h
        cases h
        exact absurd rfl goes_on

/-- `stoul` fails only on a number that is too large. -/
lemma stoul_error {text : List Char} {e : Abort} (h : stoul text = .error e) : e = .outOfRange := by
  rw [stoul] at h
  split at h
  · exact nomatch h
  · cases h
    rfl

/-- Adding a section fails only on a number that is too large. -/
lemma addSection_error {groups : List (List Char)} {sections : List Section} {e : Abort}
    (h : addSection groups sections = .error e) : e = .outOfRange := by
  rw [addSection.eq_def] at h
  split at h
  · rename_i name addr size
    cases first : stoul addr with
    | error e' =>
      rw [first] at h
      cases h
      exact stoul_error first
    | ok a =>
      cases second : stoul size with
      | error e' =>
        rw [first, second] at h
        cases h
        exact stoul_error second
      | ok b =>
        rw [first, second] at h
        exact nomatch h
  · exact nomatch h

/-- Adding a symbol fails only on a number that is too large. -/
lemma addSymbol_error {groups : List (List Char)} {sections : List Section} {e : Abort}
    (h : addSymbol groups sections = .error e) : e = .outOfRange := by
  rw [addSymbol.eq_def] at h
  split at h
  · rename_i addr name
    cases first : stoul addr with
    | error e' =>
      rw [first] at h
      cases h
      exact stoul_error first
    | ok a =>
      rw [first] at h
      exact nomatch h
  · exact nomatch h

/-- An iteration fails only on a number beyond 64 bits. -/
lemma iteration_error {e : Abort} (h : iteration m = .error e) : e = .outOfRange := by
  rw [iteration] at h
  split at h
  · rename_i found scn
    cases added : addSection found.groups m.sections with
    | error e' =>
      rw [added] at h
      cases h
      exact addSection_error added
    | ok sections =>
      rw [added] at h
      exact nomatch h
  · split at h
    · rename_i found sym
      cases added : addSymbol found.groups m.sections with
      | error e' =>
        rw [added] at h
        cases h
        exact addSymbol_error added
      | ok sections =>
        rw [added] at h
        exact nomatch h
    · split at h
      · exact nomatch h
      · exact nomatch h

/-- From any state the loop ends with one result for every bound above the length of the text. -/
lemma mapParseLoop_ends (m : MapState) :
    ∃ result, (∀ fuel > m.s.length, mapParseLoop fuel m = some result) ∧
      ((∃ sections, result = .ok sections) ∨ result = .error .outOfRange) := by
  induction n : m.s.length using Nat.strong_induction_on generalizing m with
  | h n ih =>
    subst n
    cases step : iteration m with
    | error e =>
      refine ⟨.error e, fun fuel lt => ?_, .inr (by rw [iteration_error step])⟩
      obtain ⟨k, rfl⟩ := Nat.exists_eq_add_of_lt lt
      rw [mapParseLoop, step]
    | ok m' =>
      cases pos : m'.pos with
      | none =>
        refine ⟨.ok m'.sections, fun fuel lt => ?_, .inl ⟨_, rfl⟩⟩
        obtain ⟨k, rfl⟩ := Nat.exists_eq_add_of_lt lt
        simp [mapParseLoop, step, pos]
      | some p =>
        -- the loop goes on with a shorter text, for which one iteration less is enough
        have shorter : m'.s.length < m.s.length := iteration_shortens step (by simp [pos])
        obtain ⟨result, ends, form⟩ := ih m'.s.length shorter m' rfl
        refine ⟨result, fun fuel lt => ?_, form⟩
        obtain ⟨k, rfl⟩ := Nat.exists_eq_add_of_lt lt
        rw [← ends (m.s.length + k) (by omega)]
        simp [mapParseLoop, step, pos]

/-- `map_parse` ends on every content: each iteration that goes on shortens the remaining text, and with
more iterations than the content has characters the loop ends, with the sections or with the exception for
a number beyond 64 bits. -/
theorem mapParse_terminates (content : List Char) :
    (∀ m m', iteration m = .ok m' → m'.pos ≠ none → m'.s.length < m.s.length) ∧
      ∃ result, (∀ fuel > content.length, mapParse fuel content = some result) ∧
        ((∃ sections, result = .ok sections) ∨ result = .error .outOfRange) :=
  ⟨fun _ _ => iteration_shortens, mapParseLoop_ends { s := content }⟩

end Irx.Blob
