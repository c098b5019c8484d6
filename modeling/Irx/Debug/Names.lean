import Irx.Debug.Paths

/-!
# Struct types by name

`getTypeByName` takes a name for a struct type of this name or of this name with a suffix, and is meant to
refuse it if the matches differ in their layouts. It compares each match with itself, so that only names
whose matches agree get the answer that is meant (`getTypeByName_iff`).
-/

namespace Irx.Debug
open Irx.Lib

/-- The name is that of the struct type, or that without the suffix behind its last point. -/
def Called (name sname : String) : Prop :=
  sname = name ∨ ∃ suffix : String, '.' ∉ suffix.toList ∧ sname = name ++ "." ++ suffix

/-- A struct type that the name can stand for. -/
def Match (M : IRModule) (name : String) (Ty : LType) : Prop :=
  ∃ sname, (sname, Ty) ∈ M.structTypes ∧ Called name sname

/-- All matches have the same layout. -/
def Unambiguous (M : IRModule) (name : String) : Prop :=
  ∀ S T, Match M name S → Match M name T → M.isLayoutIdentical S T

/-- A match is returned only where there is no ambiguity, and is returned then if there is one. -/
structure Answered (M : IRModule) (name : String) (answer : Option LType) : Prop where
  sound : ∀ Ty, answer = some Ty → Match M name Ty ∧ Unambiguous M name
  complete : Unambiguous M name → ∀ S, Match M name S → ∃ Ty, answer = some Ty

variable {M : IRModule} {name sname : String} {Ty : LType}

/-! ### Matching -/

/-- What is left of the last point. -/
lemma strip_last {front back : List Char} (none : '.' ∉ back) :
    (((front ++ '.' :: back).reverse.dropWhile (· ≠ '.')).drop 1).reverse = front := by
  have passed : ∀ c ∈ back.reverse, (decide (c ≠ '.')) = true := by
    intro c mem
    refine decide_eq_true ?_
    rintro rfl
    exact none (List.mem_reverse.1 mem)
  rw [List.reverse_append, List.reverse_cons, List.append_assoc, List.dropWhile_append_of_pos passed]
  simp

/-- A name with a point has a last one. -/
lemma exists_last {l : List Char} (mem : '.' ∈ l) : ∃ front back, l = front ++ '.' :: back ∧ '.' ∉ back := by
  obtain ⟨back, front, e, none⟩ := List.eq_append_cons_of_mem (List.mem_reverse.2 mem)
  refine ⟨front.reverse, back.reverse, ?_, ?_⟩
  · have e' := congrArg List.reverse e
    rw [List.reverse_reverse, List.reverse_append, List.reverse_cons, List.append_assoc] at e'
    exact e'
  · rw [List.mem_reverse]
    exact none

/-- A suffix without a dot is taken off. -/
lemma stripedName_suffix {suffix : String} (none : '.' ∉ suffix.toList) :
    stripedName (name ++ "." ++ suffix) = name := by
  have chars : (name ++ "." ++ suffix).toList = name.toList ++ '.' :: suffix.toList := by
    rw [String.toList_append, String.toList_append, List.append_assoc]
    rfl
  have mem : '.' ∈ (name ++ "." ++ suffix).toList := by
    rw [chars]
    exact List.mem_append_right _ (.head _)
  rw [stripedName, if_pos mem, chars, strip_last none, String.ofList_toList]

/-- What the code takes for a match is one. -/
lemma called_iff : (sname = name || stripedName sname = name) = true ↔ Called name sname := by
  rw [Bool.or_eq_true, decide_eq_true_eq, decide_eq_true_eq]
  constructor
  · rintro (same | striped)
    · exact .inl same
    · by_cases mem : '.' ∈ sname.toList
      · obtain ⟨front, back, e, none⟩ := exists_last mem
        rw [stripedName, if_pos mem, e, strip_last none] at striped
        refine .inr ⟨String.ofList back, by rwa [String.toList_ofList], ?_⟩
        rw [← striped, ← String.toList_inj, e, String.toList_append, String.toList_append,
          String.toList_ofList, List.append_assoc, String.toList_ofList, String.toList_ofList]
        rfl
      · rw [stripedName, if_neg mem] at striped
        exact .inl striped
  · rintro (same | ⟨suffix, none, rfl⟩)
    · exact .inl same
    · exact .inr (stripedName_suffix none)

/-- The matches in the order of the module. -/
lemma match_iff : Match M name Ty ↔
    Ty ∈ (M.structTypes.filter fun S => S.1 = name || stripedName S.1 = name).map Prod.snd := by
  constructor
  · rintro ⟨sname, mem, called⟩
    exact List.mem_map.2 ⟨(sname, Ty), List.mem_filter.2 ⟨mem, called_iff.2 called⟩, rfl⟩
  · intro mem
    obtain ⟨⟨sname, _⟩, filtered, rfl⟩ := List.mem_map.1 mem
    obtain ⟨mem, called⟩ := List.mem_filter.1 filtered
    exact ⟨sname, mem, called_iff.1 called⟩

/-! ### The answer -/

/-- The first match is returned, whatever the others are. -/
lemma getTypeByNameUncached_eq : getTypeByNameUncached M name =
    ((M.structTypes.filter fun S => S.1 = name || stripedName S.1 = name).map Prod.snd).head? := by
  rw [getTypeByNameUncached]
  cases M.structTypes.filter fun S => S.1 = name || stripedName S.1 = name with
  | nil => rfl
  | cons Ty others =>
    have all : (others.all fun S => M.isLayoutIdentical S.2 S.2) = true :=
      List.all_eq_true.2 fun S _ => M.identical_self S.2
    simp only [all, if_true]
    rfl

/-- The answer is the one that is meant exactly for the names that are not ambiguous. -/
theorem getTypeByName_iff (M : IRModule) (name : String) :
    Answered M name (getTypeByNameUncached M name) ↔ Unambiguous M name := by
  have first : ∀ S, Match M name S → ∃ Ty, getTypeByNameUncached M name = some Ty := by
    intro S is
    rw [getTypeByNameUncached_eq]
    obtain ⟨Ty, others, e⟩ := List.exists_cons_of_ne_nil (List.ne_nil_of_mem (match_iff.1 is))
    rw [e]
    exact ⟨Ty, rfl⟩
  constructor
  · intro answered S T isS isT
    obtain ⟨Ty, e⟩ := first S isS
    exact (answered.sound Ty e).2 S T isS isT
  · intro unambiguous
    refine ⟨fun Ty e => ⟨?_, unambiguous⟩, fun _ => first⟩
    rw [getTypeByNameUncached_eq] at e
    exact match_iff.2 (List.mem_of_head? e)

/-- A module without debug types. -/
def noDebug : DebugInfo := .ofList [] (by decide)

/-- Two types `struct.list` and `struct.list.0` of different sizes. -/
def listModule : IRModule where
  debug := noDebug
  types := []
  structTypes := [("struct.list", .struct [.scalar 32]), ("struct.list.0", .struct [.scalar 64])]
  layout := .natural
  isLayoutIdentical S T := DataLayout.natural.allocSize S = DataLayout.natural.allocSize T
  identical_self _ := decide_eq_true rfl

/-- The first of the two is returned. -/
theorem list_ambiguous : ¬ Unambiguous listModule "struct.list" ∧
    getTypeByNameUncached listModule "struct.list" = some (.struct [.scalar 32]) ∧
    ¬ Answered listModule "struct.list" (getTypeByNameUncached listModule "struct.list") := by
  have returned : getTypeByNameUncached listModule "struct.list" = some (.struct [.scalar 32]) := rfl
  have ambiguous : ¬ Unambiguous listModule "struct.list" := by
    intro unambiguous
    have same := unambiguous (.struct [.scalar 32]) (.struct [.scalar 64])
      ⟨"struct.list", .head _, .inl rfl⟩ ⟨"struct.list.0", .tail _ (.head _), .inr ⟨"0", by decide, rfl⟩⟩
    exact absurd same (by decide)
  exact ⟨ambiguous, returned, fun answered => ambiguous (answered.sound _ returned).2⟩

end Irx.Debug
