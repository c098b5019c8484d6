import Irx.Debug.Graph
import Irx.Lib.Acyclic
import Irx.Lib.Fuel

/-!
# The basic type below a debug type

`toBasicType` on any finite graph of C types, in which cycles may pass through structs, unions and pointers.
The loop is that of the other functions, on bare nodes, without the ranks of a `DebugInfo`. One step of the
abstract stripping goes from a member, a typedef, a qualifier or an array to the type it is made from
(`StripStep`). A round of the loop takes one or two of these steps, and looks at every node on its way
(`Stripped.round`).
-/

namespace Irx.Debug
open Irx.Lib Relation

/-- Struct, union and pointer. -/
def Tag.Stops (tag : Tag) : Prop := tag = .structureType ∨ tag = .unionType ∨ tag = .pointerType

/-- `DW_TAG_enumeration_type`. -/
def Tag.enumerationType : Tag := .other 0x04

/-- `DW_TAG_const_type`. -/
def Tag.constType : Tag := .other 0x26

/-- `DW_TAG_volatile_type`. -/
def Tag.volatileType : Tag := .other 0x35

/-- `DW_TAG_restrict_type`. -/
def Tag.restrictType : Tag := .other 0x37

/-- `DW_TAG_atomic_type`. -/
def Tag.atomicType : Tag := .other 0x47

/-- The debug types that C declarations have. -/
inductive IsCType : DIType → Prop
  | basic {name bits} : IsCType (.basic name bits)
  | derived {tag name bits base} :
    tag ∈ [.pointerType, .member, .typedef, .constType, .volatileType, .restrictType, .atomicType] →
    IsCType (.derived tag name bits base)
  | composite {tag name bits base elements} :
    tag ∈ [.structureType, .unionType, .arrayType, .enumerationType] →
    IsCType (.composite tag name bits base elements)
  | subroutine : IsCType .subroutine

/-- The node with a number in a list of debug types. -/
def typeAt (nodes : List DIType) (n : Nat) : DIType := nodes.getD n .subroutine

variable {node : Nat → DIType} {n m b rounds : Nat} {DITy last : Option Nat} {r : Option Nat}

/-- One step of stripping: a member, a typedef or a qualifier gives way to its base, an array to its
element type. -/
inductive StripStep (node : Nat → DIType) : Option Nat → Option Nat → Prop
  | derived {n tag name bits base} : node n = .derived tag name bits base → ¬ tag.Stops →
    StripStep node (some n) base
  | array {n name bits base elements} : node n = .composite .arrayType name bits base elements →
    StripStep node (some n) base

/-- Stripping as far as it goes. -/
def Strips (node : Nat → DIType) (DITy last : Option Nat) : Prop :=
  ReflTransGen (StripStep node) DITy last ∧ ∀ next, ¬ StripStep node last next

/-- A struct, union, pointer, enumeration, function type or void. -/
def WithoutBasic (node : Nat → DIType) : Option Nat → Prop
  | none => True
  | some n => (node n).getTag.Stops ∨ (node n).getTag = .enumerationType ∨ node n = .subroutine

/-- A node that is no struct, union or pointer, and a node that it contains or is made from. -/
def LeadsTo (node : Nat → DIType) (n m : Nat) : Prop := ¬ (node n).getTag.Stops ∧ m ∈ (node n).parts

/-- What the loop comes to from a cursor. -/
def Stripped (node : Nat → DIType) (DITy : Option Nat) : Prop :=
  ∃ r last, Settles (toBasicTypeLoop node · DITy) r ∧ Strips node DITy last ∧
    ((∃ m name bits, r = some m ∧ last = some m ∧ node m = .basic name bits) ∨
      r = none ∧ WithoutBasic node last)

/-- Stripping is deterministic. -/
lemma StripStep.unique {x y z : Option Nat} (first : StripStep node x y) (second : StripStep node x z) :
    y = z := by
  cases first with
  | derived e _ =>
    cases second with
    | derived e' _ =>
      cases e.symm.trans e'
      rfl
    | array e' => cases e.symm.trans e'
  | array e =>
    cases second with
    | derived e' _ => cases e.symm.trans e'
    | array e' =>
      cases e.symm.trans e'
      rfl

/-- A missing type is stripped. -/
lemma outcome_none : Stripped node none :=
  ⟨none, none, ⟨0, fun _ _ => toBasicTypeLoop_none _⟩, ⟨.refl, nofun⟩, .inr ⟨rfl, trivial⟩⟩

/-- A round that takes some steps and goes on. -/
lemma Stripped.call {next : Option Nat} (o : Stripped node next)
    (steps : ReflTransGen (StripStep node) DITy next)
    (e : ∀ rounds, toBasicTypeLoop node (rounds + 1) DITy = toBasicTypeLoop node rounds next) :
    Stripped node DITy := by
  obtain ⟨r, last, settles, strips, kind⟩ := o
  exact ⟨r, last, settles.call e, ⟨steps.trans strips.1, strips.2⟩, kind⟩

/-- A round that ends the loop. -/
lemma Stripped.stop (steps : ReflTransGen (StripStep node) DITy (some m))
    (final : ∀ next, ¬ StripStep node (some m) next)
    (e : ∀ rounds, toBasicTypeLoop node (rounds + 1) DITy = .ok r)
    (kind : (∃ name bits, r = some m ∧ node m = .basic name bits) ∨ r = none ∧ WithoutBasic node (some m)) :
    Stripped node DITy := by
  refine ⟨r, some m, (Settles.ok r).call e, ⟨steps, final⟩, ?_⟩
  rcases kind with ⟨name, bits, e, basic⟩ | kind
  · exact .inl ⟨m, name, bits, e, rfl, basic⟩
  · exact .inr kind

/-- Arrays do not stop the loop. -/
lemma plain_arrayType : ¬ Tag.arrayType.Stops := by
  intro stops
  rcases stops with h | h | h <;> cases h

/-- Stripping does not go on from a struct, union or pointer. -/
lemma no_step_of_stops (stops : (node n).getTag.Stops) (next : Option Nat) :
    ¬ StripStep node (some n) next := by
  intro step
  cases step with
  | derived e plain =>
    rw [e] at stops
    exact plain stops
  | array e =>
    rw [e] at stops
    exact plain_arrayType stops

/-- Stripping goes to a node that the type is made from. -/
lemma StripStep.leadsTo (step : StripStep node (some n) (some b)) : LeadsTo node n b := by
  cases step with
  | @derived _ tag _ _ _ e plain =>
    rw [LeadsTo, e]
    refine ⟨plain, ?_⟩
    rw [DIType.parts, if_neg fun pointer => plain (.inr (.inr pointer))]
    exact List.mem_singleton_self b
  | array e =>
    rw [LeadsTo, e]
    exact ⟨plain_arrayType, List.mem_append_left _ (.head _)⟩

/-- The loop ends at a struct, union or pointer. -/
lemma toBasicTypeLoop_stops (stops : (node n).getTag.Stops) :
    toBasicTypeLoop node (rounds + 1) (some n) = .ok none := by
  rw [toBasicTypeLoop]
  rcases stops with h | h | h <;> simp [h]

/-- At a derived type the second half of the body looks at the base type. -/
lemma toBasicTypeLoop_derived {tag : Tag} {name : String} {bits : Nat} {base : Option Nat}
    (e : node n = .derived tag name bits base) (plain : ¬ tag.Stops) :
    toBasicTypeLoop node (rounds + 1) (some n) =
      base.elim (.ok none) (secondHalf node (toBasicTypeLoop node rounds)) := by
  have own : (node n).getTag = tag := by
    rw [e]
    rfl
  rw [toBasicTypeLoop, own, if_neg fun h => plain (.inl h), if_neg fun h => plain (.inr (.inl h)),
    if_neg fun h => plain (.inr (.inr h)), e]
  cases base with
  | none => exact toBasicTypeLoop_none _
  | some m => rfl

/-- At another type it looks at the type. -/
lemma toBasicTypeLoop_other (plain : ¬ (node n).getTag.Stops)
    (other : ∀ tag name bits base, node n ≠ .derived tag name bits base) :
    toBasicTypeLoop node (rounds + 1) (some n) =
      secondHalf node (toBasicTypeLoop node rounds) n := by
  rw [toBasicTypeLoop, if_neg fun h => plain (.inl h), if_neg fun h => plain (.inr (.inl h)),
    if_neg fun h => plain (.inr (.inr h))]
  cases e : node n with
  | derived tag name bits base => exact absurd e (other tag name bits base)
  | basic => rfl
  | composite => rfl
  | subroutine => rfl

/-- A round whose cursor comes to a node before the second half of the body. -/
lemma Stripped.round (steps : ReflTransGen (StripStep node) DITy (some m)) (type : IsCType (node m))
    (e : ∀ rounds, toBasicTypeLoop node (rounds + 1) DITy =
      secondHalf node (toBasicTypeLoop node rounds) m)
    (derived : ∀ tag name bits base, node m = .derived tag name bits base → Stripped node (some m))
    (array : ∀ name bits base elements, node m = .composite .arrayType name bits base elements →
      Stripped node base) : Stripped node DITy := by
  cases kind : node m with
  | basic name bits =>
    apply Stripped.stop (r := some m) steps
    · intro next step
      cases step with
      | derived e' => cases kind.symm.trans e'
      | array e' => cases kind.symm.trans e'
    · intro rounds
      rw [e, secondHalf, kind]
    · exact .inl ⟨name, bits, rfl, kind⟩
  | derived tag name bits base =>
    apply (derived tag name bits base kind).call steps
    intro rounds
    rw [e, secondHalf, kind]
  | composite tag name bits base elements =>
    rw [kind] at type
    cases type with
    | composite allowed =>
      rcases Classical.em (tag = .arrayType) with rfl | other
      · apply (array name bits base elements kind).call (steps.tail (.array kind))
        intro rounds
        rw [e, secondHalf, kind]
        rfl
      · apply Stripped.stop (r := none) steps
        · intro next step
          cases step with
          | derived e' => cases kind.symm.trans e'
          | array e' =>
            cases kind.symm.trans e'
            exact other rfl
        · intro rounds
          rw [e, secondHalf, kind]
          exact (if_neg other).trans (toBasicTypeLoop_none _)
        · refine .inr ⟨rfl, ?_⟩
          rw [WithoutBasic, kind]
          simp only [List.mem_cons, List.not_mem_nil, or_false] at allowed
          rcases allowed with h | h | h | h
          · exact .inl (.inl h)
          · exact .inl (.inr (.inl h))
          · exact absurd h other
          · exact .inr (.inl h)
  | subroutine =>
    apply Stripped.stop (r := none) steps
    · intro next step
      cases step with
      | derived e' => cases kind.symm.trans e'
      | array e' => cases kind.symm.trans e'
    · intro rounds
      rw [e, secondHalf, kind, toBasicTypeLoop_none]
    · exact .inr ⟨rfl, .inr (.inr kind)⟩

/-- A node of which all that lies behind it has an outcome has one. -/
lemma outcome_step (types : ∀ k, IsCType (node k))
    (ih : ∀ b, TransGen (LeadsTo node) n b → Stripped node (some b)) : Stripped node (some n) := by
  have below : ∀ k next, ReflTransGen (LeadsTo node) n k → StripStep node (some k) next →
      Stripped node next := by
    intro k next path step
    cases next with
    | none => exact outcome_none
    | some b => exact ih b (TransGen.tail' path step.leadsTo)
  rcases Classical.em (node n).getTag.Stops with stops | plain
  · apply Stripped.stop (r := none) .refl (no_step_of_stops stops)
    · intro rounds
      exact toBasicTypeLoop_stops stops
    · exact .inr ⟨rfl, .inl stops⟩
  · rcases Classical.em (∃ tag name bits base, node n = .derived tag name bits base) with own | other
    · obtain ⟨tag, name, bits, base, kind⟩ := own
      have plain' : ¬ tag.Stops := by
        rw [kind] at plain
        exact plain
      have step : StripStep node (some n) base := .derived kind plain'
      cases base with
      | none =>
        apply outcome_none.call (.single step)
        intro rounds
        exact (toBasicTypeLoop_derived kind plain').trans (toBasicTypeLoop_none _).symm
      | some m =>
        -- the cursor moves to the base, and the second half of the body looks at that
        have path : ReflTransGen (LeadsTo node) n m := .single step.leadsTo
        apply Stripped.round (.single step) (types m)
        · intro rounds
          exact toBasicTypeLoop_derived kind plain'
        · intro _ _ _ _ _
          exact below n (some m) .refl step
        · intro _ _ base _ kind'
          exact below m base path (.array kind')
    · apply Stripped.round .refl (types n)
      · intro rounds
        exact toBasicTypeLoop_other plain fun tag name bits base e => other ⟨tag, name, bits, base, e⟩
      · intro tag name bits base e
        exact absurd ⟨tag, name, bits, base, e⟩ other
      · intro _ _ base _ kind
        exact below n base .refl (.array kind)

/-- A basic type is one. -/
lemma not_withoutBasic {name : String} {bits : Nat} (basic : node n = .basic name bits) :
    ¬ WithoutBasic node (some n) := by
  rw [WithoutBasic, basic]
  intro without
  rcases without with (h | h | h) | h | h <;> cases h

/-- Behind the list there are function types only. -/
lemma typeAt_of_le {nodes : List DIType} (le : nodes.length ≤ n) : typeAt nodes n = .subroutine :=
  List.getD_eq_default _ _ le

/-- All nodes are C types if the listed ones are. -/
lemma typeAt_isCType {nodes : List DIType} (types : ∀ t ∈ nodes, IsCType t) (n : Nat) :
    IsCType (typeAt nodes n) := by
  rcases Nat.lt_or_ge n nodes.length with lt | le
  · rw [typeAt, List.getD_eq_getElem _ _ lt]
    exact types _ (List.getElem_mem lt)
  · rw [typeAt_of_le le]
    exact .subroutine

/-- Only finitely many nodes lead on. -/
lemma finite_leadsTo (nodes : List DIType) : {n | ∃ m, LeadsTo (typeAt nodes) n m}.Finite := by
  apply (Set.finite_Iio nodes.length).subset
  rintro n ⟨m, _, part⟩
  apply Nat.lt_of_not_le
  intro le
  rw [typeAt_of_le le] at part
  exact nomatch part

/-- On a graph of C types whose cycles all pass through a struct, union or pointer, `toBasicType` ends
from every node. It returns the basic type that stripping ends at, and null exactly when stripping ends in a
struct, union, pointer, enumeration, function type or void. -/
theorem toBasicType_strips (nodes : List DIType) (types : ∀ t ∈ nodes, IsCType t)
    (cycles : ∀ n, ¬ TransGen (LeadsTo (typeAt nodes)) n n) (DITy : Option Nat) :
    ∃ r last, Settles (toBasicTypeLoop (typeAt nodes) · DITy) r ∧ Strips (typeAt nodes) DITy last ∧
      (∀ m, r = some m ↔ last = some m ∧ ∃ name bits, typeAt nodes m = .basic name bits) ∧
      (r = none ↔ WithoutBasic (typeAt nodes) last) := by
  have outcome : Stripped (typeAt nodes) DITy := by
    cases DITy with
    | none => exact outcome_none
    | some n =>
      exact acyclic_induction (P := fun n => Stripped (typeAt nodes) (some n)) (finite_leadsTo nodes)
        cycles (fun _ ih => outcome_step (typeAt_isCType types) ih) n
  obtain ⟨r, last, settles, strips, kind⟩ := outcome
  refine ⟨r, last, settles, strips, ?_⟩
  rcases kind with ⟨m, name, bits, rfl, rfl, basic⟩ | ⟨rfl, without⟩
  · refine ⟨fun k => ⟨fun e => ?_, fun e => e.1⟩, nofun, fun without => ?_⟩
    · cases e
      exact ⟨rfl, name, bits, basic⟩
    · exact absurd without (not_withoutBasic basic)
  · refine ⟨fun k => ⟨nofun, fun e => ?_⟩, fun _ => without, fun _ => rfl⟩
    obtain ⟨rfl, name, bits, basic⟩ := e
    exact absurd without (not_withoutBasic basic)

/-- Where only structs, unions and pointers lead to earlier nodes, no cycle avoids them. -/
lemma cycles_of_ordered {nodes : List DIType}
    (ordered : ∀ n < nodes.length, ¬ (typeAt nodes n).getTag.Stops →
      ∀ m ∈ (typeAt nodes n).parts, n < m) (n : Nat) : ¬ TransGen (LeadsTo (typeAt nodes)) n n := by
  have forward : ∀ a b, LeadsTo (typeAt nodes) a b → a < b := by
    intro a b leads
    rcases Nat.lt_or_ge a nodes.length with lt | le
    · exact ordered a lt leads.1 b leads.2
    · have part := leads.2
      rw [typeAt_of_le le] at part
      exact nomatch part
  have along : ∀ a b, TransGen (LeadsTo (typeAt nodes)) a b → a < b := by
    intro a b path
    induction path with
    | single leads => exact forward _ _ leads
    | tail _ leads ih => exact ih.trans (forward _ _ leads)
  exact fun cycle => lt_irrefl n (along n n cycle)

instance (tag : Tag) : Decidable tag.Stops := inferInstanceAs (Decidable (_ ∨ _))

/-- The name of a type of times. -/
def ticksName : String := "ticks"

/-- `struct list { struct list *next; const ticks deadline[4]; }` with a typedef `ticks`. -/
def listTypes : List DIType :=
  [.composite .structureType "list" 320 none [.type 1, .type 3],
    .derived .member "next" 64 (some 2), .derived .pointerType "" 64 (some 0),
    .derived .member "deadline" 256 (some 4), .composite .arrayType "" 256 (some 5) [.other],
    .derived .constType "" 0 (some 6), .derived .typedef ticksName 64 (some 7), .basic "unsigned long" 64]

/-- The member `deadline`, an array of qualified typedefs. -/
theorem toBasicType_strips_deadline :
    ∃ r last, Settles (toBasicTypeLoop (typeAt listTypes) · (some 3)) r ∧
      Strips (typeAt listTypes) (some 3) last ∧
      (∀ m, r = some m ↔ last = some m ∧ ∃ name bits, typeAt listTypes m = .basic name bits) ∧
      (r = none ↔ WithoutBasic (typeAt listTypes) last) := by
  apply toBasicType_strips
  · simp only [listTypes, List.forall_mem_cons]
    exact ⟨.composite (by decide), .derived (by decide), .derived (by decide), .derived (by decide),
      .composite (by decide), .derived (by decide), .derived (by decide), .basic, nofun⟩
  · exact cycles_of_ordered (by decide)

end Irx.Debug
