import Irx.Basic
import Irx.Lib.Scan
import Irx.Python.Proxy

/-!
# Comparison of values

Embedding of `diff` and `cmp` of `diff.py`. The first value alone decides how two values are compared: the
second one is asked for its length, for the item of an index or a key, or for an attribute, whatever it is.
So a call raises where the second value has no such thing, and finds no mismatch between values of different
kinds that have the same parts. `cmp_settled_iff` says for which values the result is right.
-/

namespace Irx.Python
open Irx.Lib

/-- A value that `diff` comes across. A dataclass instance has the names and values of its fields; `other`
is a value of a type that `diff` does not know, such as a method. Types are as `str` gives them. -/
inductive Value where
  | leaf (data : PyObj)
  | PTR (ptr : Option ℤ)
  | list (items : List Value)
  | dict (entries : List (PyObj × Value))
  | dataclass (type : String) (fields : List (String × Value))
  | other (type : String)

/-- The exceptions. -/
inductive Raised where
  | typeError
  | indexError
  | keyError
  | runtimeError (message : String)
  deriving DecidableEq

/-- A mismatch, as `diff` reports it. -/
structure Missmatch where
  obj1 : Value
  obj2 : Value
  path : List String
  depth : Nat

namespace Value

/-- `str(type(obj))`. -/
def typeName : Value → String
  | .leaf .none => "<class 'NoneType'>"
  | .leaf (.bool _) => "<class 'bool'>"
  | .leaf (.int _) => "<class 'int'>"
  | .leaf (.str _) => "<class 'str'>"
  | .leaf (.bytes _) => "<class 'bytes'>"
  | .PTR _ => "<class 'proxy.PTR'>"
  | .list _ => "<class 'list'>"
  | .dict _ => "<class 'dict'>"
  | .dataclass type _ => type
  | .other type => type

/-- `data == obj`. -/
def equals (data : PyObj) : Value → Bool
  | .leaf data' => data.eq data'
  | _ => false

/-- `len(obj)`. -/
def len : Value → Except Raised Nat
  | .leaf (.str s) => .ok s.length
  | .leaf (.bytes b) => .ok b.length
  | .list items => .ok items.length
  | .dict entries => .ok entries.length
  | _ => .error .typeError

/-- The item of a sequence for an index, which is counted from the end if it is negative. -/
def item (items : List Value) (key : PyObj) : Except Raised Value :=
  match key.toInt with
  | none => .error .typeError
  | some i =>
    let k := if i < 0 then i + items.length else i
    if k < 0 then .error .indexError
    else
      match items[k.toNat]? with
      | some v => .ok v
      | none => .error .indexError

/-- The value of a key. -/
def entry (entries : List (PyObj × Value)) (key : PyObj) : Option Value :=
  (entries.find? fun e => e.1.eq key).map Prod.snd

/-- `obj[key]`. -/
def subscript (obj : Value) (key : PyObj) : Except Raised Value :=
  match obj with
  | .list items => item items key
  | .leaf (.str s) => item (s.toList.map fun c => .leaf (.str (String.singleton c))) key
  | .leaf (.bytes b) => item (b.map fun byte => .leaf (.int byte.toNat)) key
  | .dict entries =>
    match entry entries key with
    | some v => .ok v
    | none => .error .keyError
  | _ => .error .typeError

/-- The value of a field. -/
def field (fields : List (String × Value)) (name : String) : Option Value :=
  (fields.find? fun f => f.1 = name).map Prod.snd

end Value

/-- The attributes of values that are no fields: properties, methods, those of the built-in types. -/
abbrev Attributes := Value → String → Option Value

/-- `getattr(obj, name)`, if there is such an attribute. -/
def getattr (attrs : Attributes) (obj : Value) (name : String) : Option Value :=
  match obj with
  | .dataclass _ fields => (Value.field fields name).or (attrs obj name)
  | _ => attrs obj name

/-- A mismatch for a missing field is no list: `missmatches += Missmatch(..)` raises a `TypeError`. -/
def present : Option Value → Except Raised Value
  | none => .error .typeError
  | some v => .ok v

/-- A number, a string or `None`. -/
def diffLeaf (data : PyObj) (obj2 : Value) (depth : Nat) (path : List String) : List Missmatch :=
  if data ≠ .none then
    if obj2.equals data then [] else [⟨.leaf data, obj2, path, depth⟩]
  else if obj2.equals .none then []
  else [⟨.leaf data, obj2, path, depth⟩]

/-- A pointer. An address that is not set, as in a union, matches every other. -/
def diffPTR (ptr : Option ℤ) (obj2 : Value) (depth : Nat) (path : List String) : List Missmatch :=
  match obj2 with
  | .PTR ptr2 =>
    if ptr = none ∨ ptr2 = none then []
    else if ptr ≠ ptr2 then [⟨.PTR ptr, obj2, path, depth⟩]
    else []
  | _ => [⟨.PTR ptr, obj2, path, depth⟩]

section Diff

variable (attrs : Attributes)

mutual

/-- The mismatches of two values, at that depth and path. -/
def diff : Value → Value → Nat → List String → Except Raised (List Missmatch)
  | .leaf data, obj2, depth, path => .ok (diffLeaf data obj2 depth path)
  | .PTR ptr, obj2, depth, path => .ok (diffPTR ptr obj2 depth path)
  | .list items, obj2, depth, path => do
    let n ← obj2.len
    if items.length ≠ n then
      .ok [⟨.leaf (.str ("len(obj1)=" ++ toString items.length)),
        .leaf (.str ("len(obj2)=" ++ toString n)), path, depth⟩]
    else diffItems items obj2 0 depth path
  | .dict entries, obj2, depth, path => do
    let n ← obj2.len
    if entries.length ≠ n then .ok [⟨.dict entries, obj2, path, depth⟩]
    else diffEntries entries obj2 0 depth path
  | .dataclass _ fields, obj2, depth, path => diffFields fields obj2 depth path
  | .other type, obj2, _, _ =>
    .error (.runtimeError ("type in dataclass unknown " ++ type ++ " " ++ obj2.typeName))
termination_by structural obj1 => obj1

/-- The loop over a list. -/
def diffItems : List Value → Value → Nat → Nat → List String → Except Raised (List Missmatch)
  | [], _, _, _, _ => .ok []
  | v :: rest, obj2, k, depth, path => do
    let w ← obj2.subscript (.int k)
    let found ← diff v w (depth + 1) (path ++ [toString k])
    let missmatches ← diffItems rest obj2 (k + 1) depth path
    .ok (found ++ missmatches)
termination_by structural items => items

/-- The loop over a dictionary. The path gets the position of the key. -/
def diffEntries : List (PyObj × Value) → Value → Nat → Nat → List String →
    Except Raised (List Missmatch)
  | [], _, _, _, _ => .ok []
  | (key, v) :: rest, obj2, k, depth, path => do
    let w ← obj2.subscript key
    let found ← diff v w (depth + 1) (path ++ [toString k])
    let missmatches ← diffEntries rest obj2 (k + 1) depth path
    .ok (found ++ missmatches)
termination_by structural entries => entries

/-- The loop over the fields of a dataclass. -/
def diffFields : List (String × Value) → Value → Nat → List String →
    Except Raised (List Missmatch)
  | [], _, _, _ => .ok []
  | (name, v) :: rest, obj2, depth, path =>
    if isDunder name then diffFields rest obj2 depth path
    else do
      let w ← present (getattr attrs obj2 name)
      let found ← diff v w (depth + 1) (path ++ [name])
      let missmatches ← diffFields rest obj2 depth path
      .ok (found ++ missmatches)
termination_by structural fields => fields

end

/-- `cmp`: there are no mismatches. -/
def cmp (obj1 obj2 : Value) : Except Raised Bool := do
  let missmatches ← diff attrs obj1 obj2 0 []
  .ok (missmatches.length = 0)

end Diff

/-! ### Trees -/

/-- A tree of the values that may be compared: the keys of a dictionary are different, and so are the fields
of an instance. -/
inductive Built : Value → Prop where
  | leaf data : Built (.leaf data)
  | PTR ptr : Built (.PTR ptr)
  | list {items} : (∀ v ∈ items, Built v) → Built (.list items)
  | dict {entries} : (entries.Pairwise fun e e' => ¬ e.1.eq e'.1) → (∀ e ∈ entries, Built e.2) →
    Built (.dict entries)
  | dataclass {type fields} : (fields.map Prod.fst).Nodup → (∀ f ∈ fields, Built f.2) →
    Built (.dataclass type fields)

/-- A value that Python can build. -/
structure Tree where
  value : Value
  built : Built value

/-- The same shape and equal leaves: equal lengths, keys and names of fields, and what is at the same index,
key or field agrees. -/
inductive Agree : Value → Value → Prop where
  | leaf {data data'} : data.eq data' → Agree (.leaf data) (.leaf data')
  | PTR {ptr ptr'} : ptr = none ∨ ptr' = none ∨ ptr = ptr' → Agree (.PTR ptr) (.PTR ptr')
  | list {items items' : List Value} : items.length = items'.length →
    (∀ (k : Nat) v w, items[k]? = some v → items'[k]? = some w → Agree v w) →
    Agree (.list items) (.list items')
  | dict {entries entries'} :
    (∀ key, (Value.entry entries key).isSome = (Value.entry entries' key).isSome) →
    (∀ key v w, Value.entry entries key = some v → Value.entry entries' key = some w → Agree v w) →
    Agree (.dict entries) (.dict entries')
  | dataclass {type fields type' fields'} :
    (∀ name, isDunder name = false →
      (Value.field fields name).isSome = (Value.field fields' name).isSome) →
    (∀ name v w, isDunder name = false → Value.field fields name = some v →
      Value.field fields' name = some w → Agree v w) →
    Agree (.dataclass type fields) (.dataclass type' fields')

/-! ### What is compared with what -/

section Compared

variable (attrs : Attributes)

/-- A part of the first value, and what there is at its place in the second one. -/
inductive Part : Value → Value → Value → Except Raised Value → Prop where
  | item {items obj2 v} {k : Nat} : obj2.len = .ok items.length → items[k]? = some v →
    Part (.list items) obj2 v (obj2.subscript (.int k))
  | entry {entries obj2 key v} : obj2.len = .ok entries.length → (key, v) ∈ entries →
    Part (.dict entries) obj2 v (obj2.subscript key)
  | field {type fields obj2 name v} : (name, v) ∈ fields → isDunder name = false →
    Part (.dataclass type fields) obj2 v (present (getattr attrs obj2 name))

/-- A part is compared with what is at its place. -/
def Child (pair pair' : Value × Value) : Prop := Part attrs pair.1 pair.2 pair'.1 (.ok pair'.2)

/-- Two values are compared when others are. -/
def Compared : Value × Value → Value × Value → Prop := Relation.ReflTransGen (Child attrs)

/-- The first value is a list or a dictionary, whose length the second one does not have, or of no known
type. -/
def Refused : Value → Value → Prop
  | .list _, w => ∃ e, w.len = .error e
  | .dict _, w => ∃ e, w.len = .error e
  | .other _, _ => True
  | _, _ => False

/-- The comparison of the two is refused, or the second one lacks an index, a key or a field of the first,
where their lengths are not different. -/
def Unfit (v w : Value) : Prop := Refused v w ∨ ∃ v' e, Part attrs v w v' (.error e)

end Compared

/-- The values themselves are found to be different: a leaf from the other value, two addresses that are
set, or two lengths. -/
def Differ : Value → Value → Prop
  | .leaf data, w => w.equals data = false
  | .PTR ptr, .PTR ptr' => ptr ≠ none ∧ ptr' ≠ none ∧ ptr ≠ ptr'
  | .PTR _, _ => True
  | .list items, w => ∃ n, w.len = .ok n ∧ items.length ≠ n
  | .dict entries, w => ∃ n, w.len = .ok n ∧ entries.length ≠ n
  | .dataclass _ _, _ => False
  | .other _, _ => False

/-- A list, a dictionary or a dataclass instance stands against a value of another kind, or an instance
against one with other fields. -/
def Mixed : Value → Value → Prop
  | .list _, .list _ => False
  | .list _, _ => True
  | .dict _, .dict _ => False
  | .dict _, _ => True
  | .dataclass _ fields, .dataclass _ fields' => ∃ name, isDunder name = false ∧
      (Value.field fields name).isSome ≠ (Value.field fields' name).isSome
  | .dataclass _ _, _ => True
  | _, _ => False

/-- No comparison of two values in these comes to a pair that does not fit; and if it comes to values of
mixed kinds, it comes to values that differ too. -/
def Comparable (attrs : Attributes) (a b : Value) : Prop :=
  (∀ pair, Compared attrs (a, b) pair → ¬ Unfit attrs pair.1 pair.2) ∧
    ((∃ pair, Compared attrs (a, b) pair ∧ Mixed pair.1 pair.2) →
      ∃ pair, Compared attrs (a, b) pair ∧ Differ pair.1 pair.2)

/-- The comparison returns in both orders, with the same result, which says if the values agree. -/
def Settled (attrs : Attributes) (a b : Value) : Prop :=
  ∃ same same', cmp attrs a b = .ok same ∧ cmp attrs b a = .ok same' ∧ same = same' ∧
    (same = true ↔ Agree a b)

variable {attrs : Attributes} {a b v w : Value} {Q : Except Raised (List Missmatch) → Prop} {strict : Prop}

/-- Induction over the parts of a value. -/
lemma Value.parts_induction {P : Value → Prop} (leaf : ∀ data, P (.leaf data))
    (PTR : ∀ ptr, P (.PTR ptr)) (list : ∀ items, (∀ v ∈ items, P v) → P (.list items))
    (dict : ∀ entries, (∀ e ∈ entries, P e.2) → P (.dict entries))
    (dataclass : ∀ type fields, (∀ f ∈ fields, P f.2) → P (.dataclass type fields))
    (other : ∀ type, P (.other type)) (v : Value) : P v := by
  refine @Value.rec P (fun items => ∀ v ∈ items, P v) (fun entries => ∀ e ∈ entries, P e.2)
    (fun fields => ∀ f ∈ fields, P f.2) (fun e => P e.2) (fun f => P f.2) leaf PTR list dict dataclass
    other ?_ ?_ ?_ ?_ ?_ ?_ ?_ ?_ v
  · exact List.forall_mem_nil _
  · exact fun v rest here there => List.forall_mem_cons.2 ⟨here, there⟩
  · exact List.forall_mem_nil _
  · exact fun e rest here there => List.forall_mem_cons.2 ⟨here, there⟩
  · exact List.forall_mem_nil _
  · exact fun f rest here there => List.forall_mem_cons.2 ⟨here, there⟩
  · exact fun _ _ here => here
  · exact fun _ _ here => here

/-! ### What the comparison finds -/

/-- A judgement of a result that is passed on by the loops: a raised exception fails it, and a mismatch does
if it is strict. -/
structure Judges (Q : Except Raised (List Missmatch) → Prop) (strict : Prop) : Prop where
  nil : Q (.ok [])
  error e : ¬ Q (.error e)
  single m : Q (.ok [m]) ↔ ¬ strict
  append found more : Q (.ok (found ++ more)) ↔ Q (.ok found) ∧ Q (.ok more)

/-- No comparison of two values in these comes to a pair of the kind. -/
def Without (attrs : Attributes) (R : Value → Value → Prop) (a b : Value) : Prop :=
  ∀ pair, Compared attrs (a, b) pair → ¬ R pair.1 pair.2

/-- Nothing bad is in a comparison if it is not bad itself, and nothing is in its parts. -/
lemma without_iff {R : Value → Value → Prop} : Without attrs R a b ↔
    ¬ R a b ∧ ∀ v w, Part attrs a b v (.ok w) → Without attrs R v w := by
  constructor
  · intro clean
    refine ⟨clean (a, b) .refl, fun v w part pair compared => ?_⟩
    exact clean pair (.head (b := (v, w)) part compared)
  · intro clean pair compared
    obtain rfl | ⟨next, child, rest⟩ := Relation.ReflTransGen.cases_head compared
    · exact clean.1
    · exact clean.2 next.1 next.2 child pair rest

namespace Judges

/-- Every pass of a loop. -/
lemma pass (judges : Judges Q strict) {x : Except Raised Value}
    {r : Value → Except Raised (List Missmatch)} {rest : Except Raised (List Missmatch)} :
    Q (do
      let w ← x
      let found ← r w
      let missmatches ← rest
      .ok (found ++ missmatches)) ↔ (∃ w, x = .ok w ∧ Q (r w)) ∧ Q rest := by
  cases x with
  | error e => simp [judges.error]
  | ok w =>
    cases here : r w with
    | error e => simp [here, judges.error]
    | ok found =>
      cases rest with
      | error e => simp [here, judges.error]
      | ok more => simp [here, judges.append]

variable {C : Value → Value → Prop}

/-- The items of a list are judged one by one. -/
lemma items_iff (judges : Judges Q strict) {items : List Value}
    (each : ∀ v ∈ items, ∀ w depth path, Q (diff attrs v w depth path) ↔ C v w) (b : Value) (k depth : Nat)
    (path : List String) : Q (diffItems attrs items b k depth path) ↔
      ∀ (j : Nat) v, items[j]? = some v → ∃ w, b.subscript (.int (k + j : Nat)) = .ok w ∧ C v w := by
  induction items generalizing k with
  | nil => simp [diffItems, judges.nil]
  | cons v rest ih =>
    rw [diffItems, judges.pass, ih fun v mem => each v (.tail _ mem)]
    simp only [each v (.head _)]
    constructor
    · intro here j v' there
      cases j with
      | zero =>
        cases there
        exact here.1
      | succ j =>
        have later := here.2 j v' there
        rw [Nat.add_right_comm] at later
        exact later
    · intro all
      refine ⟨all 0 v rfl, fun j v' there => ?_⟩
      rw [Nat.add_right_comm]
      exact all (j + 1) v' there

/-- The entries of a dictionary are judged one by one. -/
lemma entries_iff (judges : Judges Q strict) {entries : List (PyObj × Value)}
    (each : ∀ e ∈ entries, ∀ w depth path, Q (diff attrs e.2 w depth path) ↔ C e.2 w) (b : Value)
    (k depth : Nat) (path : List String) : Q (diffEntries attrs entries b k depth path) ↔
      ∀ e ∈ entries, ∃ w, b.subscript e.1 = .ok w ∧ C e.2 w := by
  induction entries generalizing k with
  | nil => simp [diffEntries, judges.nil]
  | cons e rest ih =>
    obtain ⟨key, v⟩ := e
    rw [diffEntries, judges.pass, ih fun e mem => each e (.tail _ mem), List.forall_mem_cons]
    simp only [each (key, v) (.head _)]

/-- The fields of a dataclass are judged one by one. -/
lemma fields_iff (judges : Judges Q strict) {fields : List (String × Value)}
    (each : ∀ f ∈ fields, ∀ w depth path, Q (diff attrs f.2 w depth path) ↔ C f.2 w) (b : Value)
    (depth : Nat) (path : List String) : Q (diffFields attrs fields b depth path) ↔
      ∀ f ∈ fields, isDunder f.1 = false → ∃ w, present (getattr attrs b f.1) = .ok w ∧ C f.2 w := by
  induction fields with
  | nil => simp [diffFields, judges.nil]
  | cons f rest ih =>
    obtain ⟨name, v⟩ := f
    have later := ih fun f mem => each f (.tail _ mem)
    rw [diffFields, List.forall_mem_cons, ← later]
    cases visible : isDunder name with
    | true => simp
    | false =>
      rw [if_neg Bool.false_ne_true, judges.pass]
      simp only [each (name, v) (.head _), forall_true_left]

end Judges

/-- What the loops refuse, or a strict judgement. -/
def Bad (attrs : Attributes) (strict : Prop) (v w : Value) : Prop :=
  Unfit attrs v w ∨ strict ∧ Differ v w

/-- There is nothing bad in a comparison if it is not refused, finds no difference that counts, and every part
has a counterpart with which there is nothing bad. -/
lemma without_bad_iff : Without attrs (Bad attrs strict) a b ↔
    (¬ Refused a b ∧ (strict → ¬ Differ a b)) ∧
      ∀ v r, Part attrs a b v r → ∃ w, r = .ok w ∧ Without attrs (Bad attrs strict) v w := by
  rw [without_iff]
  constructor
  · intro good
    refine ⟨⟨fun refused => good.1 (.inl (.inl refused)), ?_⟩, fun v r part => ?_⟩
    · exact fun counts differ => good.1 (.inr ⟨counts, differ⟩)
    · cases r with
      | error e => exact absurd (.inl (.inr ⟨v, e, part⟩)) good.1
      | ok w => exact ⟨w, rfl, good.2 v w part⟩
  · intro good
    refine ⟨fun bad => ?_, fun v w part => ?_⟩
    · obtain (refused | ⟨v, e, part⟩) | ⟨counts, differ⟩ := bad
      · exact good.1.1 refused
      · obtain ⟨w, same, _⟩ := good.2 v _ part
        cases same
      · exact good.1.2 counts differ
    · obtain ⟨w', same, inside⟩ := good.2 v _ part
      cases same
      exact inside

/-- A value without parts. -/
lemma without_bad_atom (atom : ∀ v r, ¬ Part attrs a b v r) :
    Without attrs (Bad attrs strict) a b ↔ ¬ Refused a b ∧ (strict → ¬ Differ a b) := by
  rw [without_bad_iff]
  refine and_iff_left ?_
  exact fun v r part => absurd part (atom v r)

/-- At most one mismatch is judged by itself. -/
lemma Judges.ok_iff (judges : Judges Q strict) {l : List Missmatch} (short : l = [] ∨ ∃ m, l = [m]) :
    Q (.ok l) ↔ (strict → l = []) := by
  obtain rfl | ⟨m, rfl⟩ := short
  · exact iff_of_true judges.nil fun _ => rfl
  · rw [judges.single]
    simp

/-- A leaf has at most one mismatch. -/
lemma diffLeaf_short (data : PyObj) (b : Value) (depth : Nat) (path : List String) :
    diffLeaf data b depth path = [] ∨ ∃ m, diffLeaf data b depth path = [m] := by
  rw [diffLeaf]
  split_ifs <;> simp

/-- A leaf has none if the values do not differ. -/
lemma diffLeaf_eq_nil (data : PyObj) (b : Value) (depth : Nat) (path : List String) :
    diffLeaf data b depth path = [] ↔ ¬ Differ (.leaf data) b := by
  rw [diffLeaf, Differ]
  split_ifs <;> simp_all

/-- A pointer has at most one mismatch. -/
lemma diffPTR_short (ptr : Option ℤ) (b : Value) (depth : Nat) (path : List String) :
    diffPTR ptr b depth path = [] ∨ ∃ m, diffPTR ptr b depth path = [m] := by
  cases b with
  | PTR ptr' =>
    simp only [diffPTR]
    split_ifs <;> simp
  | leaf | list | dict | dataclass | other => exact .inr ⟨_, rfl⟩

/-- A pointer has none if the values do not differ. -/
lemma diffPTR_eq_nil (ptr : Option ℤ) (b : Value) (depth : Nat) (path : List String) :
    diffPTR ptr b depth path = [] ↔ ¬ Differ (.PTR ptr) b := by
  cases b with
  | PTR ptr' =>
    simp only [diffPTR, Differ]
    split_ifs <;> simp_all
    tauto
  | leaf | list | dict | dataclass | other => simp [diffPTR, Differ]

/-- A list or a dictionary, whose length comes first. -/
lemma Judges.sized_iff (judges : Judges Q strict) {n : Nat} {loop : Except Raised (List Missmatch)}
    (mismatch : Nat → Missmatch) (refused : Refused a b ↔ ∃ e, b.len = .error e)
    (differ : Differ a b ↔ ∃ m, b.len = .ok m ∧ n ≠ m) (sized : ∀ v r, Part attrs a b v r → b.len = .ok n)
    (looped : b.len = .ok n → (Q loop ↔
      ∀ v r, Part attrs a b v r → ∃ w, r = .ok w ∧ Without attrs (Bad attrs strict) v w)) :
    Q (do
      let m ← b.len
      if n ≠ m then .ok [mismatch m] else loop) ↔ Without attrs (Bad attrs strict) a b := by
  rw [without_bad_iff, refused, differ]
  cases size : b.len with
  | error e => exact iff_of_false (judges.error e) fun good => good.1.1 ⟨e, rfl⟩
  | ok m =>
    rw [ok_bind]
    by_cases same : n = m
    · subst same
      rw [if_neg (not_not.2 rfl), looped size]
      simp
    · rw [if_pos same, judges.single]
      have missing : ∀ v r, ¬ Part attrs a b v r := by
        intro v r part
        cases (sized v r part).symm.trans size
        exact same rfl
      simp [missing, same]

/-- A judgement of `diff` says what the comparison comes to. -/
lemma Judges.diff_iff (judges : Judges Q strict) (a b : Value) (depth : Nat) (path : List String) :
    Q (diff attrs a b depth path) ↔ Without attrs (Bad attrs strict) a b := by
  induction a using Value.parts_induction generalizing b depth path with
  | leaf data =>
    rw [without_bad_atom (fun v r part => by cases part), diff,
      judges.ok_iff (diffLeaf_short data b depth path), diffLeaf_eq_nil]
    exact (and_iff_right id).symm
  | PTR ptr =>
    rw [without_bad_atom (fun v r part => by cases part), diff,
      judges.ok_iff (diffPTR_short ptr b depth path), diffPTR_eq_nil]
    exact (and_iff_right id).symm
  | list items ih =>
    rw [diff]
    refine judges.sized_iff _ Iff.rfl Iff.rfl (fun v r part => ?_) fun size => ?_
    · cases part with
      | item size => exact size
    · rw [judges.items_iff ih]
      constructor
      · intro all v r part
        cases part with
        | @item _ _ _ k _ there =>
          have here := all k v there
          rw [Nat.zero_add] at here
          exact here
      · intro all k v there
        rw [Nat.zero_add]
        exact all v _ (.item size there)
  | dict entries ih =>
    rw [diff]
    refine judges.sized_iff _ Iff.rfl Iff.rfl (fun v r part => ?_) fun size => ?_
    · cases part with
      | entry size => exact size
    · rw [judges.entries_iff ih]
      constructor
      · intro all v r part
        cases part with
        | entry _ mem => exact all _ mem
      · exact fun all e mem => all e.2 _ (.entry size mem)
  | dataclass type fields ih =>
    rw [without_bad_iff, diff, judges.fields_iff ih]
    refine Iff.trans ?_ (and_iff_right ⟨id, fun _ => id⟩).symm
    constructor
    · intro all v r part
      cases part with
      | field mem visible => exact all _ mem visible
    · exact fun all f mem visible => all f.2 _ (.field mem visible)
  | other type =>
    rw [without_bad_atom (fun v r part => by cases part), diff]
    exact iff_of_false (judges.error _) fun good => good.1 trivial

/-! ### Keys and fields -/

namespace PyObj

/-- The number that a `bool` is, and other values as they are. -/
def plain : PyObj → PyObj
  | .bool b => .int b.toInt
  | data => data

/-- Values are equal in Python if they are so with booleans as numbers. -/
lemma eq_iff (data data' : PyObj) : data.eq data' ↔ data.plain = data'.plain := by
  cases data <;> cases data' <;> simp [eq, plain, toInt]

/-- Every value equals itself. -/
lemma eq_refl (data : PyObj) : data.eq data := (eq_iff data data).2 rfl

/-- Equality goes both ways. -/
lemma eq_symm {data data' : PyObj} (same : data.eq data') : data'.eq data :=
  (eq_iff data' data).2 ((eq_iff data data').1 same).symm

end PyObj

namespace Value

variable {items : List Value} {entries entries' : List (PyObj × Value)} {fields : List (String × Value)}
  {key : PyObj} {name : String}

/-- The item at an index. -/
lemma item_nat (items : List Value) (k : Nat) (v : Value) :
    item items (.int k) = .ok v ↔ items[k]? = some v := by
  have natural : ¬ (k : ℤ) < 0 := by omega
  rw [item]
  simp only [PyObj.toInt, if_neg natural, Int.toNat_natCast]
  cases items[k]? <;> simp

/-- The entry of a key is in the dictionary, under an equal key. -/
lemma entry_mem (found : entry entries key = some v) : ∃ key', key'.eq key ∧ (key', v) ∈ entries := by
  obtain ⟨e, here, rfl⟩ := Option.map_eq_some_iff.1 found
  have same := List.find?_some here
  exact ⟨e.1, same, List.mem_of_find?_eq_some here⟩

/-- Equal keys have the same entry. -/
lemma entry_congr {key' : PyObj} (same : key'.eq key) (entries : List (PyObj × Value)) :
    entry entries key' = entry entries key := by
  have equal : ∀ e : PyObj × Value, e.1.eq key' = e.1.eq key := by
    intro e
    rw [Bool.eq_iff_iff, PyObj.eq_iff, PyObj.eq_iff, (PyObj.eq_iff key' key).1 same]
  simp only [entry, equal]

/-- What a dictionary has for a key. -/
lemma subscript_dict : (Value.dict entries).subscript key = .ok v ↔ entry entries key = some v := by
  rw [subscript]
  cases entry entries key <;> simp

/-- The field of a name is in the dataclass. -/
lemma field_mem (found : field fields name = some v) : (name, v) ∈ fields := by
  obtain ⟨f, here, rfl⟩ := Option.map_eq_some_iff.1 found
  have same := List.find?_some here
  rw [decide_eq_true_iff] at same
  rw [← same]
  exact List.mem_of_find?_eq_some here

/-- There is an entry if an equal key is in the dictionary. -/
lemma entry_isSome : (entry entries key).isSome ↔ key.plain ∈ entries.map fun e => e.1.plain := by
  rw [entry, Option.isSome_map, List.find?_isSome, List.mem_map]
  simp only [PyObj.eq_iff]

/-- Different keys stay different as numbers. -/
lemma plain_nodup (distinct : entries.Pairwise fun e e' => ¬ e.1.eq e'.1) :
    (entries.map fun e => e.1.plain).Nodup := by
  refine List.pairwise_map.2 (distinct.imp fun apart same => apart ?_)
  exact (PyObj.eq_iff _ _).2 same

/-- In a dictionary the value of a key is that of its entry. -/
lemma entry_of_mem (distinct : entries.Pairwise fun e e' => ¬ e.1.eq e'.1) (mem : (key, v) ∈ entries) :
    entry entries key = some v := by
  have same : (fun e : PyObj × Value => e.1.eq key) = fun e => decide (e.1.plain = key.plain) := by
    funext e
    rw [Bool.eq_iff_iff, PyObj.eq_iff, decide_eq_true_iff]
  rw [entry, same, find?_of_nodup (plain_nodup distinct) mem]
  rfl

/-- Where names are different, every field is found by its name. -/
lemma field_of_mem (nodup : (fields.map Prod.fst).Nodup) (mem : (name, v) ∈ fields) :
    field fields name = some v := by
  rw [field, find?_of_nodup nodup mem]
  rfl

/-- Two dictionaries of the same length have the same keys if one has those of the other. -/
lemma same_keys (distinct : entries.Pairwise fun e e' => ¬ e.1.eq e'.1)
    (size : entries.length = entries'.length) (has : ∀ e ∈ entries, (entry entries' e.1).isSome)
    (key : PyObj) : (entry entries key).isSome = (entry entries' key).isSome := by
  have subset : (entries.map fun e => e.1.plain) ⊆ entries'.map fun e => e.1.plain := by
    intro k mem
    obtain ⟨e, there, rfl⟩ := List.mem_map.1 mem
    exact entry_isSome.1 (has e there)
  have perm := (List.subperm_of_subset (plain_nodup distinct) subset).perm_of_length_le (by
    rw [List.length_map, List.length_map, size])
  rw [Bool.eq_iff_iff, entry_isSome, entry_isSome]
  exact perm.mem_iff

/-- Dictionaries with the same keys have the same size. -/
lemma same_size (distinct : entries.Pairwise fun e e' => ¬ e.1.eq e'.1)
    (distinct' : entries'.Pairwise fun e e' => ¬ e.1.eq e'.1)
    (keys : ∀ key, (entry entries key).isSome = (entry entries' key).isSome) :
    entries.length = entries'.length := by
  have subset : ∀ {l l' : List (PyObj × Value)}, (∀ key, (entry l key).isSome = (entry l' key).isSome) →
      (l.map fun e => e.1.plain) ⊆ l'.map fun e => e.1.plain := by
    intro l l' keys k mem
    obtain ⟨e, there, rfl⟩ := List.mem_map.1 mem
    rw [← entry_isSome, ← keys, entry_isSome]
    exact mem
  have one := (List.subperm_of_subset (plain_nodup distinct) (subset keys)).length_le
  have two := (List.subperm_of_subset (plain_nodup distinct') (subset fun key => (keys key).symm)).length_le
  rw [List.length_map, List.length_map] at one two
  exact le_antisymm one two

end Value

/-! ### Trees that agree -/

/-- A value agrees with itself. -/
lemma Agree.refl (built : Built a) : Agree a a := by
  induction built with
  | leaf data => exact .leaf (PyObj.eq_refl data)
  | PTR ptr => exact .PTR (.inr (.inr rfl))
  | list _ ih =>
    refine .list rfl fun k v w here there => ?_
    cases here.symm.trans there
    exact ih v (List.mem_of_getElem? here)
  | dict _ _ ih =>
    refine .dict (fun _ => rfl) fun key v w here there => ?_
    cases here.symm.trans there
    obtain ⟨key', _, mem⟩ := Value.entry_mem here
    exact ih _ mem
  | dataclass _ _ ih =>
    refine .dataclass (fun _ _ => rfl) fun name v w _ here there => ?_
    cases here.symm.trans there
    exact ih _ (Value.field_mem here)

/-- Agreement goes both ways. -/
lemma Agree.symm (agree : Agree a b) : Agree b a := by
  induction agree with
  | leaf same => exact .leaf (PyObj.eq_symm same)
  | PTR same =>
    apply Agree.PTR
    obtain none | none | same := same
    · exact .inr (.inl none)
    · exact .inl none
    · exact .inr (.inr same.symm)
  | list size _ ih => exact .list size.symm fun k v w here there => ih k w v there here
  | dict keys _ ih =>
    exact .dict (fun key => (keys key).symm) fun key v w here there => ih key w v there here
  | dataclass names _ ih =>
    refine .dataclass (fun name visible => (names name visible).symm) ?_
    exact fun name v w visible here there => ih name w v visible there here

/-- Trees that agree do not differ themselves, and are of one kind. -/
lemma Agree.plain (agree : Agree a b) (built : Built a) (built' : Built b) :
    ¬ Refused a b ∧ ¬ Differ a b ∧ ¬ Mixed a b := by
  cases agree with
  | leaf same => simp [Refused, Differ, Mixed, Value.equals, same]
  | PTR same =>
    refine ⟨id, fun differ => ?_, id⟩
    obtain ⟨set, set', ne⟩ := differ
    obtain none | none | same := same
    · exact set none
    · exact set' none
    · exact ne same
  | list size _ => simp [Refused, Differ, Mixed, Value.len, size]
  | dict keys _ =>
    cases built with
    | dict distinct _ =>
      cases built' with
      | dict distinct' _ =>
        simp [Refused, Differ, Mixed, Value.len, Value.same_size distinct distinct' keys]
  | dataclass names _ =>
    refine ⟨id, id, fun mixed => ?_⟩
    obtain ⟨name, visible, ne⟩ := mixed
    exact ne (names name visible)

/-- Every part has a counterpart with which it agrees. -/
lemma Agree.part {r : Except Raised Value} (agree : Agree a b) (built : Built a) (built' : Built b)
    (part : Part attrs a b v r) : ∃ w, r = .ok w ∧ Agree v w ∧ Built v ∧ Built w := by
  cases agree with
  | leaf | PTR => cases part
  | @list items items' size agree =>
    cases built with
    | list built =>
      cases built' with
      | list built' =>
        cases part with
        | @item _ _ _ k _ here =>
          have lt := (List.getElem?_eq_some_iff.1 here).1
          have there := List.getElem?_eq_getElem (size ▸ lt : k < items'.length)
          refine ⟨_, (Value.item_nat items' k _).2 there, agree k v _ here there, ?_, ?_⟩
          · exact built v (List.mem_of_getElem? here)
          · exact built' _ (List.mem_of_getElem? there)
  | @dict entries entries' keys agree =>
    cases built with
    | dict distinct built =>
      cases built' with
      | dict _ built' =>
        cases part with
        | @entry _ _ key _ _ mem =>
          have here := Value.entry_of_mem distinct mem
          have some := keys key
          rw [here] at some
          obtain ⟨w, there⟩ := Option.isSome_iff_exists.1 some.symm
          obtain ⟨key', _, mem'⟩ := Value.entry_mem there
          refine ⟨w, Value.subscript_dict.2 there, agree key v w here there, built _ mem, built' _ mem'⟩
  | @dataclass type fields type' fields' names agree =>
    cases built with
    | dataclass nodup built =>
      cases built' with
      | dataclass _ built' =>
        cases part with
        | @field _ _ _ name _ mem visible =>
          have here := Value.field_of_mem nodup mem
          have some := names name visible
          rw [here] at some
          obtain ⟨w, there⟩ := Option.isSome_iff_exists.1 some.symm
          refine ⟨w, ?_, agree name v w visible here there, built _ mem, built' _ (Value.field_mem there)⟩
          rw [getattr, there]
          rfl

/-- What is compared in trees that agree, agrees. -/
lemma Agree.compared {pair : Value × Value} (agree : Agree a b) (built : Built a) (built' : Built b)
    (compared : Compared attrs (a, b) pair) : Agree pair.1 pair.2 ∧ Built pair.1 ∧ Built pair.2 := by
  induction compared with
  | refl => exact ⟨agree, built, built'⟩
  | tail _ child ih =>
    obtain ⟨w, same, there⟩ := ih.1.part ih.2.1 ih.2.2 child
    cases same
    exact there

/-- A comparison without anything bad or mixed is one of trees that agree. -/
lemma agree_of_without (built : Built a) (built' : Built b) (good : Without attrs (Bad attrs True) a b)
    (pure : Without attrs Mixed a b) : Agree a b := by
  induction built generalizing b with
  | leaf data =>
    have equal := (without_bad_iff.1 good).1.2 trivial
    cases b with
    | leaf data' => exact .leaf (Bool.not_eq_false _ ▸ equal)
    | PTR | list | dict | dataclass | other => exact absurd rfl equal
  | PTR ptr =>
    have equal := (without_bad_iff.1 good).1.2 trivial
    cases b with
    | PTR ptr' =>
      apply Agree.PTR
      by_contra ne
      obtain ⟨set, rest⟩ := not_or.1 ne
      exact equal ⟨set, not_or.1 rest⟩
    | leaf | list | dict | dataclass | other => exact absurd trivial equal
  | @list items built ih =>
    obtain ⟨⟨_, equal⟩, parts⟩ := without_bad_iff.1 good
    obtain ⟨kind, inside⟩ := without_iff.1 pure
    cases built' with
    | @list items' built' =>
      have size : items.length = items'.length := by
        by_contra ne
        exact equal trivial ⟨_, rfl, ne⟩
      refine .list size fun k v w here there => ?_
      have part : Part attrs (.list items) (.list items') v (.ok w) := by
        rw [← (Value.item_nat items' k w).2 there]
        exact .item (by rw [Value.len, size]) here
      obtain ⟨w', same, good⟩ := parts v _ part
      cases same
      exact ih v (List.mem_of_getElem? here) (built' w (List.mem_of_getElem? there)) good
        (inside v w part)
    | leaf | PTR | dict | dataclass => exact absurd trivial kind
  | @dict entries distinct built ih =>
    obtain ⟨⟨_, equal⟩, parts⟩ := without_bad_iff.1 good
    obtain ⟨kind, inside⟩ := without_iff.1 pure
    cases built' with
    | @dict entries' distinct' built' =>
      have size : entries.length = entries'.length := by
        by_contra ne
        exact equal trivial ⟨_, rfl, ne⟩
      have part : ∀ e ∈ entries, Part attrs (.dict entries) (.dict entries') e.2
          ((Value.dict entries').subscript e.1) := fun e mem => .entry (by rw [Value.len, size]) mem
      have keys := Value.same_keys distinct size fun e mem => by
        obtain ⟨w, same, _⟩ := parts e.2 _ (part e mem)
        exact Option.isSome_iff_exists.2 ⟨w, Value.subscript_dict.1 same⟩
      refine .dict keys fun key v w here there => ?_
      obtain ⟨key', same, mem⟩ := Value.entry_mem here
      rw [← Value.entry_congr same] at there
      have found := part _ mem
      rw [Value.subscript_dict.2 there] at found
      obtain ⟨w', same, good⟩ := parts v _ found
      cases same
      obtain ⟨_, _, mem'⟩ := Value.entry_mem there
      exact ih _ mem (built' _ mem') good (inside v w found)
    | leaf | PTR | list | dataclass => exact absurd trivial kind
  | @dataclass type fields nodup built ih =>
    obtain ⟨_, parts⟩ := without_bad_iff.1 good
    obtain ⟨kind, inside⟩ := without_iff.1 pure
    cases built' with
    | @dataclass type' fields' nodup' built' =>
      have names : ∀ name, isDunder name = false →
          (Value.field fields name).isSome = (Value.field fields' name).isSome := by
        intro name visible
        by_contra ne
        exact kind ⟨name, visible, ne⟩
      refine .dataclass names fun name v w visible here there => ?_
      have mem := Value.field_mem here
      have found : Part attrs (.dataclass type fields) (.dataclass type' fields') v (.ok w) := by
        have part : Part attrs (.dataclass type fields) (.dataclass type' fields') v
          (present (getattr attrs (.dataclass type' fields') name)) := .field mem visible
        rw [getattr, there] at part
        exact part
      obtain ⟨w', same, good⟩ := parts v _ found
      cases same
      exact ih _ mem (built' _ (Value.field_mem there)) good (inside v w found)
    | leaf | PTR | list | dict => exact absurd trivial kind

/-- Two trees agree exactly if their comparison comes to nothing bad and nothing mixed. -/
lemma agree_iff (built : Built a) (built' : Built b) :
    Agree a b ↔ Without attrs (Bad attrs True) a b ∧ Without attrs Mixed a b := by
  refine ⟨fun agree => ⟨fun pair compared bad => ?_, fun pair compared => ?_⟩,
    fun good => agree_of_without built built' good.1 good.2⟩
  · obtain ⟨agree, built, built'⟩ := agree.compared built built' compared
    have plain := agree.plain built built'
    obtain (refused | ⟨v, e, part⟩) | ⟨_, differ⟩ := bad
    · exact plain.1 refused
    · obtain ⟨w, same, _⟩ := agree.part built built' part
      cases same
    · exact plain.2.1 differ
  · obtain ⟨agree, built, built'⟩ := agree.compared built built' compared
    exact (agree.plain built built').2.2

/-! ### The result -/

/-- Whether a comparison returns is judged by its parts. -/
lemma returns_judges : Judges (fun r => ∃ l, r = .ok l) False where
  nil := ⟨[], rfl⟩
  error e := by
    rintro ⟨l, same⟩
    cases same
  single m := iff_of_true ⟨[m], rfl⟩ id
  append found more := iff_of_true ⟨found ++ more, rfl⟩ ⟨⟨found, rfl⟩, ⟨more, rfl⟩⟩

/-- Whether it finds nothing is so too. -/
lemma empty_judges : Judges (fun r => r = .ok []) True where
  nil := rfl
  error e := fun same => by cases same
  single m := iff_of_false (fun same => by cases same) (not_not.2 trivial)
  append found more := by
    rw [Except.ok.injEq, Except.ok.injEq, Except.ok.injEq]
    exact List.append_eq_nil_iff

/-- The comparison returns if it comes to no pair that does not fit. -/
lemma cmp_returns : (∃ same, cmp attrs a b = .ok same) ↔ Without attrs (Unfit attrs) a b := by
  have lax : Bad attrs False = Unfit attrs := by
    funext v w
    simp [Bad]
  rw [← lax, ← returns_judges.diff_iff a b 0 []]
  constructor
  · rintro ⟨same, e⟩
    obtain ⟨l, found, _⟩ := bind_eq_ok.1 e
    exact ⟨l, found⟩
  · rintro ⟨l, found⟩
    exact ⟨_, bind_ok found _⟩

/-- It is true if it comes to nothing bad. -/
lemma cmp_true : cmp attrs a b = .ok true ↔ Without attrs (Bad attrs True) a b := by
  rw [← empty_judges.diff_iff a b 0 []]
  constructor
  · intro e
    obtain ⟨l, found, empty⟩ := bind_eq_ok.1 e
    rw [Except.ok.injEq, decide_eq_true_iff, List.length_eq_zero_iff] at empty
    rw [found, empty]
  · intro found
    exact bind_ok found _

/-- The comparison in one order. -/
lemma comparable_iff (built : Built a) (built' : Built b) :
    (∃ same, cmp attrs a b = .ok same ∧ (same = true ↔ Agree a b)) ↔ Comparable attrs a b := by
  have bad : Without attrs (Bad attrs True) a b ↔
      Without attrs (Unfit attrs) a b ∧ Without attrs Differ a b := by
    simp [Without, Bad, not_or, forall_and]
  constructor
  · rintro ⟨same, e, agree⟩
    have fit := cmp_returns.1 ⟨same, e⟩
    refine ⟨fit, fun mixed => ?_⟩
    obtain ⟨pair, compared, mixed⟩ := mixed
    by_contra none
    have equal := bad.2 ⟨fit, fun pair compared differ => none ⟨pair, compared, differ⟩⟩
    cases e.symm.trans (cmp_true.2 equal)
    exact ((agree_iff built built').1 (agree.1 rfl)).2 pair compared mixed
  · intro comparable
    obtain ⟨same, e⟩ := cmp_returns.2 comparable.1
    refine ⟨same, e, fun equal => ?_, fun agree => ?_⟩
    · subst equal
      have good := cmp_true.1 e
      refine agree_of_without built built' good fun pair compared mixed => ?_
      obtain ⟨pair', compared', differ⟩ := comparable.2 ⟨pair, compared, mixed⟩
      exact good pair' compared' (.inr ⟨trivial, differ⟩)
    · have equal : cmp attrs a b = .ok true := cmp_true.2 ((agree_iff built built').1 agree).1
      exact Except.ok.inj (e.symm.trans equal)

/-- A comparison of two trees returns in both orders, and says if they agree, if and only if they are
comparable in both orders. A tree is equal to itself. -/
theorem cmp_settled_iff (attrs : Attributes) (a b : Tree) :
    cmp attrs a.value a.value = .ok true ∧ (Settled attrs a.value b.value ↔
      Comparable attrs a.value b.value ∧ Comparable attrs b.value a.value) := by
  refine ⟨cmp_true.2 ((agree_iff a.built a.built).1 (.refl a.built)).1, ?_⟩
  rw [← comparable_iff a.built b.built, ← comparable_iff b.built a.built]
  constructor
  · rintro ⟨same, same', one, two, rfl, agree⟩
    exact ⟨⟨same, one, agree⟩, ⟨same, two, agree.trans ⟨.symm, .symm⟩⟩⟩
  · rintro ⟨⟨same, one, agree⟩, ⟨same', two, agree'⟩⟩
    refine ⟨same, same', one, two, ?_, agree⟩
    rw [Bool.eq_iff_iff, agree, agree']
    exact ⟨.symm, .symm⟩

/-- A processor with its number. -/
def cpuTree : Tree :=
  ⟨.dataclass "<class 'test._cpu'>" [("n", .leaf (.int 1))],
    .dataclass (List.nodup_singleton _) (List.forall_mem_singleton.2 (.leaf _))⟩

/-- An instance without fields. -/
def voidTree : Tree :=
  ⟨.dataclass "<class 'proxy.VOID'>" [], .dataclass .nil (List.forall_mem_nil _)⟩

/-- A field that the second instance does not have raises an exception, and an empty instance is found to be
equal to every value. -/
theorem cmp_missing_field : cmp (fun _ _ => none) cpuTree.value voidTree.value = .error .typeError ∧
    cmp (fun _ _ => none) voidTree.value cpuTree.value = .ok true ∧
      ¬ Agree voidTree.value cpuTree.value ∧
        ¬ ∀ a b : Tree, Settled (fun _ _ => none) a.value b.value := by
  refine ⟨rfl, rfl, fun agree => ?_, fun settled => ?_⟩
  · cases agree with
    | dataclass names _ => cases names "n" rfl
  · obtain ⟨same, _, e, _⟩ := settled cpuTree voidTree
    cases e

end Irx.Python
