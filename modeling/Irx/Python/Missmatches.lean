import Irx.Python.Diff

/-!
# The mismatches that are reported

`diff` returns a list of mismatches, each with a path. `Leads` says which parts of two values a path leads to,
by the labels that `diff` gives the items, entries and fields. If the comparison returns, its list has exactly
the pairs of parts that differ, each under its path and with the length of the path as its depth, and no path
stands in it twice (`diff_reports`).
-/

namespace Irx.Python
open Irx.Lib

/-- What `diff` puts into a mismatch of two values: the values, or the lengths of a list and of what it is
compared with. -/
def Missmatch.of (v w : Value) (path : List String) (depth : Nat) : Missmatch :=
  match v with
  | .list items => ⟨.leaf (.str ("len(obj1)=" ++ toString items.length)),
      .leaf (.str ("len(obj2)=" ++ toString (w.len.toOption.getD 0))), path, depth⟩
  | v => ⟨v, w, path, depth⟩

/-- A mismatch is reported under its path. -/
lemma Missmatch.of_path (v w : Value) (path : List String) (depth : Nat) :
    (Missmatch.of v w path depth).path = path := by
  cases v <;> rfl

section Loops

variable (attrs : Attributes)

/-- What a loop of `diff` goes through: a label, a part of the first value, and what there is at its place in
the second one. -/
abbrev DiffStop := String × Value × Except Raised Value

/-- The stops at the items of a list, the first of which has the index. -/
def itemStops (obj2 : Value) : List Value → Nat → List DiffStop
  | [], _ => []
  | v :: rest, k => (toString k, v, obj2.subscript (.int k)) :: itemStops obj2 rest (k + 1)

/-- The stops at the entries of a dictionary, from an index on. -/
def entryStops (obj2 : Value) : List (PyObj × Value) → Nat → List DiffStop
  | [], _ => []
  | (key, v) :: rest, k => (toString k, v, obj2.subscript key) :: entryStops obj2 rest (k + 1)

/-- The stops at the fields of a dataclass. -/
def fieldStops (obj2 : Value) (fields : List (String × Value)) : List DiffStop :=
  (fields.filter fun f => !isDunder f.1).map fun f => (f.1, f.2, present (getattr attrs obj2 f.1))

/-- The stops of the comparison of two values. -/
def stops : Value → Value → List DiffStop
  | .list items, obj2 => if obj2.len = .ok items.length then itemStops obj2 items 0 else []
  | .dict entries, obj2 => if obj2.len = .ok entries.length then entryStops obj2 entries 0 else []
  | .dataclass _ fields, obj2 => fieldStops attrs obj2 fields
  | _, _ => []

/-- A path leads from two values to parts of them that are compared with each other. -/
inductive Leads : Value → Value → List String → Value → Value → Prop where
  | here v w : Leads v w [] v w
  | step {a b label v w path v' w'} : (label, v, .ok w) ∈ stops attrs a b → Leads v w path v' w' →
    Leads a b (label :: path) v' w'

/-- The three loops of `diff`. -/
def collect : List DiffStop → Nat → List String → Except Raised (List Missmatch)
  | [], _, _ => .ok []
  | (label, v, x) :: rest, depth, path => do
    let w ← x
    let found ← diff attrs v w (depth + 1) (path ++ [label])
    let missmatches ← collect rest depth path
    .ok (found ++ missmatches)

end Loops

variable {attrs : Attributes} {a b v w : Value} {depth : Nat} {path : List String} {l : List Missmatch}

/-- The items of a list are compared at their stops. -/
lemma diffItems_eq (items : List Value) (b : Value) (k depth : Nat) (path : List String) :
    diffItems attrs items b k depth path = collect attrs (itemStops b items k) depth path := by
  induction items generalizing k with
  | nil => rfl
  | cons v rest ih => rw [diffItems, itemStops, collect, ih]

/-- The entries of a dictionary are compared at their stops. -/
lemma diffEntries_eq (entries : List (PyObj × Value)) (b : Value) (k depth : Nat) (path : List String) :
    diffEntries attrs entries b k depth path = collect attrs (entryStops b entries k) depth path := by
  induction entries generalizing k with
  | nil => rfl
  | cons e rest ih => rw [diffEntries, entryStops, collect, ih]

/-- The fields of a dataclass are compared at their stops. -/
lemma diffFields_eq (fields : List (String × Value)) (b : Value) (depth : Nat) (path : List String) :
    diffFields attrs fields b depth path = collect attrs (fieldStops attrs b fields) depth path := by
  induction fields with
  | nil => rfl
  | cons f rest ih =>
    obtain ⟨name, v⟩ := f
    rw [diffFields, ih]
    cases visible : isDunder name with
    | true =>
      rw [if_pos rfl, fieldStops, fieldStops, List.filter_cons_of_neg (by simp [visible])]
    | false =>
      rw [if_neg Bool.false_ne_true, fieldStops, fieldStops, List.filter_cons_of_pos (by simp [visible])]
      rfl

/-- What a loop has found was found at one of its stops. -/
lemma mem_collect {all : List DiffStop} (e : collect attrs all depth path = .ok l) (m : Missmatch) :
    m ∈ l ↔ ∃ label v w found, (label, v, .ok w) ∈ all ∧
      diff attrs v w (depth + 1) (path ++ [label]) = .ok found ∧ m ∈ found := by
  induction all generalizing l with
  | nil =>
    cases e
    simp
  | cons stop rest ih =>
    obtain ⟨label, v, x⟩ := stop
    obtain ⟨w, rfl, looped⟩ := bind_eq_ok.1 e
    obtain ⟨found, here, looped⟩ := bind_eq_ok.1 looped
    obtain ⟨missmatches, later, looped⟩ := bind_eq_ok.1 looped
    cases looped
    rw [List.mem_append, ih later]
    constructor
    · rintro (mem | ⟨label', v', w', found', stop, e, mem⟩)
      · exact ⟨label, v, w, found, .head _, here, mem⟩
      · exact ⟨label', v', w', found', .tail _ stop, e, mem⟩
    · rintro ⟨label', v', w', found', stop, e, mem⟩
      obtain same | stop := List.mem_cons.1 stop
      · cases same
        cases here.symm.trans e
        exact .inl mem
      · exact .inr ⟨label', v', w', found', stop, e, mem⟩

/-- A loop that returns has passed every stop. -/
lemma returned_of_collect {all : List DiffStop} {label : String} (e : collect attrs all depth path = .ok l)
    (stop : (label, v, .ok w) ∈ all) :
    ∃ found, diff attrs v w (depth + 1) (path ++ [label]) = .ok found := by
  induction all generalizing l with
  | nil => cases stop
  | cons first rest ih =>
    obtain ⟨label', v', x⟩ := first
    obtain ⟨w', rfl, looped⟩ := bind_eq_ok.1 e
    obtain ⟨found, here, looped⟩ := bind_eq_ok.1 looped
    obtain ⟨missmatches, later, looped⟩ := bind_eq_ok.1 looped
    obtain same | stop := List.mem_cons.1 stop
    · cases same
      exact ⟨found, here⟩
    · exact ih later stop

/-! ### Stops -/

/-- What is at a stop is an item. -/
lemma mem_itemStops {label : String} {x : Except Raised Value} {items : List Value} {k : Nat}
    (mem : (label, v, x) ∈ itemStops b items k) : v ∈ items := by
  induction items generalizing k with
  | nil => cases mem
  | cons v' rest ih =>
    obtain same | later := List.mem_cons.1 mem
    · cases same
      exact .head _
    · exact .tail _ (ih later)

/-- What is at a stop is the value of an entry. -/
lemma mem_entryStops {label : String} {x : Except Raised Value} {entries : List (PyObj × Value)} {k : Nat}
    (mem : (label, v, x) ∈ entryStops b entries k) : ∃ e ∈ entries, e.2 = v := by
  induction entries generalizing k with
  | nil => cases mem
  | cons e rest ih =>
    obtain same | later := List.mem_cons.1 mem
    · cases same
      exact ⟨e, .head _, rfl⟩
    · obtain ⟨e', mem', same⟩ := ih later
      exact ⟨e', .tail _ mem', same⟩

/-- What is at a stop is the value of a field. -/
lemma mem_fieldStops {label : String} {x : Except Raised Value} {fields : List (String × Value)}
    (mem : (label, v, x) ∈ fieldStops attrs b fields) : ∃ f ∈ fields, f.2 = v := by
  obtain ⟨f, memf, same⟩ := List.mem_map.1 mem
  cases same
  exact ⟨f, (List.mem_filter.1 memf).1, rfl⟩

/-- The stops are at parts of the first value. -/
lemma stops_induction (attrs : Attributes) {P : Value → Prop}
    (step : ∀ a, (∀ b label v x, (label, v, x) ∈ stops attrs a b → P v) → P a) (a : Value) : P a := by
  induction a using Value.parts_induction with
  | leaf data => exact step _ fun b label v x mem => absurd mem List.not_mem_nil
  | PTR ptr => exact step _ fun b label v x mem => absurd mem List.not_mem_nil
  | other type => exact step _ fun b label v x mem => absurd mem List.not_mem_nil
  | list items ih =>
    refine step _ fun b label v x mem => ?_
    rw [stops] at mem
    split at mem
    case isTrue => exact ih v (mem_itemStops mem)
    case isFalse => cases mem
  | dict entries ih =>
    refine step _ fun b label v x mem => ?_
    rw [stops] at mem
    split at mem
    case isTrue =>
      obtain ⟨e, here, rfl⟩ := mem_entryStops mem
      exact ih e here
    case isFalse => cases mem
  | dataclass type fields ih =>
    refine step _ fun b label v x mem => ?_
    obtain ⟨f, here, rfl⟩ := mem_fieldStops mem
    exact ih f here

/-- The values differ themselves, or the parts are compared. -/
lemma diff_cases (e : diff attrs a b depth path = .ok l) :
    Differ a b ∧ stops attrs a b = [] ∧ l = [.of a b path depth] ∨
      ¬ Differ a b ∧ collect attrs (stops attrs a b) depth path = .ok l := by
  cases a with
  | leaf data =>
    cases e
    by_cases differ : Differ (.leaf data) b
    · refine .inl ⟨differ, rfl, ?_⟩
      rw [Differ] at differ
      rw [diffLeaf]
      split_ifs <;> simp_all [Missmatch.of]
    · exact .inr ⟨differ, congrArg Except.ok ((diffLeaf_eq_nil data b depth path).2 differ).symm⟩
  | PTR ptr =>
    cases e
    by_cases differ : Differ (.PTR ptr) b
    · refine .inl ⟨differ, rfl, ?_⟩
      cases b with
      | PTR ptr' =>
        obtain ⟨set, set', ne⟩ := differ
        simp only [diffPTR]
        rw [if_neg (not_or.2 ⟨set, set'⟩), if_pos ne]
        rfl
      | leaf | list | dict | dataclass | other => rfl
    · exact .inr ⟨differ, congrArg Except.ok ((diffPTR_eq_nil ptr b depth path).2 differ).symm⟩
  | list items =>
    rw [diff] at e
    obtain ⟨n, size, e⟩ := bind_eq_ok.1 e
    split at e
    case isTrue ne =>
      cases e
      refine .inl ⟨⟨n, size, ne⟩, ?_, ?_⟩
      · rw [stops, size, if_neg]
        exact fun same => ne (Except.ok.inj same).symm
      · rw [Missmatch.of, size]
        rfl
    case isFalse eq =>
      rw [not_not] at eq
      refine .inr ⟨?_, ?_⟩
      · rintro ⟨n', size', ne⟩
        cases size.symm.trans size'
        exact ne eq
      · rw [stops, size, eq, if_pos rfl, ← diffItems_eq]
        exact e
  | dict entries =>
    rw [diff] at e
    obtain ⟨n, size, e⟩ := bind_eq_ok.1 e
    split at e
    case isTrue ne =>
      cases e
      refine .inl ⟨⟨n, size, ne⟩, ?_, rfl⟩
      rw [stops, size, if_neg]
      exact fun same => ne (Except.ok.inj same).symm
    case isFalse eq =>
      rw [not_not] at eq
      refine .inr ⟨?_, ?_⟩
      · rintro ⟨n', size', ne⟩
        cases size.symm.trans size'
        exact ne eq
      · rw [stops, size, eq, if_pos rfl, ← diffEntries_eq]
        exact e
  | dataclass type fields =>
    refine .inr ⟨id, ?_⟩
    rw [stops, ← diffFields_eq]
    exact e
  | other type => cases e

/-- The pairs of parts that differ are reported, and nothing else is. -/
lemma mem_diff (a : Value) : ∀ {b depth path l}, diff attrs a b depth path = .ok l → ∀ m, (m ∈ l ↔
    ∃ p v w, Leads attrs a b p v w ∧ Differ v w ∧ m = .of v w (path ++ p) (depth + p.length)) := by
  induction a using stops_induction attrs with
  | step a ih =>
    intro b depth path l e m
    obtain ⟨differ, none, rfl⟩ | ⟨same, looped⟩ := diff_cases e
    · rw [List.mem_singleton]
      constructor
      · rintro rfl
        exact ⟨[], a, b, .here a b, differ, by rw [List.append_nil]; rfl⟩
      · rintro ⟨p, v, w, leads, _, rfl⟩
        cases leads with
        | here => rw [List.append_nil]; rfl
        | step stop => rw [none] at stop; cases stop
    · rw [mem_collect looped]
      constructor
      · rintro ⟨label, v, w, found, stop, inner, mem⟩
        obtain ⟨p, v', w', leads, differ, rfl⟩ := (ih b label v _ stop inner m).1 mem
        refine ⟨label :: p, v', w', .step stop leads, differ, ?_⟩
        rw [List.append_assoc, List.length_cons, Nat.add_right_comm, Nat.add_assoc]
        rfl
      · rintro ⟨p, v', w', leads, differ, rfl⟩
        cases leads with
        | here => exact absurd differ same
        | @step _ _ label v w p _ _ stop leads =>
          -- the loop has passed the stop, so the comparison there has returned
          obtain ⟨found, inner⟩ := returned_of_collect looped stop
          refine ⟨label, v, w, found, stop, inner, (ih b label v _ stop inner _).2 ?_⟩
          refine ⟨p, v', w', leads, differ, ?_⟩
          rw [List.append_assoc, List.length_cons, Nat.add_right_comm depth 1, Nat.add_assoc]
          rfl

/-! ### Paths -/

/-- Items are labelled by their indices. -/
lemma itemStops_labels (items : List Value) (k : Nat) :
    (itemStops b items k).map Prod.fst = (List.range' k items.length).map toString := by
  induction items generalizing k with
  | nil => rfl
  | cons v rest ih =>
    rw [itemStops, List.map_cons, ih, List.length_cons, List.range'_succ, List.map_cons]

/-- Entries are labelled by their positions. -/
lemma entryStops_labels (entries : List (PyObj × Value)) (k : Nat) :
    (entryStops b entries k).map Prod.fst = (List.range' k entries.length).map toString := by
  induction entries generalizing k with
  | nil => rfl
  | cons e rest ih =>
    rw [entryStops, List.map_cons, ih, List.length_cons, List.range'_succ, List.map_cons]

/-- No label is there twice. -/
lemma numbers_nodup (k n : Nat) : ((List.range' k n).map fun i : Nat => toString i).Nodup :=
  List.Nodup.map (fun _ _ e => Nat.repr_injective e) List.nodup_range'

/-- The labels of a tree are different. -/
lemma labels_nodup (built : Built a) (b : Value) : ((stops attrs a b).map Prod.fst).Nodup := by
  cases built with
  | leaf => exact .nil
  | PTR => exact .nil
  | @list items _ =>
    rw [stops]
    split
    · rw [itemStops_labels]
      exact numbers_nodup _ _
    · exact .nil
  | @dict entries _ _ =>
    rw [stops]
    split
    · rw [entryStops_labels]
      exact numbers_nodup _ _
    · exact .nil
  | @dataclass type fields nodup _ =>
    rw [stops, fieldStops, List.map_map]
    exact nodup.sublist (List.filter_sublist.map _)

/-- The parts of a tree are trees. -/
lemma built_of_stop {label : String} {x : Except Raised Value} (built : Built a)
    (stop : (label, v, x) ∈ stops attrs a b) : Built v := by
  cases built with
  | leaf => cases stop
  | PTR => cases stop
  | list parts =>
    rw [stops] at stop
    split at stop
    · exact parts v (mem_itemStops stop)
    · cases stop
  | dict _ parts =>
    rw [stops] at stop
    split at stop
    · obtain ⟨e, mem, rfl⟩ := mem_entryStops stop
      exact parts e mem
    · cases stop
  | dataclass _ parts =>
    obtain ⟨f, mem, rfl⟩ := mem_fieldStops stop
    exact parts f mem

/-- A path leads to one pair of parts. -/
lemma Leads.unique {p : List String} {v' w' : Value} (built : Built a) (leads : Leads attrs a b p v w)
    (leads' : Leads attrs a b p v' w') : v' = v ∧ w' = w := by
  induction leads with
  | here =>
    cases leads'
    exact ⟨rfl, rfl⟩
  | @step a b label v1 w1 p v w stop _ ih =>
    cases leads' with
    | @step _ _ _ v2 w2 _ _ _ stop' leads' =>
      have same := List.inj_on_of_nodup_map (labels_nodup built b) stop' stop rfl
      cases same
      exact ih (built_of_stop built stop) leads'

/-- Where the labels of a loop are different, so are the paths. -/
lemma collect_nodup {all : List DiffStop} (e : collect attrs all depth path = .ok l)
    (labels : (all.map Prod.fst).Nodup)
    (each : ∀ label v x, (label, v, x) ∈ all → ∀ w found,
      diff attrs v w (depth + 1) (path ++ [label]) = .ok found → (found.map Missmatch.path).Nodup) :
    (l.map Missmatch.path).Nodup := by
  induction all generalizing l with
  | nil =>
    cases e
    exact .nil
  | cons stop rest ih =>
    obtain ⟨label, v, x⟩ := stop
    obtain ⟨w, rfl, looped⟩ := bind_eq_ok.1 e
    obtain ⟨found, here, looped⟩ := bind_eq_ok.1 looped
    obtain ⟨missmatches, later, looped⟩ := bind_eq_ok.1 looped
    cases looped
    obtain ⟨new, labels⟩ := List.nodup_cons.1 labels
    rw [List.map_append, List.nodup_append']
    refine ⟨each label v _ (.head _) w found here, ?_, ?_⟩
    · exact ih later labels fun label v x mem => each label v x (.tail _ mem)
    · intro p mem mem'
      obtain ⟨m, inside, rfl⟩ := List.mem_map.1 mem
      obtain ⟨m', inside', same⟩ := List.mem_map.1 mem'
      obtain ⟨label', v', w', found', stop, other, inside'⟩ := (mem_collect later m').1 inside'
      -- the paths of the two mismatches go on with the labels of two stops
      obtain ⟨p, _, _, _, _, rfl⟩ := (mem_diff v here m).1 inside
      obtain ⟨p', _, _, _, _, rfl⟩ := (mem_diff v' other m').1 inside'
      rw [Missmatch.of_path, Missmatch.of_path, List.append_assoc, List.append_assoc] at same
      have labels : label' :: p' = label :: p := List.append_cancel_left same
      exact new (List.mem_map.2 ⟨_, stop, (List.cons.inj labels).1⟩)

/-- No two mismatches have one path. -/
lemma paths_nodup (a : Value) : ∀ {b depth path l}, Built a → diff attrs a b depth path = .ok l →
    (l.map Missmatch.path).Nodup := by
  induction a using stops_induction attrs with
  | step a ih =>
    intro b depth path l built e
    obtain ⟨_, _, rfl⟩ | ⟨_, looped⟩ := diff_cases e
    · exact List.nodup_singleton _
    · refine collect_nodup looped (labels_nodup built b) fun label v x stop w found inner => ?_
      exact ih b label v x stop (built_of_stop built stop) inner

/-- If the comparison of a tree with a value returns, it reports exactly the pairs of parts that differ and to
which a path leads, each under this path and at a depth of its length. No path is reported twice, and none
leads to two pairs. -/
theorem diff_reports {attrs : Attributes} {a : Tree} {b : Value} {depth : Nat} {path : List String}
    {l : List Missmatch} (e : diff attrs a.value b depth path = .ok l) :
    (∀ m, m ∈ l ↔ ∃ p v w, Leads attrs a.value b p v w ∧ Differ v w ∧
      m = .of v w (path ++ p) (depth + p.length)) ∧ (l.map Missmatch.path).Nodup ∧
    ∀ p v w v' w', Leads attrs a.value b p v w → Leads attrs a.value b p v' w' → v' = v ∧ w' = w :=
  ⟨mem_diff a.value e, paths_nodup a.value a.built e, fun _ _ _ _ _ => Leads.unique a.built⟩

/-- The same processor with another number. -/
def otherCpu : Value := .dataclass "<class 'test._cpu'>" [("n", .leaf (.int 2))]

/-- The two processors differ in their numbers. -/
lemma cpu_missmatch : diff (fun _ _ => none) cpuTree.value otherCpu 0 [] =
    .ok [⟨.leaf (.int 1), .leaf (.int 2), ["n"], 1⟩] := rfl

/-- The mismatch of the numbers is at the path of their field. -/
theorem diff_reports_cpu : ∃ p v w, Leads (fun _ _ => none) cpuTree.value otherCpu p v w ∧ Differ v w ∧
    (⟨.leaf (.int 1), .leaf (.int 2), ["n"], 1⟩ : Missmatch) = .of v w p p.length := by
  obtain ⟨p, v, w, leads, differ, same⟩ := ((diff_reports cpu_missmatch).1 _).1 (List.mem_singleton_self _)
  rw [List.nil_append, Nat.zero_add] at same
  exact ⟨p, v, w, leads, differ, same⟩

end Irx.Python
