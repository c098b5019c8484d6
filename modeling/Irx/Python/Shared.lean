import Irx.Generator.Generate
import Irx.Python.Instances

/-!
# The elements of an array of structures

A new instance is a tree of objects, except that the list of an array holds one object `n` times. Reading
goes through that object once for each element and leaves in it what it read last. `Shown` follows a value
through the objects that belong to it, each of which is in one place only; so what is read into one part of an
instance stays while the others are read (`array_elements_shared`).
-/

namespace Irx.Python
open Irx.Lib Irx.Debug Irx.Memory Irx.Generator

/-- A value, or the fields of a dataclass from one on. -/
inductive Item where
  | slot (v : Slot)
  | fields (fields : List (String × Slot))

section Shown

variable (R : List String → PyObj → Prop) (h : PyHeap)

/-- The item, at the path, consists of these objects, all different but for the elements of a list, which are
one object or values. The values are as `R` says of their paths, where the one element of a list stands for
the last. -/
inductive Shown : Item → List String → Set ObjId → Prop where
  | leaf {data path} : R path data → Shown (.slot (.leaf data)) path ∅
  | PTR {o cls ptr path} : h.objects o = .PTR cls ptr → R path ptr → Shown (.slot (.ref o)) path {o}
  | values {o path} {data : List PyObj} : h.objects o = .list (data.map .leaf) →
    (∀ (i : Nat) d, data[i]? = some d → R (path ++ [toString i]) d) → Shown (.slot (.ref o)) path {o}
  | copies {o e n path S} : h.objects o = .list (List.replicate (n + 1) (.ref e)) →
    Shown (.slot (.ref e)) (path ++ [toString n]) S → o ∉ S → Shown (.slot (.ref o)) path (insert o S)
  | dataclass {o cls fields path S} : h.objects o = .dataclass cls fields →
    (fields.map Prod.fst).Nodup → Shown (.fields fields) path S → o ∉ S →
    Shown (.slot (.ref o)) path (insert o S)
  | nil {path} : Shown (.fields []) path ∅
  | hidden {k v rest path S} : isDunder k = true → Shown (.fields rest) path S →
    Shown (.fields ((k, v) :: rest)) path S
  | visible {k v rest path S T} : isDunder k = false → Shown (.slot v) (path ++ [k]) S →
    Shown (.fields rest) path T → Disjoint S T → Shown (.fields ((k, v) :: rest)) path (S ∪ T)

end Shown

/-- Whatever the values are. -/
def Formed (h : PyHeap) (it : Item) (S : Set ObjId) : Prop := Shown (fun _ _ => True) h it [] S

variable {R : List String → PyObj → Prop} {h h1 h' : PyHeap} {it : Item} {path path' : List String}
  {S T : Set ObjId} {o e : ObjId} {v : Slot} {fields rest : List (String × Slot)} {n depth : Nat}
  {key cls elem : String} {classes : Classes}

namespace Shown

/-- Changes of other objects leave what is shown. -/
lemma frame (shown : Shown R h it path S) (same : ∀ x ∈ S, h'.objects x = h.objects x) :
    Shown R h' it path S := by
  induction shown with
  | leaf here => exact .leaf here
  | PTR obj here => exact .PTR ((same _ rfl).trans obj) here
  | values obj here => exact .values ((same _ rfl).trans obj) here
  | copies obj _ apart ih =>
    refine .copies ((same _ (Set.mem_insert _ _)).trans obj) (ih fun x mem => ?_) apart
    exact same x (Set.mem_insert_of_mem _ mem)
  | dataclass obj distinct _ apart ih =>
    refine .dataclass ((same _ (Set.mem_insert _ _)).trans obj) distinct (ih fun x mem => ?_) apart
    exact same x (Set.mem_insert_of_mem _ mem)
  | nil => exact .nil
  | hidden dunder _ ih => exact .hidden dunder (ih same)
  | visible visible _ _ apart ihv ih =>
    refine .visible visible (ihv fun x mem => ?_) (ih fun x mem => ?_) apart
    · exact same x (.inl mem)
    · exact same x (.inr mem)

/-- Without the values, the path does not matter. -/
lemma free (shown : Shown R h it path S) (path' : List String) : Shown (fun _ _ => True) h it path' S := by
  induction shown generalizing path' with
  | leaf => exact .leaf trivial
  | PTR obj _ => exact .PTR obj trivial
  | values obj _ => exact .values obj fun _ _ _ => trivial
  | copies obj _ apart ih => exact .copies obj (ih _) apart
  | dataclass obj distinct _ apart ih => exact .dataclass obj distinct (ih path') apart
  | nil => exact .nil
  | hidden dunder _ ih => exact .hidden dunder (ih path')
  | visible visible _ _ apart ihv ih => exact .visible visible (ihv _) (ih path') apart

/-- What is shown is formed. -/
lemma formed (shown : Shown R h it path S) : Formed h it S := shown.free []

/-- The value of a field. -/
lemma of_field (shown : Shown R h (.fields fields) path S) (mem : (key, v) ∈ fields)
    (visible : isDunder key = false) : ∃ T ⊆ S, Shown R h (.slot v) (path ++ [key]) T := by
  induction fields generalizing S with
  | nil => cases mem
  | cons f rest ih =>
    cases shown with
    | hidden dunder shown =>
      obtain same | mem := List.mem_cons.1 mem
      · cases same
        cases visible.symm.trans dunder
      · exact ih shown mem
    | @visible k w _ _ S T _ here shown _ =>
      obtain same | mem := List.mem_cons.1 mem
      · cases same
        exact ⟨S, Set.subset_union_left, here⟩
      · obtain ⟨T', sub, there⟩ := ih shown mem
        exact ⟨T', sub.trans Set.subset_union_right, there⟩

/-- Fields one after the other. -/
lemma append {front : List (String × Slot)} (first : Shown R h (.fields front) path S)
    (second : Shown R h (.fields rest) path T) (apart : Disjoint S T) :
    Shown R h (.fields (front ++ rest)) path (S ∪ T) := by
  induction front generalizing S with
  | nil =>
    cases first
    rw [Set.empty_union]
    exact second
  | cons f front ih =>
    cases first with
    | hidden dunder first => exact .hidden dunder (ih first apart)
    | visible visible here first apart' =>
      rw [Set.union_assoc]
      obtain ⟨left, right⟩ := Set.disjoint_union_left.1 apart
      refine .visible visible here (ih first right) ?_
      exact Set.disjoint_union_right.2 ⟨apart', left⟩

end Shown

/-! ### New instances -/

/-- New objects were made, and the old ones were left. -/
def Grown (h h' : PyHeap) : Prop :=
  h.next ≤ h'.next ∧ ∀ x < h.next, h'.objects x = h.objects x

/-- The objects are new. -/
def Between (h h' : PyHeap) (S : Set ObjId) : Prop := ∀ x ∈ S, h.next ≤ x ∧ x < h'.next

/-- Every heap has grown from itself. -/
lemma Grown.refl (h : PyHeap) : Grown h h := ⟨le_rfl, fun _ _ => rfl⟩

/-- A heap grows in two steps. -/
lemma Grown.trans (first : Grown h h1) (second : Grown h1 h') : Grown h h' :=
  ⟨first.1.trans second.1, fun x lt => (second.2 x (lt.trans_le first.1)).trans (first.2 x lt)⟩

/-- A new object makes the heap grow. -/
lemma grown_alloc (h : PyHeap) (obj : PyObject) : Grown h (h.alloc obj).2 :=
  ⟨Nat.le_succ _, fun _ lt => Function.update_of_ne lt.ne ..⟩

/-- The new object is there. -/
lemma alloc_self (h : PyHeap) (obj : PyObject) : (h.alloc obj).2.objects h.next = obj :=
  Function.update_self ..

/-- What was formed of old objects stays formed. -/
lemma Formed.grown (formed : Formed h it S) (grown : Grown h h') (old : ∀ x ∈ S, x < h.next) :
    Formed h' it S := formed.frame fun x mem => grown.2 x (old x mem)

/-- A call that gives a value, or a new instance of new objects. -/
def Makes (classes : Classes) (construct : String → PyHeap → Option (Slot × PyHeap)) : Prop :=
  ∀ cls h v h', construct cls h = some (v, h') →
    Grown h h' ∧ (∃ S, Formed h' (.slot v) S ∧ Between h h' S) ∧
      ∀ C, classes cls = some (.dataclass C) → ∃ o, v = .ref o

/-- The default of an array holds one value or instance as often as it has elements. -/
def Copies (classes : Classes) (h : PyHeap) (value : Generator.Value) (v : Slot) : Prop :=
  ∀ elem n, value = .list elem n → ∃ l v', v = .ref l ∧ l < h.next ∧
    h.objects l = .list (List.replicate n v') ∧
      ∀ C, classes elem = some (.dataclass C) → ∃ o, v' = .ref o

/-- A new list of one value or of one instance. -/
lemma formed_replicate (formed : Formed h (.slot v) S) (old : ∀ x ∈ S, x < h.next) (n : Nat) :
    ∃ T ⊆ insert h.next S, Formed (h.alloc (.list (List.replicate n v))).2 (.slot (.ref h.next)) T := by
  have later := grown_alloc h (.list (List.replicate n v))
  have obj := alloc_self h (.list (List.replicate n v))
  have own : {h.next} ⊆ insert h.next S := Set.singleton_subset_iff.2 (Set.mem_insert _ _)
  cases n with
  | zero =>
    have values : (h.alloc (.list [])).2.objects h.next = .list (([] : List PyObj).map .leaf) := obj
    exact ⟨{h.next}, own, .values values fun _ _ _ => trivial⟩
  | succ n =>
    cases v with
    | leaf data =>
      have values := List.map_replicate (f := Slot.leaf) (a := data) (n := n + 1)
      exact ⟨{h.next}, own, .values (obj.trans (congrArg _ values.symm)) fun _ _ _ => trivial⟩
    | ref e =>
      have inner := formed.grown later old
      exact ⟨insert h.next S, subset_rfl, .copies obj (inner.free _) fun mem => lt_irrefl _ (old _ mem)⟩

/-- A default is formed of new objects. -/
lemma makeDefault_formed {construct : String → PyHeap → Option (Slot × PyHeap)}
    (makes : Makes classes construct) {value : Generator.Value}
    (made : makeDefault construct value h = some (v, h')) :
    Grown h h' ∧ (∃ S, Formed h' (.slot v) S ∧ Between h h' S) ∧ Copies classes h' value v := by
  cases value with
  | primitive type =>
    cases made
    refine ⟨.refl h, ⟨∅, .leaf trivial, fun x mem => absurd mem (Set.notMem_empty x)⟩, fun elem n same => ?_⟩
    cases same
  | string size =>
    cases made
    refine ⟨.refl h, ⟨∅, .leaf trivial, fun x mem => absurd mem (Set.notMem_empty x)⟩, fun elem n same => ?_⟩
    cases same
  | embedded cls =>
    obtain ⟨grown, formed, _⟩ := makes cls h v h' made
    refine ⟨grown, formed, fun elem n same => ?_⟩
    cases same
  | pointer cls =>
    cases made
    refine ⟨grown_alloc h _, ⟨{h.next}, .PTR (alloc_self h _) trivial, fun x mem => ?_⟩, fun elem n same => ?_⟩
    · rw [Set.mem_singleton_iff.1 mem]
      exact ⟨le_rfl, Nat.lt_succ_self _⟩
    · cases same
  | list elem n =>
    obtain ⟨⟨v', h1⟩, made1, made⟩ := Option.bind_eq_some_iff.1 made
    obtain ⟨grown, ⟨S, formed, between⟩, instances⟩ := makes elem h v' h1 made1
    cases made
    refine ⟨grown.trans (grown_alloc h1 _), ?_, fun elem' n' same => ?_⟩
    · obtain ⟨T, sub, there⟩ := formed_replicate formed (fun x mem => (between x mem).2) n
      refine ⟨T, there, fun x mem => ?_⟩
      obtain rfl | mem := sub mem
      · exact ⟨grown.1, Nat.lt_succ_self _⟩
      · exact ⟨(between x mem).1, (between x mem).2.trans (Nat.lt_succ_self _)⟩
    · cases same
      exact ⟨h1.next, v', rfl, Nat.lt_succ_self _, alloc_self h1 _, instances⟩

/-- The defaults of the fields are formed of new objects, each of its own. -/
lemma makeFields_formed {construct : String → PyHeap → Option (Slot × PyHeap)}
    (makes : Makes classes construct) {l : List (String × Generator.Value)}
    (made : makeFields construct l h = some (fields, h')) :
    Grown h h' ∧ (∃ S, Formed h' (.fields fields) S ∧ Between h h' S) ∧
      fields.map Prod.fst = l.map Prod.fst ∧
      ∀ f ∈ l, ∃ v, (f.1, v) ∈ fields ∧ Copies classes h' f.2 v := by
  induction l generalizing h fields h' with
  | nil =>
    cases made
    exact ⟨.refl h, ⟨∅, .nil, fun x mem => absurd mem (Set.notMem_empty x)⟩, rfl, List.forall_mem_nil _⟩
  | cons f l ih =>
    obtain ⟨k, value⟩ := f
    obtain ⟨⟨v, h1⟩, first, made⟩ := Option.bind_eq_some_iff.1 made
    obtain ⟨⟨rest, h2⟩, others, made⟩ := Option.bind_eq_some_iff.1 made
    cases made
    obtain ⟨grown1, ⟨S, formed1, between1⟩, copies1⟩ := makeDefault_formed makes first
    obtain ⟨grown2, ⟨T, formed2, between2⟩, names, copies2⟩ := ih others
    have here := formed1.grown grown2 fun x mem => (between1 x mem).2
    refine ⟨grown1.trans grown2, ?_, by rw [List.map_cons, List.map_cons, names], ?_⟩
    · cases visible : isDunder k with
      | true =>
        refine ⟨T, .hidden visible formed2, fun x mem => ?_⟩
        exact ⟨grown1.1.trans (between2 x mem).1, (between2 x mem).2⟩
      | false =>
        refine ⟨S ∪ T, .visible visible (here.free _) formed2 ?_, fun x mem => ?_⟩
        · refine Set.disjoint_left.2 fun x one two => ?_
          exact absurd (between1 x one).2 (not_lt.2 (between2 x two).1)
        · obtain mem | mem := mem
          · exact ⟨(between1 x mem).1, (between1 x mem).2.trans_le grown2.1⟩
          · exact ⟨grown1.1.trans (between2 x mem).1, (between2 x mem).2⟩
    · refine List.forall_mem_cons.2 ⟨⟨v, .head _, fun elem n same => ?_⟩, fun f mem => ?_⟩
      · obtain ⟨l, v', same, lt, obj, instances⟩ := copies1 elem n same
        exact ⟨l, v', same, lt.trans_le grown2.1, (grown2.2 l lt).trans obj, instances⟩
      · obtain ⟨v, mem, copies⟩ := copies2 f mem
        exact ⟨v, .tail _ mem, copies⟩

/-- A new instance has the fields of its class. -/
lemma construct_succ (makes : Makes classes (construct classes depth)) {C : PyClass}
    (known : classes cls = some (.dataclass C))
    (made : construct classes (depth + 1) cls h = some (v, h')) : ∃ o fields, v = .ref o ∧
      h'.objects o = .dataclass C.name fields ∧ (fields.map Prod.fst).Nodup ∧ Grown h h' ∧
      (∃ S, Formed h' (.slot (.ref o)) S ∧ Between h h' S) ∧
      ∀ f ∈ C.fields, ∃ v, (f.1, v) ∈ fields ∧ Copies classes h' f.2 v := by
  rw [construct, known, Option.bind_eq_bind, Option.bind_some] at made
  obtain ⟨⟨fields, h1⟩, others, made⟩ := Option.bind_eq_some_iff.1 made
  cases made
  obtain ⟨grown, ⟨S, formed, between⟩, names, copies⟩ := makeFields_formed makes others
  have later := grown_alloc h1 (.dataclass C.name fields)
  have obj := alloc_self h1 (.dataclass C.name fields)
  have distinct : (fields.map Prod.fst).Nodup := by
    rw [names]
    exact C.distinct
  have inner := formed.grown later fun x mem => (between x mem).2
  refine ⟨h1.next, fields, rfl, obj, distinct, grown.trans later, ?_, fun f mem => ?_⟩
  · refine ⟨insert h1.next S, .dataclass obj distinct inner fun mem => ?_, fun x mem => ?_⟩
    · exact lt_irrefl _ (between _ mem).2
    · obtain rfl | mem := mem
      · exact ⟨grown.1, Nat.lt_succ_self _⟩
      · exact ⟨(between x mem).1, (between x mem).2.trans (Nat.lt_succ_self _)⟩
  · obtain ⟨v, mem, copies⟩ := copies f mem
    refine ⟨v, mem, fun elem n same => ?_⟩
    obtain ⟨l, v', same, lt, there, instances⟩ := copies elem n same
    exact ⟨l, v', same, lt.trans_le later.1, (later.2 l lt).trans there, instances⟩

/-- New instances are formed of new objects. -/
lemma construct_makes (classes : Classes) (depth : Nat) : Makes classes (construct classes depth) := by
  induction depth with
  | zero =>
    intro cls h v h' made
    cases made
  | succ depth ih =>
    intro cls h v h' made
    cases known : classes cls with
    | none =>
      rw [construct, known] at made
      cases made
    | some type =>
      cases type with
      | value data =>
        rw [construct, known] at made
        cases made
        refine ⟨.refl h, ⟨∅, .leaf trivial, fun x mem => absurd mem (Set.notMem_empty x)⟩, fun C same => ?_⟩
        cases same
      | dataclass C =>
        obtain ⟨o, _, rfl, _, _, grown, formed, _⟩ := construct_succ ih known made
        exact ⟨grown, formed, fun _ _ => ⟨o, rfl⟩⟩

/-! ### What is read -/

section Reading

variable (P : PyIRModuleInterpreter) (name : String) (thread_ptr : Nat) (beyond : List String → Bytes)
  (mem : Bytes)

/-- The value is what `get_struct_primitive` gives for the path, for some placeholder; or `None`, in whose
place nothing is read any more. -/
def Reads (path : List String) (v : PyObj) : Prop :=
  v = .none ∨ ∃ data h h', h.mem = mem ∧
    P.get_struct_primitive name thread_ptr beyond data path h = .ok (v, h')

/-- Only these objects changed, and memory did not. -/
def Apart (S : Set ObjId) (w w' : World) : Prop :=
  (∀ x ∉ S, w'.heap.objects x = w.heap.objects x) ∧ w'.host.mem = w.host.mem

/-- A call that reads into a value: it stays the object it is, and shows what is read for the path. -/
def Fills (get_struct : Slot → List String → World → Except Stop (Slot × World)) : Prop :=
  ∀ slot path w slot' w' S, Formed w.heap (.slot slot) S → w.host.mem = mem →
    get_struct slot path w = .ok (slot', w') → slot'.blank = slot.blank ∧
      Shown (Reads P name thread_ptr beyond mem) w'.heap (.slot slot') path S ∧ Apart S w w'

end Reading

variable {P : PyIRModuleInterpreter} {name : String} {thread_ptr : Nat} {beyond : List String → Bytes}
  {mem : Bytes} {w w1 w' : World}
  {get_struct : Slot → List String → World → Except Stop (Slot × World)}

/-- Reading a value changes no memory. -/
lemma primitive_mem {data pydata : PyObj} {h h' : Host}
    (e : P.get_struct_primitive name thread_ptr beyond data path h = .ok (pydata, h')) :
    h'.mem = h.mem := by
  rw [PyIRModuleInterpreter.get_struct_primitive] at e
  split at e
  · cases e
  · split at e
    · cases e
    · split at e
      · cases e
        rfl
      · split at e
        · cases e
        · split at e
          · cases e
          · cases e
            rfl

/-- Nothing is touched. -/
lemma Apart.refl (S : Set ObjId) (w : World) : Apart S w w := ⟨fun _ _ => rfl, rfl⟩

/-- What is apart from many is apart from few. -/
lemma Apart.mono (sub : S ⊆ T) (apart : Apart S w w') : Apart T w w' :=
  ⟨fun x out => apart.1 x fun mem => out (sub mem), apart.2⟩

/-- Two calls are apart if each is. -/
lemma Apart.trans (first : Apart S w w1) (second : Apart S w1 w') : Apart S w w' :=
  ⟨fun x out => (second.1 x out).trans (first.1 x out), second.2.trans first.2⟩

/-- What is apart from the objects leaves them shown. -/
lemma Shown.apart (shown : Shown R w.heap it path S) (apart : Apart T w w') (out : Disjoint S T) :
    Shown R w'.heap it path S :=
  shown.frame fun x mem => apart.1 x (Set.disjoint_left.1 out mem)

/-- An item that was read is put back in its place. -/
lemma item_filled (fills : Fills P name thread_ptr beyond mem get_struct) {items : List Slot} {k : Nat}
    (obj : w.heap.objects o = .list items) (there : items[k]? = some v) (formed : Formed w.heap (.slot v) S)
    (own : o ∉ S) (same : w.host.mem = mem)
    (step : PyIRModuleInterpreter.getItem get_struct o path w k = .ok w1) :
    ∃ v', w1.heap.objects o = .list (items.set k v') ∧ v'.blank = v.blank ∧
      Shown (Reads P name thread_ptr beyond mem) w1.heap (.slot v') (path ++ [toString k]) S ∧
      Apart (insert o S) w w1 := by
  rw [PyIRModuleInterpreter.getItem, PyHeap.getitem_of_list obj, there] at step
  obtain ⟨r, got, step⟩ := bind_eq_ok.1 step
  cases step
  obtain ⟨blank, shown, others, same1⟩ := fills _ _ _ r.1 r.2 S formed same got
  refine ⟨r.1, PyHeap.setitem_self ((others o own).trans obj), blank, ?_, fun x out => ?_, same1⟩
  · exact shown.frame fun x mem => PyHeap.setitem_of_ne (ne_of_mem_of_not_mem mem own)
  · obtain ⟨ne, out⟩ := not_or.1 out
    exact (PyHeap.setitem_of_ne ne).trans (others x out)

/-- The loop over a list of one object. -/
lemma items_filled (fills : Fills P name thread_ptr beyond mem get_struct) {ks : List Nat}
    (obj : w.heap.objects o = .list (List.replicate n (.ref e))) (formed : Formed w.heap (.slot (.ref e)) S)
    (own : o ∉ S) (same : w.host.mem = mem) (lt : ∀ k ∈ ks, k < n)
    (ran : ks.foldlM (PyIRModuleInterpreter.getItem get_struct o path) w = .ok w') :
    w'.heap.objects o = .list (List.replicate n (.ref e)) ∧ Apart (insert o S) w w' ∧
      ∀ k, ks.getLast? = some k →
        Shown (Reads P name thread_ptr beyond mem) w'.heap (.slot (.ref e)) (path ++ [toString k]) S := by
  induction ks generalizing w with
  | nil =>
    cases ran
    refine ⟨obj, .refl _ _, fun k last => ?_⟩
    cases last
  | cons k ks ih =>
    rw [List.foldlM_cons] at ran
    obtain ⟨w1, step, ran⟩ := bind_eq_ok.1 ran
    have there : (List.replicate n (Slot.ref e))[k]? = some (.ref e) :=
      List.getElem?_replicate_of_lt (lt k (.head _))
    obtain ⟨v', obj1, blank, shown, apart⟩ := item_filled fills obj there formed own same step
    cases blank_eq_ref blank
    rw [List.set_replicate_self] at obj1
    obtain ⟨obj', apart', last⟩ :=
      ih obj1 shown.formed (apart.2.trans same) (fun k mem => lt k (.tail _ mem)) ran
    refine ⟨obj', apart.trans apart', fun k' there => ?_⟩
    cases ks with
    | nil =>
      cases ran
      cases there
      exact shown
    | cons k2 ks => exact last k' there

/-- Each of a list, and the last one. -/
lemma forall_getElem?_concat {α : Type*} {Q : Nat → α → Prop} {front : List α} {x : α}
    (first : ∀ (i : Nat) y, front[i]? = some y → Q i y) (last : Q front.length x) (i : Nat) (y : α)
    (there : (front ++ [x])[i]? = some y) : Q i y := by
  rw [List.getElem?_append] at there
  split at there
  · exact first i y there
  · obtain ⟨here, same⟩ := List.getElem?_eq_some_iff.1 there
    rw [List.length_singleton] at here
    have atEnd : i = front.length := by omega
    subst atEnd
    simp only [Nat.sub_self, List.getElem_singleton] at same
    exact same ▸ last

/-- The loop over a list of values, of which the first ones were read already. -/
lemma values_filled (fills : Fills P name thread_ptr beyond mem get_struct) {front data : List PyObj}
    (obj : w.heap.objects o = .list ((front ++ data).map .leaf))
    (first : ∀ (i : Nat) d, front[i]? = some d → Reads P name thread_ptr beyond mem (path ++ [toString i]) d)
    (same : w.host.mem = mem)
    (ran : (List.range' front.length data.length).foldlM
      (PyIRModuleInterpreter.getItem get_struct o path) w = .ok w') :
    ∃ data' : List PyObj, w'.heap.objects o = .list (data'.map .leaf) ∧
      (∀ (i : Nat) d, data'[i]? = some d → Reads P name thread_ptr beyond mem (path ++ [toString i]) d) ∧
      Apart {o} w w' := by
  induction data generalizing w front with
  | nil =>
    cases ran
    rw [List.append_nil] at obj
    exact ⟨front, obj, first, .refl _ _⟩
  | cons d data ih =>
    rw [List.length_cons, List.range'_succ, List.foldlM_cons] at ran
    obtain ⟨w1, step, ran⟩ := bind_eq_ok.1 ran
    have there : ((front ++ d :: data).map Slot.leaf)[front.length]? = some (.leaf d) := by
      rw [List.getElem?_map, List.getElem?_append_right le_rfl, Nat.sub_self]
      rfl
    obtain ⟨v', obj1, blank, shown, apart⟩ :=
      item_filled fills obj there (.leaf trivial) (Set.notMem_empty o) same step
    cases v' with
    | ref => cases blank
    | leaf d' =>
      have read : Reads P name thread_ptr beyond mem (path ++ [toString front.length]) d' := by
        cases shown with
        | leaf read => exact read
      have obj2 : w1.heap.objects o = .list (((front ++ [d']) ++ data).map .leaf) := by
        rw [obj1, ← List.map_set, List.set_append_right _ _ le_rfl, Nat.sub_self, List.append_assoc]
        rfl
      have rest : front.length + 1 = (front ++ [d']).length := by
        rw [List.length_append, List.length_singleton]
      rw [rest] at ran
      obtain ⟨data', obj', last, apart'⟩ :=
        ih obj2 (forall_getElem?_concat first read) (apart.2.trans same) ran
      rw [insert_empty_eq] at apart
      exact ⟨data', obj', last, apart.trans apart'⟩

/-- The first field of the name is set. -/
lemma setField_append {front : List (String × Slot)} {v' : Slot} (other : key ∉ front.map Prod.fst) :
    setField key v' (front ++ (key, v) :: rest) = front ++ (key, v') :: rest := by
  induction front with
  | nil =>
    rw [List.nil_append, setField, if_pos rfl]
    rfl
  | cons f front ih =>
    rw [List.map_cons, List.mem_cons, not_or] at other
    rw [List.cons_append, setField, if_neg (Ne.symm other.1), ih other.2]
    rfl

/-- A field that was read is put back in its place. -/
lemma field_filled (fills : Fills P name thread_ptr beyond mem get_struct) {front : List (String × Slot)}
    (obj : w.heap.objects o = .dataclass cls (front ++ (key, v) :: rest))
    (distinct : ((front ++ (key, v) :: rest).map Prod.fst).Nodup) (formed : Formed w.heap (.slot v) S)
    (own : o ∉ S) (same : w.host.mem = mem) (visible : isDunder key = false)
    (step : PyIRModuleInterpreter.getField get_struct o path w key = .ok w1) :
    ∃ v', w1.heap.objects o = .dataclass cls (front ++ (key, v') :: rest) ∧
      Shown (Reads P name thread_ptr beyond mem) w1.heap (.slot v') (path ++ [key]) S ∧
      Apart (insert o S) w w1 := by
  have found := PyHeap.getattr_of_mem obj distinct (List.mem_append_right _ (.head _))
  rw [PyIRModuleInterpreter.getField, if_neg (Bool.not_eq_true _ ▸ visible), found] at step
  obtain ⟨r, got, step⟩ := bind_eq_ok.1 step
  cases step
  obtain ⟨_, shown, others, same1⟩ := fills _ _ _ r.1 r.2 S formed same got
  have other : key ∉ front.map Prod.fst := by
    rw [List.map_append, List.nodup_append] at distinct
    exact fun mem => distinct.2.2 key mem key (.head _) rfl
  refine ⟨r.1, ?_, ?_, fun x out => ?_, same1⟩
  · exact (PyHeap.setattr_self ((others o own).trans obj)).trans (congrArg _ (setField_append other))
  · exact shown.frame fun x mem => PyHeap.setattr_of_ne (ne_of_mem_of_not_mem mem own)
  · obtain ⟨ne, out⟩ := not_or.1 out
    exact (PyHeap.setattr_of_ne ne).trans (others x out)

/-- The loop over the fields, of which the first ones were read already. -/
lemma fields_filled (fills : Fills P name thread_ptr beyond mem get_struct)
    {front : List (String × Slot)} (obj : w.heap.objects o = .dataclass cls (front ++ rest))
    (distinct : ((front ++ rest).map Prod.fst).Nodup)
    (first : Shown (Reads P name thread_ptr beyond mem) w.heap (.fields front) path S)
    (second : Formed w.heap (.fields rest) T) (apart : Disjoint S T) (own : o ∉ S) (own' : o ∉ T)
    (same : w.host.mem = mem)
    (ran : (rest.map Prod.fst).foldlM (PyIRModuleInterpreter.getField get_struct o path) w = .ok w') :
    ∃ fields, w'.heap.objects o = .dataclass cls fields ∧ (fields.map Prod.fst).Nodup ∧
      Shown (Reads P name thread_ptr beyond mem) w'.heap (.fields fields) path (S ∪ T) ∧
      Apart (insert o T) w w' := by
  induction rest generalizing w front S T with
  | nil =>
    cases ran
    cases second
    rw [List.append_nil] at obj distinct
    rw [Set.union_empty]
    exact ⟨front, obj, distinct, first, .refl _ _⟩
  | cons f rest ih =>
    obtain ⟨k, v⟩ := f
    rw [List.map_cons, List.foldlM_cons] at ran
    obtain ⟨w1, step, ran⟩ := bind_eq_ok.1 ran
    cases second with
    | hidden dunder second =>
      rw [PyIRModuleInterpreter.getField, if_pos dunder] at step
      cases step
      have front' := first.append (.hidden (v := v) dunder .nil) (Set.disjoint_empty S)
      rw [Set.union_empty] at front'
      rw [List.append_cons] at obj distinct
      exact ih obj distinct front' second apart own own' same ran
    | @visible _ _ _ _ S1 T1 visible here second apart1 =>
      obtain ⟨ownv, ownr⟩ := not_or.1 own'
      obtain ⟨apartv, apartr⟩ := Set.disjoint_union_right.1 apart
      obtain ⟨v', obj1, shown, step⟩ := field_filled fills obj distinct here.formed ownv same visible step
      -- what was read stays, since the objects of the other fields are others
      have first1 := first.apart step (Set.disjoint_insert_right.2 ⟨own, apartv⟩)
      have second1 := second.apart step (Set.disjoint_insert_right.2 ⟨ownr, apart1.symm⟩)
      have front' := first1.append (.visible visible shown .nil (Set.disjoint_empty S1))
        (Set.disjoint_union_right.2 ⟨apartv, Set.disjoint_empty S⟩)
      rw [Set.union_empty] at front'
      rw [List.append_cons] at obj1
      obtain ⟨fields, obj', distinct', shown', rest'⟩ := ih obj1 (by simpa using distinct) front'
        second1.formed (Set.disjoint_union_left.2 ⟨apartr, apart1⟩) (not_or.2 ⟨own, ownv⟩) ownr
        (step.2.trans same) ran
      rw [Set.union_assoc] at shown'
      refine ⟨fields, obj', distinct', shown', (step.mono ?_).trans (rest'.mono ?_)⟩
      · exact Set.insert_subset_insert Set.subset_union_left
      · exact Set.insert_subset_insert Set.subset_union_right

/-- Whatever the depth of calls, `get_struct` reads into the value. -/
lemma get_struct_fills (depth : Nat) :
    Fills P name thread_ptr beyond mem (P.get_struct name thread_ptr beyond depth) := by
  induction depth with
  | zero =>
    intro slot path w slot' w' S _ _ e
    cases e
  | succ depth ih =>
    intro slot path w slot' w' S formed same e
    refine ⟨(get_struct_steady _ _ _ _ _ _ e).1, ?_⟩
    cases formed with
    | @leaf data =>
      rw [PyIRModuleInterpreter.get_struct] at e
      split at e
      · cases e
        exact ⟨.leaf (.inl rfl), .refl _ _⟩
      · obtain ⟨r, read, e⟩ := bind_eq_ok.1 e
        cases e
        refine ⟨.leaf (.inr ⟨data, w.host, r.2, same, read⟩), fun x _ => rfl, ?_⟩
        exact primitive_mem read
    | @PTR o cls ptr _ obj =>
      rw [PyIRModuleInterpreter.get_struct] at e
      simp only [obj] at e
      obtain ⟨r, read, e⟩ := bind_eq_ok.1 e
      cases e
      refine ⟨.PTR PyHeap.set_self (.inr ⟨.none, w.host, r.2, same, read⟩), fun x out => ?_, ?_⟩
      · exact PyHeap.set_of_ne out
      · exact primitive_mem read
    | @values o _ data obj _ =>
      rw [PyIRModuleInterpreter.get_struct] at e
      simp only [obj] at e
      obtain ⟨w1, ran, e⟩ := bind_eq_ok.1 e
      cases e
      rw [List.length_map, List.range_eq_range'] at ran
      have none : ∀ (i : Nat) d, ([] : List PyObj)[i]? = some d →
          Reads P name thread_ptr beyond mem (path ++ [toString i]) d := by
        intro i d there
        cases there
      have obj0 : w.heap.objects o = .list (([] ++ data).map .leaf) := obj
      obtain ⟨data', obj', read, apart⟩ := values_filled ih obj0 none same ran
      exact ⟨.values obj' read, apart⟩
    | @copies o e' n _ S obj inner apart =>
      rw [PyIRModuleInterpreter.get_struct] at e
      simp only [obj] at e
      obtain ⟨w1, ran, e⟩ := bind_eq_ok.1 e
      cases e
      rw [List.length_replicate] at ran
      obtain ⟨obj', others, last⟩ := items_filled ih obj inner.formed apart same
        (fun k mem => List.mem_range.1 mem) ran
      have shown := last n (by rw [List.range_succ, List.getLast?_concat])
      exact ⟨.copies obj' shown apart, others⟩
    | @dataclass o cls fields _ S obj distinct inner apart =>
      rw [PyIRModuleInterpreter.get_struct] at e
      simp only [obj] at e
      obtain ⟨w1, ran, e⟩ := bind_eq_ok.1 e
      cases e
      have obj0 : w.heap.objects o = .dataclass cls ([] ++ fields) := obj
      obtain ⟨fields', obj', distinct', shown, others⟩ :=
        fields_filled ih obj0 distinct .nil inner (Set.empty_disjoint S) (Set.notMem_empty o) apart same ran
      rw [Set.empty_union] at shown
      exact ⟨.dataclass obj' distinct' shown apart, others⟩

/-! ### Arrays -/

/-- The field holds a list of `n` different objects, and each of them shows the element of its index. -/
def Delivered (R : List String → PyObj → Prop) (h : PyHeap) (o : ObjId) (field : String) (n : Nat) : Prop :=
  ∃ l items, h.getattr o field = some (.ref l) ∧ h.objects l = .list items ∧ items.length = n ∧
    items.Nodup ∧ ∀ (i : Nat) v, items[i]? = some v → ∃ S, Shown R h (.slot v) [field, toString i] S

/-- The value of an attribute. -/
lemma Shown.of_attr (shown : Shown R h (.slot (.ref o)) path S) (found : h.getattr o key = some v)
    (visible : isDunder key = false) : ∃ T, Shown R h (.slot v) (path ++ [key]) T := by
  obtain ⟨cls, fields, obj, there⟩ := PyHeap.getattr_eq_some found
  cases shown with
  | PTR obj' _ => cases obj.symm.trans obj'
  | values obj' _ => cases obj.symm.trans obj'
  | copies obj' _ _ => cases obj.symm.trans obj'
  | dataclass obj' _ inner _ =>
    cases obj.symm.trans obj'
    obtain ⟨T, -, here⟩ := inner.of_field (List.mem_of_find?_eq_some there) visible
    exact ⟨T, here⟩

/-- The list of an array of structures, in a new instance. -/
lemma construct_array {C E : PyClass} {field : String} (known : classes cls = some (.dataclass C))
    (array : (field, .list elem n) ∈ C.fields) (structs : classes elem = some (.dataclass E))
    (made : construct classes depth cls h = some (.ref o, h')) :
    ∃ l e, h'.getattr o field = some (.ref l) ∧ h'.objects l = .list (List.replicate n (.ref e)) ∧
      ∃ S, Formed h' (.slot (.ref o)) S := by
  cases depth with
  | zero => cases made
  | succ depth =>
    obtain ⟨o, fields, same, obj, distinct, -, ⟨S, formed, -⟩, copies⟩ :=
      construct_succ (construct_makes classes depth) known made
    cases same
    obtain ⟨v, there, copied⟩ := copies _ array
    obtain ⟨l, v', rfl, -, items, instances⟩ := copied elem n rfl
    obtain ⟨e, rfl⟩ := instances E structs
    exact ⟨l, e, PyHeap.getattr_of_mem obj distinct there, items, S, formed⟩

/-- What the list of an array shows is the element that was read last. -/
lemma shown_copies (shown : Shown R h (.slot (.ref o)) path S)
    (obj : h.objects o = .list (List.replicate n (.ref e))) (pos : 0 < n) :
    ∃ T, Shown R h (.slot (.ref e)) (path ++ [toString (n - 1)]) T := by
  cases shown with
  | PTR obj' _ => cases obj.symm.trans obj'
  | dataclass obj' _ _ _ => cases obj.symm.trans obj'
  | values obj' _ =>
    -- the first element is no value
    have same := PyObject.list.inj (obj.symm.trans obj')
    have first : Slot.ref e ∈ List.replicate n (Slot.ref e) := List.mem_replicate.2 ⟨pos.ne', rfl⟩
    rw [same] at first
    obtain ⟨d, _, leaf⟩ := List.mem_map.1 first
    cases leaf
  | @copies _ e' n' _ S obj' inner _ =>
    have same := PyObject.list.inj (obj.symm.trans obj')
    have size := congrArg List.length same
    rw [List.length_replicate, List.length_replicate] at size
    subst size
    cases List.replicate_right_injective (Nat.succ_ne_zero n') same
    exact ⟨S, inner⟩

/-- After `get_struct` of a new instance, an array of two or more structures is a list of one object, as often
as there are elements, which shows the last element. So the elements are never delivered. -/
theorem array_elements_shared {C E : PyClass} {field : String} {depth' : Nat} {slot : Slot}
    (known : classes cls = some (.dataclass C)) (array : (field, .list elem n) ∈ C.fields)
    (structs : classes elem = some (.dataclass E)) (two : 2 ≤ n)
    (made : construct classes depth cls h = some (.ref o, w.heap))
    (ran : P.get_struct name thread_ptr beyond depth' (.ref o) [] w = .ok (slot, w')) :
    ¬ Delivered (Reads P name thread_ptr beyond w.host.mem) w'.heap o field n ∧
      ∃ l e, w'.heap.getattr o field = some (.ref l) ∧
        w'.heap.objects l = .list (List.replicate n (.ref e)) ∧
        (isDunder field = false → ∃ S, Shown (Reads P name thread_ptr beyond w.host.mem) w'.heap
          (.slot (.ref e)) [field, toString (n - 1)] S) := by
  obtain ⟨l, e, attr, items, S, formed⟩ := construct_array known array structs made
  obtain ⟨blank, steady⟩ := get_struct_steady _ _ _ _ _ _ ran
  have attr' := steady.getattr attr
  have items' := steady.replicate items
  refine ⟨?_, l, e, attr', items', fun visible => ?_⟩
  · rintro ⟨l', items2, attr2, obj2, -, distinct, -⟩
    cases attr'.symm.trans attr2
    cases items'.symm.trans obj2
    exact absurd (List.nodup_replicate.1 distinct) (not_le.2 two)
  · obtain ⟨-, shown, -⟩ := get_struct_fills depth' _ _ _ _ _ S formed rfl ran
    rw [blank_eq_ref blank] at shown
    obtain ⟨T, there⟩ := shown.of_attr attr' visible
    exact shown_copies there items' (Nat.zero_lt_of_lt two)

/-- `struct z_kernel { struct _cpu { int id; } cpus[2]; }` -/
def smpDebug : DebugInfo := .ofList [
  .composite .structureType "z_kernel" 64 none [.type 1],
  .derived .member "cpus" 64 (some 2),
  .composite .arrayType "" 64 (some 3) [.other],
  .composite .structureType "_cpu" 32 none [.type 4],
  .derived .member "id" 32 (some 5),
  .basic "int" 32] (by decide)

/-- What the generator writes for it. -/
def smpFile : List (List Line) := [
  [],
  [.dataclass "_cpu", .field "id" (.primitive "Int32")],
  [.dataclass "z_kernel", .field "cpus" (.list "_cpu" 2)]]

/-- The classes of the file. -/
def smpClasses : Classes := .ofFile smpFile

/-- The class of processors. -/
def smpCpu : PyClass :=
  ⟨"_cpu", [("__ptr__", .pointer "_cpu"), ("id", .primitive "Int32")], by decide⟩

/-- The class of the kernel. -/
def smpKernel : PyClass :=
  ⟨"z_kernel", [("__ptr__", .pointer "z_kernel"), ("cpus", .list "_cpu" 2)], by decide⟩

/-- The interpreter of the module. -/
def smpInterpreter : PyIRModuleInterpreter where
  irx := {
    debug := smpDebug
    types := [0, 3]
    structTypes := [("struct.z_kernel", .struct [.array 2 (.struct [.scalar 32])])]
    layout := .packed
    isLayoutIdentical := fun _ _ => true
    identical_self := fun _ => rfl }
  allocator := dlistState.allocator
  pointerSize := 32

/-- In memory, the processors have the numbers 1 and 2. -/
def smpHost : Host where
  mem := fun a => if a = 0x7f0000004000 then 1 else if a = 0x7f0000004004 then 2 else 0
  caches := ⟨fun _ => none, fun _ => none⟩
  writes := []

/-- The objects that `z_kernel()` makes. -/
def smpHeap : PyHeap :=
  match construct smpClasses 3 "z_kernel" ⟨fun _ => .list [], 0⟩ with
  | some (_, h) => h
  | none => ⟨fun _ => .list [], 0⟩

/-- What is there after `get_struct`. -/
def smpRead : World :=
  match smpInterpreter.get_struct "z_kernel" 0x5000012c (fun _ _ => 0) 4 (.ref 4) [] ⟨smpHeap, smpHost⟩ with
  | .ok (_, w) => w
  | .error _ => ⟨smpHeap, smpHost⟩

/-- What `get_struct` makes of the kernel. -/
lemma smp_ran : smpInterpreter.get_struct "z_kernel" 0x5000012c (fun _ _ => 0) 4 (.ref 4) []
    ⟨smpHeap, smpHost⟩ = .ok (.ref 4, smpRead) := rfl

/-- Both processors are one object, which shows the second element. -/
theorem array_elements_shared_smp : ∃ l e, smpRead.heap.getattr 4 "cpus" = some (.ref l) ∧
    smpRead.heap.objects l = .list (List.replicate 2 (.ref e)) ∧
      ∃ S, Shown (Reads smpInterpreter "z_kernel" 0x5000012c (fun _ _ => 0) smpHost.mem) smpRead.heap
        (.slot (.ref e)) ["cpus", toString 1] S := by
  have array : ("cpus", .list "_cpu" 2) ∈ smpKernel.fields := .tail _ (.head _)
  have known : smpClasses "z_kernel" = some (.dataclass smpKernel) := rfl
  have structs : smpClasses "_cpu" = some (.dataclass smpCpu) := rfl
  have made : construct smpClasses 3 "z_kernel" ⟨fun _ => .list [], 0⟩ = some (.ref 4, smpHeap) := rfl
  obtain ⟨_, l, e, attr, items, shown⟩ :=
    array_elements_shared (w := ⟨smpHeap, smpHost⟩) known array structs le_rfl made smp_ran
  exact ⟨l, e, attr, items, shown rfl⟩

/-- The processor 0 has the number 1 in memory, but the list has an object with the number 2 in both places. -/
theorem smp_cpus_shared :
    (generate smpDebug 9 [0, 3] ["struct.z_kernel"]).map GeneratorStruct.Output = .ok smpFile ∧
    smpInterpreter.get_struct "z_kernel" 0x5000012c (fun _ _ => 0) 4 (.ref 4) [] ⟨smpHeap, smpHost⟩ =
      .ok (.ref 4, smpRead) ∧
    (smpInterpreter.get_struct_primitive "z_kernel" 0x5000012c (fun _ _ => 0) (.int 0)
      ["cpus", "0", "id"] smpHost).map Prod.fst = .ok (.int 1) ∧
    smpRead.heap.getattr 4 "cpus" = some (.ref 3) ∧ smpRead.heap.objects 3 = .list [.ref 2, .ref 2] ∧
    smpRead.heap.getattr 2 "id" = some (.leaf (.int 2)) ∧
    ¬ Delivered (Reads smpInterpreter "z_kernel" 0x5000012c (fun _ _ => 0) smpHost.mem) smpRead.heap 4
      "cpus" 2 := by
  have attr : smpRead.heap.getattr 4 "cpus" = some (.ref 3) := rfl
  have items : smpRead.heap.objects 3 = .list [.ref 2, .ref 2] := rfl
  refine ⟨rfl, smp_ran, by decide +kernel, attr, items, by decide +kernel, ?_⟩
  rintro ⟨l, items', attr', obj, -, distinct, -⟩
  cases attr.symm.trans attr'
  cases items.symm.trans obj
  exact absurd distinct (by decide)

end Irx.Python
