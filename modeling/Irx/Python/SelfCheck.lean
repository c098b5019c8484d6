import Irx.Python.Trees

/-!
# The check at the end of `put`

`put` writes an object into its structure, reads the structure into a new instance and compares the two:
the assertion fails if there is a mismatch. `put_check_iff` says that what it checks are the single values:
where the writes of the object do not overlap and are as long as their fields, it holds if and only if every
value comes back when it is written and read alone.
-/

namespace Irx.Python
open Irx.Lib Irx.Debug Irx.Memory Irx.Generator

namespace Value

mutual

/-- An object as `set_struct` looks at it. -/
def tree : Value → PyTree
  | .leaf data => .value data
  | .PTR ptr => .PTR (ofPtr ptr)
  | .list items => .list (itemsTree items)
  | .dict _ => .dict
  | .dataclass _ fields => .dataclass (fieldsTree fields)
  | .other _ => .other
termination_by structural v => v

/-- The items of a list, for the upload. -/
def itemsTree : List Value → PyItems
  | [] => .nil
  | v :: rest => .cons v.tree (itemsTree rest)
termination_by structural items => items

/-- The fields of an object, for the upload. -/
def fieldsTree : List (String × Value) → PyFields
  | [] => .nil
  | (k, v) :: rest => .cons k v.tree (fieldsTree rest)
termination_by structural fields => fields

end

mutual

/-- An instance has the fields of an object, lists of the same lengths, and values of the same kinds. -/
def alike : Value → Value → Bool
  | .leaf data, .leaf data' => data.isInt == data'.isInt && (data == .none) == (data' == .none)
  | .PTR _, .PTR _ => true
  | .list vs, .list ws => alikeItems vs ws
  | .dataclass _ fs, .dataclass _ gs => alikeFields fs gs
  | _, _ => false
termination_by structural v => v

/-- Two lists of the same length have like items. -/
def alikeItems : List Value → List Value → Bool
  | [], [] => true
  | v :: vs, w :: ws => v.alike w && alikeItems vs ws
  | _, _ => false
termination_by structural vs => vs

/-- The fields of an object and of an instance are like each other. -/
def alikeFields : List (String × Value) → List (String × Value) → Bool
  | [], gs => gs.isEmpty
  | (k, v) :: fs, gs =>
    if isDunder k then alikeFields fs gs
    else
      match gs with
      | [] => false
      | (k', w) :: gs => k == k' && v.alike w && alikeFields fs gs
termination_by structural fs => fs

end

end Value

variable {obj v w : Value} {vs ws : List Value} {fs gs : List (String × Value)} {path : List String}

/-! ### What is compared -/

/-- The visits of the items of a list are their atoms. -/
lemma itemVisits_tree (each : ∀ v ∈ vs, ∀ w path, v.alike w = true →
      visits v.tree path = (v.atoms path).map fun a => .set a.1 a.2.data)
    (alike : Value.alikeItems vs ws = true) (k : Nat) : itemVisits (Value.itemsTree vs) path k =
      (Value.itemAtoms vs path k).map fun a => .set a.1 a.2.data := by
  induction vs generalizing ws k with
  | nil => rfl
  | cons v vs ih =>
    cases ws with
    | nil => cases alike
    | cons w ws =>
      obtain ⟨here, rest⟩ := Bool.and_eq_true_iff.1 alike
      rw [Value.itemsTree, itemVisits, Value.itemAtoms, List.map_append,
        each v (.head _) w _ here, ih (fun v mem => each v (.tail _ mem)) rest]

/-- The visits of the fields of an object are their atoms. -/
lemma fieldVisits_tree (each : ∀ f ∈ fs, ∀ w path, f.2.alike w = true →
      visits f.2.tree path = (f.2.atoms path).map fun a => .set a.1 a.2.data)
    (alike : Value.alikeFields fs gs = true) : fieldVisits (Value.fieldsTree fs) path =
      (Value.fieldAtoms fs path).map fun a => .set a.1 a.2.data := by
  induction fs generalizing gs with
  | nil => rfl
  | cons f fs ih =>
    obtain ⟨k, v⟩ := f
    rw [Value.alikeFields.eq_def] at alike
    rw [Value.fieldsTree, fieldVisits, Value.fieldAtoms]
    cases dunder : isDunder k with
    | true =>
      simp only [dunder, if_true] at alike ⊢
      exact ih (fun f mem => each f (.tail _ mem)) alike
    | false =>
      simp only [dunder, Bool.false_eq_true, if_false] at alike ⊢
      cases gs with
      | nil => cases alike
      | cons g gs =>
        obtain ⟨k', w⟩ := g
        simp only [Bool.and_eq_true] at alike
        rw [List.map_append, each _ (.head _) w _ alike.1.2, ih (fun f mem => each f (.tail _ mem)) alike.2]

/-- `set_struct` comes to the atoms of the object, if an instance can be like it. -/
lemma visits_tree (built : Built obj) (alike : obj.alike w = true) (path : List String) :
    visits obj.tree path = (obj.atoms path).map fun a => .set a.1 a.2.data := by
  induction built generalizing w path with
  | leaf data =>
    rw [Value.tree, visits, Value.atoms]
    split
    · rfl
    · rfl
  | PTR ptr => rfl
  | list _ ih =>
    cases w with
    | list ws =>
      rw [Value.tree, visits, Value.atoms]
      exact itemVisits_tree (fun v mem w path alike => ih v mem alike path) alike 0
    | leaf | PTR | dict | dataclass | other => cases alike
  | dict _ _ => cases alike
  | dataclass _ _ ih =>
    cases w with
    | dataclass type gs =>
      rw [Value.tree, visits, Value.atoms]
      exact fieldVisits_tree (fun f mem w path alike => ih f mem alike path) alike
    | leaf | PTR | dict | list | other => cases alike

/-- Every value of a path is read, and what is read passes. -/
def Comes (read : List String → PyObj → Option PyObj) (as : List (List String × Atom)) : Prop :=
  ∀ path a, (path, a) ∈ as → ∃ r, read path a.placeholder = some r ∧ a.Passes r

section Same

variable {read : List String → PyObj → Option PyObj} {attrs : Attributes} {n : Nat} {p : List String}
  {as as' : List (List String × Atom)}

/-- Of a placeholder, only matters if it is a number. -/
def ByKind (read : List String → PyObj → Option PyObj) : Prop :=
  ∀ path (data data' : PyObj), data.isInt = data'.isInt → read path data = read path data'

/-- What two lists of atoms read comes if the one and the other comes. -/
lemma comes_append : Comes read (as ++ as') ↔ Comes read as ∧ Comes read as' := by
  constructor
  · intro all
    refine ⟨fun path a mem => ?_, fun path a mem => ?_⟩
    · exact all path a (List.mem_append_left _ mem)
    · exact all path a (List.mem_append_right _ mem)
  · rintro ⟨first, second⟩ path a mem
    obtain mem | mem := List.mem_append.1 mem
    · exact first path a mem
    · exact second path a mem

/-- An atom comes if it is read and passes. -/
lemma comes_singleton {a : Atom} :
    Comes read [(path, a)] ↔ ∃ r, read path a.placeholder = some r ∧ a.Passes r := by
  constructor
  · exact fun all => all path a (.head _)
  · rintro here path' a' mem
    cases List.mem_singleton.1 mem
    exact here

/-- Two parts of a comparison find no mismatch if neither does. -/
lemma both_nil {x : Except Raised (List Missmatch)} {y : Except Raised (List Missmatch)} :
    (x >>= fun found => y >>= fun missmatches => .ok (found ++ missmatches)) = .ok [] ↔
      x = .ok [] ∧ y = .ok [] := by
  constructor
  · intro e
    obtain ⟨found, first, e⟩ := bind_eq_ok.1 e
    obtain ⟨missmatches, second, e⟩ := bind_eq_ok.1 e
    obtain ⟨rfl, rfl⟩ := List.append_eq_nil_iff.1 (Except.ok.inj e)
    exact ⟨first, second⟩
  · rintro ⟨rfl, rfl⟩
    rfl

/-- The loop over a list and its items that were read. -/
lemma items_same (each : ∀ v ∈ vs, ∀ w path n p, v.alike w = true →
      ((∃ w', reread read w path = some w' ∧ diff attrs v w' n p = .ok []) ↔ Comes read (v.atoms path)))
    (alike : Value.alikeItems vs ws = true) (front : List Value) :
    (∃ ws', rereadItems read ws path front.length = some ws' ∧
      diffItems attrs vs (.list (front ++ ws')) front.length n p = .ok []) ↔
        Comes read (Value.itemAtoms vs path front.length) := by
  induction vs generalizing ws front with
  | nil =>
    cases ws with
    | nil => exact iff_of_true ⟨[], rfl, rfl⟩ fun _ _ mem => absurd mem List.not_mem_nil
    | cons => cases alike
  | cons v vs ih =>
    cases ws with
    | nil => cases alike
    | cons w ws =>
      obtain ⟨here, rest⟩ := Bool.and_eq_true_iff.1 alike
      have subscript : ∀ w' ws', (Value.list (front ++ w' :: ws')).subscript (.int front.length) = .ok w' :=
        fun w' ws' => (Value.item_nat _ _ _).2 (by simp)
      have later : ∀ w', _ := fun w' => ih (fun v mem => each v (.tail _ mem)) rest (front ++ [w'])
      simp only [List.length_append, List.length_singleton, List.append_assoc, List.singleton_append] at later
      rw [Value.itemAtoms, comes_append, ← each v (.head _) w _ (n + 1) (p ++ [toString front.length]) here]
      constructor
      · rintro ⟨_, e, same⟩
        obtain ⟨w', first, e⟩ := Option.bind_eq_some_iff.1 e
        obtain ⟨ws', others, rfl⟩ := Option.map_eq_some_iff.1 e
        rw [diffItems, bind_ok (subscript w' ws'), both_nil] at same
        exact ⟨⟨w', first, same.1⟩, (later w').1 ⟨ws', others, same.2⟩⟩
      · rintro ⟨⟨w', first, same⟩, comes⟩
        obtain ⟨ws', others, same'⟩ := (later w').2 comes
        refine ⟨w' :: ws', Option.bind_eq_some_iff.2 ⟨w', first, ?_⟩, ?_⟩
        · rw [others]
          rfl
        · rw [diffItems, bind_ok (subscript w' ws'), both_nil]
          exact ⟨same, same'⟩

/-- Reading again keeps the names of the fields. -/
lemma rereadFields_names {gs' : List (String × Value)} (e : rereadFields read gs path = some gs') :
    gs'.map Prod.fst = gs.map Prod.fst := by
  induction gs generalizing gs' with
  | nil =>
    cases e
    rfl
  | cons g gs ih =>
    obtain ⟨v, _, e⟩ := Option.bind_eq_some_iff.1 e
    obtain ⟨rest, others, rfl⟩ := Option.map_eq_some_iff.1 e
    rw [List.map_cons, List.map_cons, ih others]

/-- Reading again keeps the number of items. -/
lemma rereadItems_length {ws' : List Value} {k : Nat} (e : rereadItems read ws path k = some ws') :
    ws'.length = ws.length := by
  induction ws generalizing ws' k with
  | nil =>
    cases e
    rfl
  | cons w ws ih =>
    obtain ⟨v, _, e⟩ := Option.bind_eq_some_iff.1 e
    obtain ⟨rest, others, rfl⟩ := Option.map_eq_some_iff.1 e
    rw [List.length_cons, List.length_cons, ih others]

/-- Like lists are of the same length. -/
lemma alikeItems_length (alike : Value.alikeItems vs ws = true) : vs.length = ws.length := by
  induction vs generalizing ws with
  | nil =>
    cases ws with
    | nil => rfl
    | cons => cases alike
  | cons v vs ih =>
    cases ws with
    | nil => cases alike
    | cons w ws => rw [List.length_cons, List.length_cons, ih (Bool.and_eq_true_iff.1 alike).2]

/-- The fields of an instance that is like the object are those of the object, without the hidden ones. -/
lemma alikeFields_names (alike : Value.alikeFields fs gs = true) :
    gs.map Prod.fst = (fs.map Prod.fst).filter fun k => !isDunder k := by
  induction fs generalizing gs with
  | nil =>
    rw [List.isEmpty_iff.1 alike]
    rfl
  | cons f fs ih =>
    obtain ⟨k, v⟩ := f
    rw [Value.alikeFields.eq_def] at alike
    cases dunder : isDunder k with
    | true =>
      simp only [dunder, if_true] at alike
      rw [List.map_cons, List.filter_cons_of_neg (by simp [dunder]), ih alike]
    | false =>
      simp only [dunder, Bool.false_eq_true, if_false] at alike
      cases gs with
      | nil => cases alike
      | cons g gs =>
        obtain ⟨k', w⟩ := g
        simp only [Bool.and_eq_true, beq_iff_eq] at alike
        rw [List.map_cons, List.map_cons, List.filter_cons_of_pos (by simp [dunder]), ih alike.2, alike.1.1]

/-- The loop over the fields of an object and those that were read. -/
lemma fields_same {type : String} (each : ∀ f ∈ fs, ∀ w path n p, f.2.alike w = true →
      ((∃ w', reread read w path = some w' ∧ diff attrs f.2 w' n p = .ok []) ↔ Comes read (f.2.atoms path)))
    (alike : Value.alikeFields fs gs = true) (front : List (String × Value))
    (distinct : ((front ++ gs).map Prod.fst).Nodup) :
    (∃ gs', rereadFields read gs path = some gs' ∧
      diffFields attrs fs (.dataclass type (front ++ gs')) n p = .ok []) ↔
        Comes read (Value.fieldAtoms fs path) := by
  induction fs generalizing gs front with
  | nil =>
    cases List.isEmpty_iff.1 alike
    exact iff_of_true ⟨[], rfl, rfl⟩ fun _ _ mem => absurd mem List.not_mem_nil
  | cons f fs ih =>
    obtain ⟨k, v⟩ := f
    rw [Value.alikeFields.eq_def] at alike
    rw [Value.fieldAtoms]
    simp only [diffFields]
    cases dunder : isDunder k with
    | true =>
      simp only [dunder, if_true] at alike ⊢
      exact ih (fun f mem => each f (.tail _ mem)) alike front distinct
    | false =>
      simp only [dunder, Bool.false_eq_true, if_false] at alike ⊢
      cases gs with
      | nil => cases alike
      | cons g gs =>
        obtain ⟨k', w⟩ := g
        simp only [Bool.and_eq_true, beq_iff_eq] at alike
        obtain ⟨⟨rfl, here⟩, rest⟩ := alike
        have found : ∀ w' gs', gs'.map Prod.fst = gs.map Prod.fst →
            present (getattr attrs (.dataclass type (front ++ (k, w') :: gs')) k) = .ok w' := by
          intro w' gs' names
          have nodup : ((front ++ (k, w') :: gs').map Prod.fst).Nodup := by
            rw [List.map_append, List.map_cons, names]
            simpa using distinct
          rw [getattr, Value.field_of_mem nodup (List.mem_append_right _ (.head _))]
          rfl
        have later : ∀ w', _ := fun w' => ih (fun f mem => each f (.tail _ mem)) rest (front ++ [(k, w')])
          (by simpa using distinct)
        simp only [List.append_assoc, List.singleton_append] at later
        rw [comes_append, ← each _ (.head _) w _ (n + 1) (p ++ [k]) here]
        constructor
        · rintro ⟨_, e, same⟩
          obtain ⟨w', first, e⟩ := Option.bind_eq_some_iff.1 e
          obtain ⟨gs', others, rfl⟩ := Option.map_eq_some_iff.1 e
          rw [bind_ok (found w' gs' (rereadFields_names others)), both_nil] at same
          exact ⟨⟨w', first, same.1⟩, (later w').1 ⟨gs', others, same.2⟩⟩
        · rintro ⟨⟨w', first, same⟩, comes⟩
          obtain ⟨gs', others, same'⟩ := (later w').2 comes
          refine ⟨(k, w') :: gs', Option.bind_eq_some_iff.2 ⟨w', first, ?_⟩, ?_⟩
          · rw [others]
            rfl
          · rw [bind_ok (found w' gs' (rereadFields_names others)), both_nil]
            exact ⟨same, same'⟩

/-- A plain value has no mismatch if it passes the comparison. -/
lemma diffLeaf_nil {data r : PyObj} (set : data ≠ .none) :
    diffLeaf data (.leaf r) n p = [] ↔ (Atom.value data).Passes r := by
  rw [diffLeaf, if_pos set, Value.equals]
  cases same : data.eq r <;> simp [Atom.Passes, same]

/-- Two pointers have no mismatch if one is null or they are equal. -/
lemma diffPTR_nil {ptr ptr' : Option ℤ} :
    diffPTR ptr (.PTR ptr') n p = [] ↔ ptr = none ∨ ptr' = none ∨ ptr = ptr' := by
  rw [diffPTR]
  split
  · rename_i skipped
    exact iff_of_true rfl (skipped.imp_right .inl)
  · rename_i both
    rw [not_or] at both
    split
    · rename_i differ
      simp [both.1, both.2, differ]
    · rename_i same
      exact iff_of_true rfl (.inr (.inr (not_not.1 same)))

/-- Two lists have no mismatch if they are of the same length and their items have none. -/
lemma diff_list_nil : diff attrs (.list vs) (.list ws) n p = .ok [] ↔
    vs.length = ws.length ∧ diffItems attrs vs (.list ws) 0 n p = .ok [] := by
  rw [diff, Value.len, ok_bind]
  split
  · rename_i differ
    refine iff_of_false (fun same => ?_) fun both => differ both.1
    cases same
  · rename_i same
    rw [not_not] at same
    exact (and_iff_right same).symm

/-- Reading into an instance that is like the object finds no mismatch if and only if every atom of the object
comes back. -/
lemma reread_same (kinds : ByKind read) (built : Built obj) (alike : obj.alike w = true) :
    (∃ w', reread read w path = some w' ∧ diff attrs obj w' n p = .ok []) ↔
      Comes read (obj.atoms path) := by
  induction built generalizing w path n p with
  | leaf data =>
    cases w with
    | leaf data' =>
      obtain ⟨kind, null⟩ := Bool.and_eq_true_iff.1 alike
      rw [beq_iff_eq] at kind null
      rw [reread, Value.atoms]
      by_cases unset : data = .none
      · have unset' : data' = .none := by
          rw [unset, beq_self_eq_true] at null
          exact beq_iff_eq.1 null.symm
        subst unset unset'
        rw [if_pos rfl, if_pos rfl]
        refine iff_of_true ⟨_, rfl, ?_⟩ fun _ _ mem => absurd mem List.not_mem_nil
        rfl
      · have set' : data' ≠ .none := by
          rintro rfl
          rw [beq_self_eq_true] at null
          exact unset (beq_iff_eq.1 null)
        rw [if_neg set', if_neg unset, comes_singleton, Atom.placeholder, kinds path data data' kind]
        constructor
        · rintro ⟨_, e, same⟩
          obtain ⟨r, got, rfl⟩ := Option.map_eq_some_iff.1 e
          rw [diff, Except.ok.injEq, diffLeaf_nil unset] at same
          exact ⟨r, got, same⟩
        · rintro ⟨r, got, passes⟩
          refine ⟨.leaf r, by rw [got, Option.map_some], ?_⟩
          rw [diff, (diffLeaf_nil unset).2 passes]
    | PTR | list | dict | dataclass | other => cases alike
  | PTR ptr =>
    cases w with
    | PTR ptr0 =>
      rw [reread, Value.atoms, comes_singleton, Atom.placeholder]
      constructor
      · rintro ⟨_, e, same⟩
        obtain ⟨r, got, e⟩ := Option.bind_eq_some_iff.1 e
        obtain ⟨ptr', address, rfl⟩ := Option.map_eq_some_iff.1 e
        rw [diff, Except.ok.injEq, diffPTR_nil] at same
        exact ⟨r, got, ptr', address, same⟩
      · rintro ⟨r, got, ptr', address, same⟩
        refine ⟨.PTR ptr', Option.bind_eq_some_iff.2 ⟨r, got, by rw [address, Option.map_some]⟩, ?_⟩
        rw [diff, diffPTR_nil.2 same]
    | leaf | list | dict | dataclass | other => cases alike
  | @list items _ ih =>
    cases w with
    | list ws =>
      have loop : (∃ ws', rereadItems read ws path 0 = some ws' ∧
          diffItems attrs items (.list ([] ++ ws')) 0 n p = .ok []) ↔
            Comes read (Value.itemAtoms items path 0) :=
        items_same (fun v mem w path n p alike => ih v mem alike) alike []
      refine Iff.trans ?_ loop
      constructor
      · rintro ⟨_, e, same⟩
        obtain ⟨ws', others, rfl⟩ := Option.map_eq_some_iff.1 e
        exact ⟨ws', others, (diff_list_nil.1 same).2⟩
      · rintro ⟨ws', others, same⟩
        refine ⟨.list ws', by rw [reread]; exact others ▸ rfl, diff_list_nil.2 ⟨?_, same⟩⟩
        exact (alikeItems_length alike).trans (rereadItems_length others).symm
    | leaf | PTR | dict | dataclass | other => cases alike
  | dict _ _ => cases alike
  | @dataclass type fields distinct _ ih =>
    cases w with
    | dataclass type' gs =>
      have distinct' : (([] ++ gs).map Prod.fst).Nodup := by
        rw [List.nil_append, alikeFields_names alike]
        exact distinct.filter _
      rw [Value.atoms, ← fields_same (fun f mem w path n p alike => ih f mem alike) alike [] distinct']
      constructor
      · rintro ⟨_, e, same⟩
        obtain ⟨gs', others, rfl⟩ := Option.map_eq_some_iff.1 e
        exact ⟨gs', others, same⟩
      · rintro ⟨gs', others, same⟩
        exact ⟨.dataclass type' gs', by rw [reread]; exact others ▸ rfl, same⟩
    | leaf | PTR | dict | list | other => cases alike

end Same

/-- An atom is never the value `None`. -/
lemma itemAtoms_set {as : Atom} {q : List String} {k : Nat}
    (each : ∀ v ∈ vs, ∀ path, (q, as) ∈ v.atoms path → as ≠ .value .none)
    (mem : (q, as) ∈ Value.itemAtoms vs path k) : as ≠ .value .none := by
  induction vs generalizing k with
  | nil => cases mem
  | cons v vs ih =>
    obtain here | rest := List.mem_append.1 mem
    · exact each v (.head _) _ here
    · exact ih (fun v mem => each v (.tail _ mem)) rest

/-- No atom of the fields of an object is `None`. -/
lemma fieldAtoms_set {as : Atom} {q : List String}
    (each : ∀ f ∈ fs, ∀ path, (q, as) ∈ f.2.atoms path → as ≠ .value .none)
    (mem : (q, as) ∈ Value.fieldAtoms fs path) : as ≠ .value .none := by
  induction fs with
  | nil => cases mem
  | cons f fs ih =>
    rw [Value.fieldAtoms] at mem
    split at mem
    · exact ih (fun f mem => each f (.tail _ mem)) mem
    · obtain here | rest := List.mem_append.1 mem
      · exact each f (.head _) _ here
      · exact ih (fun f mem => each f (.tail _ mem)) rest

/-- No atom of an object is `None`. -/
lemma atoms_set {a : Atom} {q : List String} (mem : (q, a) ∈ v.atoms path) : a ≠ .value .none := by
  induction v using Value.parts_induction generalizing path with
  | leaf data =>
    rw [Value.atoms] at mem
    split at mem
    · cases mem
    · rename_i set
      cases List.mem_singleton.1 mem
      exact fun same => set (Atom.value.inj same)
  | PTR ptr =>
    cases List.mem_singleton.1 mem
    exact fun same => by cases same
  | list items ih => exact itemAtoms_set (fun v mem path here => ih v mem here) mem
  | dict => cases mem
  | dataclass type fields ih => exact fieldAtoms_set (fun f mem path here => ih f mem here) mem
  | other => cases mem

/-! ### What is written and read -/

section Memory

variable {P : PyIRModuleInterpreter} {name : String} {vptr thread_ptr o : Nat}
  {beyond : List String → Bytes} {mem mem' : Bytes} {host : Host} {data : PyObj} {value : List UInt8}
  {vs : List Visit} {a : Atom} {info : BasicTypeInfo}

/-- The value is written and read alone, and what is read passes. -/
def Alone (P : PyIRModuleInterpreter) (name : String) (thread_ptr : Nat) (beyond : List String → Bytes)
    (host : Host) (path : List String) (a : Atom) : Prop :=
  ∃ host' r host'', P.set_struct_primitive name thread_ptr a.data path host = (host', none) ∧
    P.get_struct_primitive name thread_ptr beyond a.placeholder path host' = .ok (r, host'') ∧ a.Passes r

/-- A call that returns has passed all values. -/
lemma perform_done_iff (name : String) (vs : List Visit) (host : Host)
    (coherent : host.caches.Coherent P.irx)
    (translated : vvptr2vptr P.allocator thread_ptr = .ok vptr) :
    (perform P name thread_ptr vs host).2 = none ↔ ∀ v ∈ vs, Passes P name v := by
  induction vs generalizing host with
  | nil => exact iff_of_true rfl (List.forall_mem_nil _)
  | cons v vs ih =>
    rw [List.forall_mem_cons]
    cases v with
    | raise e =>
      refine iff_of_false (fun done => ?_) fun all => all.1
      cases done
    | set path data =>
      rw [perform]
      have sets := set_struct_primitive_sets name path data coherent translated
      generalize P.set_struct_primitive name thread_ptr data path host = r at sets
      cases sets with
      | sends sends coherent' => exact (ih _ coherent').trans (and_iff_right (.inr ⟨_, _, sends⟩)).symm
      | @skips caches skips coherent' =>
        exact (ih { host with caches := caches } coherent').trans (and_iff_right (.inl skips)).symm
      | stops stays =>
        refine iff_of_false (fun done => ?_) fun all => stays all.1
        cases done

/-- The upload leaves the caches coherent. -/
lemma perform_coherent (name : String) (vs : List Visit) (host : Host)
    (coherent : host.caches.Coherent P.irx)
    (translated : vvptr2vptr P.allocator thread_ptr = .ok vptr)
    (done : (perform P name thread_ptr vs host).2 = none) :
    (perform P name thread_ptr vs host).1.caches.Coherent P.irx := by
  induction vs generalizing host with
  | nil => exact coherent
  | cons v vs ih =>
    cases v with
    | raise e => cases done
    | set path data =>
      rw [perform] at done ⊢
      have sets := set_struct_primitive_sets name path data coherent translated
      generalize P.set_struct_primitive name thread_ptr data path host = r at sets done ⊢
      cases sets with
      | sends _ coherent' => exact ih _ coherent' done
      | @skips caches _ coherent' => exact ih { host with caches := caches } coherent' done
      | stops => cases done

/-- A field is read by the kind of the value that it had. -/
lemma get_struct_primitive_kind {pointerSize : Nat} {F : Field} {heap : Bytes} {data' : PyObj}
    (kind : data.isInt = data'.isInt) :
    get_struct_primitive pointerSize F mem heap data =
      get_struct_primitive pointerSize F mem heap data' := by
  rw [get_struct_primitive, get_struct_primitive, kind]

/-- The memory is read by the kinds of the values. -/
lemma reading_kinds : ByKind (P.reading name vptr beyond mem) := by
  intro path data data' kind
  rw [PyIRModuleInterpreter.reading, PyIRModuleInterpreter.reading]
  simp only [get_struct_primitive_kind kind]

/-- What a told field is read as. -/
lemma reading_told (told : Told P.irx name path info) (more : path ≠ []) :
    P.reading name vptr beyond mem path data =
      if info.size_in_bytes = 0 then some .none
      else (P.elementAddress name vptr info).bind fun p =>
        (get_struct_primitive P.pointerSize ⟨path, info.basicType, info.size_in_bytes, p⟩ mem
          (beyond path) data).toOption := by
  rw [PyIRModuleInterpreter.reading, if_neg more, told]
  rfl

/-- Only the bytes of a field are read for its path. -/
lemma get_struct_primitive_bytes {pointerSize : Nat} {F : Field} {heap : Bytes}
    (same : ∀ i < F.size_in_bytes, mem (F.addr + i) = mem' (F.addr + i)) :
    get_struct_primitive pointerSize F mem heap data =
      get_struct_primitive pointerSize F mem' heap data := by
  have buffered : buffer F mem heap = buffer F mem' heap := by
    funext i
    rw [buffer, buffer]
    split
    · rename_i lt
      exact same i lt
    · rfl
  rw [get_struct_primitive, get_struct_primitive, buffered]

/-- The interpreter tells of a field that something is sent to. -/
lemma Sends.told (sends : Sends P name path data value o) : ∃ info, Told P.irx name path info := by
  cases sends with
  | mk _ told => exact ⟨_, told⟩

/-- What was written for a path is read there alike in all memories that hold it. -/
lemma Sends.reading_eq (sends : Sends P name path data value o) (told : Told P.irx name path info)
    (size : value.length = info.size_in_bytes) (held : read mem (word (vptr + o)) value.length = value)
    (held' : read mem' (word (vptr + o)) value.length = value) (beyond : List String → Bytes)
    (placeholder : PyObj) :
    P.reading name vptr beyond mem path placeholder =
      P.reading name vptr beyond mem' path placeholder := by
  cases sends with
  | @mk _ _ _ is Ty o last told' _ start typed walked =>
    cases told.unique told'
    have more : path ≠ [] := by
      rintro rfl
      cases last
    have at_ : P.elementAddress name vptr info = some (word (vptr + word (8 * o) / 8)) := by
      simp [PyIRModuleInterpreter.elementAddress, start, typed, walked]
    rw [reading_told told more, reading_told told more, at_, Option.bind_some, Option.bind_some]
    rw [get_struct_primitive_bytes fun i lt => ?_]
    have here := congrArg (·[i]?) (held.trans held'.symm)
    simpa [Lib.read, size, lt] using here

/-- A dispatch that packs nothing did not take its first branch. -/
lemma not_packed {c : Prop} [Decidable c] {x : Except PyError (List UInt8)}
    {y : Except PyError (Option (List UInt8))} (e : (if c then x.map some else y) = .ok none) :
    y = .ok none := by
  split at e
  · cases x with
    | error => cases e
    | ok => cases e
  · exact e

/-- What is packed as nothing is the pointer `None`, or of no known type. -/
lemma packed_none {pointerSize size : Nat} {k bt : String}
    (e : packedField pointerSize k bt size data = .ok none) :
    (bt = "PTR" ∧ data = .none) ∨ bt = "unknown" := by
  rw [packedField] at e
  have behind := not_packed (not_packed (not_packed e))
  split at behind
  case isTrue pointer =>
    split at behind
    case isTrue null => exact .inl ⟨List.mem_singleton.1 pointer, null⟩
    case isFalse =>
      cases packed : pack (get_ptr_struct_type pointerSize) data with
      | error | ok =>
        rw [packed] at behind
        cases behind
  case isFalse =>
    have last := not_packed (not_packed (not_packed (not_packed (not_packed (not_packed behind)))))
    split at last
    case isTrue unknown => exact .inr (List.mem_singleton.1 unknown)
    case isFalse => cases last

/-- A field of type `PTR` is read as a number. -/
lemma read_pointer {pointerSize : Nat} {F : Field} {heap : Bytes} (more : F.path ≠ [])
    (filled : F.size_in_bytes ≠ 0) (pointer : F.basicType = "PTR") :
    ∃ n, get_struct_primitive pointerSize F mem heap data = .ok (.int n) := by
  rw [get_struct_primitive, if_neg more, if_neg filled]
  simp only [pointer, List.mem_singleton, if_true]
  split
  · exact ⟨_, rfl⟩
  · exact ⟨_, rfl⟩

/-- A field of unknown type is read as `None`. -/
lemma read_unknown {pointerSize : Nat} {F : Field} {heap : Bytes} (more : F.path ≠ [])
    (filled : F.size_in_bytes ≠ 0) (unknown : F.basicType = "unknown") :
    get_struct_primitive pointerSize F mem heap data = .ok .none := by
  rw [get_struct_primitive, if_neg more, if_neg filled]
  simp [unknown]

/-- What is read for a pointer is an address. -/
lemma reading_pointer {r : PyObj} (got : P.reading name vptr beyond mem path .none = some r)
    (pointer : ∀ info, Told P.irx name path info → info.basicType = "PTR" ∨ info.basicType = "unknown") :
    (toPtr r).isSome := by
  rw [PyIRModuleInterpreter.reading] at got
  split at got
  · cases got
  · rename_i more
    obtain ⟨info, told, got⟩ := Option.bind_eq_some_iff.1 got
    split at got
    · cases got
      rfl
    · rename_i filled
      obtain ⟨p, _, got⟩ := Option.bind_eq_some_iff.1 got
      obtain known | unknown := pointer info (toOption_eq_some.1 told)
      · have address : ∃ n, get_struct_primitive P.pointerSize ⟨path, info.basicType, info.size_in_bytes, p⟩
          mem (beyond path) .none = .ok (.int n) := read_pointer more filled known
        obtain ⟨n, e⟩ := address
        cases e.symm.trans (toOption_eq_some.1 got)
        rfl
      · have nothing : get_struct_primitive P.pointerSize ⟨path, info.basicType, info.size_in_bytes, p⟩
          mem (beyond path) .none = .ok .none := read_unknown more filled unknown
        cases nothing.symm.trans (toOption_eq_some.1 got)
        rfl

/-- Where nothing is written for an atom, what is read passes or not in all memories alike. -/
lemma Skips.passes (skips : Skips P name path a.data) (set : a ≠ .value .none)
    (here : ∃ r, P.reading name vptr beyond mem path a.placeholder = some r ∧ a.Passes r) :
    ∃ r, P.reading name vptr beyond mem' path a.placeholder = some r ∧ a.Passes r := by
  obtain ⟨k, info, last, told, nothing⟩ := skips
  have more : path ≠ [] := by
    rintro rfl
    cases last
  rw [reading_told told more] at here ⊢
  by_cases empty : info.size_in_bytes = 0
  · rw [if_pos empty] at here ⊢
    exact here
  · rw [if_neg empty] at here ⊢
    obtain ⟨r, got, passes⟩ := here
    obtain ⟨p, at_, got⟩ := Option.bind_eq_some_iff.1 got
    rw [at_, Option.bind_some]
    obtain ⟨pointer, null⟩ | unknown := packed_none nothing
    · have skipped : a = .PTR none := by
        cases a with
        | value data =>
          cases (show data = .none from null)
          exact absurd rfl set
        | PTR ptr =>
          cases ptr with
          | none => rfl
          | some => cases null
      have address : ∃ n, get_struct_primitive P.pointerSize ⟨path, info.basicType, info.size_in_bytes, p⟩
          mem' (beyond path) a.placeholder = .ok (.int n) := read_pointer more empty pointer
      obtain ⟨n, e⟩ := address
      rw [e, skipped]
      exact ⟨.int n, rfl, some n, rfl, .inl rfl⟩
    · rw [read_unknown more empty unknown] at got ⊢
      exact ⟨r, got, passes⟩

/-- Writes that miss a place leave what is read there. -/
lemma foldl_write_untouched {ws : List FieldWrite} {addr k : Nat}
    (apart : ∀ w ∈ ws, w.addr + w.value.length ≤ addr ∨ addr + k ≤ w.addr) :
    read (ws.foldl (fun m w => write m w.addr w.value) mem) addr k = read mem addr k := by
  induction ws generalizing mem with
  | nil => rfl
  | cons w ws ih =>
    rw [List.foldl_cons, ih fun w' there => apart w' (.tail _ there)]
    exact read_write_of_apart (apart w (.head _))

/-- Two writes have no byte in common. -/
def FieldWrite.Apart (w w' : FieldWrite) : Prop :=
  w.addr + w.value.length ≤ w'.addr ∨ w'.addr + w'.value.length ≤ w.addr

instance (w w' : FieldWrite) : Decidable (w.Apart w') := inferInstanceAs (Decidable (_ ∨ _))

/-- A write that no other one overlaps is there in the end. -/
lemma foldl_write_held {ws : List FieldWrite} {w : FieldWrite} (mem : Bytes) (there : w ∈ ws)
    (apart : ∀ w' ∈ ws, w' ≠ w → w'.Apart w) :
    read (ws.foldl (fun m w => write m w.addr w.value) mem) w.addr w.value.length = w.value := by
  induction ws generalizing mem with
  | nil => cases there
  | cons w1 ws ih =>
    rw [List.foldl_cons]
    by_cases later : w ∈ ws
    · exact ih _ later fun w' there => apart w' (.tail _ there)
    · obtain rfl := (List.mem_cons.1 there).resolve_right later
      rw [foldl_write_untouched fun w' there => apart w' (.tail _ there) (ne_of_mem_of_not_mem there later),
        read_write]

/-- What is read in the place of an atom passes. -/
def Back (P : PyIRModuleInterpreter) (name : String) (vptr : Nat) (beyond : List String → Bytes) (mem : Bytes)
    (path : List String) (a : Atom) : Prop :=
  ∃ r, P.reading name vptr beyond mem path a.placeholder = some r ∧ a.Passes r

/-- A field comes back if the bytes that the upload left in it do. -/
lemma back_iff (name : String) (beyond : List String → Bytes) (path : List String) (a : Atom) (host : Host)
    (coherent : host.caches.Coherent P.irx)
    (translated : vvptr2vptr P.allocator thread_ptr = .ok vptr) :
    (∃ r host', P.get_struct_primitive name thread_ptr beyond a.placeholder path host = .ok (r, host') ∧
      a.Passes r) ↔ Back P name vptr beyond host.mem path a := by
  have answers : Answers (fun r v => r.1 = v ∧ Looked P host r.2)
      (P.get_struct_primitive name thread_ptr beyond a.placeholder path host)
      (P.reading name vptr beyond host.mem path a.placeholder) :=
    get_struct_primitive_answers path a.placeholder coherent translated
  constructor
  · rintro ⟨r, host', got, passes⟩
    rw [got] at answers
    obtain ⟨_, read, rfl, _⟩ := answers.of_ok
    exact ⟨r, read, passes⟩
  · rintro ⟨r, read, passes⟩
    rw [read] at answers
    obtain ⟨⟨_, host'⟩, got, rfl, _⟩ := answers.of_some
    exact ⟨_, host', got, passes⟩

/-- An atom comes back alone if it does after its own write, or after no write where it is skipped. -/
lemma alone_iff (coherent : host.caches.Coherent P.irx)
    (translated : vvptr2vptr P.allocator thread_ptr = .ok vptr) :
    Alone P name thread_ptr beyond host path a ↔
      (∃ value o, Sends P name path a.data value o ∧
        Back P name vptr beyond (write host.mem (word (vptr + o)) value) path a) ∨
      (Skips P name path a.data ∧ Back P name vptr beyond host.mem path a) := by
  have sets := set_struct_primitive_sets name path a.data coherent translated
  rw [Alone]
  generalize P.set_struct_primitive name thread_ptr a.data path host = after at sets
  cases sets with
  | @sends value o caches sends coherent' =>
    have back := back_iff name beyond path a ⟨write host.mem (word (vptr + o)) value, caches,
      host.writes ++ [⟨path, word (vptr + o), value⟩]⟩ coherent' translated
    constructor
    · rintro ⟨_, r, host', ⟨⟩, got, passes⟩
      exact .inl ⟨value, o, sends, back.1 ⟨r, host', got, passes⟩⟩
    · rintro (⟨value', o', sends', here⟩ | ⟨skips, _⟩)
      · obtain ⟨rfl, rfl⟩ := sends.unique sends'
        obtain ⟨r, host', got, passes⟩ := back.2 here
        exact ⟨_, r, host', rfl, got, passes⟩
      · exact absurd sends skips.not_sends
  | @skips caches skips coherent' =>
    have back := back_iff name beyond path a { host with caches := caches } coherent' translated
    constructor
    · rintro ⟨_, r, host', ⟨⟩, got, passes⟩
      exact .inr ⟨skips, back.1 ⟨r, host', got, passes⟩⟩
    · rintro (⟨value, o, sends, _⟩ | ⟨_, here⟩)
      · exact absurd sends skips.not_sends
      · obtain ⟨r, host', got, passes⟩ := back.2 here
        exact ⟨_, r, host', rfl, got, passes⟩
  | stops stays =>
    constructor
    · rintro ⟨_, _, _, ⟨⟩, _⟩
    · rintro (⟨value, o, sends, _⟩ | ⟨skips, _⟩)
      · exact absurd (.inr ⟨value, o, sends⟩) stays
      · exact absurd (.inl skips) stays

end Memory

/-! ### The check -/

/-- What ends the check early: no such class, an exception of `set_struct` or `get_struct`, an instance that
is no tree of values, or an exception of `diff`. -/
inductive CheckError where
  | nameError
  | stopped (stop : Stop)
  | noTree
  | raised (e : Raised)

section Check

variable (P : PyIRModuleInterpreter) (attrs : Attributes) (classes : Classes)
  (beyond : List String → Bytes) (depth : Nat) (cls : String) (ptr : Nat) (obj : Value) (w : World)

/-- The mismatches that `put` asserts that there are none of. -/
def putCheck : Except CheckError (List Missmatch) :=
  match construct classes depth cls w.heap with
  | none => .error .nameError
  | some (obj2, heap) =>
    match P.set_struct cls ptr obj.tree [] w.host with
    | (_, some stop) => .error (.stopped stop)
    | (host, none) =>
      match P.get_struct cls ptr beyond depth obj2 [] ⟨heap, host⟩ with
      | .error stop => .error (.stopped stop)
      | .ok (obj2, w) =>
        match w.heap.value depth obj2 with
        | none => .error .noTree
        | some obj2 => (diff attrs obj obj2 0 []).mapError .raised

end Check

/-- The writes of an object are as long as the fields that their paths name, and do not overlap. -/
structure Orderly (P : PyIRModuleInterpreter) (name : String) (writes : List FieldWrite) : Prop where
  size : ∀ w ∈ writes, ∀ info, Told P.irx name w.path info → w.value.length = info.size_in_bytes
  apart : ∀ w ∈ writes, ∀ w' ∈ writes, w' ≠ w → w'.Apart w

variable {P : PyIRModuleInterpreter} {attrs : Attributes} {classes : Classes} {beyond : List String → Bytes}
  {depth ptr vptr : Nat} {cls : String} {w : World} {v0 : Value} {slot : Slot} {heap : PyHeap} {S : Set ObjId}
  {host : Host}

/-- The check holds if `set_struct` returns and every atom of the object is read back from the memory that it
leaves. -/
lemma putCheck_iff (built : Built obj) (coherent : w.host.caches.Coherent P.irx)
    (translated : vvptr2vptr P.allocator ptr = .ok vptr)
    (made : construct classes depth cls w.heap = some (slot, heap)) (holds : Holds heap (.slot v0 slot) S)
    (alike : obj.alike v0 = true) (deep : v0.height ≤ depth)
    (addressed : ∀ mem, Addressed (P.reading cls vptr beyond mem) (v0.atoms [])) :
    putCheck P attrs classes beyond depth cls ptr obj w = .ok [] ↔
      (P.set_struct cls ptr obj.tree [] w.host).2 = none ∧
        ∀ path a, (path, a) ∈ obj.atoms [] →
          Back P cls vptr beyond (P.set_struct cls ptr obj.tree [] w.host).1.mem path a := by
  have kept := perform_coherent cls (visits obj.tree []) w.host coherent translated
  rw [← set_struct_eq] at kept
  rw [putCheck, made]
  generalize P.set_struct cls ptr obj.tree [] w.host = after at kept
  obtain ⟨host, stop⟩ := after
  cases stop with
  | some stop => exact iff_of_false (fun e => by cases e) fun both => by cases both.1
  | none =>
    simp only [true_and]
    have rereads : Rereads P (P.reading cls vptr beyond host.mem) host.mem depth
        (P.get_struct cls ptr beyond depth) := get_struct_answers translated depth
    have answers := rereads v0 slot [] ⟨heap, host⟩ S holds rfl (kept rfl) deep (addressed host.mem)
    have same : (∃ v', reread (P.reading cls vptr beyond host.mem) v0 [] = some v' ∧
        diff attrs obj v' 0 [] = .ok []) ↔ Comes (P.reading cls vptr beyond host.mem) (obj.atoms []) :=
      reread_same reading_kinds built alike
    refine Iff.trans ?_ same
    cases result : reread (P.reading cls vptr beyond host.mem) v0 [] with
    | none =>
      rw [result] at answers
      obtain ⟨stop, failed⟩ := answers.of_none
      simp only [failed]
      refine iff_of_false (fun e => ?_) fun some => ?_
      · cases e
      · obtain ⟨_, none, _⟩ := some
        cases none
    | some v' =>
      rw [result] at answers
      obtain ⟨r, got, _, holds', _⟩ := answers.of_some
      have tree := holds'.value_eq depth ((reread_height result).trans_le deep)
      simp only [got, tree, Option.some.injEq, exists_eq_left']
      cases diff attrs obj v' 0 [] with
      | error => exact iff_of_false (fun e => by cases e) fun e => by cases e
      | ok l => simp [Except.mapError]

/-- If every visit passes, `set_struct` comes to each of them. -/
lemma comesTo_of_mem {vs : List Visit} {data : PyObj} (mem : .set path data ∈ vs)
    (passed : ∀ v ∈ vs, Passes P cls v) : ComesTo P cls vs path data := by
  obtain ⟨front, back, rfl⟩ := List.append_of_mem mem
  exact ⟨front, back, rfl, fun v there => passed v (List.mem_append_left _ there)⟩

/-- `put` finds an object unchanged in its structure if and only if each of its values comes back when it is
written and read alone, provided that the instance is a tree like the object, the depth of calls is enough,
and the writes do not overlap and are as long as their fields. -/
theorem put_check_iff {M : Memory.Module} {s : MyInterpreter} {b : Block} {obj : Tree}
    (run : (api M).Outcome (.ok s)) (live : s.allocator.Live b) (shared : P.allocator = s.allocator)
    (coherent : w.host.caches.Coherent P.irx) (start : w.host.writes = [])
    (made : construct classes depth cls w.heap = some (slot, heap)) (holds : Holds heap (.slot v0 slot) S)
    (alike : obj.value.alike v0 = true) (deep : v0.height ≤ depth)
    (pointers : ∀ path p info, (path, .PTR p) ∈ v0.atoms [] → Told P.irx cls path info →
      info.basicType = "PTR" ∨ info.basicType = "unknown")
    (orderly : Orderly P cls (P.set_struct cls b.vvptr obj.value.tree [] w.host).1.writes) :
    putCheck P attrs classes beyond depth cls b.vvptr obj.value w = .ok [] ↔
      ∀ path a, (path, a) ∈ obj.value.atoms [] → Alone P cls b.vvptr beyond w.host path a := by
  obtain ⟨base, mark, A, extra, inv⟩ := outcome_invariant run
  have translated : vvptr2vptr P.allocator b.vvptr = .ok b.vptr := by
    have inside := inv.rep.vvptr2vptr_inside (inv.rep.live_iff.1 live) le_rfl (Nat.le_add_right _ _)
    rwa [Nat.sub_self, Nat.add_zero, ← shared] at inside
  have addressed : ∀ mem, Addressed (P.reading cls b.vptr beyond mem) (v0.atoms []) :=
    fun mem path p r there got => reading_pointer got fun info told => pointers path p info there told
  obtain ⟨ws, writes, mem, all⟩ := perform_writes cls (visits obj.value.tree []) coherent translated
  have visited := visits_tree obj.built alike []
  have done := perform_done_iff cls (visits obj.value.tree []) w.host coherent translated
  rw [putCheck_iff obj.built coherent translated made holds alike deep addressed]
  rw [set_struct_eq] at orderly ⊢
  rw [start, List.nil_append] at writes
  rw [writes] at orderly
  rw [done]
  -- once all is written, an atom is read as it is after its own write
  have each : (∀ v ∈ visits obj.value.tree [], Passes P cls v) → ∀ path a, (path, a) ∈ obj.value.atoms [] →
      (Back P cls b.vptr beyond (perform P cls b.vvptr (visits obj.value.tree []) w.host).1.mem path a ↔
        Alone P cls b.vvptr beyond w.host path a) := by
    intro passed path a there
    have visit : .set path a.data ∈ visits obj.value.tree [] := by
      rw [visited]
      exact List.mem_map_of_mem there
    rw [alone_iff coherent translated]
    obtain skips | ⟨value, o, sends⟩ := passed _ visit
    · refine ⟨fun back => .inr ⟨skips, skips.passes (atoms_set there) back⟩, ?_⟩
      rintro (⟨value, o, sends, _⟩ | ⟨_, back⟩)
      · exact absurd sends skips.not_sends
      · exact skips.passes (atoms_set there) back
    · have written : (⟨path, word (b.vptr + o), value⟩ : FieldWrite) ∈ ws :=
        (all _).2 ⟨path, _, value, o, comesTo_of_mem visit passed, sends, rfl⟩
      obtain ⟨info, told⟩ := sends.told
      have held := foldl_write_held w.host.mem written fun w' there ne => orderly.apart _ written w' there ne
      rw [← mem] at held
      have same := sends.reading_eq told (orderly.size _ written info told) held
        (read_write w.host.mem _ value) beyond a.placeholder
      have back : Back P cls b.vptr beyond (perform P cls b.vvptr (visits obj.value.tree []) w.host).1.mem
            path a ↔
          Back P cls b.vptr beyond (write w.host.mem (word (b.vptr + o)) value) path a := by
        rw [Back, Back, same]
      rw [back]
      refine ⟨fun here => .inl ⟨value, o, sends, here⟩, ?_⟩
      rintro (⟨value', o', sends', here⟩ | ⟨skips, _⟩)
      · obtain ⟨rfl, rfl⟩ := sends.unique sends'
        exact here
      · exact absurd sends skips.not_sends
  constructor
  · rintro ⟨passed, backs⟩ path a there
    exact (each passed path a there).1 (backs path a there)
  · intro alone
    have passed : ∀ v ∈ visits obj.value.tree [], Passes P cls v := by
      rw [visited]
      refine List.forall_mem_map.2 fun atom there => ?_
      obtain ⟨value, o, sends, _⟩ | ⟨skips, _⟩ :=
        (alone_iff coherent translated).1 (alone atom.1 atom.2 there)
      · exact .inr ⟨value, o, sends⟩
      · exact .inl skips
    exact ⟨passed, fun path a there => (each passed path a there).2 (alone path a there)⟩

/-- What the generator writes for `struct label`. -/
def labelFile : List (List Line) := [
  [],
  [.dataclass "label", .field "name" (.string 4), .field "id" (.primitive "Int32")]]

/-- A label as an object of Python. -/
def labelTree (name : String) : Tree :=
  ⟨.dataclass "label" [("__ptr__", .PTR none), ("name", .leaf (.str name)), ("id", .leaf (.int 7))], by
    have names : ["__ptr__", "name", "id"].Nodup := by decide
    refine .dataclass names fun f mem => ?_
    obtain rfl | rfl | rfl : f = _ ∨ f = _ ∨ f = _ := by simpa using mem
    · exact .PTR _
    · exact .leaf _
    · exact .leaf _⟩

/-- The world of the example, before any instance. -/
def labelWorld : World := ⟨⟨fun _ => .list [], 0⟩, ⟨fun _ => 0, ⟨fun _ => none, fun _ => none⟩, []⟩⟩

/-- The objects with a new instance of `label`. -/
def labelHeap : PyHeap :=
  match construct (.ofFile labelFile) 3 "label" labelWorld.heap with
  | some (_, h) => h
  | none => labelWorld.heap

/-- The check of a label of that name. -/
def labelCheck (name : String) : Except CheckError (List Missmatch) :=
  putCheck labelInterpreter (fun _ _ => none) (.ofFile labelFile) (fun _ _ => 0) 3 "label" labelBlock.vvptr
    (labelTree name).value labelWorld

/-- A label with a short name passes the check. -/
lemma labelCheck_ok : labelCheck "abc" = .ok [] := by
  have none : (labelCheck "abc").toOption.map List.length = some 0 := by decide +kernel
  obtain ⟨l, e, empty⟩ := Option.map_eq_some_iff.1 none
  cases List.length_eq_zero_iff.1 empty
  exact toOption_eq_some.1 e

/-- What the interpreter tells of the name of a label. -/
lemma label_told_name :
    Told labelInterpreter.irx "label" ["name"] ⟨"char", 32, 4, [0, 0], [none, none]⟩ := rfl

/-- What the interpreter tells of the number of a label. -/
lemma label_told_id : Told labelInterpreter.irx "label" ["id"] ⟨"int", 32, 4, [0, 1], [none, none]⟩ := rfl

/-- The values of a new label. -/
def labelNew : Value := .dataclass "label" [("name", .leaf (.str "")), ("id", .leaf (.int 0))]

/-- The heap of the example holds a new label. -/
lemma label_holds : ∃ S, Holds labelHeap (.slot labelNew (.ref 1)) S := by
  have obj : labelHeap.objects 1 =
      .dataclass "label" [("__ptr__", .ref 0), ("name", .leaf (.str "")), ("id", .leaf (.int 0))] := rfl
  have names : ["__ptr__", "name", "id"].Nodup := by decide
  refine ⟨_, .dataclass obj names (.hidden rfl (.field rfl .leaf (.field rfl .leaf .noFields ?_) ?_)) ?_⟩
  · exact Set.disjoint_empty _
  · exact Set.empty_disjoint _
  · simp

/-- A label with a short name is found unchanged, and so its name and its number are. -/
theorem put_check_iff_label : labelCheck "abc" = .ok [] ∧
    ∀ path a, (path, a) ∈ (labelTree "abc").value.atoms [] →
      Alone labelInterpreter "label" labelBlock.vvptr (fun _ _ => 0) labelWorld.host path a := by
  have live : dlistState.allocator.Live labelBlock := ⟨by decide, rfl⟩
  have made : construct (.ofFile labelFile) 3 "label" labelWorld.heap = some (.ref 1, labelHeap) := rfl
  have writes : (labelInterpreter.set_struct "label" labelBlock.vvptr (labelTree "abc").value.tree []
      labelWorld.host).1.writes =
      [⟨["name"], 0x7f0000004000, [97, 98, 99, 0]⟩, ⟨["id"], 0x7f0000004004, [7, 0, 0, 0]⟩] := by
    decide +kernel
  have orderly : Orderly labelInterpreter "label" (labelInterpreter.set_struct "label" labelBlock.vvptr
      (labelTree "abc").value.tree [] labelWorld.host).1.writes := by
    rw [writes]
    constructor
    · intro w mem info told
      obtain rfl | mem := List.mem_cons.1 mem
      · cases label_told_name.unique told
        rfl
      · cases List.mem_singleton.1 mem
        cases label_told_id.unique told
        rfl
    · decide
  have pointers : ∀ path p info, (path, .PTR p) ∈ labelNew.atoms [] →
      Told labelInterpreter.irx "label" path info →
        info.basicType = "PTR" ∨ info.basicType = "unknown" := by
    intro path p info mem
    have atoms : labelNew.atoms [] = [(["name"], .value (.str "")), (["id"], .value (.int 0))] := rfl
    rw [atoms] at mem
    simp at mem
  obtain ⟨S, holds⟩ := label_holds
  have checked : labelCheck "abc" = .ok [] ↔ ∀ path a, (path, a) ∈ (labelTree "abc").value.atoms [] →
      Alone labelInterpreter "label" labelBlock.vvptr (fun _ _ => 0) labelWorld.host path a :=
    put_check_iff dlist_run live rfl coherent_empty rfl made holds rfl (by decide) pointers orderly
  exact ⟨labelCheck_ok, checked.1 labelCheck_ok⟩

end Irx.Python
