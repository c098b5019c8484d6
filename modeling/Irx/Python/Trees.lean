import Irx.Lib.Answers
import Irx.Python.Diff
import Irx.Python.Shared

/-!
# Instances that are trees

An instance whose objects are all different holds a tree of values. `reread` says what `get_struct` makes of
a tree, without objects and caches, and `get_struct_answers` that reading into the instance answers it:
afterwards the same objects hold the tree that was read.
-/

namespace Irx.Python
open Irx.Lib Irx.Debug Irx.Memory

/-- The address of a `PTR`. -/
def ofPtr : Option ℤ → PyObj
  | none => .none
  | some n => .int n

/-- The address that a `PTR` was given. -/
def toPtr : PyObj → Option (Option ℤ)
  | .none => some none
  | .int n => some (some n)
  | _ => none

/-- A value that is read and written as a whole. -/
inductive Atom where
  | value (data : PyObj)
  | PTR (ptr : Option ℤ)
  deriving DecidableEq

namespace Atom

/-- What `set_struct_primitive` is given for it. -/
def data : Atom → PyObj
  | value data => data
  | PTR ptr => ofPtr ptr

/-- What `get_struct_primitive` is given in its place. -/
def placeholder : Atom → PyObj
  | value data => data
  | PTR _ => .none

/-- What was read in its place is found to be no mismatch. -/
def Passes : Atom → PyObj → Prop
  | value data, r => data.eq r
  | PTR ptr, r => ∃ ptr', toPtr r = some ptr' ∧ (ptr = none ∨ ptr' = none ∨ ptr = ptr')

end Atom

namespace Value

mutual

/-- The calls of `get_struct` inside each other. -/
def height : Value → Nat
  | .list items => itemsHeight items + 1
  | .dataclass _ fields => fieldsHeight fields + 1
  | _ => 1
termination_by structural v => v

/-- The height of the items of a list. -/
def itemsHeight : List Value → Nat
  | [] => 0
  | v :: rest => max v.height (itemsHeight rest)
termination_by structural items => items

/-- The height of the fields of a dataclass. -/
def fieldsHeight : List (String × Value) → Nat
  | [] => 0
  | (_, v) :: rest => max v.height (fieldsHeight rest)
termination_by structural fields => fields

end

mutual

/-- The values that are not `None`, and the pointers, with their paths. -/
def atoms : Value → List String → List (List String × Atom)
  | .leaf data, path => if data = .none then [] else [(path, .value data)]
  | .PTR ptr, path => [(path, .PTR ptr)]
  | .list items, path => itemAtoms items path 0
  | .dict _, _ => []
  | .dataclass _ fields, path => fieldAtoms fields path
  | .other _, _ => []
termination_by structural v => v

/-- The atoms in the items, from an index on. -/
def itemAtoms : List Value → List String → Nat → List (List String × Atom)
  | [], _, _ => []
  | v :: rest, path, k => v.atoms (path ++ [toString k]) ++ itemAtoms rest path (k + 1)
termination_by structural items => items

/-- The atoms in the fields. -/
def fieldAtoms : List (String × Value) → List String → List (List String × Atom)
  | [], _ => []
  | (k, v) :: rest, path =>
    if isDunder k then fieldAtoms rest path else v.atoms (path ++ [k]) ++ fieldAtoms rest path
termination_by structural fields => fields

end

end Value

/-! ### Reading a tree -/

section Reread

variable (read : List String → PyObj → Option PyObj)

mutual

/-- `get_struct` on a tree, where `read` gives the values of the paths. -/
def reread : Value → List String → Option Value
  | .leaf data, path => if data = .none then some (.leaf .none) else (read path data).map .leaf
  | .PTR _, path => do
    let r ← read path .none
    (toPtr r).map .PTR
  | .list items, path => (rereadItems items path 0).map .list
  | .dataclass type fields, path => (rereadFields fields path).map (.dataclass type)
  | .dict _, _ => none
  | .other _, _ => none
termination_by structural v => v

/-- The items read again, from an index on. -/
def rereadItems : List Value → List String → Nat → Option (List Value)
  | [], _, _ => some []
  | v :: rest, path, k => do
    let v ← reread v (path ++ [toString k])
    (rereadItems rest path (k + 1)).map (v :: ·)
termination_by structural items => items

/-- The fields read again. -/
def rereadFields : List (String × Value) → List String → Option (List (String × Value))
  | [], _ => some []
  | (k, v) :: rest, path => do
    let v ← reread v (path ++ [k])
    (rereadFields rest path).map ((k, v) :: ·)
termination_by structural fields => fields

end

/-- What is read for a pointer is an address. -/
def Addressed (as : List (List String × Atom)) : Prop :=
  ∀ path ptr r, (path, Atom.PTR ptr) ∈ as → read path .none = some r → (toPtr r).isSome

end Reread

variable {read : List String → PyObj → Option PyObj} {ws ws' : List Value} {gs gs' : List (String × Value)}
  {v v' : Value} {path : List String} {k : Nat}

/-- Items that were read again are as high as before. -/
lemma rereadItems_height (each : ∀ w ∈ ws, ∀ w' path, reread read w path = some w' → w'.height = w.height)
    (e : rereadItems read ws path k = some ws') : Value.itemsHeight ws' = Value.itemsHeight ws := by
  induction ws generalizing ws' k with
  | nil =>
    cases e
    rfl
  | cons w ws ih =>
    obtain ⟨w', first, e⟩ := Option.bind_eq_some_iff.1 e
    obtain ⟨rest, others, rfl⟩ := Option.map_eq_some_iff.1 e
    rw [Value.itemsHeight, Value.itemsHeight, each w (.head _) w' _ first,
      ih (fun w mem => each w (.tail _ mem)) others]

/-- Fields that were read again are as high as before. -/
lemma rereadFields_height
    (each : ∀ g ∈ gs, ∀ w' path, reread read g.2 path = some w' → w'.height = g.2.height)
    (e : rereadFields read gs path = some gs') : Value.fieldsHeight gs' = Value.fieldsHeight gs := by
  induction gs generalizing gs' with
  | nil =>
    cases e
    rfl
  | cons g gs ih =>
    obtain ⟨w', first, e⟩ := Option.bind_eq_some_iff.1 e
    obtain ⟨rest, others, rfl⟩ := Option.map_eq_some_iff.1 e
    rw [Value.fieldsHeight, Value.fieldsHeight, each g (.head _) w' _ first,
      ih (fun g mem => each g (.tail _ mem)) others]

/-- Reading keeps the shape. -/
lemma reread_height (e : reread read v path = some v') : v'.height = v.height := by
  induction v using Value.parts_induction generalizing v' path with
  | leaf data =>
    rw [reread] at e
    split at e
    · cases e
      rfl
    · obtain ⟨_, _, rfl⟩ := Option.map_eq_some_iff.1 e
      rfl
  | PTR ptr =>
    obtain ⟨r, _, e⟩ := Option.bind_eq_some_iff.1 e
    obtain ⟨_, _, rfl⟩ := Option.map_eq_some_iff.1 e
    rfl
  | list items ih =>
    obtain ⟨items', others, rfl⟩ := Option.map_eq_some_iff.1 e
    exact congrArg (· + 1) (rereadItems_height (fun w mem w' path e => ih w mem e) others)
  | dict => cases e
  | dataclass type fields ih =>
    obtain ⟨fields', others, rfl⟩ := Option.map_eq_some_iff.1 e
    exact congrArg (· + 1) (rereadFields_height (fun g mem w' path e => ih g mem e) others)
  | other => cases e

/-! ### The tree of an instance -/

/-- The tree that an object is, for at most the given depth; fields with two underscores are left out. -/
def PyHeap.value (h : PyHeap) : Nat → Slot → Option Value
  | _, .leaf data => some (.leaf data)
  | 0, .ref _ => none
  | depth + 1, .ref o =>
    match h.objects o with
    | .PTR _ ptr => (toPtr ptr).map .PTR
    | .list items => (items.mapM (h.value depth)).map .list
    | .dataclass cls fields =>
      ((fields.filter fun f => !isDunder f.1).mapM fun f => (h.value depth f.2).map (f.1, ·)).map
        (.dataclass cls)

/-- A value with where it is, or the items of a list or the fields of an instance from one on. -/
inductive Piece where
  | slot (v : Value) (s : Slot)
  | items (vs : List Value) (slots : List Slot)
  | fields (fs : List (String × Value)) (slots : List (String × Slot))

/-- The objects, all different, hold the tree. -/
inductive Holds (h : PyHeap) : Piece → Set ObjId → Prop where
  | leaf {data} : Holds h (.slot (.leaf data) (.leaf data)) ∅
  | PTR {o cls ptr} : h.objects o = .PTR cls (ofPtr ptr) → Holds h (.slot (.PTR ptr) (.ref o)) {o}
  | list {o vs slots S} : h.objects o = .list slots → Holds h (.items vs slots) S → o ∉ S →
    Holds h (.slot (.list vs) (.ref o)) (insert o S)
  | dataclass {o cls fs slots S} : h.objects o = .dataclass cls slots → (slots.map Prod.fst).Nodup →
    Holds h (.fields fs slots) S → o ∉ S → Holds h (.slot (.dataclass cls fs) (.ref o)) (insert o S)
  | noItems : Holds h (.items [] []) ∅
  | item {v s vs slots S T} : Holds h (.slot v s) S → Holds h (.items vs slots) T → Disjoint S T →
    Holds h (.items (v :: vs) (s :: slots)) (S ∪ T)
  | noFields : Holds h (.fields [] []) ∅
  | hidden {k s fs slots S} : isDunder k = true → Holds h (.fields fs slots) S →
    Holds h (.fields fs ((k, s) :: slots)) S
  | field {k v s fs slots S T} : isDunder k = false → Holds h (.slot v s) S →
    Holds h (.fields fs slots) T → Disjoint S T → Holds h (.fields ((k, v) :: fs) ((k, s) :: slots)) (S ∪ T)

variable {h h' : PyHeap} {piece : Piece} {S T : Set ObjId} {s : Slot} {vs : List Value}
  {fs : List (String × Value)} {o : ObjId} {depth : Nat}

/-- A pointer is the same as a value and back. -/
lemma toPtr_ofPtr (ptr : Option ℤ) : toPtr (ofPtr ptr) = some ptr := by
  cases ptr with
  | none => rfl
  | some => rfl

/-- What is a pointer is one as a value. -/
lemma eq_ofPtr {r : PyObj} {ptr : Option ℤ} (e : toPtr r = some ptr) : r = ofPtr ptr := by
  cases r with
  | none | int =>
    cases e
    rfl
  | bool | str | bytes => cases e

namespace Holds

/-- Changes of other objects leave the tree. -/
lemma frame (holds : Holds h piece S) (same : ∀ x ∈ S, h'.objects x = h.objects x) :
    Holds h' piece S := by
  induction holds with
  | leaf => exact .leaf
  | PTR obj => exact .PTR ((same _ rfl).trans obj)
  | list obj _ own ih =>
    refine .list ((same _ (Set.mem_insert _ _)).trans obj) (ih fun x mem => ?_) own
    exact same x (Set.mem_insert_of_mem _ mem)
  | dataclass obj distinct _ own ih =>
    refine .dataclass ((same _ (Set.mem_insert _ _)).trans obj) distinct (ih fun x mem => ?_) own
    exact same x (Set.mem_insert_of_mem _ mem)
  | noItems => exact .noItems
  | item _ _ apart ihv ih =>
    refine .item (ihv fun x mem => ?_) (ih fun x mem => ?_) apart
    · exact same x (.inl mem)
    · exact same x (.inr mem)
  | noFields => exact .noFields
  | hidden dunder _ ih => exact .hidden dunder (ih same)
  | field visible _ _ apart ihv ih =>
    refine .field visible (ihv fun x mem => ?_) (ih fun x mem => ?_) apart
    · exact same x (.inl mem)
    · exact same x (.inr mem)

/-- What is apart from the objects leaves the tree. -/
lemma apart {w w' : World} (holds : Holds w.heap piece S) (apart : Apart T w w') (out : Disjoint S T) :
    Holds w'.heap piece S :=
  holds.frame fun x mem => apart.1 x (Set.disjoint_left.1 out mem)

/-- What the objects hold is the value of the piece. -/
lemma value_eq (holds : Holds h piece S) :
    match piece with
    | .slot v s => ∀ depth, v.height ≤ depth → h.value depth s = some v
    | .items vs slots => ∀ depth, Value.itemsHeight vs ≤ depth → slots.mapM (h.value depth) = some vs
    | .fields fs slots => ∀ depth, Value.fieldsHeight fs ≤ depth →
      ((slots.filter fun f => !isDunder f.1).mapM fun f => (h.value depth f.2).map (f.1, ·)) = some fs := by
  induction holds with
  | leaf =>
    intro depth _
    cases depth with
    | zero => rfl
    | succ => rfl
  | PTR obj =>
    intro depth high
    obtain ⟨depth, rfl⟩ := Nat.exists_eq_add_of_le' (show 1 ≤ depth from high)
    rw [PyHeap.value]
    simp only [obj, toPtr_ofPtr, Option.map_some]
  | list obj _ _ ih =>
    intro depth high
    obtain ⟨depth, rfl⟩ := Nat.exists_eq_add_of_le' ((Nat.le_add_left 1 _).trans high)
    rw [PyHeap.value]
    simp only [obj]
    rw [ih depth (Nat.le_of_succ_le_succ high), Option.map_some]
  | dataclass obj _ _ _ ih =>
    intro depth high
    obtain ⟨depth, rfl⟩ := Nat.exists_eq_add_of_le' ((Nat.le_add_left 1 _).trans high)
    rw [PyHeap.value]
    simp only [obj]
    rw [ih depth (Nat.le_of_succ_le_succ high), Option.map_some]
  | noItems => exact fun _ _ => rfl
  | item _ _ _ ihv ih =>
    intro depth high
    obtain ⟨here, rest⟩ := max_le_iff.1 high
    rw [List.mapM_cons, ihv depth here, ih depth rest]
    rfl
  | noFields => exact fun _ _ => rfl
  | hidden dunder _ ih =>
    intro depth high
    rw [List.filter_cons_of_neg (by simp [dunder])]
    exact ih depth high
  | field visible _ _ _ ihv ih =>
    intro depth high
    obtain ⟨here, rest⟩ := max_le_iff.1 high
    rw [List.filter_cons_of_pos (by simp [visible]), List.mapM_cons, ihv depth here, ih depth rest]
    rfl

end Holds

/-! ### One value -/

namespace PyIRModuleInterpreter

variable (P : PyIRModuleInterpreter) (name : String) (vptr : Nat) (beyond : List String → Bytes)
  (mem : Bytes)

/-- Where the element is that the indices of a field lead to. -/
def elementAddress (info : BasicTypeInfo) : Option Nat :=
  match info.gep with
  | 0 :: is => do
    let Ty ← getTypeByNameUncached P.irx ("struct." ++ name)
    let o ← walk P.irx.layout Ty is
    some (word (vptr + word (8 * o) / 8))
  | _ => none

/-- What `get_struct_primitive` reads for a path in the structure at this address, without the caches. -/
def reading (path : List String) (data : PyObj) : Option PyObj :=
  if path = [] then none
  else do
    let info ← (GEP P.irx.debug (P.irx.types.find? (isStructNamed P.irx name)) path >>=
      fieldInfo P.irx).toOption
    if info.size_in_bytes = 0 then some .none
    else do
      let p ← P.elementAddress name vptr info
      (Irx.Python.get_struct_primitive P.pointerSize ⟨path, info.basicType, info.size_in_bytes, p⟩ mem
        (beyond path) data).toOption

end PyIRModuleInterpreter

section Reading

variable {P : PyIRModuleInterpreter} {name : String} {vptr thread_ptr : Nat}
  {beyond : List String → Bytes} {mem : Bytes} {host : Host} {data : PyObj}

/-- The host after a call that only looks up. -/
def Looked (P : PyIRModuleInterpreter) (host host' : Host) : Prop :=
  host'.mem = host.mem ∧ host'.writes = host.writes ∧ host'.caches.Coherent P.irx

/-- `get_struct_primitive` answers the reading of its path, whatever is in the caches. -/
lemma get_struct_primitive_answers (path : List String) (data : PyObj)
    (coherent : host.caches.Coherent P.irx) (translated : vvptr2vptr P.allocator thread_ptr = .ok vptr) :
    Answers (fun r v => r.1 = v ∧ Looked P host r.2)
      (P.get_struct_primitive name thread_ptr beyond data path host)
      (P.reading name vptr beyond host.mem path data) := by
  rw [PyIRModuleInterpreter.get_struct_primitive, PyIRModuleInterpreter.reading]
  split
  case isTrue => exact .fails _
  obtain ⟨info, caches, told, coherent1, e⟩ | ⟨untold, _, e⟩ :=
    getStructFieldInfo2_cases name path coherent
  case inr =>
    have unknown : (GEP P.irx.debug (P.irx.types.find? (isStructNamed P.irx name)) path >>=
        fieldInfo P.irx).toOption = none := by
      cases told : (GEP P.irx.debug (P.irx.types.find? (isStructNamed P.irx name)) path >>=
        fieldInfo P.irx) with
      | ok info => exact absurd told (untold info)
      | error => rfl
    rw [e, unknown]
    exact .fails _
  have known : (GEP P.irx.debug (P.irx.types.find? (isStructNamed P.irx name)) path >>=
      fieldInfo P.irx).toOption = some info := by rw [told, Except.toOption]
  rw [e, known]
  simp only [Option.bind_eq_bind, Option.bind_some]
  split
  · exact .returns ⟨rfl, rfl, rfl, coherent1⟩
  rw [fieldAddress, bind_ok translated]
  obtain ⟨is, Ty, o, caches', start, typed, walked, coherent2, found⟩ | ⟨nowhere, _, failed⟩ :=
    offsetInBitsFromPath_cases coherent1 told
  · have at_ : P.elementAddress name vptr info = some (word (vptr + word (8 * o) / 8)) := by
      simp [PyIRModuleInterpreter.elementAddress, start, typed, walked]
    rw [bind_ok found, at_, Option.bind_some]
    simp only
    cases Irx.Python.get_struct_primitive P.pointerSize ⟨path, info.basicType, info.size_in_bytes,
      word (vptr + word (8 * o) / 8)⟩ host.mem (beyond path) data with
    | error => exact .fails _
    | ok r => exact .returns ⟨rfl, rfl, rfl, coherent2⟩
  · have lost : P.elementAddress name vptr info = none := by
      rw [PyIRModuleInterpreter.elementAddress.eq_def]
      split
      · rename_i is start
        cases typed : getTypeByNameUncached P.irx ("struct." ++ name) with
        | none => rfl
        | some Ty =>
          cases walked : walk P.irx.layout Ty is with
          | none => simp [walked]
          | some o => exact absurd walked (nowhere is Ty o start typed)
      · rfl
    rw [bind_error failed, lost]
    exact .fails _

/-! ### All values -/

/-- Only these objects changed, and the host looked up. -/
def After (P : PyIRModuleInterpreter) (S : Set ObjId) (w w' : World) : Prop :=
  Apart S w w' ∧ Looked P w.host w'.host

/-- A call that leaves in the objects of a tree the tree that was read. -/
def Rereads (P : PyIRModuleInterpreter) (read : List String → PyObj → Option PyObj) (mem : Bytes) (depth : Nat)
    (get_struct : Slot → List String → World → Except Stop (Slot × World)) : Prop :=
  ∀ v s path w S, Holds w.heap (.slot v s) S → w.host.mem = mem → w.host.caches.Coherent P.irx →
    v.height ≤ depth → Addressed read (v.atoms path) →
    Answers (fun r v' => r.1.blank = s.blank ∧ Holds r.2.heap (.slot v' r.1) S ∧ After P S w r.2)
      (get_struct s path w) (reread read v path)

variable {w w1 w' : World}
  {get_struct : Slot → List String → World → Except Stop (Slot × World)} {as as' : List (List String × Atom)}

/-- Nothing has happened. -/
lemma After.refl (S : Set ObjId) (coherent : w.host.caches.Coherent P.irx) : After P S w w :=
  ⟨.refl S w, rfl, rfl, coherent⟩

/-- Two calls, one after the other. -/
lemma After.trans (first : After P S w w1) (second : After P S w1 w') : After P S w w' :=
  ⟨first.1.trans second.1, second.2.1.trans first.2.1, second.2.2.1.trans first.2.2.1, second.2.2.2⟩

/-- What has touched few objects has touched no more than many. -/
lemma After.mono (sub : S ⊆ T) (after : After P S w w') : After P T w w' := ⟨after.1.mono sub, after.2⟩

/-- What was read is put in its place in another object. -/
lemma After.put {heap : PyHeap} (after : After P S w w1)
    (set : ∀ x, x ≠ o → heap.objects x = w1.heap.objects x) :
    After P (insert o S) w { w1 with heap := heap } := by
  refine ⟨⟨fun x out => ?_, after.1.2⟩, after.2⟩
  obtain ⟨ne, out⟩ := not_or.1 out
  exact (set x ne).trans (after.1.1 x out)

/-- What was put in its place stays while the others are read. -/
lemma Holds.kept {heap : PyHeap} (holds : Holds w1.heap piece S)
    (set : ∀ x, x ≠ o → heap.objects x = w1.heap.objects x) (own : o ∉ S) (out : Disjoint S T)
    (after : After P (insert o T) { w1 with heap := heap } w') : Holds w'.heap piece S := by
  refine holds.frame fun x mem => ?_
  have ne := ne_of_mem_of_not_mem mem own
  exact (after.1.1 x (not_or.2 ⟨ne, Set.disjoint_left.1 out mem⟩)).trans (set x ne)

/-- Two lists of atoms are addressed if both are. -/
lemma addressed_append : Addressed read (as ++ as') ↔ Addressed read as ∧ Addressed read as' := by
  constructor
  · intro all
    refine ⟨fun path ptr r mem => ?_, fun path ptr r mem => ?_⟩
    · exact all path ptr r (List.mem_append_left _ mem)
    · exact all path ptr r (List.mem_append_right _ mem)
  · rintro ⟨first, second⟩ path ptr r mem
    obtain mem | mem := List.mem_append.1 mem
    · exact first path ptr r mem
    · exact second path ptr r mem

/-- The loop over a list, of which the first items were read already. -/
lemma items_reread (rereads : Rereads P read mem depth get_struct) {front slots : List Slot}
    (obj : w.heap.objects o = .list (front ++ slots)) (holds : Holds w.heap (.items vs slots) S)
    (own : o ∉ S) (same : w.host.mem = mem) (coherent : w.host.caches.Coherent P.irx)
    (high : Value.itemsHeight vs ≤ depth)
    (addressed : Addressed read (Value.itemAtoms vs path front.length)) :
    Answers (fun w' vs' => ∃ slots', w'.heap.objects o = .list (front ++ slots') ∧
        Holds w'.heap (.items vs' slots') S ∧ After P (insert o S) w w')
      ((List.range' front.length slots.length).foldlM (PyIRModuleInterpreter.getItem get_struct o path) w)
      (rereadItems read vs path front.length) := by
  induction vs generalizing w front slots S with
  | nil =>
    cases holds
    exact .returns ⟨[], obj, .noItems, .refl _ coherent⟩
  | cons v vs ih =>
    cases holds with
    | @item _ s _ slots S T here rest apart =>
      obtain ⟨ownv, ownr⟩ := not_or.1 own
      obtain ⟨highv, highr⟩ := max_le_iff.1 high
      obtain ⟨addressedv, addressedr⟩ := addressed_append.1 addressed
      have there : (front ++ s :: slots)[front.length]? = some s := by simp
      rw [List.length_cons, List.range'_succ, List.foldlM_cons, PyIRModuleInterpreter.getItem,
        PyHeap.getitem_of_list obj, there, rereadItems, bind_assoc]
      refine (rereads v s _ w S here same coherent highv addressedv).bind fun r v' filled => ?_
      obtain ⟨_, holds1, apart1, looked⟩ := filled
      -- the item is put back in its place, and the others are still what they were
      have obj1 : (r.2.heap.setitem o front.length r.1).objects o = .list ((front ++ [r.1]) ++ slots) := by
        rw [PyHeap.setitem_self ((apart1.1 o ownv).trans obj), List.append_assoc]
        simp
      have set : ∀ x, x ≠ o → (r.2.heap.setitem o front.length r.1).objects x = r.2.heap.objects x :=
        fun x ne => PyHeap.setitem_of_ne ne
      have rest1 : Holds (r.2.heap.setitem o front.length r.1) (.items vs slots) T :=
        (rest.apart apart1 apart.symm).frame fun x mem => set x (ne_of_mem_of_not_mem mem ownr)
      have step := After.put ⟨apart1, looked⟩ set
      have length : front.length + 1 = (front ++ [r.1]).length := by simp
      rw [length] at addressedr ⊢
      refine (ih (w := { r.2 with heap := r.2.heap.setitem o front.length r.1 }) obj1 rest1 ownr
        (looked.1.trans same) looked.2.2 highr addressedr).map_value ?_
      rintro w' vs' ⟨slots', obj', holds', after⟩
      have kept := holds1.kept set ownv apart after
      refine ⟨r.1 :: slots', ?_, .item kept holds' apart, ?_⟩
      · rw [obj', List.append_assoc]
        rfl
      · exact (step.mono (Set.insert_subset_insert Set.subset_union_left)).trans
          (after.mono (Set.insert_subset_insert Set.subset_union_right))

/-- The loop over the fields of an instance, of which the first ones were read already. -/
lemma fields_reread (rereads : Rereads P read mem depth get_struct) {cls : String}
    {front slots : List (String × Slot)} (obj : w.heap.objects o = .dataclass cls (front ++ slots))
    (distinct : ((front ++ slots).map Prod.fst).Nodup) (holds : Holds w.heap (.fields fs slots) S)
    (own : o ∉ S) (same : w.host.mem = mem) (coherent : w.host.caches.Coherent P.irx)
    (high : Value.fieldsHeight fs ≤ depth) (addressed : Addressed read (Value.fieldAtoms fs path)) :
    Answers (fun w' fs' => ∃ slots', w'.heap.objects o = .dataclass cls (front ++ slots') ∧
        slots'.map Prod.fst = slots.map Prod.fst ∧ Holds w'.heap (.fields fs' slots') S ∧
        After P (insert o S) w w')
      ((slots.map Prod.fst).foldlM (PyIRModuleInterpreter.getField get_struct o path) w)
      (rereadFields read fs path) := by
  induction slots generalizing w front fs S with
  | nil =>
    cases holds
    exact .returns ⟨[], obj, rfl, .noFields, .refl _ coherent⟩
  | cons f slots ih =>
    obtain ⟨k, s⟩ := f
    rw [List.map_cons, List.foldlM_cons, PyIRModuleInterpreter.getField]
    cases holds with
    | hidden dunder rest =>
      rw [if_pos dunder]
      rw [List.append_cons] at obj distinct
      refine (ih obj distinct rest own same coherent high addressed).mono ?_
      rintro w' fs' ⟨slots', obj', names, holds', after⟩
      rw [List.append_assoc] at obj'
      exact ⟨(k, s) :: slots', obj', congrArg _ names, .hidden dunder holds', after⟩
    | @field _ v _ fs _ S T visible here rest apart =>
      obtain ⟨ownv, ownr⟩ := not_or.1 own
      obtain ⟨highv, highr⟩ := max_le_iff.1 high
      rw [Value.fieldAtoms, if_neg (Bool.not_eq_true _ ▸ visible)] at addressed
      obtain ⟨addressedv, addressedr⟩ := addressed_append.1 addressed
      have found := PyHeap.getattr_of_mem obj distinct (List.mem_append_right _ (.head _))
      have other : k ∉ front.map Prod.fst := by
        rw [List.map_append, List.nodup_append] at distinct
        exact fun mem => distinct.2.2 k mem k (.head _) rfl
      rw [if_neg (Bool.not_eq_true _ ▸ visible), found, rereadFields, bind_assoc]
      refine (rereads v s _ w S here same coherent highv addressedv).bind fun r v' filled => ?_
      obtain ⟨_, holds1, apart1, looked⟩ := filled
      have obj1 : (r.2.heap.setattr o k r.1).objects o =
          .dataclass cls ((front ++ [(k, r.1)]) ++ slots) := by
        rw [PyHeap.setattr_self ((apart1.1 o ownv).trans obj), setField_append other, List.append_assoc]
        rfl
      have set : ∀ x, x ≠ o → (r.2.heap.setattr o k r.1).objects x = r.2.heap.objects x :=
        fun x ne => PyHeap.setattr_of_ne ne
      have rest1 : Holds (r.2.heap.setattr o k r.1) (.fields fs slots) T :=
        (rest.apart apart1 apart.symm).frame fun x mem => set x (ne_of_mem_of_not_mem mem ownr)
      have step := After.put ⟨apart1, looked⟩ set
      refine (ih (w := { r.2 with heap := r.2.heap.setattr o k r.1 }) obj1 (by simpa using distinct) rest1
        ownr (looked.1.trans same) looked.2.2 highr addressedr).map_value ?_
      rintro w' fs' ⟨slots', obj', names, holds', after⟩
      have kept := holds1.kept set ownv apart after
      refine ⟨(k, r.1) :: slots', ?_, congrArg _ names, .field visible kept holds' apart, ?_⟩
      · rw [obj', List.append_assoc]
        rfl
      · exact (step.mono (Set.insert_subset_insert Set.subset_union_left)).trans
          (after.mono (Set.insert_subset_insert Set.subset_union_right))

/-- Reading into an instance that is a tree answers reading the tree, for every depth of calls above its
height: the objects of the instance hold what was read, and no others changed. -/
lemma get_struct_answers (translated : vvptr2vptr P.allocator thread_ptr = .ok vptr) (depth : Nat) :
    Rereads P (P.reading name vptr beyond mem) mem depth (P.get_struct name thread_ptr beyond depth) := by
  induction depth with
  | zero =>
    intro v s path w S holds _ _ high
    cases v with
    | leaf | PTR | list | dict | dataclass | other => exact absurd high (Nat.not_succ_le_zero _)
  | succ depth ih =>
    intro v s path w S holds same coherent high addressed
    have primitive : ∀ data, Answers (fun r v => r.1 = v ∧ Looked P w.host r.2)
        (P.get_struct_primitive name thread_ptr beyond data path w.host)
        (P.reading name vptr beyond mem path data) := by
      intro data
      rw [← same]
      exact get_struct_primitive_answers path data coherent translated
    rw [PyIRModuleInterpreter.get_struct.eq_def]
    cases holds with
    | @leaf data =>
      rw [reread]
      by_cases null : data = .none
      · simp only [null, if_true]
        exact .returns ⟨rfl, .leaf, .refl _ coherent⟩
      · simp only [null, if_false]
        refine (primitive data).map ?_
        rintro ⟨r, host⟩ _ ⟨rfl, looked⟩
        exact ⟨rfl, .leaf, ⟨fun _ _ => rfl, looked.1⟩, looked⟩
    | @PTR o cls ptr obj =>
      simp only [obj]
      rw [reread]
      refine (primitive .none).known.bind ?_
      rintro ⟨r, host⟩ _ ⟨read, rfl, looked⟩
      obtain ⟨ptr', e⟩ := Option.isSome_iff_exists.1 (addressed path ptr r (.head _) read)
      rw [e]
      cases eq_ofPtr e
      exact .returns ⟨rfl, .PTR PyHeap.set_self, ⟨fun x out => PyHeap.set_of_ne out, looked.1⟩, looked⟩
    | @list o vs slots S obj inner own =>
      simp only [obj]
      rw [reread, List.range_eq_range']
      have obj0 : w.heap.objects o = .list ([] ++ slots) := obj
      refine (items_reread ih obj0 inner own same coherent (Nat.le_of_succ_le_succ high) addressed).map ?_
      rintro w' vs' ⟨slots', obj', holds', after⟩
      exact ⟨rfl, .list obj' holds' own, after⟩
    | @dataclass o cls fs slots S obj distinct inner own =>
      simp only [obj]
      rw [reread]
      have obj0 : w.heap.objects o = .dataclass cls ([] ++ slots) := obj
      refine (fields_reread ih obj0 distinct inner own same coherent (Nat.le_of_succ_le_succ high)
        addressed).map ?_
      rintro w' fs' ⟨slots', obj', names, holds', after⟩
      exact ⟨rfl, .dataclass obj' (names ▸ distinct) holds' own, after⟩

end Reading

end Irx.Python
