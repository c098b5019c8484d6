import Irx.Generator.Print
import Irx.Lib.Fold
import Irx.Lib.Scan
import Irx.Python.SetStruct

/-!
# Reading a structure into an instance

`get_struct` fills the instance that it is given in place: it goes through the fields of a dataclass and the
items of a list and puts what it read back in their places, where a dataclass, a list and a `PTR` stay the
objects they are. The generated classes say what a new instance consists of. The default of an array is one
new instance, `n` times: `array_elements_shared` says what becomes of it.
-/

namespace Irx.Python
open Irx.Lib Irx.Debug Irx.Memory Irx.Generator

/-- A value of a field, or an item of a list. -/
inductive Slot where
  | leaf (data : PyObj)
  | ref (o : ObjId)
  deriving DecidableEq

/-- An object with an identity. -/
inductive PyObject where
  | dataclass (cls : String) (fields : List (String × Slot))
  | PTR (cls : String) (ptr : PyObj)
  | list (items : List Slot)
  deriving DecidableEq

/-- The objects, and the identity of the next new one. -/
structure PyHeap where
  objects : ObjId → PyObject
  next : ObjId

/-- The fields after `setattr`. -/
def setField (k : String) (v : Slot) : List (String × Slot) → List (String × Slot)
  | [] => []
  | f :: rest => if f.1 = k then (k, v) :: rest else f :: setField k v rest

namespace PyHeap

/-- The heap with another object under the name. -/
def set (h : PyHeap) (o : ObjId) (obj : PyObject) : PyHeap :=
  { h with objects := Function.update h.objects o obj }

/-- A new object. -/
def alloc (h : PyHeap) (obj : PyObject) : Slot × PyHeap :=
  (.ref h.next, ⟨Function.update h.objects h.next obj, h.next + 1⟩)

/-- `getattr` of a dataclass. -/
def getattr (h : PyHeap) (o : ObjId) (k : String) : Option Slot :=
  match h.objects o with
  | .dataclass _ fields => (fields.find? fun f => f.1 = k).map Prod.snd
  | _ => none

/-- `setattr` of a dataclass. -/
def setattr (h : PyHeap) (o : ObjId) (k : String) (v : Slot) : PyHeap :=
  match h.objects o with
  | .dataclass cls fields => h.set o (.dataclass cls (setField k v fields))
  | _ => h

/-- `obj[k]` of a list. -/
def getitem (h : PyHeap) (o : ObjId) (k : Nat) : Option Slot :=
  match h.objects o with
  | .list items => items[k]?
  | _ => none

/-- `obj[k] = v` of a list. -/
def setitem (h : PyHeap) (o : ObjId) (k : Nat) (v : Slot) : PyHeap :=
  match h.objects o with
  | .list items => h.set o (.list (items.set k v))
  | _ => h

variable {h : PyHeap} {o x : ObjId} {obj : PyObject} {key cls : String} {k : Nat} {v : Slot}
  {fields : List (String × Slot)} {items : List Slot}

/-- The object is the one that was set. -/
@[simp] lemma set_self : (h.set o obj).objects o = obj := Function.update_self ..

/-- All other objects stay. -/
lemma set_of_ne (ne : x ≠ o) : (h.set o obj).objects x = h.objects x := Function.update_of_ne ne ..

/-- A field is found by its name. -/
lemma getattr_of_mem (obj : h.objects o = .dataclass cls fields) (distinct : (fields.map Prod.fst).Nodup)
    (mem : (key, v) ∈ fields) : h.getattr o key = some v := by
  rw [getattr]
  simp only [obj]
  rw [find?_of_nodup distinct mem]
  rfl

/-- What is found is the first field of the name. -/
lemma getattr_eq_some (found : h.getattr o key = some v) : ∃ cls fields,
    h.objects o = .dataclass cls fields ∧ (fields.find? fun f => f.1 = key) = some (key, v) := by
  rw [getattr] at found
  cases obj : h.objects o with
  | PTR | list =>
    simp only [obj] at found
    cases found
  | dataclass cls fields =>
    simp only [obj] at found
    obtain ⟨f, there, rfl⟩ := Option.map_eq_some_iff.1 found
    have named := List.find?_some there
    cases of_decide_eq_true named
    exact ⟨cls, fields, rfl, there⟩

/-- What is found is the item at the index. -/
lemma getitem_eq_some (found : h.getitem o k = some v) :
    ∃ items, h.objects o = .list items ∧ items[k]? = some v := by
  rw [getitem] at found
  cases obj : h.objects o with
  | PTR | dataclass =>
    simp only [obj] at found
    cases found
  | list items =>
    simp only [obj] at found
    exact ⟨items, rfl, found⟩

/-- The items of a list. -/
lemma getitem_of_list (obj : h.objects o = .list items) : h.getitem o k = items[k]? := by
  rw [getitem]
  simp only [obj]

/-- One field of the object is set. -/
lemma setattr_self (obj : h.objects o = .dataclass cls fields) :
    (h.setattr o key v).objects o = .dataclass cls (setField key v fields) := by
  rw [setattr]
  simp only [obj]
  exact set_self

/-- All other objects stay. -/
lemma setattr_of_ne (ne : x ≠ o) : (h.setattr o key v).objects x = h.objects x := by
  rw [setattr]
  cases h.objects o with
  | dataclass => exact set_of_ne ne
  | PTR | list => rfl

/-- One item of the list is set. -/
lemma setitem_self (obj : h.objects o = .list items) :
    (h.setitem o k v).objects o = .list (items.set k v) := by
  rw [setitem]
  simp only [obj]
  exact set_self

/-- All other objects stay. -/
lemma setitem_of_ne (ne : x ≠ o) : (h.setitem o k v).objects x = h.objects x := by
  rw [setitem]
  cases h.objects o with
  | list => exact set_of_ne ne
  | PTR | dataclass => rfl

end PyHeap

/-! ### New instances -/

/-- A generated class: the names of its fields are different. -/
structure PyClass where
  name : String
  fields : List (String × Generator.Value)
  distinct : (fields.map Prod.fst).Nodup

/-- The field that a line of a class declares. -/
def fieldOf : Line → Option (String × Generator.Value)
  | .field name value => some (name, value)
  | _ => none

/-- The class that a paragraph of the generated file defines. -/
def PyClass.ofLines : List Line → Option PyClass
  | .dataclass name :: lines =>
    let fields := ("__ptr__", .pointer name) :: lines.filterMap fieldOf
    if distinct : (fields.map Prod.fst).Nodup then some ⟨name, fields, distinct⟩ else none
  | _ => none

/-- What is called as a class: its instances are values or new objects. -/
inductive PyType where
  | value (data : PyObj)
  | dataclass (C : PyClass)

/-- What the names stand for. -/
abbrev Classes := String → Option PyType

/-- What is there before the classes: the types that the generated file begins with, and those of Python. -/
def Classes.prelude : Classes := fun name =>
  if name ∈ ["UInt8", "UInt16", "UInt32", "UInt64", "Int8", "Int16", "Int32", "Int64", "char", "int"] then
    some (.value (.int 0))
  else if name = "bool" then some (.value (.bool false))
  else none

/-- The names after the paragraphs of the generated file. -/
def Classes.ofFile (file : List (List Line)) : Classes :=
  file.foldl (fun classes lines =>
    match lines with
    | [.alias name value] => Function.update classes name (classes value)
    | .dataclass name :: _ => Function.update classes name ((PyClass.ofLines lines).map .dataclass)
    | _ => classes) .prelude

section Construct

variable (classes : Classes)

/-- The default of a field. In `[cls()] * n` there is one call, and `PTR(cls)` does not call its class. -/
def makeDefault (construct : String → PyHeap → Option (Slot × PyHeap)) (value : Generator.Value)
    (h : PyHeap) : Option (Slot × PyHeap) :=
  match value with
  | .primitive _ => some (.leaf (.int 0), h)
  | .embedded cls => construct cls h
  | .string _ => some (.leaf (.str ""), h)
  | .list cls n => do
    let (v, h) ← construct cls h
    some (h.alloc (.list (List.replicate n v)))
  | .pointer cls => some (h.alloc (.PTR cls .none))

/-- The fields of a new instance, one after the other. -/
def makeFields (construct : String → PyHeap → Option (Slot × PyHeap)) :
    List (String × Generator.Value) → PyHeap → Option (List (String × Slot) × PyHeap)
  | [], h => some ([], h)
  | (k, value) :: rest, h => do
    let (v, h) ← makeDefault construct value h
    let (fields, h) ← makeFields construct rest h
    some ((k, v) :: fields, h)

/-- `cls()`, for at most the given depth of calls. There is no result where a name is not defined. -/
def construct : Nat → String → PyHeap → Option (Slot × PyHeap)
  | 0, _, _ => none
  | depth + 1, cls, h => do
    match ← classes cls with
    | .value data => some (.leaf data, h)
    | .dataclass C =>
      let (fields, h) ← makeFields (construct depth) C.fields h
      some (h.alloc (.dataclass C.name fields))

end Construct

/-! ### Reading -/

/-- The objects of Python and the memory of the host. -/
structure World where
  heap : PyHeap
  host : Host

namespace PyIRModuleInterpreter

variable (P : PyIRModuleInterpreter) (name : String) (thread_ptr : Nat) (beyond : List String → Bytes)

/-- `get_struct_primitive`, where `beyond` is what follows the buffer for a path. -/
def get_struct_primitive (data : PyObj) (path : List String) (h : Host) : Except Stop (PyObj × Host) :=
  if path = [] then .error (.raised .indexError)
  else
    match getStructFieldInfo2 P.irx name path h.caches with
    | .error a => .error (.aborted a)
    | .ok (info, caches) =>
      if info.size_in_bytes = 0 then .ok (.none, { h with caches := caches })
      else
        match fieldAddress P.irx P.allocator name thread_ptr path caches with
        | .error a => .error (.aborted a)
        | .ok (p, caches) =>
          match Irx.Python.get_struct_primitive P.pointerSize
              ⟨path, info.basicType, info.size_in_bytes, p⟩ h.mem (beyond path) data with
          | .error e => .error (.raised e)
          | .ok pydata => .ok (pydata, { h with caches := caches })

/-- The loop body over a list. -/
def getItem (get_struct : Slot → List String → World → Except Stop (Slot × World)) (o : ObjId)
    (path : List String) (w : World) (k : Nat) : Except Stop World :=
  match w.heap.getitem o k with
  | none => .ok w
  | some v => do
    let (pydata, w) ← get_struct v (path ++ [toString k]) w
    .ok { w with heap := w.heap.setitem o k pydata }

/-- The loop body over the fields of a dataclass. -/
def getField (get_struct : Slot → List String → World → Except Stop (Slot × World)) (o : ObjId)
    (path : List String) (w : World) (k : String) : Except Stop World :=
  if isDunder k then .ok w
  else
    match w.heap.getattr o k with
    | none => .error (.raised .attributeError)
    | some data => do
      let (pydata, w) ← get_struct data (path ++ [k]) w
      .ok { w with heap := w.heap.setattr o k pydata }

/-- `get_struct`, for at most the given depth of calls. A `PTR` is no number, like `None`. -/
def get_struct : Nat → Slot → List String → World → Except Stop (Slot × World)
  | 0, _, _, _ => .error (.raised (.runtimeError "maximum recursion depth exceeded"))
  | depth + 1, slot, path, w =>
    match slot with
    | .leaf data =>
      if data = .none then .ok (.leaf .none, w)
      else do
        let (pydata, host) ← P.get_struct_primitive name thread_ptr beyond data path w.host
        .ok (.leaf pydata, { w with host := host })
    | .ref o =>
      match w.heap.objects o with
      | .PTR cls _ => do
        let (ptr, host) ← P.get_struct_primitive name thread_ptr beyond .none path w.host
        .ok (.ref o, ⟨w.heap.set o (.PTR cls ptr), host⟩)
      | .list items => do
        let w ← (List.range items.length).foldlM (getItem (get_struct depth) o path) w
        .ok (.ref o, w)
      | .dataclass _ fields => do
        let w ← (fields.map Prod.fst).foldlM (getField (get_struct depth) o path) w
        .ok (.ref o, w)

end PyIRModuleInterpreter

/-! ### References stay -/

/-- Without the value of a leaf. -/
def Slot.blank : Slot → Slot
  | .leaf _ => .leaf .none
  | .ref o => .ref o

/-- Without the values in an object: what it refers to. -/
def PyObject.blank : PyObject → PyObject
  | .dataclass cls fields => .dataclass cls (fields.map fun f => (f.1, f.2.blank))
  | .PTR cls _ => .PTR cls .none
  | .list items => .list (items.map Slot.blank)

/-- Every object refers to what it referred to before. -/
def Steady (h h' : PyHeap) : Prop := ∀ o, (h'.objects o).blank = (h.objects o).blank

variable {P : PyIRModuleInterpreter} {name : String} {thread_ptr depth k n : Nat}
  {beyond : List String → Bytes} {slot slot' v v' : Slot} {path : List String} {w w' : World}
  {h h' : PyHeap} {o e : ObjId} {key cls : String} {fields : List (String × Slot)}

/-- What is a reference without its values is this reference. -/
lemma blank_eq_ref (same : v.blank = .ref o) : v = .ref o := by
  cases v with
  | leaf => cases same
  | ref => exact same

/-- Every heap keeps its references. -/
lemma Steady.refl (h : PyHeap) : Steady h h := fun _ => rfl

/-- Two calls keep the references if each does. -/
lemma Steady.trans {h1 : PyHeap} (first : Steady h h1) (second : Steady h1 h') : Steady h h' :=
  fun o => (second o).trans (first o)

/-- An object with the same references may be set. -/
lemma steady_set {obj : PyObject} (same : obj.blank = (h.objects o).blank) : Steady h (h.set o obj) := by
  intro x
  by_cases here : x = o
  · subst here
    rw [PyHeap.set_self]
    exact same
  · rw [PyHeap.set_of_ne here]

/-- Setting a field changes nothing else. -/
lemma map_setField {α : Type} {g : String × Slot → α}
    (found : (fields.find? fun f => f.1 = key).map g = some (g (key, v))) :
    (setField key v fields).map g = fields.map g := by
  induction fields with
  | nil => rfl
  | cons f rest ih =>
    rw [setField]
    by_cases here : f.1 = key
    · rw [List.find?_cons_of_pos (by simpa using here)] at found
      rw [if_pos here, List.map_cons, List.map_cons, ← Option.some.inj found]
    · rw [List.find?_cons_of_neg (by simpa using here)] at found
      rw [if_neg here, List.map_cons, List.map_cons, ih found]

/-- The first field of a name is found without the values, too. -/
lemma blank_find? (key : String) (fields : List (String × Slot)) :
    (fields.map fun f => (f.1, f.2.blank)).find? (fun f => f.1 = key) =
      (fields.find? fun f => f.1 = key).map fun f => (f.1, f.2.blank) := by
  rw [List.find?_map]
  rfl

/-- A dataclass stays one with the same references. -/
lemma Steady.dataclass (steady : Steady h h') (obj : h.objects o = .dataclass cls fields) :
    ∃ fields', h'.objects o = .dataclass cls fields' ∧
      (fields'.map fun f => (f.1, f.2.blank)) = fields.map fun f => (f.1, f.2.blank) := by
  have here := steady o
  rw [obj] at here
  cases obj' : h'.objects o with
  | PTR | list =>
    rw [obj'] at here
    cases here
  | dataclass cls' fields' =>
    rw [obj', PyObject.blank, PyObject.blank, PyObject.dataclass.injEq] at here
    obtain ⟨rfl, same⟩ := here
    exact ⟨fields', rfl, same⟩

/-- A list stays one with the same references. -/
lemma Steady.list {items : List Slot} (steady : Steady h h') (obj : h.objects o = .list items) :
    ∃ items', h'.objects o = .list items' ∧ items'.map Slot.blank = items.map Slot.blank := by
  have here := steady o
  rw [obj] at here
  cases obj' : h'.objects o with
  | PTR | dataclass =>
    rw [obj'] at here
    cases here
  | list items' =>
    rw [obj', PyObject.blank, PyObject.blank, PyObject.list.injEq] at here
    exact ⟨items', rfl, here⟩

/-- A reference in a field stays. -/
lemma Steady.getattr (steady : Steady h h') (found : h.getattr o key = some (.ref e)) :
    h'.getattr o key = some (.ref e) := by
  obtain ⟨cls, fields, obj, there⟩ := PyHeap.getattr_eq_some found
  obtain ⟨fields', obj', same⟩ := steady.dataclass obj
  have blank := blank_find? key fields'
  rw [same, blank_find?, there] at blank
  obtain ⟨f', there', same'⟩ := Option.map_eq_some_iff.1 blank.symm
  rw [PyHeap.getattr]
  simp only [obj']
  rw [there', Option.map_some, blank_eq_ref (Prod.mk.inj same').2]

/-- A list of one reference stays. -/
lemma Steady.replicate (steady : Steady h h') (obj : h.objects o = .list (List.replicate n (.ref e))) :
    h'.objects o = .list (List.replicate n (.ref e)) := by
  obtain ⟨items, obj', here⟩ := steady.list obj
  rw [List.map_replicate] at here
  obtain ⟨size, all⟩ := List.eq_replicate_iff.1 here
  rw [obj', PyObject.list.injEq, List.eq_replicate_iff]
  refine ⟨by rw [← size, List.length_map], fun v mem => blank_eq_ref ?_⟩
  exact all _ (List.mem_map_of_mem mem)

/-- An attribute may be set to what it refers to. -/
lemma steady_setattr (steady : Steady h h') (found : h.getattr o key = some v)
    (same : v'.blank = v.blank) : Steady h (h'.setattr o key v') := by
  obtain ⟨cls, fields, obj, there⟩ := PyHeap.getattr_eq_some found
  obtain ⟨fields', obj', here⟩ := steady.dataclass obj
  refine steady.trans ?_
  rw [PyHeap.setattr]
  simp only [obj']
  refine steady_set ?_
  rw [obj', PyObject.blank, PyObject.blank, PyObject.dataclass.injEq]
  refine ⟨rfl, map_setField ?_⟩
  rw [← blank_find?, here, blank_find?, same, there]
  rfl

/-- An item may be set to a value like it. -/
lemma steady_setitem (steady : Steady h h') (found : h.getitem o k = some v)
    (same : v'.blank = v.blank) : Steady h (h'.setitem o k v') := by
  obtain ⟨items, obj, there⟩ := PyHeap.getitem_eq_some found
  obtain ⟨items', obj', here⟩ := steady.list obj
  refine steady.trans ?_
  rw [PyHeap.setitem]
  simp only [obj']
  refine steady_set ?_
  rw [obj', PyObject.blank, PyObject.blank, PyObject.list.injEq, List.map_set, here, same]
  have old : (items.map Slot.blank)[k]? = some v.blank := by
    rw [List.getElem?_map, there]
    rfl
  obtain ⟨lt, value⟩ := List.getElem?_eq_some_iff.1 old
  rw [← value]
  exact List.set_getElem_self lt

/-- A call that leaves all references, also the one that it is called with. -/
def Stays (get_struct : Slot → List String → World → Except Stop (Slot × World)) : Prop :=
  ∀ slot path w slot' w', get_struct slot path w = .ok (slot', w') →
    slot'.blank = slot.blank ∧ Steady w.heap w'.heap

section Loops

variable {get_struct : Slot → List String → World → Except Stop (Slot × World)}

/-- Reading an item keeps the references. -/
lemma getItem_steady (stays : Stays get_struct)
    (step : PyIRModuleInterpreter.getItem get_struct o path w k = .ok w') : Steady w.heap w'.heap := by
  rw [PyIRModuleInterpreter.getItem] at step
  cases found : w.heap.getitem o k with
  | none =>
    simp only [found] at step
    cases step
    exact .refl _
  | some v =>
    simp only [found] at step
    obtain ⟨r, got, step⟩ := bind_eq_ok.1 step
    cases step
    obtain ⟨blank, steady⟩ := stays v _ w r.1 r.2 got
    exact steady_setitem steady found blank

/-- Reading a field keeps the references. -/
lemma getField_steady (stays : Stays get_struct)
    (step : PyIRModuleInterpreter.getField get_struct o path w key = .ok w') :
    Steady w.heap w'.heap := by
  rw [PyIRModuleInterpreter.getField] at step
  split at step
  · cases step
    exact .refl _
  · cases found : w.heap.getattr o key with
    | none =>
      simp only [found] at step
      cases step
    | some v =>
      simp only [found] at step
      obtain ⟨r, got, step⟩ := bind_eq_ok.1 step
      cases step
      obtain ⟨blank, steady⟩ := stays v _ w r.1 r.2 got
      exact steady_setattr steady found blank

end Loops

/-- `get_struct` keeps the references. -/
lemma get_struct_steady (depth : Nat) : Stays (P.get_struct name thread_ptr beyond depth) := by
  induction depth with
  | zero =>
    intro slot path w slot' w' e
    cases e
  | succ depth ih =>
    intro slot path w slot' w' e
    cases slot with
    | leaf data =>
      rw [PyIRModuleInterpreter.get_struct] at e
      split at e
      · cases e
        exact ⟨rfl, .refl _⟩
      · obtain ⟨r, _, e⟩ := bind_eq_ok.1 e
        cases e
        exact ⟨rfl, .refl _⟩
    | ref o =>
      rw [PyIRModuleInterpreter.get_struct] at e
      cases obj : w.heap.objects o with
      | PTR cls ptr =>
        simp only [obj] at e
        obtain ⟨r, _, e⟩ := bind_eq_ok.1 e
        cases e
        refine ⟨rfl, steady_set ?_⟩
        rw [obj]
        rfl
      | list items =>
        simp only [obj] at e
        obtain ⟨w1, ran, e⟩ := bind_eq_ok.1 e
        cases e
        refine ⟨rfl, foldlM_keeps (P := fun w1 => Steady w.heap w1.heap) ?_ (.refl _) ran⟩
        exact fun w1 k _ w2 steady step => steady.trans (getItem_steady ih step)
      | dataclass cls fields =>
        simp only [obj] at e
        obtain ⟨w1, ran, e⟩ := bind_eq_ok.1 e
        cases e
        refine ⟨rfl, foldlM_keeps (P := fun w1 => Steady w.heap w1.heap) ?_ (.refl _) ran⟩
        exact fun w1 k _ w2 steady step => steady.trans (getField_steady ih step)

end Irx.Python
