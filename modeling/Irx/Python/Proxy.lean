import Irx.Python.Fields

/-!
# The proxy for structures

Embedding of `StructProxy` of `proxy.py`. Dataclass instances and `PTR` instances have identities; what
they hold, the two maps of the proxy and what was asked of the interpreter make up the state. The class
of an instance is that of its `__ptr__`, and its address the one that `__ptr__` holds. Addresses that the
interpreter answers, identities of new instances and values read from memory are inputs. `put` and
`put_cache` call each other; the number is the depth of calls that Python allows. That what `put` writes
is read back unchanged is assumed: the comparison at its end is left out.
-/

namespace Irx.Python

/-- `id(obj)` of a dataclass instance. -/
abbrev ObjId := Nat

/-- `id(ptr)` of a `PTR` instance. -/
abbrev PtrId := Nat

/-- An object and an offset into its structure. -/
structure ObjectOffset where
  object : ObjId
  offset : ℤ

/-- A pointer: the class it points to, its address, and the place in an object that is cached for it. -/
structure PTR where
  cls : String
  ptr : Option ℤ
  cache : Option ObjectOffset

/-- The value of a field. A `PTR` stands in a field of type `PTR`. -/
inductive FieldValue where
  | ptr (i : PtrId)
  | dataclass (o : ObjId)
  | list (items : List FieldValue)
  | leaf (data : PyObj)

/-- An instance of a generated dataclass. `holds` is the structure name and the address with which its
fields were last exchanged. -/
structure PyInstance where
  cls : String
  ptr : Option ℤ
  fields : List (String × FieldValue)
  holds : Option (String × ℤ)

/-- A call of `set_struct`, with the pointers as they are then. -/
structure Write where
  object : ObjId
  name : String
  address : ℤ
  pointers : PtrId → PTR

/-- The proxy, the Python objects, and the calls to the interpreter: the addresses that `structAlloc`
will answer, the objects it was called for, and the calls of `set_struct`. -/
structure StructProxy where
  objects : ObjId → PyInstance
  pointers : PtrId → PTR
  objectMap : ℤ → Option ObjId
  reverseObjectMap : ObjId → Option ℤ
  answers : Nat → ℤ
  allocs : List ObjId
  writes : List Write

/-- What a constructor call and `get_struct` give: a new instance and the values of pointers. -/
structure Made where
  id : ObjId
  fields : List (String × FieldValue)
  fetched : PtrId → Option ℤ

/-- What a method of the proxy can end in. -/
inductive ProxyError where
  | assertionError
  | typeError
  | recursionError
  deriving DecidableEq

/-- `name.startswith("__")`. -/
def isDunder (name : String) : Bool := ['_', '_'].isPrefixOf name.toList

namespace StructProxy

/-- The state with another object under a name. -/
def setObject (st : StructProxy) (o : ObjId) (obj : PyInstance) : StructProxy :=
  { st with objects := Function.update st.objects o obj }

/-- The state with another pointer under a name. -/
def setPointer (st : StructProxy) (i : PtrId) (ptr : PTR) : StructProxy :=
  { st with pointers := Function.update st.pointers i ptr }

/-- `self.objectMap[p] = obj; self.reverseObjectMap[id(obj)] = p`. -/
def register (st : StructProxy) (o : ObjId) (p : ℤ) : StructProxy :=
  { st with
    objectMap := Function.update st.objectMap p (some o)
    reverseObjectMap := Function.update st.reverseObjectMap o (some p) }

/-- An object without an address gets one from `structAlloc` and is registered. -/
def allocate (o : ObjId) (st : StructProxy) : StructProxy :=
  match (st.objects o).ptr with
  | some _ => st
  | none =>
    let p := st.answers 0
    let st := { st with answers := fun k => st.answers (k + 1), allocs := st.allocs ++ [o] }
    (st.setObject o { st.objects o with ptr := some p }).register o p

/-- `set_struct` with the object's own class and address. -/
def setStruct (o : ObjId) (st : StructProxy) : Except ProxyError StructProxy :=
  let obj := st.objects o
  match obj.ptr with
  | none => .error .typeError
  | some p =>
    let write : Write := ⟨o, obj.cls, p, st.pointers⟩
    let st := { st with writes := st.writes ++ [write] }
    .ok (st.setObject o { obj with holds := some (obj.cls, p) })

/-- `if id(new) not in self.reverseObjectMap: self.put(new)`. -/
def putNew (put : ObjId → StructProxy → Except ProxyError StructProxy) (new : ObjId) (st : StructProxy) :
    Except ProxyError StructProxy :=
  if (st.reverseObjectMap new).isNone then put new st else .ok st

/-- A field of type `PTR` in `put_cache`: the cache is cleared before it is followed. -/
def putPointer (put : ObjId → StructProxy → Except ProxyError StructProxy) (i : PtrId)
    (st : StructProxy) : Except ProxyError StructProxy :=
  match (st.pointers i).cache with
  | none => .ok st
  | some ⟨new, offset⟩ => do
    let st ← putNew put new (st.setPointer i { st.pointers i with cache := none })
    match (st.objects new).ptr with
    | none => .error .typeError
    | some p => .ok (st.setPointer i { st.pointers i with ptr := some (p + offset) })

/-- The loop body of `put_cache`. -/
def putField (put put_cache : ObjId → StructProxy → Except ProxyError StructProxy) (st : StructProxy)
    (m : String × FieldValue) : Except ProxyError StructProxy :=
  if isDunder m.1 then .ok st
  else
    match m.2 with
    | .ptr i => putPointer put i st
    | .dataclass o => put_cache o st
    | .list _ => .ok st
    | .leaf _ => .ok st

/-- The loop body of the `deep` part of `put`, with the addresses uploaded so far. -/
def putLinked (put : ObjId → StructProxy → Except ProxyError StructProxy)
    (s : StructProxy × List ℤ) (m : String × FieldValue) :
    Except ProxyError (StructProxy × List ℤ) :=
  match m.2, isDunder m.1 with
  | .ptr i, false =>
    match (s.1.pointers i).ptr with
    | none => .ok s
    | some p =>
      match s.1.objectMap p with
      | none => .ok s
      | some linked =>
        if p ∈ s.2 then .ok s
        else do
          let st ← put linked s.1
          .ok (st, s.2 ++ [p])
  | _, _ => .ok s

/-- The `deep` part of `put`. -/
def putDeep (put : ObjId → StructProxy → Except ProxyError StructProxy) (o : ObjId) (st : StructProxy) :
    Except ProxyError StructProxy := do
  let obj := st.objects o
  let (st, _) ← obj.fields.foldlM (putLinked put) (st, obj.ptr.toList)
  .ok st

mutual

/-- `put`: the caches first, then, with `deep`, the objects that the map has for the pointers, then the
structure. -/
def put : Nat → Bool → ObjId → StructProxy → Except ProxyError StructProxy
  | 0, _, _, _ => .error .recursionError
  | depth + 1, deep, o, st => do
    let st ← put_cache depth o (st.allocate o)
    if deep then do
      let st ← putDeep (put depth false) o st
      st.setStruct o
    else st.setStruct o

/-- The part of `put` that goes through the fields, also of nested dataclasses and lists. -/
def put_cache : Nat → ObjId → StructProxy → Except ProxyError StructProxy
  | 0, _, _ => .error .recursionError
  | depth + 1, o, st =>
    (st.objects o).fields.foldlM (putField (put depth false) (put_cache depth)) st

end

/-- What `get_struct` leaves in the pointers. -/
def fetch (st : StructProxy) (fetched : PtrId → Option ℤ) : StructProxy :=
  { st with pointers := fun i => { st.pointers i with ptr := fetched i } }

/-- The second half of `get`, for an object that has its address. -/
def getAt (o : ObjId) (fetched : PtrId → Option ℤ) (st : StructProxy) :
    Except ProxyError StructProxy :=
  let obj := st.objects o
  match obj.ptr with
  | none => .error .assertionError
  | some p =>
    if p = 0 then .error .assertionError
    else
      let st := (st.fetch fetched).setObject o { obj with holds := some (obj.cls, p) }
      .ok (st.register o p)

/-- `get`: an object without an address takes that of the pointer, and its structure is read. -/
def get (o : ObjId) (ptr : Option PTR) (fetched : PtrId → Option ℤ) (st : StructProxy) :
    Except ProxyError StructProxy :=
  match ptr with
  | none => st.getAt o fetched
  | some ptr =>
    let obj := st.objects o
    if obj.cls ≠ ptr.cls then .error .assertionError
    else if obj.ptr.isSome then .error .assertionError
    else (st.setObject o { obj with ptr := ptr.ptr }).getAt o fetched

/-- `cls()`. -/
def construct (cls : String) (made : Made) (st : StructProxy) : StructProxy :=
  st.setObject made.id ⟨cls, none, made.fields, none⟩

/-- `deref`: the object that the map has for the address, which is fetched before if there is none. -/
def deref (ptr : PTR) (made : Made) (st : StructProxy) :
    Except ProxyError (Option ObjId × StructProxy) := do
  match ptr.ptr with
  | none => .error .assertionError
  | some p =>
    if (st.objectMap p).isNone then do
      let st ← (st.construct ptr.cls made).get made.id (some ptr) made.fetched
      .ok (st.objectMap p, st)
    else .ok (st.objectMap p, st)

/-- The loop of `deref_array` over pointers to its elements. -/
def derefs : List (PTR × Made) → StructProxy →
    Except ProxyError (List (Option ObjId) × StructProxy)
  | [], st => .ok ([], st)
  | (ptr, made) :: rest, st => do
    let (o, st) ← st.deref ptr made
    let (arr, st) ← derefs rest st
    .ok (o :: arr, st)

/-- `Global` at the address of the variable, for `count` elements or for a single object. -/
def Global (cls : String) (vvptr : ℤ) (size : ℤ) (count : Option Nat) (made : Nat → Made)
    (st : StructProxy) : Except ProxyError (List (Option ObjId) × StructProxy) :=
  if vvptr = 0 then .ok ([], st)
  else st.derefs ((List.range (count.getD 1)).map fun i : Nat =>
    (⟨cls, some (vvptr + i * size), none⟩, made i))

/-- `container_of_ptr`: a new object that the maps do not know, or by `deref` and `get`. -/
def container_of_ptr (ptr : PTR) (cls : String) (offset : ℤ) (force_new : Bool) (made : Made)
    (st : StructProxy) : Except ProxyError (Option ObjId × StructProxy) :=
  match ptr.ptr with
  | none => .error .typeError
  | some p =>
    let newptr : PTR := ⟨cls, some (p - offset), none⟩
    if force_new then
      let st := (st.fetch made.fetched).setObject made.id
        ⟨cls, newptr.ptr, made.fields, some (cls, p - offset)⟩
      .ok (some made.id, st)
    else do
      let (new, st) ← st.deref newptr made
      match new with
      | none => .error .assertionError
      | some o => do
        let st ← st.get o (some newptr) made.fetched
        .ok (some o, st)

/-! ### What the operations change -/

variable {st st' : StructProxy} {o o' : ObjId} {obj : PyInstance} {i j : PtrId} {ptr : PTR} {p q : ℤ}

/-- The object is the one that was set. -/
@[simp] lemma setObject_self : (st.setObject o obj).objects o = obj := Function.update_self ..

/-- All other objects stay. -/
lemma setObject_of_ne (ne : o' ≠ o) : (st.setObject o obj).objects o' = st.objects o' :=
  Function.update_of_ne ne ..

@[simp] lemma setObject_pointers : (st.setObject o obj).pointers = st.pointers := rfl

@[simp] lemma setObject_objectMap : (st.setObject o obj).objectMap = st.objectMap := rfl

@[simp] lemma setObject_reverseObjectMap :
    (st.setObject o obj).reverseObjectMap = st.reverseObjectMap := rfl

/-- The pointer is the one that was set. -/
@[simp] lemma setPointer_self : (st.setPointer i ptr).pointers i = ptr := Function.update_self ..

/-- All other pointers stay. -/
lemma setPointer_of_ne (ne : j ≠ i) : (st.setPointer i ptr).pointers j = st.pointers j :=
  Function.update_of_ne ne ..

@[simp] lemma setPointer_objects : (st.setPointer i ptr).objects = st.objects := rfl

@[simp] lemma setPointer_reverseObjectMap :
    (st.setPointer i ptr).reverseObjectMap = st.reverseObjectMap := rfl

@[simp] lemma register_objects : (st.register o p).objects = st.objects := rfl

/-- The address leads to the object that was registered for it. -/
@[simp] lemma register_objectMap_self : (st.register o p).objectMap p = some o :=
  Function.update_self ..

/-- Other addresses lead to what they led to. -/
lemma register_objectMap_of_ne (ne : q ≠ p) : (st.register o p).objectMap q = st.objectMap q :=
  Function.update_of_ne ne ..

/-- The object leads back to its address. -/
@[simp] lemma register_reverseObjectMap_self : (st.register o p).reverseObjectMap o = some p :=
  Function.update_self ..

/-- Other objects lead to where they led to. -/
lemma register_reverseObjectMap_of_ne (ne : o' ≠ o) :
    (st.register o p).reverseObjectMap o' = st.reverseObjectMap o' :=
  Function.update_of_ne ne ..

/-- An object that has an address is not allocated again. -/
lemma allocate_of_some (address : (st.objects o).ptr = some p) : st.allocate o = st := by
  rw [allocate, address]

/-- An object without an address gets the next answer of `structAlloc`, and is registered for it. -/
lemma allocate_of_none (none : (st.objects o).ptr = none) : st.allocate o =
    (StructProxy.setObject
      { st with answers := fun k => st.answers (k + 1), allocs := st.allocs ++ [o] } o
      { st.objects o with ptr := some (st.answers 0) }).register o (st.answers 0) := by
  rw [allocate]
  simp only [none]

/-- A write needs an address, and notes that the object was exchanged there. -/
lemma setStruct_eq_ok (e : st.setStruct o = .ok st') : ∃ p, (st.objects o).ptr = some p ∧
    st' = StructProxy.setObject
      { st with writes := st.writes ++ [(⟨o, (st.objects o).cls, p, st.pointers⟩ : Write)] } o
      { st.objects o with holds := some ((st.objects o).cls, p) } := by
  rw [setStruct] at e
  cases address : (st.objects o).ptr with
  | none =>
    simp only [address] at e
    cases e
  | some p =>
    simp only [address] at e
    cases e
    exact ⟨p, rfl, by simp only [address]⟩

/-- A pass of the `deep` part puts an object that the map holds, or does nothing. -/
lemma putLinked_cases {put : ObjId → StructProxy → Except ProxyError StructProxy}
    {s s' : StructProxy × List ℤ} {m : String × FieldValue} (e : putLinked put s m = .ok s') :
    s'.1 = s.1 ∨ ∃ p linked, s.1.objectMap p = some linked ∧ put linked s.1 = .ok s'.1 := by
  rw [putLinked] at e
  split at e
  case h_2 =>
    cases e
    exact .inl rfl
  case h_1 i _ _ =>
    cases address : (s.1.pointers i).ptr with
    | none =>
      simp only [address] at e
      cases e
      exact .inl rfl
    | some p =>
      cases there : s.1.objectMap p with
      | none =>
        simp only [address, there] at e
        cases e
        exact .inl rfl
      | some linked =>
        simp only [address, there] at e
        split at e
        · cases e
          exact .inl rfl
        · cases ran : put linked s.1 with
          | error err =>
            rw [ran] at e
            cases e
          | ok st =>
            rw [ran] at e
            cases e
            exact .inr ⟨p, linked, there, ran⟩

end StructProxy

end Irx.Python
