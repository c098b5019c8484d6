import Irx.Basic
import Irx.Lib.Fold
import Irx.Lib.Runs
import Irx.Python.Proxy

/-!
# The maps of the proxy

A client calls the proxy any number of times; in between its script may do what it likes with the objects
that the proxy does not hold, and with the fields of the others (`Call.script`). Every object that the map
holds has the address it stands under and was last exchanged there (`Registered`), so `deref` gives an
instance of the class asked for unless another class was registered at the address (`deref_instance_iff`).
The two maps stay inverse to each other as long as no call registers an object at an address where another
one stands (`maps_inverse`).
-/

namespace Irx.Python
open Irx.Lib System

/-- A call of the client, or what its script does in between. -/
inductive Call where
  | script (objects : ObjId → PyInstance) (pointers : PtrId → PTR)
  | get (o : ObjId) (ptr : Option PTR) (fetched : PtrId → Option ℤ)
  | deref (ptr : PTR) (made : Made)
  | Global (cls : String) (vvptr size : ℤ) (count : Option Nat) (made : Nat → Made)
  | put (o : ObjId) (deep : Bool) (answers : Nat → ℤ) (depth : Nat)
  | container_of_ptr (ptr : PTR) (cls : String) (offset : ℤ) (force_new : Bool) (made : Made)

namespace StructProxy

/-- `StructProxy(irx)`, in a script without objects. -/
def empty : StructProxy where
  objects := fun _ => ⟨"", none, [], none⟩
  pointers := fun _ => ⟨"", none, none⟩
  objectMap := fun _ => none
  reverseObjectMap := fun _ => none
  answers := fun _ => 0
  allocs := []
  writes := []

/-- A call, on the proxy. -/
def step (st : StructProxy) : Call → Except ProxyError StructProxy
  | .script objects pointers => .ok { st with objects := objects, pointers := pointers }
  | .get o ptr fetched => st.get o ptr fetched
  | .deref ptr made => (st.deref ptr made).map Prod.snd
  | .Global cls vvptr size count made => (st.Global cls vvptr size count made).map Prod.snd
  | .put o deep answers depth => put depth deep o { st with answers := answers }
  | .container_of_ptr ptr cls offset force_new made =>
    (st.container_of_ptr ptr cls offset force_new made).map Prod.snd

/-- The identity belongs to no object that the map keeps alive. -/
def Unused (st : StructProxy) (o : ObjId) : Prop := ∀ p, st.objectMap p ≠ some o

/-- Every new instance of a loop of `deref` calls has an unused identity. -/
def DerefsAllowed : List (PTR × Made) → StructProxy → Prop
  | [], _ => True
  | (ptr, made) :: rest, st =>
    st.Unused made.id ∧ ∀ o st', st.deref ptr made = .ok (o, st') → DerefsAllowed rest st'

/-- The script leaves class, address and contents of the objects that the map holds, and new instances
have unused identities. -/
def Allowed (st : StructProxy) : Call → Prop
  | .script objects _ => ∀ p o, st.objectMap p = some o → (objects o).cls = (st.objects o).cls ∧
      (objects o).ptr = (st.objects o).ptr ∧ (objects o).holds = (st.objects o).holds
  | .get _ _ _ => True
  | .deref _ made => st.Unused made.id
  | .Global cls vvptr size count made =>
    DerefsAllowed ((List.range (count.getD 1)).map fun i : Nat =>
      (⟨cls, some (vvptr + i * size), none⟩, made i)) st
  | .put _ _ _ _ => True
  | .container_of_ptr _ _ _ _ made => st.Unused made.id

end StructProxy

/-- The proxy, driven by its client. -/
def proxy : System ProxyError StructProxy Call where
  start := .ok .empty
  step := StructProxy.step
  allowed := StructProxy.Allowed

/-- Every object that the map holds has the address it stands under, and holds the structure there. -/
def Registered (st : StructProxy) : Prop :=
  ∀ p o, st.objectMap p = some o →
    (st.objects o).ptr = some p ∧ (st.objects o).holds = some ((st.objects o).cls, p)

variable {st st1 st2 st' : StructProxy} {o : ObjId} {p : ℤ} {depth : Nat} {deep : Bool}

/-! ### Exchanges -/

/-- What calls of `put` do to the objects: an address once given stays, an object that got one was
exchanged there, and nothing else is registered. -/
structure Exchanged (st st' : StructProxy) : Prop where
  cls : ∀ o, (st'.objects o).cls = (st.objects o).cls
  objects : ∀ o, ((st'.objects o).ptr = (st.objects o).ptr ∧
      (st'.objects o).holds = (st.objects o).holds) ∨
    ∃ p, (st'.objects o).ptr = some p ∧ (st'.objects o).holds = some ((st.objects o).cls, p) ∧
      ∀ q, (st.objects o).ptr = some q → q = p
  map : ∀ p o, st'.objectMap p = some o → st.objectMap p = some o ∨
    (st.objects o).ptr = none ∧ (st'.objects o).ptr = some p

namespace Exchanged

/-- Nothing is exchanged. -/
lemma refl (st : StructProxy) : Exchanged st st where
  cls _ := rfl
  objects _ := .inl ⟨rfl, rfl⟩
  map _ _ := .inl

/-- An object that still has no address had none. -/
lemma ptr_none (ex : Exchanged st st') (none : (st'.objects o).ptr = none) :
    (st.objects o).ptr = .none := by
  obtain ⟨same, _⟩ | ⟨p, e, _⟩ := ex.objects o
  · exact same.symm.trans none
  · cases e.symm.trans none

/-- An address that an object has, it keeps. -/
lemma ptr_some (ex : Exchanged st st') (e : (st.objects o).ptr = some p) :
    (st'.objects o).ptr = some p := by
  obtain ⟨same, _⟩ | ⟨q, e', _, unique⟩ := ex.objects o
  · exact same.trans e
  · exact (unique p e) ▸ e'

/-- Two exchanges in turn are one. -/
lemma trans (first : Exchanged st st1) (second : Exchanged st1 st2) : Exchanged st st2 where
  cls o := (second.cls o).trans (first.cls o)
  objects o := by
    obtain ⟨same, held⟩ | ⟨p, e, held, unique⟩ := second.objects o
    · rw [same, held]
      exact first.objects o
    · refine .inr ⟨p, e, held.trans (by rw [first.cls]), fun q before => ?_⟩
      exact unique q (first.ptr_some before)
  map p o e := by
    obtain before | ⟨none, here⟩ := second.map p o e
    · obtain before | ⟨none, here⟩ := first.map p o before
      · exact .inl before
      · exact .inr ⟨none, second.ptr_some here⟩
    · exact .inr ⟨first.ptr_none none, here⟩

/-- A change of pointers only. -/
lemma of_pointers (pointers : PtrId → PTR) : Exchanged st { st with pointers := pointers } where
  cls _ := rfl
  objects _ := .inl ⟨rfl, rfl⟩
  map _ _ := .inl

/-- The exchange of an object after others, which began when it had its address at the latest. -/
lemma of_setStruct (inner : Exchanged st st1) (e : st1.setStruct o = .ok st2) : Exchanged st st2 := by
  obtain ⟨p, address, rfl⟩ := StructProxy.setStruct_eq_ok e
  refine ⟨fun o' => ?_, fun o' => ?_, ?_⟩
  · by_cases same : o' = o
    · subst same
      rw [StructProxy.setObject_self]
      exact inner.cls o'
    · rw [StructProxy.setObject_of_ne same]
      exact inner.cls o'
  · by_cases same : o' = o
    · subst same
      rw [StructProxy.setObject_self]
      refine .inr ⟨p, address, by rw [inner.cls], fun q before => ?_⟩
      exact Option.some.inj ((inner.ptr_some before).symm.trans address)
    · rw [StructProxy.setObject_of_ne same]
      exact inner.objects o'
  · intro q o' e
    refine (inner.map q o' e).imp_right fun ⟨missing, here⟩ => ⟨missing, ?_⟩
    by_cases same : o' = o
    · subst same
      rw [StructProxy.setObject_self]
      exact here
    · rw [StructProxy.setObject_of_ne same]
      exact here

/-- `put` of an object: an address if it has none, something else, and the exchange. -/
lemma of_put (inner : Exchanged (st.allocate o) st1) (e : st1.setStruct o = .ok st2) :
    Exchanged st st2 := by
  have whole := of_setStruct inner e
  cases address : (st.objects o).ptr with
  | some p =>
    rw [StructProxy.allocate_of_some address] at whole
    exact whole
  | none =>
    rw [StructProxy.allocate_of_none address] at inner whole
    obtain ⟨p, there, rfl⟩ := StructProxy.setStruct_eq_ok e
    have given := inner.ptr_some (o := o) (p := st.answers 0) (by simp)
    cases there.symm.trans given
    refine ⟨fun o' => ?_, fun o' => ?_, fun q o' e => ?_⟩
    · rw [whole.cls o']
      by_cases same : o' = o
      · subst same
        simp
      · simp [StructProxy.setObject_of_ne same]
    · by_cases same : o' = o
      · subst same
        rw [StructProxy.setObject_self]
        refine .inr ⟨_, given, ?_, fun q before => ?_⟩
        · simp [inner.cls]
        · cases address.symm.trans before
      · simpa [StructProxy.setObject_of_ne same] using whole.objects o'
    · obtain before | ⟨none, here⟩ := whole.map q o' e
      · by_cases new : q = st.answers 0
        · subst new
          cases StructProxy.register_objectMap_self.symm.trans before
          exact .inr ⟨address, by simpa using given⟩
        · rw [StructProxy.register_objectMap_of_ne new] at before
          exact .inl before
      · have other : o' ≠ o := by
          rintro rfl
          simp at none
        simp only [StructProxy.register_objects, StructProxy.setObject_of_ne other] at none
        exact .inr ⟨none, here⟩

end Exchanged

section Relates

variable {R : StructProxy → StructProxy → Prop}

/-- A field of `put_cache` relates the states if the calls it makes do. -/
lemma putField_relates (refl : ∀ st, R st st)
    (trans : ∀ {st st1 st2}, R st st1 → R st1 st2 → R st st2)
    (pointers : ∀ st i ptr, R st (st.setPointer i ptr))
    {put put_cache : ObjId → StructProxy → Except ProxyError StructProxy}
    (puts : ∀ o st st', put o st = .ok st' → R st st')
    (caches : ∀ o st st', put_cache o st = .ok st' → R st st') {m : String × FieldValue}
    (e : StructProxy.putField put put_cache st m = .ok st') : R st st' := by
  rw [StructProxy.putField] at e
  split at e
  · cases e
    exact refl _
  · obtain ⟨name, value⟩ := m
    cases value with
    | list =>
      cases e
      exact refl _
    | leaf =>
      cases e
      exact refl _
    | dataclass o => exact caches o _ _ e
    | ptr i =>
      change StructProxy.putPointer put i st = .ok st' at e
      rw [StructProxy.putPointer] at e
      cases cache : (st.pointers i).cache with
      | none =>
        simp only [cache] at e
        cases e
        exact refl _
      | some target =>
        obtain ⟨new, offset⟩ := target
        simp only [cache] at e
        obtain ⟨st1, followed, e⟩ := bind_eq_ok.1 e
        have inner : R (st.setPointer i { st.pointers i with cache := none }) st1 := by
          rw [StructProxy.putNew] at followed
          split at followed
          · exact puts new _ _ followed
          · cases followed
            exact refl _
        split at e
        · cases e
        · cases e
          exact trans (trans (pointers _ _ _) inner) (pointers _ _ _)

/-- So does the `deep` part of `put`. -/
lemma putLinked_relates
    (trans : ∀ {st st1 st2}, R st st1 → R st1 st2 → R st st2)
    {put : ObjId → StructProxy → Except ProxyError StructProxy}
    (puts : ∀ o st st', put o st = .ok st' → R st st') {s s' : StructProxy × List ℤ}
    {m : String × FieldValue} (e : StructProxy.putLinked put s m = .ok s') (init : R st s.1) :
    R st s'.1 := by
  obtain same | ⟨p, linked, _, ran⟩ := StructProxy.putLinked_cases e
  · rw [same]
    exact init
  · exact trans init (puts linked _ _ ran)

/-- A reflexive and transitive relation that changes of pointers have, and with what comes in between the
two ends of `put`, relates the states of all its calls. -/
lemma put_relates (refl : ∀ st, R st st) (trans : ∀ {st st1 st2}, R st st1 → R st1 st2 → R st st2)
    (pointers : ∀ st i ptr, R st (st.setPointer i ptr))
    (ends : ∀ o st st1 st2, R (st.allocate o) st1 → st1.setStruct o = .ok st2 → R st st2)
    (depth : Nat) :
    (∀ deep o st st', StructProxy.put depth deep o st = .ok st' → R st st') ∧
      ∀ o st st', StructProxy.put_cache depth o st = .ok st' → R st st' := by
  induction depth with
  | zero =>
    constructor
    · intro deep o st st' e
      cases e
    · intro o st st' e
      cases e
  | succ depth ih =>
    obtain ⟨puts, caches⟩ := ih
    constructor
    · intro deep o st st' e
      rw [StructProxy.put] at e
      obtain ⟨st1, cached, e⟩ := bind_eq_ok.1 e
      split at e
      · obtain ⟨st2, linked, e⟩ := bind_eq_ok.1 e
        obtain ⟨s, ran, same⟩ := bind_eq_ok.1 linked
        cases same
        refine ends o st s.1 st' (trans (caches _ _ _ cached) ?_) e
        refine foldlM_keeps (P := fun s => R st1 s.1) ?_ (refl st1) ran
        intro s m _ s' init step
        exact putLinked_relates (R := R) trans (puts false) step init
      · exact ends o st st1 st' (caches _ _ _ cached) e
    · intro o st st' e
      rw [StructProxy.put_cache] at e
      refine foldlM_keeps (P := R st) ?_ (refl st) e
      intro s m _ s' init step
      exact trans init (putField_relates (R := R) refl trans pointers (puts false) caches step)

end Relates

/-- `put` only exchanges objects. -/
lemma put_exchanged (e : StructProxy.put depth deep o st = .ok st') : Exchanged st st' :=
  (put_relates (R := Exchanged) Exchanged.refl Exchanged.trans (fun _ _ _ => Exchanged.of_pointers _)
    (fun _ _ _ _ => Exchanged.of_put) depth).1 deep o st st' e

/-! ### What the map holds -/

/-- What is registered stays so while objects are exchanged. -/
lemma Registered.exchanged (reg : Registered st) (ex : Exchanged st st') : Registered st' := by
  intro p o e
  obtain before | ⟨none, here⟩ := ex.map p o e
  · obtain ⟨address, held⟩ := reg p o before
    obtain ⟨same, kept⟩ | ⟨q, e', held', unique⟩ := ex.objects o
    · exact ⟨same.trans address, by rw [kept, held, ex.cls]⟩
    · cases unique p address
      exact ⟨e', by rw [held', ex.cls]⟩
  · obtain ⟨same, _⟩ | ⟨q, e', held', _⟩ := ex.objects o
    · cases here.symm.trans (same.trans none)
    · cases here.symm.trans e'
      exact ⟨here, by rw [held', ex.cls]⟩

/-- An object that the map does not hold may be replaced. -/
lemma Registered.setObject (reg : Registered st) {obj : PyInstance} (unused : st.Unused o) :
    Registered (st.setObject o obj) := by
  intro p o' e
  have other : o' ≠ o := by
    rintro rfl
    exact unused p e
  rw [StructProxy.setObject_of_ne other]
  exact reg p o' e

/-- The map does not keep an object without an address. -/
lemma Registered.unused (reg : Registered st) (none : (st.objects o).ptr = none) : st.Unused o := by
  intro p e
  cases none.symm.trans (reg p o e).1

/-- What `get` does in the end. -/
lemma getAt_eq_ok {fetched : PtrId → Option ℤ} (e : st.getAt o fetched = .ok st') :
    ∃ p, (st.objects o).ptr = some p ∧ p ≠ 0 ∧ st' = ((st.fetch fetched).setObject o
      { st.objects o with holds := some ((st.objects o).cls, p) }).register o p := by
  rw [StructProxy.getAt] at e
  cases address : (st.objects o).ptr with
  | none =>
    simp only [address] at e
    cases e
  | some p =>
    simp only [address] at e
    split at e
    · cases e
    · cases e
      exact ⟨p, rfl, ‹_›, by simp only [address]⟩

/-- `getAt` leaves every object registered. -/
lemma Registered.getAt (reg : Registered st) {fetched : PtrId → Option ℤ}
    (e : st.getAt o fetched = .ok st') : Registered st' := by
  obtain ⟨p, address, _, rfl⟩ := getAt_eq_ok e
  intro q o' e
  rw [StructProxy.register_objects]
  by_cases here : q = p
  · subst here
    cases StructProxy.register_objectMap_self.symm.trans e
    rw [StructProxy.setObject_self]
    exact ⟨address, rfl⟩
  · rw [StructProxy.register_objectMap_of_ne here] at e
    obtain ⟨address', held⟩ := reg q o' e
    have other : o' ≠ o := by
      rintro rfl
      exact here (Option.some.inj (address'.symm.trans address))
    rw [StructProxy.setObject_of_ne other]
    exact ⟨address', held⟩

/-- `get` with a pointer is for an object without an address, and gives it the pointer's. -/
lemma get_some_eq_ok {ptr : PTR} {fetched : PtrId → Option ℤ}
    (e : st.get o (some ptr) fetched = .ok st') : (st.objects o).ptr = none ∧
      (st.setObject o { st.objects o with ptr := ptr.ptr }).getAt o fetched = .ok st' := by
  change (if (st.objects o).cls ≠ ptr.cls then _ else if (st.objects o).ptr.isSome then _ else _) = _ at e
  split at e
  · cases e
  · split at e
    · cases e
    · exact ⟨Option.not_isSome_iff_eq_none.1 ‹_›, e⟩

/-- `get` leaves every object registered. -/
lemma Registered.get (reg : Registered st) {ptr : Option PTR} {fetched : PtrId → Option ℤ}
    (e : st.get o ptr fetched = .ok st') : Registered st' := by
  cases ptr with
  | none => exact reg.getAt e
  | some ptr =>
    obtain ⟨none, e⟩ := get_some_eq_ok e
    exact (reg.setObject (reg.unused none)).getAt e

/-- A `deref` takes what the map has, or fetches a new object. -/
lemma deref_cases {ptr : PTR} {made : Made} {r : Option ObjId}
    (e : st.deref ptr made = .ok (r, st')) : ∃ p, ptr.ptr = some p ∧ r = st'.objectMap p ∧
      ((st.objectMap p).isSome = true ∧ st' = st ∨ st.objectMap p = none ∧
        (st.construct ptr.cls made).get made.id (some ptr) made.fetched = .ok st') := by
  rw [StructProxy.deref] at e
  split at e
  case h_1 => cases e
  case h_2 p address =>
    split at e
    case isTrue missing =>
      obtain ⟨st1, got, e⟩ := bind_eq_ok.1 e
      cases e
      exact ⟨p, address, rfl, .inr ⟨Option.isNone_iff_eq_none.1 missing, got⟩⟩
    case isFalse found =>
      cases e
      exact ⟨p, address, rfl, .inl ⟨by simpa [Option.isSome_iff_ne_none] using found, rfl⟩⟩

/-- `deref` of a new instance leaves every object registered. -/
lemma Registered.deref (reg : Registered st) {ptr : PTR} {made : Made} {r : Option ObjId}
    (unused : st.Unused made.id) (e : st.deref ptr made = .ok (r, st')) : Registered st' := by
  obtain ⟨p, _, _, ⟨_, rfl⟩ | ⟨_, got⟩⟩ := deref_cases e
  · exact reg
  · exact (reg.setObject unused).get got

/-- What allowed calls of `deref` keep, a loop of them keeps. -/
lemma derefs_keeps {P : StructProxy → Prop}
    (keeps : ∀ st ptr made r st', P st → st.Unused made.id → st.deref ptr made = .ok (r, st') → P st')
    {calls : List (PTR × Made)} {arr : List (Option ObjId)} (init : P st)
    (allowed : StructProxy.DerefsAllowed calls st) (e : st.derefs calls = .ok (arr, st')) : P st' := by
  induction calls generalizing st arr with
  | nil =>
    cases e
    exact init
  | cons call calls ih =>
    obtain ⟨ptr, made⟩ := call
    obtain ⟨unused, later⟩ := allowed
    rw [StructProxy.derefs] at e
    obtain ⟨⟨o, st1⟩, first, e⟩ := bind_eq_ok.1 e
    obtain ⟨⟨arr', st2⟩, rest, e⟩ := bind_eq_ok.1 e
    cases e
    exact ih (keeps st ptr made o st1 init unused first) (later o st1 first) rest

/-- `container_of_ptr` with `force_new` only makes a new object. Without, it does not return: the object that
`deref` gives has an address, which `get` does not take with a pointer. -/
lemma container_of_ptr_cases (reg : Registered st) {ptr : PTR} {cls : String} {offset : ℤ}
    {force_new : Bool} {made : Made} {r : Option ObjId} (unused : st.Unused made.id)
    (e : st.container_of_ptr ptr cls offset force_new made = .ok (r, st')) :
    ∃ obj, st' = (st.fetch made.fetched).setObject made.id obj := by
  rw [StructProxy.container_of_ptr] at e
  split at e
  case h_1 => cases e
  case h_2 p _ =>
    cases force_new with
    | true =>
      cases e
      exact ⟨_, rfl⟩
    | false =>
      simp only [Bool.false_eq_true, if_false] at e
      obtain ⟨⟨new, st1⟩, found, e⟩ := bind_eq_ok.1 e
      have reg1 := reg.deref unused found
      obtain ⟨q, _, same, _⟩ := deref_cases found
      cases new with
      | none => cases e
      | some o =>
        obtain ⟨st2, got, _⟩ := bind_eq_ok.1 e
        have missing := (get_some_eq_ok got).1
        cases missing.symm.trans (reg1 q o same.symm).1

/-- A call whose new state is taken gave a result too. -/
lemma map_snd_eq_ok {ε α β : Type} {x : Except ε (α × β)} {b : β} (e : x.map Prod.snd = .ok b) :
    ∃ a, x = .ok (a, b) := by
  cases x with
  | error => cases e
  | ok r =>
    cases e
    exact ⟨r.1, rfl⟩

/-- A `Global` that finds the variable is a loop of `deref` calls. -/
lemma Global_cases {cls : String} {vvptr size : ℤ} {count : Option Nat} {made : Nat → Made}
    {arr : List (Option ObjId)} (e : st.Global cls vvptr size count made = .ok (arr, st')) :
    st' = st ∨ st.derefs ((List.range (count.getD 1)).map fun i : Nat =>
      (⟨cls, some (vvptr + i * size), none⟩, made i)) = .ok (arr, st') := by
  rw [StructProxy.Global] at e
  split at e
  · cases e
    exact .inl rfl
  · exact .inr e

/-- Every call keeps the map in order. -/
lemma Registered.step (reg : Registered st) {call : Call} (allowed : st.Allowed call)
    (e : st.step call = .ok st') : Registered st' := by
  cases call with
  | script objects pointers =>
    cases e
    intro p o there
    obtain ⟨cls, address, held⟩ := allowed p o there
    rw [cls, address, held]
    exact reg p o there
  | get o ptr fetched => exact reg.get e
  | deref ptr made =>
    obtain ⟨r, ran⟩ := map_snd_eq_ok e
    exact reg.deref allowed ran
  | Global cls vvptr size count made =>
    obtain ⟨arr, ran⟩ := map_snd_eq_ok e
    obtain rfl | ran := Global_cases ran
    · exact reg
    · exact derefs_keeps (fun _ _ _ _ _ reg => reg.deref) reg allowed ran
  | put o deep answers depth =>
    have reg' : Registered { st with answers := answers } := reg
    exact reg'.exchanged (put_exchanged e)
  | container_of_ptr ptr cls offset force_new made =>
    obtain ⟨r, ran⟩ := map_snd_eq_ok e
    obtain ⟨obj, rfl⟩ := container_of_ptr_cases reg allowed ran
    have reg' : Registered (st.fetch made.fetched) := reg
    exact reg'.setObject allowed

/-- Every object of a proxy in use is registered. -/
lemma registered_of_run (run : proxy.Outcome (.ok st)) : Registered st := by
  refine run.holds (P := Registered) (E := fun _ => True) (fun _ _ => nofun) ?_
  intro st call reg allowed
  show Holds _ _ (st.step call)
  cases e : st.step call with
  | error => trivial
  | ok st' => exact reg.step allowed e

/-- A `deref` of an address that the map does not have makes and registers an instance of the class. -/
lemma deref_missing {cls : String} (nonnull : p ≠ 0) (missing : st.objectMap p = none) (made : Made) :
    ∃ st', st.deref ⟨cls, some p, none⟩ made = .ok (some made.id, st') ∧
      st'.objects made.id = ⟨cls, some p, made.fields, some (cls, p)⟩ := by
  have made' : (st.construct cls made).objects made.id = ⟨cls, none, made.fields, none⟩ :=
    StructProxy.setObject_self
  have got : ∃ st', (st.construct cls made).get made.id (some ⟨cls, some p, none⟩) made.fetched =
      .ok st' ∧ st'.objectMap p = some made.id ∧
        st'.objects made.id = ⟨cls, some p, made.fields, some (cls, p)⟩ := by
    rw [StructProxy.get]
    simp only [made', ne_eq, not_true_eq_false, if_false, Option.isSome_none, Bool.false_eq_true]
    rw [StructProxy.getAt]
    simp only [StructProxy.setObject_self, if_neg nonnull]
    refine ⟨_, rfl, StructProxy.register_objectMap_self, ?_⟩
    rw [StructProxy.register_objects, StructProxy.setObject_self]
  obtain ⟨st', e, registered, object⟩ := got
  refine ⟨st', ?_, object⟩
  rw [StructProxy.deref]
  simp only [missing, Option.isNone_none, if_true, e, ok_bind, registered]

/-- A `deref` returns, and gives the object that was registered last at the address, or a new one of the
class asked for. So after every run of calls the result is an instance of that class, with the address,
that holds the structure there, if and only if the map has no object of another class at the address. -/
theorem deref_instance_iff {st : StructProxy} (run : proxy.Outcome (.ok st)) {cls : String} {p : ℤ}
    (nonnull : p ≠ 0) (made : Made) :
    ∃ o st', st.deref ⟨cls, some p, none⟩ made = .ok (some o, st') ∧
      ((st'.objects o).cls = cls ∧ (st'.objects o).ptr = some p ∧
          (st'.objects o).holds = some (cls, p) ↔
        ∀ o', st.objectMap p = some o' → (st.objects o').cls = cls) := by
  have reg := registered_of_run run
  cases found : st.objectMap p with
  | some o =>
    obtain ⟨address, held⟩ := reg p o found
    refine ⟨o, st, ?_, ?_⟩
    · rw [StructProxy.deref]
      simp [found]
    · constructor
      · rintro ⟨same, _⟩ o' e
        cases e
        exact same
      · intro same
        have here := same o rfl
        exact ⟨here, address, here ▸ held⟩
  | none =>
    obtain ⟨st', e, object⟩ := deref_missing nonnull found made
    refine ⟨made.id, st', e, ?_⟩
    rw [object]
    exact ⟨fun _ _ => nofun, fun _ => ⟨rfl, rfl, rfl⟩⟩

/-- An instance without fields. -/
def bare (id : ObjId) : Made := ⟨id, [], fun _ => none⟩

/-- The proxy after `deref` of a thread. -/
def afterThread : StructProxy :=
  match StructProxy.empty.deref ⟨"k_thread", some 0x50000000, none⟩ (bare 0) with
  | .ok (_, st) => st
  | .error _ => .empty

/-- The state of the example is reached. -/
lemma afterThread_run : proxy.Outcome (.ok afterThread) :=
  Outcome.step (S := proxy) (i := .deref ⟨"k_thread", some 0x50000000, none⟩ (bare 0)) .start
    fun _ => nofun

/-- A second `deref` of the thread gives the thread. -/
theorem deref_instance_iff_thread : ∃ o st',
    afterThread.deref ⟨"k_thread", some 0x50000000, none⟩ (bare 1) = .ok (some o, st') ∧
      (st'.objects o).cls = "k_thread" ∧ (st'.objects o).holds = some ("k_thread", 0x50000000) := by
  have nonnull : (0x50000000 : ℤ) ≠ 0 := by decide
  obtain ⟨o, st', e, good⟩ := deref_instance_iff afterThread_run nonnull (bare 1)
  refine ⟨o, st', e, ?_⟩
  obtain ⟨cls, _, held⟩ := good.2 fun o' there => by
    cases there
    rfl
  exact ⟨cls, held⟩

/-- A `deref` of its first member gives the thread too. -/
theorem deref_member_gives_thread : proxy.Outcome (.ok afterThread) ∧ ∃ o st',
    afterThread.deref ⟨"_thread_base", some 0x50000000, none⟩ (bare 1) = .ok (some o, st') ∧
      (st'.objects o).cls = "k_thread" :=
  ⟨afterThread_run, 0, afterThread, rfl, rfl⟩

/-! ### The reverse map -/

/-- The two maps are inverse to each other. -/
def Inverse (st : StructProxy) : Prop :=
  ∀ o p, st.reverseObjectMap o = some p ↔ st.objectMap p = some o

/-- To register an object keeps the maps inverse exactly if no other object stands at the address and the
object stands at no other address. -/
lemma register_inverse_iff (inv : Inverse st) : Inverse (st.register o p) ↔
    (∀ o', st.objectMap p = some o' → o' = o) ∧ ∀ q, st.reverseObjectMap o = some q → q = p := by
  constructor
  · intro inv'
    constructor
    · intro o' there
      by_contra other
      have kept := (inv o' p).2 there
      rw [← StructProxy.register_reverseObjectMap_of_ne other] at kept
      have now := (inv' o' p).1 kept
      cases StructProxy.register_objectMap_self.symm.trans now
      exact other rfl
    · intro q there
      by_contra other
      have kept := (inv o q).1 there
      rw [← StructProxy.register_objectMap_of_ne other] at kept
      have now := (inv' o q).2 kept
      cases StructProxy.register_reverseObjectMap_self.symm.trans now
      exact other rfl
  · rintro ⟨alone, single⟩ o' q
    by_cases same : o' = o
    · subst same
      by_cases here : q = p
      · subst here
        simp
      · rw [StructProxy.register_reverseObjectMap_self, StructProxy.register_objectMap_of_ne here,
          ← inv o' q]
        constructor
        · intro e
          exact absurd (Option.some.inj e).symm here
        · intro there
          exact absurd (single q there) here
    · rw [StructProxy.register_reverseObjectMap_of_ne same]
      by_cases here : q = p
      · subst here
        rw [StructProxy.register_objectMap_self, inv o' q]
        constructor
        · intro there
          exact absurd (alone o' there) same
        · intro e
          exact absurd (Option.some.inj e).symm same
      · rw [StructProxy.register_objectMap_of_ne here]
        exact inv o' q

/-- The address at which `get` registers an object. -/
def getAddress (o : ObjId) (ptr : Option PTR) (st : StructProxy) : Option ℤ :=
  match (st.objects o).ptr with
  | some p => some p
  | none => ptr.bind PTR.ptr

/-- The call registers no object where another one stands: `get` is not for an address at which the map
has another object, and `structAlloc` answers addresses that are new to the map. -/
def Separate (st : StructProxy) : Call → Prop
  | .get o ptr _ => ∀ p o', getAddress o ptr st = some p → st.objectMap p = some o' → o' = o
  | .put _ _ answers _ => Function.Injective answers ∧ ∀ k, st.objectMap (answers k) = none
  | .script _ _ => True
  | .deref _ _ => True
  | .Global _ _ _ _ _ => True
  | .container_of_ptr _ _ _ _ _ => True

/-- The maps are inverse, objects stand where their address says, and `structAlloc` answers new addresses. -/
structure Placed (st : StructProxy) : Prop where
  inverse : Inverse st
  address : ∀ p o, st.objectMap p = some o → (st.objects o).ptr = some p
  apart : Function.Injective st.answers
  fresh : ∀ k, st.objectMap (st.answers k) = none

namespace Placed

/-- The next address is a new one, so `allocate` leaves every object at its own. -/
lemma allocate (placed : Placed st) (o : ObjId) : Placed (st.allocate o) := by
  cases address : (st.objects o).ptr with
  | some p =>
    rw [StructProxy.allocate_of_some address]
    exact placed
  | none =>
    rw [StructProxy.allocate_of_none address]
    have later : ∀ k, st.answers (k + 1) ≠ st.answers 0 := by
      intro k same
      cases placed.apart same
    have inner : Inverse (StructProxy.setObject
        { st with answers := fun k => st.answers (k + 1), allocs := st.allocs ++ [o] } o
        { st.objects o with ptr := some (st.answers 0) }) := placed.inverse
    refine ⟨(register_inverse_iff inner).2 ⟨?_, ?_⟩, ?_, ?_, ?_⟩
    · intro o' there
      cases (placed.fresh 0).symm.trans there
    · intro q there
      cases address.symm.trans (placed.address q o ((placed.inverse o q).1 there))
    · intro q o' e
      by_cases new : q = st.answers 0
      · subst new
        cases StructProxy.register_objectMap_self.symm.trans e
        simp
      · rw [StructProxy.register_objectMap_of_ne new] at e
        have there := placed.address q o' e
        have other : o' ≠ o := by
          rintro rfl
          cases address.symm.trans there
        rw [StructProxy.register_objects, StructProxy.setObject_of_ne other]
        exact there
    · intro j k same
      exact Nat.succ.inj (placed.apart same)
    · intro k
      exact (StructProxy.register_objectMap_of_ne (later k)).trans (placed.fresh (k + 1))

/-- `setStruct` moves no object. -/
lemma setStruct (placed : Placed st) (e : st.setStruct o = .ok st') : Placed st' := by
  obtain ⟨p, address, rfl⟩ := StructProxy.setStruct_eq_ok e
  refine ⟨placed.inverse, fun q o' e => ?_, placed.apart, placed.fresh⟩
  have there := placed.address q o' e
  by_cases same : o' = o
  · subst same
    rw [StructProxy.setObject_self]
    exact there
  · rw [StructProxy.setObject_of_ne same]
    exact there

/-- `put` keeps every object at its own address. -/
lemma put (placed : Placed st) (e : StructProxy.put depth deep o st = .ok st') : Placed st' := by
  refine (put_relates (R := fun st st' => Placed st → Placed st') (fun _ => id)
    (fun first second placed => second (first placed)) (fun st i ptr placed => ?_)
    (fun o st st1 st2 inner e placed => ?_) depth).1 deep o st st' e placed
  · exact ⟨placed.inverse, placed.address, placed.apart, placed.fresh⟩
  · exact (inner (placed.allocate o)).setStruct e

end Placed

/-- What runs of separate calls keep. -/
structure Sound (st : StructProxy) : Prop where
  registered : Registered st
  inverse : Inverse st

namespace Sound

/-- `getAt` of an object that stands alone at its address keeps the maps inverse. -/
lemma getAt (sound : Sound st) {fetched : PtrId → Option ℤ}
    (separate : ∀ p o', (st.objects o).ptr = some p → st.objectMap p = some o' → o' = o)
    (e : st.getAt o fetched = .ok st') : Sound st' := by
  refine ⟨sound.registered.getAt e, ?_⟩
  obtain ⟨p, address, _, rfl⟩ := getAt_eq_ok e
  have inner : Inverse ((st.fetch fetched).setObject o
      { st.objects o with holds := some ((st.objects o).cls, p) }) := sound.inverse
  refine (register_inverse_iff inner).2 ⟨fun o' there => separate p o' address there, fun q there => ?_⟩
  have stands := (sound.registered q o ((sound.inverse o q).1 there)).1
  exact Option.some.inj (stands.symm.trans address)

/-- An object that the map does not hold may be replaced. -/
lemma setObject (sound : Sound st) {obj : PyInstance} (unused : st.Unused o) :
    Sound (st.setObject o obj) :=
  ⟨sound.registered.setObject unused, sound.inverse⟩

/-- `get` of an object that stands alone at its address keeps the maps inverse. -/
lemma get (sound : Sound st) {ptr : Option PTR} {fetched : PtrId → Option ℤ}
    (separate : ∀ p o', getAddress o ptr st = some p → st.objectMap p = some o' → o' = o)
    (e : st.get o ptr fetched = .ok st') : Sound st' := by
  cases ptr with
  | none =>
    refine sound.getAt (fun p o' address => separate p o' ?_) e
    rw [getAddress, address]
  | some ptr =>
    obtain ⟨none, e⟩ := get_some_eq_ok e
    refine (sound.setObject (sound.registered.unused none)).getAt (fun p o' address => ?_) e
    refine separate p o' ?_
    rw [StructProxy.setObject_self] at address
    rw [getAddress, none]
    exact address

/-- An object that `deref` makes comes to an address that the map does not have. -/
lemma deref (sound : Sound st) {ptr : PTR} {made : Made} {r : Option ObjId}
    (unused : st.Unused made.id) (e : st.deref ptr made = .ok (r, st')) : Sound st' := by
  obtain ⟨p, address, _, ⟨_, rfl⟩ | ⟨missing, got⟩⟩ := deref_cases e
  · exact sound
  · refine (sound.setObject unused).get (fun q o' there taken => ?_) got
    have same : getAddress made.id (some ptr) (st.construct ptr.cls made) = ptr.ptr := by
      rw [getAddress, StructProxy.construct, StructProxy.setObject_self]
      rfl
    cases (same.symm.trans there).symm.trans address
    cases missing.symm.trans taken

/-- `put` keeps the maps inverse, if the allocations answer with new addresses. -/
lemma put (sound : Sound st) {answers : Nat → ℤ}
    (separate : Function.Injective answers ∧ ∀ k, st.objectMap (answers k) = none)
    (e : StructProxy.put depth deep o { st with answers := answers } = .ok st') : Sound st' := by
  have placed : Placed { st with answers := answers } :=
    ⟨sound.inverse, fun p o there => (sound.registered p o there).1, separate.1, separate.2⟩
  refine ⟨?_, (placed.put e).inverse⟩
  have reg : Registered { st with answers := answers } := sound.registered
  exact reg.exchanged (put_exchanged e)

/-- Every separate call keeps the maps inverse. -/
lemma step (sound : Sound st) {call : Call} (allowed : st.Allowed call) (separate : Separate st call)
    (e : st.step call = .ok st') : Sound st' := by
  cases call with
  | script objects pointers =>
    refine ⟨sound.registered.step allowed e, ?_⟩
    cases e
    exact sound.inverse
  | get o ptr fetched => exact sound.get separate e
  | deref ptr made =>
    obtain ⟨r, ran⟩ := map_snd_eq_ok e
    exact sound.deref allowed ran
  | Global cls vvptr size count made =>
    obtain ⟨arr, ran⟩ := map_snd_eq_ok e
    obtain rfl | ran := Global_cases ran
    · exact sound
    · exact derefs_keeps (fun _ _ _ _ _ sound => sound.deref) sound allowed ran
  | put o deep answers depth => exact sound.put separate e
  | container_of_ptr ptr cls offset force_new made =>
    obtain ⟨r, ran⟩ := map_snd_eq_ok e
    obtain ⟨obj, rfl⟩ := container_of_ptr_cases sound.registered allowed ran
    have fetched : Sound (st.fetch made.fetched) := ⟨sound.registered, sound.inverse⟩
    exact fetched.setObject allowed

end Sound

/-- In every run of separate calls an object is found by its identity under an address exactly if the map
holds it there. -/
theorem maps_inverse {st : StructProxy} (run : (proxy.under Separate).Outcome (.ok st)) (o : ObjId)
    (p : ℤ) : st.reverseObjectMap o = some p ↔ st.objectMap p = some o := by
  have sound : Sound st := by
    refine run.holds (P := Sound) (E := fun _ => True) ?_ ?_
    · exact ⟨fun _ _ => nofun, fun _ _ => ⟨nofun, nofun⟩⟩
    · intro st call sound allowed
      show Holds _ _ (st.step call)
      cases e : st.step call with
      | error => trivial
      | ok st' => exact sound.step allowed.1 allowed.2 e
  exact sound.inverse o p

/-- After `deref` of a thread it is found by its identity. -/
theorem maps_inverse_thread : afterThread.reverseObjectMap 0 = some 0x50000000 := by
  have run : (proxy.under Separate).Outcome (.ok afterThread) :=
    Outcome.step (S := proxy.under Separate)
      (i := .deref ⟨"k_thread", some 0x50000000, none⟩ (bare 0)) .start ⟨fun _ => nofun, trivial⟩
  exact (maps_inverse run 0 0x50000000).2 rfl

/-- The script makes another object for the thread. -/
def threadAgain : StructProxy :=
  afterThread.setObject 1 ⟨"k_thread", some 0x50000000, [], none⟩

/-- The proxy after `get` of that object. -/
def afterThreadAgain : StructProxy :=
  match threadAgain.get 1 none fun _ => none with
  | .ok st => st
  | .error _ => .empty

/-- After `get` of another object for the thread the first one is still found by its identity, under an
address where the map does not hold it any more. -/
theorem get_again_not_inverse : proxy.Outcome (.ok afterThreadAgain) ∧
    afterThreadAgain.reverseObjectMap 0 = some 0x50000000 ∧
      afterThreadAgain.objectMap 0x50000000 = some 1 := by
  refine ⟨?_, rfl, rfl⟩
  have scripted : proxy.Outcome (.ok threadAgain) := by
    refine Outcome.step (S := proxy) (i := .script threadAgain.objects threadAgain.pointers)
      afterThread_run ?_
    have unused : afterThread.Unused 1 := (registered_of_run afterThread_run).unused rfl
    intro p o there
    have same : o ≠ 1 := by
      rintro rfl
      exact unused p there
    exact ⟨by rw [threadAgain, StructProxy.setObject_of_ne same],
      by rw [threadAgain, StructProxy.setObject_of_ne same],
      by rw [threadAgain, StructProxy.setObject_of_ne same]⟩
  exact Outcome.step (S := proxy) (i := .get 1 none fun _ => none) scripted trivial

end Irx.Python
