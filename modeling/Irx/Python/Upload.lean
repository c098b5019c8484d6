import Irx.Basic
import Irx.Lib.Fuel
import Irx.Python.Proxy

/-!
# Uploads

`put` follows the caches of an object's pointers to objects that the proxy does not know, puts these first
and replaces each cache by an address. `Uploads` says what calls of `put` and `put_cache` do. The caches
that are still there bound the depth of the calls, since a cache is cleared before it is followed
(`put_settles`). A pointer gets its address after its target was put: what was written for an object is
its last state because no other object has a part in such a pointer (`put_uploads`).
-/

namespace Irx.Python
open Irx.Lib

namespace StructProxy

/-- The fields of an object. -/
def fields (st : StructProxy) (o : ObjId) : List (String × FieldValue) := (st.objects o).fields

/-- The pointers that still have a cache. -/
def pending (st : StructProxy) : Set PtrId := {i | (st.pointers i).cache.isSome}

/-- The last call of `set_struct` for an object. -/
def lastWrite (st : StructProxy) (o : ObjId) : Option Write :=
  st.writes.reverse.find? fun w => w.object == o

end StructProxy

section Parts

variable (fields : ObjId → List (String × FieldValue))

/-- The first object is the value of a field of the second one. -/
def Nests (o' o : ObjId) : Prop := ∃ name, (name, .dataclass o') ∈ fields o ∧ isDunder name = false

/-- The pointer is in a field of the object, or of a dataclass nested in it. -/
inductive PartOf : ObjId → PtrId → Prop where
  | own {o name i} : (name, .ptr i) ∈ fields o → isDunder name = false → PartOf o i
  | nested {o o' i} : Nests fields o' o → PartOf o' i → PartOf o i

/-- The pointer is in that field, or in a dataclass there. -/
def PartVia (m : String × FieldValue) (i : PtrId) : Prop :=
  isDunder m.1 = false ∧ (m.2 = .ptr i ∨ ∃ o', m.2 = .dataclass o' ∧ PartOf fields o' i)

/-- A pointer is part of an object through one of its fields. -/
lemma partOf_iff {o : ObjId} {i : PtrId} :
    PartOf fields o i ↔ ∃ m ∈ fields o, PartVia fields m i := by
  constructor
  · intro part
    cases part with
    | own mem visible => exact ⟨_, mem, visible, .inl rfl⟩
    | nested nests part =>
      obtain ⟨name, mem, visible⟩ := nests
      exact ⟨_, mem, visible, .inr ⟨_, rfl, part⟩⟩
  · rintro ⟨⟨name, value⟩, mem, visible, e | ⟨o', e, part⟩⟩
    · cases e
      exact .own mem visible
    · cases e
      exact .nested ⟨name, mem, visible⟩ part

variable {fields} {name : String} {i j : PtrId} {o : ObjId}

/-- In a pointer field there is one pointer. -/
lemma partVia_ptr (via : PartVia fields (name, .ptr i) j) : j = i := by
  obtain ⟨_, same | ⟨_, same, _⟩⟩ := via
  · cases same
    rfl
  · cases same

/-- In a dataclass there are its pointers. -/
lemma partVia_dataclass (via : PartVia fields (name, .dataclass o) i) : PartOf fields o i := by
  obtain ⟨_, same | ⟨_, same, part⟩⟩ := via
  · cases same
  · cases same
    exact part

/-- In a list there is no pointer. -/
lemma not_partVia_list {items : List FieldValue} : ¬ PartVia fields (name, .list items) i := by
  rintro ⟨_, same | ⟨_, same, _⟩⟩
  · cases same
  · cases same

/-- In a leaf there is none. -/
lemma not_partVia_leaf {data : PyObj} : ¬ PartVia fields (name, .leaf data) i := by
  rintro ⟨_, same | ⟨_, same, _⟩⟩
  · cases same
  · cases same

end Parts

/-- The cache of a part of the object leads to an object that the proxy does not know. -/
def Follows (st : StructProxy) (o : ObjId) (i : PtrId) (new : ObjId) : Prop :=
  PartOf st.fields o i ∧ (∃ offset, (st.pointers i).cache = some ⟨new, offset⟩) ∧
    st.reverseObjectMap new = none

/-- The objects that an upload reaches. -/
inductive Reached (st : StructProxy) (root : ObjId) : ObjId → Prop where
  | root : Reached st root root
  | link {o i new} : Reached st root o → Follows st o i new → Reached st root new

/-- What was last written for the object is its present state, at its address. -/
def Current (st : StructProxy) (o : ObjId) : Prop :=
  ∃ w, st.lastWrite o = some w ∧ w.name = (st.objects o).cls ∧
    (st.objects o).ptr = some w.address ∧ ∀ i, PartOf st.fields o i → w.pointers i = st.pointers i

/-- Registered objects have an address, and of the objects in question no two have a part in a pointer whose
cache is followed. -/
structure Linked (good : ObjId → Prop) (st : StructProxy) : Prop where
  address : ∀ o, (st.reverseObjectMap o).isSome → (st.objects o).ptr.isSome
  finite : st.pending.Finite
  closed : ∀ o i new, good o → Follows st o i new → good new
  owned : ∀ o o' i new, good o → good o' → Follows st o i new → PartOf st.fields o' i → o' = o

/-- The object is the one whose `put` is going on, or was written. -/
def Within (owner : Option ObjId) (ws : List Write) (o : ObjId) : Prop :=
  some o = owner ∨ ∃ w ∈ ws, w.object = o

/-- What calls of `put` do, while that of the owner is going on: the objects that got an address, and the
writes. -/
structure Uploads (good : ObjId → Prop) (owner : Option ObjId) (st st' : StructProxy)
    (news : List ObjId) (ws : List Write) : Prop where
  fields : st'.fields = st.fields
  cls : ∀ o, (st'.objects o).cls = (st.objects o).cls
  keeps : ∀ o p, (st.objects o).ptr = some p → (st'.objects o).ptr = some p
  given : ∀ o, (st'.objects o).ptr.isSome ↔ (st.objects o).ptr.isSome ∨ o ∈ news
  registered : ∀ o, (st'.reverseObjectMap o).isSome ↔ (st.reverseObjectMap o).isSome ∨ o ∈ news
  allocs : st'.allocs = st.allocs ++ news
  once : news.Nodup
  fresh : ∀ o ∈ news, (st.objects o).ptr = none
  put : ∀ o ∈ news, Within owner ws o
  writes : st'.writes = st.writes ++ ws
  good : ∀ w ∈ ws, good w.object
  pointers : ∀ i, st'.pointers i = st.pointers i ∨
    ∃ new offset p, (st.pointers i).cache = some ⟨new, offset⟩ ∧ (st'.objects new).ptr = some p ∧
      st'.pointers i = { st.pointers i with ptr := some (p + offset), cache := none } ∧
      ((st.reverseObjectMap new).isSome ∨ Within owner ws new)
  done : ∀ w ∈ ws, ∀ i, PartOf st.fields w.object i → (st'.pointers i).cache = none
  current : ∀ w ∈ ws, some w.object ≠ owner → Current st' w.object

variable {good : ObjId → Prop} {owner : Option ObjId} {st st1 st2 st' : StructProxy}
  {news news1 news2 : List ObjId} {ws ws1 ws2 : List Write} {o o' q new : ObjId} {i : PtrId} {p offset : ℤ}

/-! ### Writes -/

/-- The exchange leaves class, address and fields of every object. -/
lemma setStruct_same (e : st.setStruct o = .ok st') (o' : ObjId) :
    (st'.objects o').cls = (st.objects o').cls ∧ (st'.objects o').ptr = (st.objects o').ptr ∧
      (st'.objects o').fields = (st.objects o').fields := by
  obtain ⟨p, _, rfl⟩ := StructProxy.setStruct_eq_ok e
  by_cases same : o' = o
  · subst same
    rw [StructProxy.setObject_self]
    exact ⟨rfl, rfl, rfl⟩
  · rw [StructProxy.setObject_of_ne same]
    exact ⟨rfl, rfl, rfl⟩

/-- Writing a structure changes no field. -/
lemma setStruct_fields (e : st.setStruct o = .ok st') : st'.fields = st.fields :=
  funext fun o' => (setStruct_same e o').2.2

/-- An address given leaves class and fields of every object, and the addresses there are. -/
lemma allocate_same (st : StructProxy) (o o' : ObjId) :
    ((st.allocate o).objects o').cls = (st.objects o').cls ∧
      ((st.allocate o).objects o').fields = (st.objects o').fields ∧
      ∀ p, (st.objects o').ptr = some p → ((st.allocate o).objects o').ptr = some p := by
  cases address : (st.objects o).ptr with
  | some p =>
    rw [StructProxy.allocate_of_some address]
    exact ⟨rfl, rfl, fun _ there => there⟩
  | none =>
    rw [StructProxy.allocate_of_none address, StructProxy.register_objects]
    by_cases same : o' = o
    · subst same
      rw [StructProxy.setObject_self]
      refine ⟨rfl, rfl, fun p there => ?_⟩
      cases address.symm.trans there
    · rw [StructProxy.setObject_of_ne same]
      exact ⟨rfl, rfl, fun _ there => there⟩

/-- Allocating changes no field. -/
lemma allocate_fields (st : StructProxy) (o : ObjId) : (st.allocate o).fields = st.fields :=
  funext fun o' => (allocate_same st o o').2.1

/-- The object itself has an address then. -/
lemma allocate_ptr (st : StructProxy) (o : ObjId) : ((st.allocate o).objects o).ptr.isSome := by
  cases address : (st.objects o).ptr with
  | some p =>
    rw [StructProxy.allocate_of_some address, address]
    rfl
  | none =>
    rw [StructProxy.allocate_of_none address, StructProxy.register_objects, StructProxy.setObject_self]
    rfl

/-- Writes of other objects are not the last of this one. -/
lemma lastWrite_append_of_ne (writes : st'.writes = st.writes ++ ws)
    (others : ∀ w ∈ ws, w.object ≠ o) : st'.lastWrite o = st.lastWrite o := by
  rw [StructProxy.lastWrite, writes, List.reverse_append, List.find?_append]
  have none : ws.reverse.find? (fun w => w.object == o) = .none := by
    refine List.find?_eq_none.2 fun w mem => ?_
    simpa using others w (List.mem_reverse.1 mem)
  rw [none, Option.none_or]
  rfl

/-- The last write is the last. -/
lemma lastWrite_append_self {w : Write} (writes : st'.writes = st.writes ++ [w]) :
    st'.lastWrite w.object = some w := by
  rw [StructProxy.lastWrite, writes, List.reverse_append]
  simp

namespace Uploads

/-- Nothing was uploaded. -/
lemma refl (good : ObjId → Prop) (owner : Option ObjId) (st : StructProxy) :
    Uploads good owner st st [] [] where
  fields := rfl
  cls _ := rfl
  keeps _ _ := id
  given _ := by simp
  registered _ := by simp
  allocs := by simp
  once := .nil
  fresh _ := nofun
  put _ := nofun
  writes := by simp
  good _ := nofun
  pointers _ := .inl rfl
  done _ := nofun
  current _ := nofun

/-- What was done stays done. -/
lemma settled (up : Uploads good owner st st' news ws) (none : (st.pointers i).cache = none) :
    st'.pointers i = st.pointers i := by
  obtain same | ⟨new, offset, p, cache, _⟩ := up.pointers i
  · exact same
  · cases none.symm.trans cache

/-- A cache that is still there was there before. -/
lemma cache_before (up : Uploads good owner st st' news ws) {target : ObjectOffset}
    (cache : (st'.pointers i).cache = some target) : (st.pointers i).cache = some target := by
  obtain same | ⟨new, offset, p, _, _, e, _⟩ := up.pointers i
  · rw [← same]
    exact cache
  · rw [e] at cache
    cases cache

/-- Nothing more is pending. -/
lemma pending (up : Uploads good owner st st' news ws) : st'.pending ⊆ st.pending := by
  intro i there
  obtain ⟨target, cache⟩ := Option.isSome_iff_exists.1 there
  exact Option.isSome_iff_exists.2 ⟨target, up.cache_before cache⟩

/-- What is not registered was not registered before. -/
lemma unregistered_before (up : Uploads good owner st st' news ws)
    (none : st'.reverseObjectMap o = none) : st.reverseObjectMap o = .none := by
  by_contra there
  have now := (up.registered o).2 (.inl (Option.isSome_iff_ne_none.2 there))
  rw [none] at now
  cases now

/-- A cache that is still there was there before. -/
lemma follows (up : Uploads good owner st st' news ws) (follows : Follows st' o i new) :
    Follows st o i new := by
  obtain ⟨part, ⟨offset, cache⟩, none⟩ := follows
  exact ⟨up.fields ▸ part, ⟨offset, up.cache_before cache⟩, up.unregistered_before none⟩

/-- An object that has no part in a changed pointer, and is not written again, stays current. -/
lemma keeps_current (up : Uploads good owner st st' news ws) (current : Current st o)
    (done : ∀ i, PartOf st.fields o i → (st.pointers i).cache = none)
    (others : ∀ w ∈ ws, w.object ≠ o) : Current st' o := by
  obtain ⟨w, last, name, address, pointers⟩ := current
  refine ⟨w, ?_, name.trans (up.cls o).symm, up.keeps o _ address, fun i part => ?_⟩
  · rw [lastWrite_append_of_ne up.writes others]
    exact last
  · rw [up.fields] at part
    rw [up.settled (done i part)]
    exact pointers i part

/-- Two uploads, one after the other. -/
lemma trans (first : Uploads good owner st st1 news1 ws1)
    (second : Uploads good owner st1 st2 news2 ws2) :
    Uploads good owner st st2 (news1 ++ news2) (ws1 ++ ws2) where
  fields := second.fields.trans first.fields
  cls o := (second.cls o).trans (first.cls o)
  keeps o p e := second.keeps o p (first.keeps o p e)
  given o := by rw [second.given, first.given, List.mem_append, or_assoc]
  registered o := by rw [second.registered, first.registered, List.mem_append, or_assoc]
  allocs := by rw [second.allocs, first.allocs, List.append_assoc]
  once := by
    refine List.nodup_append.2 ⟨first.once, second.once, fun o one o' two => ?_⟩
    rintro rfl
    have there := (first.given o).2 (.inr one)
    rw [second.fresh o two] at there
    cases there
  fresh o mem := by
    obtain one | two := List.mem_append.1 mem
    · exact first.fresh o one
    · by_contra there
      have now := (first.given o).2 (.inl (Option.isSome_iff_ne_none.2 there))
      rw [second.fresh o two] at now
      cases now
  put o mem := by
    obtain one | two := List.mem_append.1 mem
    · exact (first.put o one).imp_right fun ⟨w, mem, e⟩ => ⟨w, List.mem_append_left _ mem, e⟩
    · exact (second.put o two).imp_right fun ⟨w, mem, e⟩ => ⟨w, List.mem_append_right _ mem, e⟩
  writes := by rw [second.writes, first.writes, List.append_assoc]
  good w mem := (List.mem_append.1 mem).elim (first.good w) (second.good w)
  pointers i := by
    obtain same | ⟨new, offset, p, cache, address, e, target⟩ := second.pointers i
    · rw [same]
      refine (first.pointers i).imp_right ?_
      rintro ⟨new, offset, p, cache, address, e, target⟩
      refine ⟨new, offset, p, cache, second.keeps _ _ address, e, target.imp_right ?_⟩
      exact Or.imp_right fun ⟨w, mem, e⟩ => ⟨w, List.mem_append_left _ mem, e⟩
    · have before := first.cache_before cache
      have same : st1.pointers i = st.pointers i := by
        obtain same | ⟨_, _, _, _, _, e, _⟩ := first.pointers i
        · exact same
        · rw [e] at cache
          cases cache
      refine .inr ⟨new, offset, p, before, address, by rw [e, same], ?_⟩
      obtain registered | there := target
      · obtain early | mem := (first.registered new).1 registered
        · exact .inl early
        · refine .inr ((first.put new mem).imp_right ?_)
          exact fun ⟨w, mem, e⟩ => ⟨w, List.mem_append_left _ mem, e⟩
      · exact .inr (there.imp_right fun ⟨w, mem, e⟩ => ⟨w, List.mem_append_right _ mem, e⟩)
  done w mem i part := by
    obtain one | two := List.mem_append.1 mem
    · have none := first.done w one i part
      rw [second.settled none]
      exact none
    · exact second.done w two i (first.fields ▸ part)
  current w mem other := by
    by_cases again : ∃ w' ∈ ws2, w'.object = w.object
    · obtain ⟨w', mem', same⟩ := again
      rw [← same] at other ⊢
      exact second.current w' mem' other
    · have one : w ∈ ws1 := by
        refine (List.mem_append.1 mem).resolve_right fun two => ?_
        exact again ⟨w, two, rfl⟩
      refine second.keeps_current (first.current w one other) (fun i part => ?_) ?_
      · exact first.done w one i (first.fields ▸ part)
      · exact fun w' mem' same => again ⟨w', mem', same⟩

/-- An object without an address gets one. -/
lemma allocate (good : ObjId → Prop) (st : StructProxy) (o : ObjId) :
    ∃ news, Uploads good (some o) st (st.allocate o) news [] := by
  have same := allocate_same st o
  have fields := allocate_fields st o
  cases address : (st.objects o).ptr with
  | some p =>
    rw [StructProxy.allocate_of_some address]
    exact ⟨[], .refl good _ st⟩
  | none =>
    rw [StructProxy.allocate_of_none address] at same fields ⊢
    refine ⟨[o], ⟨fields, fun o' => (same o').1, fun o' => (same o').2.2, ?given, ?registered, ?allocs,
      ?once, ?fresh, ?put, ?writes, ?good, ?pointers, ?done, ?current⟩⟩
    case given =>
      intro o'
      by_cases same : o' = o
      · subst same
        simp
      · simp [StructProxy.setObject_of_ne same, same]
    case registered =>
      intro o'
      by_cases same : o' = o
      · subst same
        simp
      · simp [StructProxy.register_reverseObjectMap_of_ne same, same]
    case allocs => rfl
    case once => exact List.nodup_singleton o
    case fresh =>
      intro o' mem
      rw [List.mem_singleton.1 mem]
      exact address
    case put =>
      intro o' mem
      exact .inl (congrArg some (List.mem_singleton.1 mem))
    case writes => exact (List.append_nil _).symm
    case good => exact fun _ => nofun
    case pointers => exact fun _ => .inl rfl
    case done => exact fun _ => nofun
    case current => exact fun _ => nofun

/-- A cache is cleared, its target put if need be, and the address taken over. -/
lemma resolve (cache : (st.pointers i).cache = some ⟨new, offset⟩)
    (up : Uploads good none (st.setPointer i { st.pointers i with cache := none }) st1 news ws)
    (address : (st1.objects new).ptr = some p)
    (target : (st.reverseObjectMap new).isSome ∨ ∃ w ∈ ws, w.object = new)
    (owned : ∀ w ∈ ws, PartOf st.fields w.object i → w.object = q) :
    Uploads good (some q) st (st1.setPointer i { st1.pointers i with ptr := some (p + offset) })
      news ws := by
  have cleared : st1.pointers i = { st.pointers i with cache := none } := by
    rw [up.settled (by simp)]
    simp
  refine ⟨up.fields, up.cls, up.keeps, up.given, up.registered, up.allocs, up.once, up.fresh, ?put,
    up.writes, up.good, ?pointers, ?done, ?current⟩
  case put =>
    intro o mem
    exact .inr ((up.put o mem).resolve_left nofun)
  case pointers =>
    intro j
    by_cases same : j = i
    · subst same
      refine .inr ⟨new, offset, p, cache, address, ?_, target.imp_right .inr⟩
      rw [StructProxy.setPointer_self, cleared]
    · rw [StructProxy.setPointer_of_ne same]
      refine (up.pointers j).imp (fun e => ?_) ?_
      · rw [e, StructProxy.setPointer_of_ne same]
      · rw [StructProxy.setPointer_of_ne same]
        rintro ⟨new, offset, p, cache, address, e, target⟩
        refine ⟨new, offset, p, cache, address, e, target.imp_right fun there => ?_⟩
        exact .inr (there.resolve_left nofun)
  case done =>
    intro w mem j part
    by_cases same : j = i
    · subst same
      rw [StructProxy.setPointer_self, cleared]
    · rw [StructProxy.setPointer_of_ne same]
      exact up.done w mem j part
  case current =>
    intro w mem other
    obtain ⟨last, wrote, name, address, pointers⟩ := up.current w mem nofun
    refine ⟨last, wrote, name, address, fun j part => ?_⟩
    have part' : PartOf st1.fields w.object j := part
    have ne : j ≠ i := by
      rintro rfl
      rw [up.fields] at part'
      exact other (congrArg some (owned w mem part'))
    rw [StructProxy.setPointer_of_ne ne]
    exact pointers j part'

/-- The owner is written last, when all its pointers are settled. -/
lemma close (up : Uploads good (some o) st st1 news ws) (goodo : good o)
    (finished : ∀ i, PartOf st.fields o i → (st1.pointers i).cache = none)
    (e : st1.setStruct o = .ok st2) :
    ∃ w, w.object = o ∧ Uploads good none st st2 news (ws ++ [w]) := by
  have fields := setStruct_fields e
  have cls : ∀ o', (st2.objects o').cls = (st1.objects o').cls := fun o' => (setStruct_same e o').1
  have ptr : ∀ o', (st2.objects o').ptr = (st1.objects o').ptr := fun o' => (setStruct_same e o').2.1
  obtain ⟨p, address, rfl⟩ := StructProxy.setStruct_eq_ok e
  set w : Write := ⟨o, (st1.objects o).cls, p, st1.pointers⟩ with hw
  set st2 := StructProxy.setObject { st1 with writes := st1.writes ++ [w] } o
    { st1.objects o with holds := some ((st1.objects o).cls, p) } with hst2
  have appended : st2.writes = st1.writes ++ [w] := rfl
  have within : ∀ o', Within (some o) ws o' → Within none (ws ++ [w]) o' := by
    rintro o' (same | ⟨w', mem, same⟩)
    · exact .inr ⟨w, by simp, (Option.some.inj same).symm⟩
    · exact .inr ⟨w', List.mem_append_left _ mem, same⟩
  refine ⟨w, rfl, fields.trans up.fields, fun o' => (cls o').trans (up.cls o'), ?keeps, ?given,
    up.registered, up.allocs, up.once, up.fresh, fun o' mem => within o' (up.put o' mem), ?writes, ?good,
    ?pointers, ?done, ?current⟩
  case keeps =>
    intro o' q there
    rw [ptr]
    exact up.keeps o' q there
  case given =>
    intro o'
    rw [ptr]
    exact up.given o'
  case writes =>
    rw [← List.append_assoc, ← up.writes, appended]
  case good =>
    intro w' mem
    obtain mem | mem := List.mem_append.1 mem
    · exact up.good w' mem
    · rw [List.mem_singleton.1 mem]
      exact goodo
  case pointers =>
    intro i
    refine (up.pointers i).imp_right ?_
    rintro ⟨new, offset, p', cache, there, e, target⟩
    exact ⟨new, offset, p', cache, (ptr new).trans there, e, target.imp_right (within new)⟩
  case done =>
    intro w' mem i part
    obtain mem | mem := List.mem_append.1 mem
    · exact up.done w' mem i part
    · rw [List.mem_singleton.1 mem] at part
      exact finished i part
  case current =>
    intro w' mem _
    by_cases same : w'.object = o
    · rw [same]
      have last : st2.lastWrite o = some w := lastWrite_append_self appended
      exact ⟨w, last, (cls o).symm, (ptr o).trans address, fun _ _ => rfl⟩
    · have early : w' ∈ ws := by
        refine (List.mem_append.1 mem).resolve_right fun last => ?_
        rw [List.mem_singleton.1 last] at same
        exact same rfl
      have other : some w'.object ≠ some o := fun e => same (Option.some.inj e)
      obtain ⟨last, wrote, name, there, pointers⟩ := up.current w' early other
      refine ⟨last, ?_, name.trans (cls _).symm, (ptr _).trans there, fun i part => ?_⟩
      · rw [lastWrite_append_of_ne appended]
        · exact wrote
        · intro v mem e
          rw [List.mem_singleton.1 mem] at e
          exact same e.symm
      · rw [fields] at part
        exact pointers i part

end Uploads

/-! ### Termination -/

/-- A cache that is still there after one was cleared. -/
lemma cache_of_cleared {j : PtrId} {target : ObjectOffset}
    (cache : ((st.setPointer i { st.pointers i with cache := none }).pointers j).cache = some target) :
    (st.pointers j).cache = some target := by
  by_cases same : j = i
  · subst same
    rw [StructProxy.setPointer_self] at cache
    cases cache
  · rw [StructProxy.setPointer_of_ne same] at cache
    exact cache

/-- A cache that was not cleared was there before. -/
lemma Follows.of_cleared {j : PtrId}
    (follows : Follows (st.setPointer i { st.pointers i with cache := none }) o j new) :
    Follows st o j new := by
  obtain ⟨part, ⟨offset, cache⟩, none⟩ := follows
  exact ⟨part, ⟨offset, cache_of_cleared cache⟩, none⟩

namespace Linked

/-- An upload keeps the links. -/
lemma uploads (link : Linked good st) (up : Uploads good owner st st' news ws) : Linked good st' where
  address o there := by
    rw [up.given]
    exact ((up.registered o).1 there).imp_left (link.address o)
  finite := link.finite.subset up.pending
  closed o i new goodo follows := link.closed o i new goodo (up.follows follows)
  owned o o' i new goodo goodo' follows part :=
    link.owned o o' i new goodo goodo' (up.follows follows) (up.fields ▸ part)

/-- A cache may be cleared. -/
lemma clear (link : Linked good st) (i : PtrId) :
    Linked good (st.setPointer i { st.pointers i with cache := none }) := by
  refine ⟨link.address, link.finite.subset fun j there => ?_, ?_, ?_⟩
  · obtain ⟨target, cache⟩ := Option.isSome_iff_exists.1 there
    exact Option.isSome_iff_exists.2 ⟨target, cache_of_cleared cache⟩
  · exact fun o j new goodo follows => link.closed o j new goodo follows.of_cleared
  · intro o o' j new goodo goodo' follows
    exact link.owned o o' j new goodo goodo' follows.of_cleared

/-- There are fewer caches then. -/
lemma clear_lt (link : Linked good st) (cache : (st.pointers i).cache.isSome) :
    (st.setPointer i { st.pointers i with cache := none }).pending.ncard < st.pending.ncard := by
  refine Set.ncard_lt_ncard ⟨fun j there => ?_, fun sub => ?_⟩ link.finite
  · by_cases same : j = i
    · rw [same]
      exact cache
    · have there' : ((st.setPointer i _).pointers j).cache.isSome := there
      rw [StructProxy.setPointer_of_ne same] at there'
      exact there'
  · have there : ((st.setPointer i _).pointers i).cache.isSome := sub cache
    rw [StructProxy.setPointer_self] at there
    cases there

end Linked

/-- An upload of the object settles, and ends with a write of it. -/
def PutSettles (good : ObjId → Prop) (st : StructProxy) (o : ObjId) : Prop :=
  ∃ st' news ws, Settles (fun depth => StructProxy.put depth false o st) st' ∧
    Uploads good none st st' news ws ∧ ∃ w ∈ ws, w.object = o

section Bounded

variable {n : Nat} {fields : ObjId → List (String × FieldValue)}

/-- With fewer caches than `n`, uploads settle. -/
def PutsBelow (good : ObjId → Prop) (fields : ObjId → List (String × FieldValue)) (n : Nat) : Prop :=
  ∀ st o, Linked good st → st.fields = fields → st.pending.ncard < n → good o → PutSettles good st o

/-- Following one pointer ends. -/
lemma putPointer_settles (puts : PutsBelow good fields n) (link : Linked good st)
    (same : st.fields = fields) (le : st.pending.ncard ≤ n) (goodq : good q) (part : PartOf fields q i) :
    ∃ st' news ws,
      Settles (fun depth => StructProxy.putPointer (StructProxy.put depth false) i st) st' ∧
        Uploads good (some q) st st' news ws ∧ (st'.pointers i).cache = none := by
  cases cache : (st.pointers i).cache with
  | none =>
    refine ⟨st, [], [], ?_, .refl good _ st, cache⟩
    simp only [StructProxy.putPointer, cache]
    exact .ok st
  | some target =>
    obtain ⟨new, offset⟩ := target
    simp only [StructProxy.putPointer, cache]
    have linkc := link.clear i
    set stc := st.setPointer i { st.pointers i with cache := none } with hstc
    -- the target has an address after the first part
    have first : ∃ st1 news ws,
        Settles (fun depth => StructProxy.putNew (StructProxy.put depth false) new stc) st1 ∧
          Uploads good none stc st1 news ws ∧
          ((st.reverseObjectMap new).isSome ∨ ∃ w ∈ ws, w.object = new) ∧
          ∀ w ∈ ws, PartOf st.fields w.object i → w.object = q := by
      cases known : st.reverseObjectMap new with
      | some _ =>
        refine ⟨stc, [], [], ?_, .refl good _ stc, .inl rfl, fun _ => nofun⟩
        have known' : (stc.reverseObjectMap new).isNone = false := by simp [hstc, known]
        simp only [StructProxy.putNew, known', Bool.false_eq_true, if_false]
        exact .ok stc
      | none =>
        have follows : Follows st q i new := ⟨same ▸ part, ⟨offset, cache⟩, known⟩
        have lt : stc.pending.ncard < n := by
          refine lt_of_lt_of_le (link.clear_lt ?_) le
          rw [cache]
          rfl
        obtain ⟨st1, news, ws, ran, up, wrote⟩ :=
          puts stc new linkc same lt (link.closed q i new goodq follows)
        refine ⟨st1, news, ws, ?_, up, .inr wrote, fun w mem part' => ?_⟩
        · have known' : (stc.reverseObjectMap new).isNone = true := by simp [hstc, known]
          simp only [StructProxy.putNew, known', if_true]
          exact ran
        · exact link.owned q w.object i new goodq (up.good w mem) follows part'
    obtain ⟨st1, news, ws, ran, up, target, owned⟩ := first
    have there : (st1.objects new).ptr.isSome := by
      obtain known | ⟨w, mem, rfl⟩ := target
      · exact (up.given new).2 (.inl (link.address new known))
      · obtain ⟨last, _, _, address, _⟩ := up.current w mem nofun
        rw [address]
        rfl
    obtain ⟨p, address⟩ := Option.isSome_iff_exists.1 there
    refine ⟨_, news, ws, ran.bind ?_, up.resolve cache address target owned, ?_⟩
    · simp only [address]
      exact .ok _
    · rw [StructProxy.setPointer_self]
      have cleared := up.settled (i := i) (by simp [hstc])
      show (st1.pointers i).cache = none
      rw [cleared]
      simp [hstc]

/-- A field, where the dataclasses nested in the object settle. -/
lemma putField_settles (puts : PutsBelow good fields n) {m : String × FieldValue}
    (caches : ∀ o' st, m.2 = .dataclass o' → isDunder m.1 = false → Linked good st → st.fields = fields →
      st.pending.ncard ≤ n → ∃ st' news ws, Settles (fun depth => StructProxy.put_cache depth o' st) st' ∧
        Uploads good (some q) st st' news ws ∧ ∀ i, PartOf fields o' i → (st'.pointers i).cache = none)
    (link : Linked good st) (same : st.fields = fields) (le : st.pending.ncard ≤ n) (goodq : good q)
    (within : ∀ i, PartVia fields m i → PartOf fields q i) :
    ∃ st' news ws, Settles (fun depth =>
        StructProxy.putField (StructProxy.put depth false) (StructProxy.put_cache depth) st m) st' ∧
      Uploads good (some q) st st' news ws ∧ ∀ i, PartVia fields m i → (st'.pointers i).cache = none := by
  obtain ⟨name, value⟩ := m
  cases hidden : isDunder name with
  | true =>
    refine ⟨st, [], [], ?_, .refl good _ st, fun i via => ?_⟩
    · simp only [StructProxy.putField, hidden, if_true]
      exact .ok st
    · cases hidden.symm.trans via.1
  | false =>
    simp only [StructProxy.putField, hidden, Bool.false_eq_true, if_false]
    cases value with
    | ptr i =>
      have part : PartOf fields q i := within i ⟨hidden, .inl rfl⟩
      obtain ⟨st', news, ws, ran, up, none⟩ := putPointer_settles puts link same le goodq part
      refine ⟨st', news, ws, ran, up, fun j via => ?_⟩
      rw [partVia_ptr via]
      exact none
    | dataclass o' =>
      obtain ⟨st', news, ws, ran, up, none⟩ := caches o' st rfl hidden link same le
      exact ⟨st', news, ws, ran, up, fun j via => none j (partVia_dataclass via)⟩
    | list _ => exact ⟨st, [], [], .ok st, .refl good _ st, fun i via => absurd via not_partVia_list⟩
    | leaf _ => exact ⟨st, [], [], .ok st, .refl good _ st, fun i via => absurd via not_partVia_leaf⟩

/-- A part of the loop of `put_cache`. -/
lemma putFields_settles {l : List (String × FieldValue)}
    (each : ∀ m ∈ l, ∀ st, Linked good st → st.fields = fields → st.pending.ncard ≤ n →
      ∃ st' news ws, Settles (fun depth =>
          StructProxy.putField (StructProxy.put depth false) (StructProxy.put_cache depth) st m) st' ∧
        Uploads good (some q) st st' news ws ∧ ∀ i, PartVia fields m i → (st'.pointers i).cache = none)
    (link : Linked good st) (same : st.fields = fields) (le : st.pending.ncard ≤ n) :
    ∃ st' news ws, Settles (fun depth => l.foldlM
          (StructProxy.putField (StructProxy.put depth false) (StructProxy.put_cache depth)) st) st' ∧
      Uploads good (some q) st st' news ws ∧
      ∀ m ∈ l, ∀ i, PartVia fields m i → (st'.pointers i).cache = none := by
  induction l generalizing st with
  | nil => exact ⟨st, [], [], .ok st, .refl good _ st, fun _ => nofun⟩
  | cons m l ih =>
    obtain ⟨st1, news1, ws1, first, up1, none1⟩ := each m (.head _) st link same le
    have le1 : st1.pending.ncard ≤ n := (Set.ncard_le_ncard up1.pending link.finite).trans le
    obtain ⟨st2, news2, ws2, rest, up2, none2⟩ :=
      ih (fun m mem => each m (.tail _ mem)) (link.uploads up1) (up1.fields.trans same) le1
    refine ⟨st2, _, _, first.bind rest, up1.trans up2, fun m' mem i via => ?_⟩
    obtain e | mem := List.mem_cons.1 mem
    · rw [e] at via
      have none := none1 i via
      rw [up2.settled none]
      exact none
    · exact none2 m' mem i via

/-- `put_cache` of the owner, or of a dataclass nested in it. -/
lemma put_cache_settles (puts : PutsBelow good fields n) (nested : WellFounded (Nests fields))
    (goodq : good q) (link : Linked good st) (same : st.fields = fields) (le : st.pending.ncard ≤ n)
    (within : ∀ i, PartOf fields o i → PartOf fields q i) :
    ∃ st' news ws, Settles (fun depth => StructProxy.put_cache depth o st) st' ∧
      Uploads good (some q) st st' news ws ∧ ∀ i, PartOf fields o i → (st'.pointers i).cache = none := by
  induction o using nested.induction generalizing st with
  | _ o ih =>
    have each : ∀ m ∈ fields o, ∀ st, Linked good st → st.fields = fields → st.pending.ncard ≤ n →
        ∃ st' news ws, Settles (fun depth =>
            StructProxy.putField (StructProxy.put depth false) (StructProxy.put_cache depth) st m) st' ∧
          Uploads good (some q) st st' news ws ∧
          ∀ i, PartVia fields m i → (st'.pointers i).cache = none := by
      intro m mem st link same le
      refine putField_settles puts (fun o' st e visible link same le => ?_) link same le goodq
        fun i via => within i ((partOf_iff fields).2 ⟨m, mem, via⟩)
      obtain ⟨name, value⟩ := m
      cases e
      have nests : Nests fields o' o := ⟨name, mem, visible⟩
      exact ih o' nests link same le fun i part => within i (.nested nests part)
    obtain ⟨st', news, ws, ran, up, none⟩ := putFields_settles each link same le
    refine ⟨st', news, ws, ?_, up, fun i part => ?_⟩
    · refine ran.call fun depth => ?_
      rw [StructProxy.put_cache]
      exact congrArg (fun l => List.foldlM _ st l) (congrFun same o)
    · obtain ⟨m, mem, via⟩ := (partOf_iff fields).1 part
      exact none m mem i via

end Bounded

/-- Every upload settles: by induction on the number of caches, each of which is cleared before it is
followed. -/
lemma put_settles {fields : ObjId → List (String × FieldValue)} (nested : WellFounded (Nests fields))
    (n : Nat) : PutsBelow good fields n := by
  induction n with
  | zero => exact fun _ _ _ _ lt => absurd lt (Nat.not_lt_zero _)
  | succ n ih =>
    intro st o link same lt goodo
    obtain ⟨news, start⟩ := Uploads.allocate good st o
    have le : (st.allocate o).pending.ncard ≤ n :=
      (Set.ncard_le_ncard start.pending link.finite).trans (Nat.le_of_lt_succ lt)
    obtain ⟨st1, news1, ws, ran, up, finished⟩ := put_cache_settles ih nested goodo
      (link.uploads start) (start.fields.trans same) le fun _ part => part
    have whole := start.trans up
    have there : (st1.objects o).ptr.isSome := (up.given o).2 (.inl (allocate_ptr st o))
    obtain ⟨p, address⟩ := Option.isSome_iff_exists.1 there
    obtain ⟨st2, e⟩ : ∃ st2, st1.setStruct o = .ok st2 := by
      rw [StructProxy.setStruct]
      simp only [address]
      exact ⟨_, rfl⟩
    rw [← same] at finished
    obtain ⟨w, wrote, closed⟩ := whole.close goodo finished e
    refine ⟨st2, _, _, ?_, closed, w, by simp, wrote⟩
    have body : Settles (fun depth => StructProxy.put_cache depth o (st.allocate o) >>= fun st =>
        st.setStruct o) st2 := by
      refine ran.bind ?_
      rw [e]
      exact .ok st2
    refine body.call fun depth => ?_
    rw [StructProxy.put]
    simp only [Bool.false_eq_true, if_false]

/-! ### What an upload does -/

/-- Registered objects have an address, there are finitely many caches, dataclasses are nested finitely deep,
and of the objects that the upload reaches no two have a part in a pointer whose cache it follows. -/
structure Uploadable (st : StructProxy) (root : ObjId) : Prop where
  address : ∀ o, (st.reverseObjectMap o).isSome → (st.objects o).ptr.isSome
  finite : st.pending.Finite
  nested : WellFounded (Nests st.fields)
  owned : ∀ o o' i new, Reached st root o → Reached st root o' → Follows st o i new →
    PartOf st.fields o' i → o' = o

/-- The cache of a pointer is gone, and became the address of its target with the offset. -/
def Resolved (st st' : StructProxy) (i : PtrId) : Prop :=
  (st'.pointers i).cache = none ∧ ∀ new offset, (st.pointers i).cache = some ⟨new, offset⟩ →
    ∃ p, (st'.objects new).ptr = some p ∧ (st'.pointers i).ptr = some (p + offset)

/-- What can be uploaded is linked. -/
lemma Uploadable.linked {root : ObjId} (able : Uploadable st root) :
    Linked (Reached st root) st where
  address := able.address
  finite := able.finite
  closed _ _ _ reached follows := .link reached follows
  owned := able.owned

/-- The caches of a written object are resolved. -/
lemma Uploads.resolved (up : Uploads good owner st st' news ws) {w : Write} (mem : w ∈ ws)
    (part : PartOf st.fields w.object i) : Resolved st st' i := by
  have none := up.done w mem i part
  refine ⟨none, fun new offset cache => ?_⟩
  obtain same | ⟨new', offset', p, cache', address, e, _⟩ := up.pointers i
  · rw [same, cache] at none
    cases none
  · cases cache.symm.trans cache'
    exact ⟨p, address, by rw [e]⟩

/-- What an upload reaches, it writes. -/
lemma Uploads.reaches {root : ObjId} (up : Uploads good none st st' news ws)
    (start : ∃ w ∈ ws, w.object = root) (reached : Reached st root o) : ∃ w ∈ ws, w.object = o := by
  induction reached with
  | root => exact start
  | @link o i new _ follows ih =>
    obtain ⟨w, mem, rfl⟩ := ih
    obtain ⟨part, ⟨offset, cache⟩, none⟩ := follows
    have done := up.done w mem i part
    obtain same | ⟨new', offset', p, cache', _, _, target⟩ := up.pointers i
    · rw [same, cache] at done
      cases done
    · cases cache.symm.trans cache'
      obtain known | within := target
      · rw [none] at known
        cases known
      · exact within.resolve_left nofun

/-- `put` returns. It allocates the reached objects without an address, each once and none that is
registered. The caches of everything that it reached are resolved then, and what was last written for each
of these objects has the resolved pointers. -/
theorem put_uploads {st : StructProxy} {root : ObjId} (able : Uploadable st root) :
    ∃ st' news, Settles (fun depth => StructProxy.put depth false root st) st' ∧
      st'.fields = st.fields ∧ st'.allocs = st.allocs ++ news ∧ news.Nodup ∧
      (∀ o, o ∈ news ↔ Reached st root o ∧ (st.objects o).ptr = none) ∧
      (∀ o ∈ news, st.reverseObjectMap o = none) ∧
      ∀ o, Reached st root o → (∀ i, PartOf st.fields o i → Resolved st st' i) ∧ Current st' o := by
  obtain ⟨st', news, ws, ran, up, start⟩ := put_settles able.nested (st.pending.ncard + 1) st root
    able.linked rfl (Nat.lt_succ_self _) .root
  refine ⟨st', news, ran, up.fields, up.allocs, up.once, fun o => ⟨fun mem => ?_, ?_⟩, fun o mem => ?_,
    fun o reached => ?_⟩
  · obtain ⟨w, written, rfl⟩ := (up.put o mem).resolve_left nofun
    exact ⟨up.good w written, up.fresh _ mem⟩
  · rintro ⟨reached, none⟩
    obtain ⟨w, written, rfl⟩ := up.reaches start reached
    obtain ⟨_, _, _, address, _⟩ := up.current w written nofun
    have there : (st'.objects w.object).ptr.isSome := by
      rw [address]
      rfl
    refine ((up.given w.object).1 there).resolve_left fun before => ?_
    rw [none] at before
    cases before
  · by_contra known
    have there := able.address o (Option.isSome_iff_ne_none.2 known)
    rw [up.fresh o mem] at there
    cases there
  · obtain ⟨w, written, rfl⟩ := up.reaches start reached
    exact ⟨fun i part => up.resolved written part, up.current w written nofun⟩

/-- Two threads in a list: 2 and 3 with the nodes 0 and 1, where `next` of the first and `prev` of the
second node have a cache. -/
def threadList : StructProxy where
  objects
    | 0 => ⟨"_dnode", none, [("next", .ptr 0), ("prev", .ptr 1)], none⟩
    | 1 => ⟨"_dnode", none, [("next", .ptr 2), ("prev", .ptr 3)], none⟩
    | 2 => ⟨"k_thread", none, [("list", .dataclass 0)], none⟩
    | 3 => ⟨"k_thread", none, [("list", .dataclass 1)], none⟩
    | _ => ⟨"", none, [], none⟩
  pointers
    | 0 => ⟨"_dnode", none, some ⟨3, 8⟩⟩
    | 3 => ⟨"_dnode", none, some ⟨2, 8⟩⟩
    | _ => ⟨"_dnode", some 0, none⟩
  objectMap := fun _ => none
  reverseObjectMap := fun _ => none
  answers := fun k => 0x50000000 + 24 * k
  allocs := []
  writes := []

/-- Each thread contains its list node. -/
lemma threadList_nests (nests : Nests threadList.fields o' o) : o = o' + 2 := by
  obtain ⟨name, mem, _⟩ := nests
  rw [StructProxy.fields] at mem
  obtain _ | _ | _ | _ | o := o <;> simp_all [threadList]

/-- The pointers of a thread are those of its node. -/
lemma threadList_part (part : PartOf threadList.fields o i) : i / 2 = o % 2 := by
  induction part with
  | @own o name i mem _ =>
    rw [StructProxy.fields] at mem
    obtain _ | _ | _ | _ | o := o <;> simp [threadList] at mem
    all_goals
      obtain ⟨_, rfl⟩ | ⟨_, rfl⟩ := mem <;> rfl
  | nested nests _ ih =>
    rw [threadList_nests nests, Nat.add_mod_right]
    exact ih

/-- The caches lead to the objects of the list. -/
lemma threadList_cache (cache : (threadList.pointers i).cache = some ⟨new, offset⟩) :
    (i = 0 ∨ i = 3) ∧ (new = 2 ∨ new = 3) := by
  obtain _ | _ | _ | _ | i := i <;> simp_all [threadList]

/-- Only the two threads are reached. -/
lemma threadList_reached (reached : Reached threadList 2 o) : o = 2 ∨ o = 3 := by
  induction reached with
  | root => exact .inl rfl
  | link _ follows _ =>
    obtain ⟨_, ⟨offset, cache⟩, _⟩ := follows
    exact (threadList_cache cache).2

/-- The list can be uploaded. -/
lemma threadList_uploadable : Uploadable threadList 2 where
  address _ := nofun
  finite := by
    refine Set.Finite.subset (Set.toFinite {0, 3}) fun i there => ?_
    obtain ⟨⟨new, offset⟩, cache⟩ := Option.isSome_iff_exists.1 there
    exact (threadList_cache cache).1
  nested := by
    refine Subrelation.wf (fun {o' o} nests => ?_) Nat.lt_wfRel.wf
    rw [threadList_nests nests]
    exact Nat.lt_add_of_pos_right Nat.two_pos
  owned o o' i new reached reached' follows part := by
    have same := (threadList_part part).symm.trans (threadList_part follows.1)
    obtain rfl | rfl := threadList_reached reached <;> obtain rfl | rfl := threadList_reached reached'
    · rfl
    · cases same
    · cases same
    · rfl

/-- An upload of the first thread uploads both. -/
theorem put_uploads_threadList : ∃ st', Settles (fun depth => StructProxy.put depth false 2 threadList) st' ∧
    Current st' 2 ∧ Current st' 3 ∧ Resolved threadList st' 0 ∧ Resolved threadList st' 3 := by
  obtain ⟨st', news, ran, _, _, _, _, _, uploaded⟩ := put_uploads threadList_uploadable
  have link : Follows threadList 2 0 3 :=
    ⟨.nested ⟨"list", .head _, rfl⟩ (.own (.head _) rfl), ⟨8, rfl⟩, rfl⟩
  have second : Reached threadList 2 3 := .link .root link
  have last : PartOf threadList.fields 3 3 :=
    .nested ⟨"list", .head _, rfl⟩ (.own (.tail _ (.head _)) rfl)
  exact ⟨st', ran, (uploaded 2 .root).2, (uploaded 3 second).2, (uploaded 2 .root).1 0 link.1,
    (uploaded 3 second).1 3 last⟩

/-- A node 0 with a list 1 in it, whose head has a cache that leads to the list itself. -/
def listHead : StructProxy where
  objects
    | 0 => ⟨"node", none, [("list", .dataclass 1)], none⟩
    | 1 => ⟨"list", none, [("head", .ptr 0)], none⟩
    | _ => ⟨"", none, [], none⟩
  pointers
    | 0 => ⟨"list", none, some ⟨1, 0⟩⟩
    | _ => ⟨"list", some 0, none⟩
  objectMap := fun _ => none
  reverseObjectMap := fun _ => none
  answers := fun k => 0x50000000 + 8 * k
  allocs := []
  writes := []

/-- The proxy after `put` of the node. -/
def afterListHead : StructProxy :=
  match StructProxy.put 5 false 0 listHead with
  | .ok st => st
  | .error _ => listHead

/-- The list is uploaded as an object of its own. Its head gets its address, but what was last written for
the list is the head without. -/
theorem list_head_stale : Settles (fun depth => StructProxy.put depth false 0 listHead) afterListHead ∧
    Reached listHead 0 1 ∧ afterListHead.allocs = [0, 1] ∧ PartOf afterListHead.fields 1 0 ∧
      (afterListHead.pointers 0).ptr = some 0x50000008 ∧
        (afterListHead.lastWrite 1).map (fun w => (w.pointers 0).ptr) = some none := by
  refine ⟨⟨5, fun depth le => ?_⟩, ?_, rfl, .own (.head _) rfl, rfl, rfl⟩
  · obtain ⟨k, rfl⟩ := Nat.exists_eq_add_of_le' le
    rfl
  · exact .link .root ⟨.nested ⟨"list", .head _, rfl⟩ (.own (.head _) rfl), ⟨0, rfl⟩, rfl⟩

end Irx.Python
