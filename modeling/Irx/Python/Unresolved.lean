import Irx.Basic
import Irx.Python.Upload

/-!
# Pointers that an upload leaves alone

`put_cache` goes through the fields of an object and of the dataclasses nested in it, but not through lists,
which `set_struct` writes too. `Walk` says of every call of `put` that returned which caches it resolved:
those of the objects that it put. So an upload leaves the caches that are in lists only
(`put_resolves_iff`).
-/

namespace Irx.Python
open Irx.Lib

/-- The pointer is in the value: it is the value, or is in a field of the dataclass or in an item of the list,
at any depth. -/
inductive Inside (fields : ObjId → List (String × FieldValue)) : FieldValue → PtrId → Prop where
  | ptr i : Inside fields (.ptr i) i
  | field {o name value i} : (name, value) ∈ fields o → isDunder name = false → Inside fields value i →
    Inside fields (.dataclass o) i
  | item {items value i} : value ∈ items → Inside fields value i → Inside fields (.list items) i

/-- The objects whose caches `put` may follow from the beginning: its own, and with `deep` those that the map
holds. -/
def Root (st : StructProxy) (deep : Bool) (o root : ObjId) : Prop :=
  root = o ∨ deep = true ∧ ∃ p, st.objectMap p = some root

/-- The objects that are put. -/
def Uploaded (st : StructProxy) (deep : Bool) (o o' : ObjId) : Prop :=
  ∃ root, Root st deep o root ∧ Reached st root o'

/-- Every pointer inside the object that has a cache is also, outside lists, in an object that is put. -/
def Covered (st : StructProxy) (deep : Bool) (o : ObjId) : Prop :=
  ∀ i ∈ st.pending, Inside st.fields (.dataclass o) i → ∃ o', Uploaded st deep o o' ∧ PartOf st.fields o' i

/-- All caches inside the object are gone, each pointer that had one has the address of its target with the
offset, and what was last written for the object, at its address, has these pointers. -/
def AllResolved (st st' : StructProxy) (o : ObjId) : Prop :=
  ∃ w, st'.lastWrite o = some w ∧ (st'.objects o).ptr = some w.address ∧
    ∀ i, Inside st.fields (.dataclass o) i → Resolved st st' i ∧ w.pointers i = st'.pointers i

/-- The good objects are closed under the caches that lead to an object that the proxy does not know. -/
def Closed (good : ObjId → Prop) (st : StructProxy) : Prop :=
  ∀ o i new, good o → Follows st o i new → good new

/-- The object is the one whose `put` is going on, or was put. -/
def Among (owner : Option ObjId) (visited : List ObjId) (o : ObjId) : Prop :=
  some o = owner ∨ o ∈ visited

/-- What calls of `put` for good objects do that returned, while that of the owner is going on. -/
structure Walk (good : ObjId → Prop) (owner : Option ObjId) (st st' : StructProxy)
    (visited : List ObjId) : Prop where
  fields : st'.fields = st.fields
  keeps : ∀ o p, (st.objects o).ptr = some p → (st'.objects o).ptr = some p
  known : ∀ o, (st.reverseObjectMap o).isSome → (st'.reverseObjectMap o).isSome
  registered : ∀ o, (st'.reverseObjectMap o).isSome →
    (st.reverseObjectMap o).isSome ∨ Among owner visited o
  map : ∀ p o, st'.objectMap p = some o → st.objectMap p = some o ∨ Among owner visited o
  within : ∀ o ∈ visited, good o
  pointers : ∀ i, st'.pointers i = st.pointers i ∨
    ∃ new offset p, (st.pointers i).cache = some ⟨new, offset⟩ ∧ (st'.objects new).ptr = some p ∧
      st'.pointers i = { st.pointers i with ptr := some (p + offset), cache := none } ∧
      ((st.reverseObjectMap new).isSome ∨ Among owner visited new) ∧
      ∃ o, good o ∧ PartOf st.fields o i
  done : ∀ o ∈ visited, ∀ i, PartOf st.fields o i → (st'.pointers i).cache = none

variable {good : ObjId → Prop} {owner : Option ObjId} {st st1 st2 st' : StructProxy} {depth : Nat}
  {visited visited1 visited2 : List ObjId} {o q new : ObjId} {i : PtrId} {p offset : ℤ} {deep : Bool}

/-- More may be visited after. -/
lemma Among.append (among : Among owner visited1 o) (visited2 : List ObjId) :
    Among owner (visited1 ++ visited2) o := among.imp_right (List.mem_append_left _)

/-- More may be visited before. -/
lemma Among.append_right (visited1 : List ObjId) (among : Among owner visited2 o) :
    Among owner (visited1 ++ visited2) o := among.imp_right (List.mem_append_right _)

namespace Walk

/-- Nothing was visited. -/
lemma refl (good : ObjId → Prop) (owner : Option ObjId) (st : StructProxy) :
    Walk good owner st st [] where
  fields := rfl
  keeps _ _ := id
  known _ := id
  registered _ := .inl
  map _ _ := .inl
  within := List.forall_mem_nil _
  pointers _ := .inl rfl
  done := List.forall_mem_nil _

/-- A pointer without a cache is left alone. -/
lemma settled (walk : Walk good owner st st' visited) (none : (st.pointers i).cache = none) :
    st'.pointers i = st.pointers i := by
  obtain same | ⟨new, offset, p, cache, _⟩ := walk.pointers i
  · exact same
  · cases none.symm.trans cache

/-- A cache that is still there was there before. -/
lemma cache_before (walk : Walk good owner st st' visited) {target : ObjectOffset}
    (cache : (st'.pointers i).cache = some target) : (st.pointers i).cache = some target := by
  obtain same | ⟨new, offset, p, _, _, e, _⟩ := walk.pointers i
  · rw [← same]
    exact cache
  · rw [e] at cache
    cases cache

/-- After a walk, caches still lead from good objects to good ones. -/
lemma closed (walk : Walk good owner st st' visited) (closed : Closed good st) : Closed good st' := by
  intro o i new goodo follows
  obtain ⟨part, ⟨offset, cache⟩, none⟩ := follows
  refine closed o i new goodo ⟨walk.fields ▸ part, ⟨offset, walk.cache_before cache⟩, ?_⟩
  by_contra there
  have now := walk.known new (Option.isSome_iff_ne_none.2 there)
  rw [none] at now
  cases now

/-- Two walks, one after the other. -/
lemma trans (first : Walk good owner st st1 visited1) (second : Walk good owner st1 st2 visited2) :
    Walk good owner st st2 (visited1 ++ visited2) where
  fields := second.fields.trans first.fields
  keeps o p e := second.keeps o p (first.keeps o p e)
  known o e := second.known o (first.known o e)
  registered o e := by
    obtain before | among := second.registered o e
    · exact (first.registered o before).imp_right fun among => among.append visited2
    · exact .inr (among.append_right visited1)
  map p o e := by
    obtain before | among := second.map p o e
    · exact (first.map p o before).imp_right fun among => among.append visited2
    · exact .inr (among.append_right visited1)
  within o mem := (List.mem_append.1 mem).elim (first.within o) (second.within o)
  pointers i := by
    obtain same | ⟨new, offset, p, cache, address, e, target, part⟩ := second.pointers i
    · rw [same]
      refine (first.pointers i).imp_right ?_
      rintro ⟨new, offset, p, cache, address, e, target, part⟩
      refine ⟨new, offset, p, cache, second.keeps _ _ address, e, target.imp_right ?_, part⟩
      exact fun among => among.append visited2
    · have before := first.cache_before cache
      have same : st1.pointers i = st.pointers i := by
        obtain same | ⟨_, _, _, _, _, e, _⟩ := first.pointers i
        · exact same
        · rw [e] at cache
          cases cache
      refine .inr ⟨new, offset, p, before, address, by rw [e, same], ?_, by rwa [← first.fields]⟩
      obtain registered | among := target
      · exact (first.registered new registered).imp_right fun among => among.append visited2
      · exact .inr (among.append_right visited1)
  done o mem i part := by
    obtain one | two := List.mem_append.1 mem
    · have none := first.done o one i part
      rw [second.settled none]
      exact none
    · exact second.done o two i (first.fields ▸ part)

/-- The objects that were put are put while that of the owner is going on. -/
lemma owned (walk : Walk good none st st' visited) (o : ObjId) : Walk good (some o) st st' visited := by
  have among : ∀ o', Among none visited o' → Among (some o) visited o' :=
    fun o' among => .inr (among.resolve_left (Option.some_ne_none o'))
  refine ⟨walk.fields, walk.keeps, walk.known, fun o' there => ?_, fun p o' there => ?_, walk.within,
    fun i => ?_, walk.done⟩
  · exact (walk.registered o' there).imp_right (among o')
  · exact (walk.map p o' there).imp_right (among o')
  · refine (walk.pointers i).imp_right ?_
    rintro ⟨new, offset, p, cache, there, e, target, part⟩
    exact ⟨new, offset, p, cache, there, e, target.imp_right (among new), part⟩

/-- An object without an address gets one. -/
lemma allocate (good : ObjId → Prop) (st : StructProxy) (o : ObjId) :
    Walk good (some o) st (st.allocate o) [] := by
  have same := allocate_same st o
  have fields := allocate_fields st o
  cases address : (st.objects o).ptr with
  | some p =>
    rw [StructProxy.allocate_of_some address]
    exact .refl good _ st
  | none =>
    rw [StructProxy.allocate_of_none address] at same fields ⊢
    refine ⟨fields, fun o' => (same o').2.2, ?known, ?registered, ?map, List.forall_mem_nil _,
      fun _ => .inl rfl, List.forall_mem_nil _⟩
    case known =>
      intro o' there
      by_cases same : o' = o
      · subst same
        simp
      · simpa [StructProxy.register_reverseObjectMap_of_ne same] using there
    case registered =>
      intro o' there
      by_cases same : o' = o
      · exact .inr (.inl (congrArg some same))
      · exact .inl (by simpa [StructProxy.register_reverseObjectMap_of_ne same] using there)
    case map =>
      intro p o' there
      by_cases here : p = st.answers 0
      · subst here
        cases StructProxy.register_objectMap_self.symm.trans there
        exact .inr (.inl rfl)
      · rw [StructProxy.register_objectMap_of_ne here] at there
        exact .inl there

/-- The owner was put when all its pointers are settled, with the exchange at the end. -/
lemma close (walk : Walk good (some o) st st1 visited) (goodo : good o)
    (finished : ∀ i, PartOf st.fields o i → (st1.pointers i).cache = none)
    (e : st1.setStruct o = .ok st2) : Walk good none st st2 (visited ++ [o]) := by
  have fields := setStruct_fields e
  have ptr : ∀ o', (st2.objects o').ptr = (st1.objects o').ptr := fun o' => (setStruct_same e o').2.1
  have maps : st2.objectMap = st1.objectMap ∧ st2.reverseObjectMap = st1.reverseObjectMap ∧
      st2.pointers = st1.pointers := by
    obtain ⟨p, _, rfl⟩ := StructProxy.setStruct_eq_ok e
    exact ⟨rfl, rfl, rfl⟩
  obtain ⟨map, reverse, pointers⟩ := maps
  have among : ∀ o', Among (some o) visited o' → Among none (visited ++ [o]) o' := by
    rintro o' (same | mem)
    · exact .inr (List.mem_append_right _ (List.mem_singleton.2 (Option.some.inj same)))
    · exact .inr (List.mem_append_left _ mem)
  refine ⟨fields.trans walk.fields, ?keeps, ?known, ?registered, ?map, ?within, ?pointers, ?done⟩
  case keeps =>
    intro o' p there
    rw [ptr]
    exact walk.keeps o' p there
  case known =>
    intro o' there
    rw [reverse]
    exact walk.known o' there
  case registered =>
    intro o' there
    rw [reverse] at there
    exact (walk.registered o' there).imp_right (among o')
  case map =>
    intro p o' there
    rw [map] at there
    exact (walk.map p o' there).imp_right (among o')
  case within =>
    intro o' mem
    obtain mem | mem := List.mem_append.1 mem
    · exact walk.within o' mem
    · rw [List.mem_singleton.1 mem]
      exact goodo
  case pointers =>
    intro i
    rw [pointers]
    refine (walk.pointers i).imp_right ?_
    rintro ⟨new, offset, p, cache, there, e, target, part⟩
    exact ⟨new, offset, p, cache, (ptr new).trans there, e, target.imp_right (among new), part⟩
  case done =>
    intro o' mem i part
    rw [pointers]
    obtain mem | mem := List.mem_append.1 mem
    · exact walk.done o' mem i part
    · rw [List.mem_singleton.1 mem] at part
      exact finished i part

/-- A cache is cleared, its target put if need be, and the address taken over. -/
lemma resolve (cache : (st.pointers i).cache = some ⟨new, offset⟩)
    (walk : Walk good none (st.setPointer i { st.pointers i with cache := none }) st1 visited)
    (address : (st1.objects new).ptr = some p)
    (target : (st.reverseObjectMap new).isSome ∨ new ∈ visited) (goodq : good q)
    (part : PartOf st.fields q i) : Walk good (some q) st
      (st1.setPointer i { st1.pointers i with ptr := some (p + offset) }) visited := by
  have cleared : st1.pointers i = { st.pointers i with cache := none } := by
    rw [walk.settled (by simp)]
    simp
  refine ⟨walk.fields, walk.keeps, walk.known, ?registered, ?map, walk.within, ?pointers, ?done⟩
  case registered =>
    intro o there
    exact (walk.registered o there).imp_right fun among => .inr (among.resolve_left nofun)
  case map =>
    intro p o there
    exact (walk.map p o there).imp_right fun among => .inr (among.resolve_left nofun)
  case pointers =>
    intro j
    by_cases same : j = i
    · subst same
      refine .inr ⟨new, offset, p, cache, address, ?_, target.imp_right .inr, q, goodq, part⟩
      rw [StructProxy.setPointer_self, cleared]
    · rw [StructProxy.setPointer_of_ne same]
      refine (walk.pointers j).imp (fun e => ?_) ?_
      · rw [e, StructProxy.setPointer_of_ne same]
      · rw [StructProxy.setPointer_of_ne same]
        rintro ⟨new, offset, p, cache, address, e, target, part⟩
        refine ⟨new, offset, p, cache, address, e, target.imp_right fun among => ?_, part⟩
        exact .inr (among.resolve_left nofun)
  case done =>
    intro o mem j part
    by_cases same : j = i
    · subst same
      rw [StructProxy.setPointer_self, cleared]
    · rw [StructProxy.setPointer_of_ne same]
      exact walk.done o mem j part

end Walk

/-! ### Calls that returned -/

section Calls

variable {put : ObjId → StructProxy → Except ProxyError StructProxy}

/-- What a call of `put` for a good object does when it returns. -/
def PutWalks (good : ObjId → Prop) (put : ObjId → StructProxy → Except ProxyError StructProxy) : Prop :=
  ∀ o st st', Closed good st → good o → put o st = .ok st' →
    ∃ visited, o ∈ visited ∧ Walk good none st st' visited

/-- Following one pointer is a walk. -/
lemma putPointer_walk (puts : PutWalks good put) (closed : Closed good st) (goodq : good q)
    (part : PartOf st.fields q i) (e : StructProxy.putPointer put i st = .ok st') :
    ∃ visited, Walk good (some q) st st' visited ∧ (st'.pointers i).cache = none := by
  rw [StructProxy.putPointer] at e
  cases cache : (st.pointers i).cache with
  | none =>
    simp only [cache] at e
    cases e
    exact ⟨[], .refl good _ st, cache⟩
  | some target =>
    obtain ⟨new, offset⟩ := target
    simp only [cache] at e
    obtain ⟨st1, ran, last⟩ := bind_eq_ok.1 e
    set stc := st.setPointer i { st.pointers i with cache := none } with hstc
    -- the target is known, or is put
    have first : ∃ visited, Walk good none stc st1 visited ∧
        ((st.reverseObjectMap new).isSome ∨ new ∈ visited) := by
      rw [StructProxy.putNew] at ran
      split at ran
      case isTrue unknown =>
        have none : st.reverseObjectMap new = .none := Option.isNone_iff_eq_none.1 unknown
        have next := closed q i new goodq ⟨part, ⟨offset, cache⟩, none⟩
        have closedc : Closed good stc :=
          fun o j new goodo follows => closed o j new goodo follows.of_cleared
        obtain ⟨visited, mem, walk⟩ := puts new stc st1 closedc next ran
        exact ⟨visited, walk, .inr mem⟩
      case isFalse known =>
        rw [← Except.ok.inj ran]
        refine ⟨[], .refl good _ stc, .inl ?_⟩
        exact Option.isSome_iff_ne_none.2 fun none => known (Option.isNone_iff_eq_none.2 none)
    obtain ⟨visited, walk, target⟩ := first
    cases address : (st1.objects new).ptr with
    | none =>
      simp only [address] at last
      cases last
    | some p =>
      simp only [address] at last
      cases last
      refine ⟨visited, walk.resolve cache address target goodq part, ?_⟩
      rw [StructProxy.setPointer_self]
      have cleared := walk.settled (i := i) (by simp [hstc])
      show (st1.pointers i).cache = none
      rw [cleared]
      simp [hstc]

/-- A field, where the dataclasses nested in the object are gone through. -/
lemma putField_walk {put_cache : ObjId → StructProxy → Except ProxyError StructProxy}
    (puts : PutWalks good put) {m : String × FieldValue}
    (caches : ∀ o' st st', Closed good st → (∀ i, PartOf st.fields o' i → PartOf st.fields q i) →
      put_cache o' st = .ok st' → ∃ visited, Walk good (some q) st st' visited ∧
        ∀ i, PartOf st.fields o' i → (st'.pointers i).cache = none)
    (closed : Closed good st) (goodq : good q)
    (within : ∀ i, PartVia st.fields m i → PartOf st.fields q i)
    (e : StructProxy.putField put put_cache st m = .ok st') :
    ∃ visited, Walk good (some q) st st' visited ∧
      ∀ i, PartVia st.fields m i → (st'.pointers i).cache = none := by
  obtain ⟨name, value⟩ := m
  rw [StructProxy.putField] at e
  cases hidden : isDunder name with
  | true =>
    simp only [hidden, if_true] at e
    cases e
    refine ⟨[], .refl good _ st, fun i via => ?_⟩
    cases hidden.symm.trans via.1
  | false =>
    simp only [hidden, Bool.false_eq_true, if_false] at e
    cases value with
    | ptr i =>
      obtain ⟨visited, walk, none⟩ := putPointer_walk puts closed goodq (within i ⟨hidden, .inl rfl⟩) e
      refine ⟨visited, walk, fun j via => ?_⟩
      rw [partVia_ptr via]
      exact none
    | dataclass o' =>
      obtain ⟨visited, walk, none⟩ :=
        caches o' st st' closed (fun i part => within i ⟨hidden, .inr ⟨o', rfl, part⟩⟩) e
      exact ⟨visited, walk, fun j via => none j (partVia_dataclass via)⟩
    | list =>
      cases e
      exact ⟨[], .refl good _ st, fun i via => absurd via not_partVia_list⟩
    | leaf =>
      cases e
      exact ⟨[], .refl good _ st, fun i via => absurd via not_partVia_leaf⟩

/-- The loop over fields. -/
lemma putFields_walk {put_cache : ObjId → StructProxy → Except ProxyError StructProxy}
    {fields : ObjId → List (String × FieldValue)} {l : List (String × FieldValue)}
    (each : ∀ m ∈ l, ∀ st st', st.fields = fields → Closed good st →
      StructProxy.putField put put_cache st m = .ok st' → ∃ visited, Walk good (some q) st st' visited ∧
        ∀ i, PartVia fields m i → (st'.pointers i).cache = none)
    (same : st.fields = fields) (closed : Closed good st)
    (e : l.foldlM (StructProxy.putField put put_cache) st = .ok st') :
    ∃ visited, Walk good (some q) st st' visited ∧
      ∀ m ∈ l, ∀ i, PartVia fields m i → (st'.pointers i).cache = none := by
  induction l generalizing st with
  | nil =>
    cases e
    exact ⟨[], .refl good _ _, List.forall_mem_nil _⟩
  | cons m l ih =>
    rw [List.foldlM_cons] at e
    obtain ⟨st1, first, rest⟩ := bind_eq_ok.1 e
    obtain ⟨visited1, walk1, none1⟩ := each m (.head _) st st1 same closed first
    obtain ⟨visited2, walk2, none2⟩ := ih (fun m mem => each m (.tail _ mem))
      (walk1.fields.trans same) (walk1.closed closed) rest
    refine ⟨_, walk1.trans walk2, List.forall_mem_cons.2 ⟨fun i via => ?_, none2⟩⟩
    have none := none1 i via
    rw [walk2.settled none]
    exact none

/-- The loop of the `deep` part, where the objects that the map holds are good. -/
lemma putLinks_walk (puts : PutWalks good put) {l : List (String × FieldValue)}
    {s s' : StructProxy × List ℤ} (closed : Closed good s.1) (goodo : good o)
    (map : ∀ p x, s.1.objectMap p = some x → good x)
    (e : l.foldlM (StructProxy.putLinked put) s = .ok s') :
    ∃ visited, Walk good (some o) s.1 s'.1 visited := by
  induction l generalizing s with
  | nil =>
    cases e
    exact ⟨[], .refl good _ _⟩
  | cons m l ih =>
    rw [List.foldlM_cons] at e
    obtain ⟨s1, first, rest⟩ := bind_eq_ok.1 e
    obtain same | ⟨p, linked, there, ran⟩ := StructProxy.putLinked_cases first
    · rw [← same] at closed map ⊢
      exact ih closed map rest
    · obtain ⟨visited1, _, walk1⟩ := puts linked s.1 s1.1 closed (map p linked there) ran
      have walk1 := walk1.owned o
      have map1 : ∀ p x, s1.1.objectMap p = some x → good x := by
        intro p x there
        obtain before | same | mem := walk1.map p x there
        · exact map p x before
        · rw [Option.some.inj same]
          exact goodo
        · exact walk1.within x mem
      obtain ⟨visited2, walk2⟩ := ih (walk1.closed closed) map1 rest
      exact ⟨_, walk1.trans walk2⟩

end Calls

/-- What `put` and `put_cache` do when they return, by induction on the depth of calls. -/
lemma put_walks (good : ObjId → Prop) (depth : Nat) :
    PutWalks good (StructProxy.put depth false) ∧
      ∀ q o st st', Closed good st → good q → (∀ i, PartOf st.fields o i → PartOf st.fields q i) →
        StructProxy.put_cache depth o st = .ok st' → ∃ visited, Walk good (some q) st st' visited ∧
          ∀ i, PartOf st.fields o i → (st'.pointers i).cache = none := by
  induction depth with
  | zero =>
    constructor
    · intro o st st' _ _ e
      cases e
    · intro q o st st' _ _ _ e
      cases e
  | succ depth ih =>
    obtain ⟨puts, caches⟩ := ih
    constructor
    · intro o st st' closed goodo e
      rw [StructProxy.put] at e
      obtain ⟨st1, cached, e⟩ := bind_eq_ok.1 e
      have start := Walk.allocate good st o
      obtain ⟨visited, walk, none⟩ :=
        caches o o _ st1 (start.closed closed) goodo (fun _ part => part) cached
      rw [start.fields] at none
      exact ⟨_, List.mem_append_right _ (List.mem_singleton_self o), (start.trans walk).close goodo none e⟩
    · intro q o st st' closed goodq within e
      rw [StructProxy.put_cache] at e
      have each : ∀ m ∈ st.fields o, ∀ st1 st2, st1.fields = st.fields → Closed good st1 →
          StructProxy.putField (StructProxy.put depth false) (StructProxy.put_cache depth) st1 m =
            .ok st2 → ∃ visited, Walk good (some q) st1 st2 visited ∧
              ∀ i, PartVia st.fields m i → (st2.pointers i).cache = none := by
        intro m mem st1 st2 same closed1 step
        have within1 : ∀ i, PartVia st1.fields m i → PartOf st1.fields q i := by
          rw [same]
          exact fun i via => within i ((partOf_iff st.fields).2 ⟨m, mem, via⟩)
        obtain ⟨visited, walk, none⟩ := putField_walk puts (fun o' st st' closed within e =>
          caches q o' st st' closed goodq within e) closed1 goodq within1 step
        rw [same] at none
        exact ⟨visited, walk, none⟩
      obtain ⟨visited, walk, none⟩ := putFields_walk each rfl closed e
      refine ⟨visited, walk, fun i part => ?_⟩
      obtain ⟨m, mem, via⟩ := (partOf_iff st.fields).1 part
      exact none m mem i via

/-- A call of `put`, with the objects that the map holds if it is deep. -/
lemma put_walk (closed : Closed good st) (goodo : good o)
    (map : deep = true → ∀ p x, st.objectMap p = some x → good x)
    (e : StructProxy.put depth deep o st = .ok st') : ∃ visited, o ∈ visited ∧
      Walk good none st st' visited := by
  cases depth with
  | zero => cases e
  | succ depth =>
    obtain ⟨puts, caches⟩ := put_walks good depth
    rw [StructProxy.put] at e
    obtain ⟨st1, cached, e⟩ := bind_eq_ok.1 e
    have start := Walk.allocate good st o
    obtain ⟨visited1, walk1, none⟩ :=
      caches o o _ st1 (start.closed closed) goodo (fun _ part => part) cached
    have first := start.trans walk1
    rw [start.fields] at none
    cases deep with
    | false =>
      rw [if_neg Bool.false_ne_true] at e
      exact ⟨_, List.mem_append_right _ (List.mem_singleton_self o), first.close goodo none e⟩
    | true =>
      rw [if_pos rfl] at e
      obtain ⟨st2, linked, e⟩ := bind_eq_ok.1 e
      obtain ⟨s, ran, same⟩ := bind_eq_ok.1 linked
      cases same
      have map1 : ∀ p x, st1.objectMap p = some x → good x := by
        intro p x there
        obtain before | same | mem := first.map p x there
        · exact map rfl p x before
        · rw [Option.some.inj same]
          exact goodo
        · exact first.within x mem
      obtain ⟨visited2, walk2⟩ := putLinks_walk puts (first.closed closed) goodo map1 ran
      refine ⟨_, List.mem_append_right _ (List.mem_singleton_self o),
        (first.trans walk2).close goodo (fun i part => ?_) e⟩
      have settled := none i part
      rw [walk2.settled settled]
      exact settled

/-! ### What is resolved -/

/-- What was put is resolved. -/
lemma Walk.resolved (walk : Walk good owner st st' visited) (mem : o ∈ visited)
    (part : PartOf st.fields o i) : Resolved st st' i := by
  have none := walk.done o mem i part
  refine ⟨none, fun new offset cache => ?_⟩
  obtain same | ⟨new', offset', p, cache', address, e, _⟩ := walk.pointers i
  · rw [same, cache] at none
    cases none
  · cases cache.symm.trans cache'
    exact ⟨p, address, by rw [e]⟩

/-- What a call reaches, it puts. -/
lemma Walk.reaches (walk : Walk good none st st' visited) (start : o ∈ visited) {o' : ObjId}
    (reached : Reached st o o') : o' ∈ visited := by
  induction reached with
  | root => exact start
  | @link o i new _ follows ih =>
    obtain ⟨part, ⟨offset, cache⟩, none⟩ := follows
    have done := walk.done o ih i part
    obtain same | ⟨new', offset', p, cache', _, _, target, _⟩ := walk.pointers i
    · rw [same, cache] at done
      cases done
    · cases cache.symm.trans cache'
      obtain known | among := target
      · rw [none] at known
        cases known
      · exact among.resolve_left (Option.some_ne_none new)

/-- The last write of a call is that of its object, with all pointers as they are in the end. -/
lemma put_lastWrite (e : StructProxy.put depth deep o st = .ok st') : ∃ w, st'.lastWrite o = some w ∧
    (st'.objects o).ptr = some w.address ∧ w.pointers = st'.pointers := by
  obtain ⟨st1, written⟩ : ∃ st1 : StructProxy, st1.setStruct o = .ok st' := by
    cases depth with
    | zero => cases e
    | succ depth =>
      rw [StructProxy.put] at e
      obtain ⟨st1, _, e⟩ := bind_eq_ok.1 e
      cases deep with
      | false =>
        rw [if_neg Bool.false_ne_true] at e
        exact ⟨st1, e⟩
      | true =>
        rw [if_pos rfl] at e
        obtain ⟨st2, _, e⟩ := bind_eq_ok.1 e
        exact ⟨st2, e⟩
  have ptr := (setStruct_same written o).2.1
  obtain ⟨p, address, same⟩ := StructProxy.setStruct_eq_ok written
  refine ⟨⟨o, (st1.objects o).cls, p, st1.pointers⟩, ?_, ptr.trans address, ?_⟩
  · exact lastWrite_append_self (w := ⟨o, (st1.objects o).cls, p, st1.pointers⟩) (by rw [same]; rfl)
  · rw [same]
    rfl

/-- From uploaded objects caches lead to uploaded ones. -/
lemma uploaded_closed (st : StructProxy) (deep : Bool) (o : ObjId) : Closed (Uploaded st deep o) st := by
  rintro o' i new ⟨root, start, reached⟩ follows
  exact ⟨root, start, .link reached follows⟩

/-- If the caches that are in lists are also in objects that the call reaches, they are resolved. -/
lemma resolves_of_covered (e : StructProxy.put depth deep o st = .ok st') (covered : Covered st false o) :
    AllResolved st st' o := by
  obtain ⟨w, last, address, pointers⟩ := put_lastWrite e
  have closed : Closed (fun _ => True) st := fun _ _ _ _ _ => trivial
  obtain ⟨visited, start, walk⟩ := put_walk closed trivial (fun _ _ _ _ => trivial) e
  refine ⟨w, last, address, fun i inside => ⟨?_, congrFun pointers i⟩⟩
  cases cache : (st.pointers i).cache with
  | none =>
    have same := walk.settled cache
    refine ⟨by rw [same, cache], fun new offset there => ?_⟩
    cases cache.symm.trans there
  | some target =>
    have pending : i ∈ st.pending := Option.isSome_iff_exists.2 ⟨target, cache⟩
    obtain ⟨o', ⟨root, rfl | ⟨deep, _⟩, reached⟩, part⟩ := covered i pending inside
    · exact walk.resolved (walk.reaches start reached) part
    · cases deep

/-- A call resolves no caches but those in objects that it puts. -/
lemma covered_of_resolves (e : StructProxy.put depth deep o st = .ok st')
    (resolved : AllResolved st st' o) : Covered st deep o := by
  obtain ⟨w, _, _, all⟩ := resolved
  have map : deep = true → ∀ p x, st.objectMap p = some x → Uploaded st deep o x :=
    fun isDeep p x there => ⟨x, .inr ⟨isDeep, p, there⟩, .root⟩
  obtain ⟨visited, _, walk⟩ := put_walk (uploaded_closed st deep o) ⟨o, .inl rfl, .root⟩ map e
  intro i pending inside
  obtain ⟨target, cache⟩ := Option.isSome_iff_exists.1 pending
  have gone := (all i inside).1.1
  obtain same | ⟨_, _, _, _, _, _, _, part⟩ := walk.pointers i
  · rw [same, cache] at gone
    cases gone
  · exact part

/-- When `put` returns, all caches inside the object are resolved if those that are in lists only are also in
objects that it puts; and only then, where a deep call may also put the objects that the map holds. -/
theorem put_resolves_iff (e : StructProxy.put depth deep o st = .ok st') :
    (deep = false → (AllResolved st st' o ↔ Covered st false o)) ∧
      (deep = true → (Covered st false o → AllResolved st st' o) ∧
        (AllResolved st st' o → Covered st true o)) := by
  constructor
  · rintro rfl
    exact ⟨covered_of_resolves e, resolves_of_covered e⟩
  · rintro rfl
    exact ⟨resolves_of_covered e, covered_of_resolves e⟩

/-- Where there are no lists, a pointer inside an object is a part of it. -/
lemma partOf_of_inside {fields : ObjId → List (String × FieldValue)} {value : FieldValue}
    (flat : ∀ o name items, (name, .list items) ∉ fields o) (inside : Inside fields value i) :
    value = .ptr i ∨ (∃ o, value = .dataclass o ∧ PartOf fields o i) ∨ ∃ items, value = .list items := by
  induction inside with
  | ptr => exact .inl rfl
  | @field o name value i mem visible _ ih =>
    refine .inr (.inl ⟨o, rfl, ?_⟩)
    obtain rfl | ⟨o', rfl, part⟩ | ⟨items, rfl⟩ := ih
    · exact .own mem visible
    · exact .nested ⟨name, mem, visible⟩ part
    · exact absurd mem (flat o name items)
  | item => exact .inr (.inr ⟨_, rfl⟩)

/-- Without lists all caches inside the object are in places where `put` finds them. -/
lemma covered_of_flat (flat : ∀ o name items, (name, .list items) ∉ st.fields o) (o : ObjId) :
    Covered st false o := by
  intro i _ inside
  refine ⟨o, ⟨o, .inl rfl, .root⟩, ?_⟩
  obtain same | ⟨o', same, part⟩ | ⟨items, same⟩ := partOf_of_inside flat inside
  · cases same
  · cases same
    exact part
  · cases same

/-- The proxy after `put` of the first thread. -/
def afterThreadList : StructProxy :=
  match StructProxy.put 6 false 2 threadList with
  | .ok st => st
  | .error _ => threadList

/-- The list of threads has no lists of Python's. -/
theorem put_resolves_iff_threadList : AllResolved threadList afterThreadList 2 := by
  have ran : StructProxy.put 6 false 2 threadList = .ok afterThreadList := rfl
  refine ((put_resolves_iff ran).1 rfl).2 (covered_of_flat (fun o name items => ?_) 2)
  rw [StructProxy.fields]
  obtain _ | _ | _ | _ | o := o <;> simp [threadList]

/-- A kernel 0 with a list of one processor 1, whose current thread has a cache that leads to the thread 2. -/
def kernel : StructProxy where
  objects
    | 0 => ⟨"z_kernel", none, [("cpus", .list [.dataclass 1])], none⟩
    | 1 => ⟨"_cpu", none, [("current", .ptr 0)], none⟩
    | 2 => ⟨"k_thread", none, [], none⟩
    | _ => ⟨"", none, [], none⟩
  pointers
    | 0 => ⟨"k_thread", none, some ⟨2, 0⟩⟩
    | _ => ⟨"k_thread", some 0, none⟩
  objectMap := fun _ => none
  reverseObjectMap := fun _ => none
  answers := fun k => 0x50000000 + 64 * k
  allocs := []
  writes := []

/-- The proxy after `put` of the kernel. -/
def afterKernel : StructProxy :=
  match StructProxy.put 2 false 0 kernel with
  | .ok st => st
  | .error _ => kernel

/-- The upload of the kernel returns, but the current thread of the processor still has its cache and no
address, and the thread was not uploaded. -/
theorem kernel_current_pending : StructProxy.put 2 false 0 kernel = .ok afterKernel ∧
    Inside kernel.fields (.dataclass 0) 0 ∧ (afterKernel.pointers 0).cache.isSome ∧
      (afterKernel.pointers 0).ptr = none ∧ afterKernel.allocs = [0] ∧
        ¬ AllResolved kernel afterKernel 0 := by
  have inside : Inside kernel.fields (.dataclass 0) 0 :=
    .field (.head _) rfl (.item (.head _) (.field (.head _) rfl (.ptr 0)))
  refine ⟨rfl, inside, rfl, rfl, rfl, fun resolved => ?_⟩
  obtain ⟨w, _, _, all⟩ := resolved
  have gone := (all 0 inside).1.1
  cases gone

end Irx.Python
