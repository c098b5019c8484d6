import Irx.Python.ObjectMap

/-!
# The cached mode of `container_of_ptr`

Without `force_new`, `container_of_ptr` takes the object of the map, or registers a new one, and then calls
`get` on it with the pointer to the container. `get` accepts a pointer only for an object without an address,
and an object that `deref` gives has one: a new one got it in the `get` of `deref`, and one from the map has
the address that it stands under. What is left is an object of the map whose address the script took away.
-/

namespace Irx.Python
open System

variable {st st' st1 : StructProxy} {o : ObjId} {cls : String} {q : ℤ} {made : Made}

/-- The cached mode returns what the fresh mode makes: an object of the class at the address of the
container, with the contents that the fresh object has, and the pointers have the same values. -/
def CachedLikeFresh (st : StructProxy) (ptr : PTR) (cls : String) (offset : ℤ) (made : Made) : Prop :=
  ∃ p o st' new fresh, ptr.ptr = some p ∧
    st.container_of_ptr ptr cls offset false made = .ok (some o, st') ∧
    st.container_of_ptr ptr cls offset true made = .ok (some new, fresh) ∧
    (st'.objects o).cls = cls ∧ (st'.objects o).ptr = some (p - offset) ∧
    (st'.objects o).holds = (fresh.objects new).holds ∧ st'.pointers = fresh.pointers

/-- The map has an instance of the class at the address that itself has no address. -/
def MappedWithoutAddress (st : StructProxy) (cls : String) (q : ℤ) : Prop :=
  q ≠ 0 ∧ ∃ o, st.objectMap q = some o ∧ (st.objects o).cls = cls ∧ (st.objects o).ptr = none

/-- After a `get` with a pointer the object is registered there and has its address. -/
lemma get_some_registered {fetched : PtrId → Option ℤ}
    (e : st.get o (some ⟨cls, some q, none⟩) fetched = .ok st') :
    q ≠ 0 ∧ st'.objectMap q = some o ∧ (st'.objects o).ptr = some q ∧
      (st'.objects o).cls = (st.objects o).cls := by
  obtain ⟨_, got⟩ := get_some_eq_ok e
  obtain ⟨q', address, nonnull, rfl⟩ := getAt_eq_ok got
  rw [StructProxy.setObject_self] at address
  cases address
  refine ⟨nonnull, StructProxy.register_objectMap_self, ?_⟩
  rw [StructProxy.register_objects, StructProxy.setObject_self, StructProxy.setObject_self]
  exact ⟨rfl, rfl⟩

/-- The cached mode fails for an object that has an address. -/
lemma get_some_of_address {p : ℤ} (address : (st.objects o).ptr = some p) (ptr : PTR)
    (fetched : PtrId → Option ℤ) : st.get o (some ptr) fetched = .error .assertionError := by
  rw [StructProxy.get]
  split
  · rfl
  · rw [address]
    rfl

/-- Where the cached mode returns, it has found its object in the map, without an address. -/
lemma deref_get_ok {r : Option ObjId} (found : st.deref ⟨cls, some q, none⟩ made = .ok (r, st1))
    (some_o : r = some o) {fetched : PtrId → Option ℤ}
    (got : st1.get o (some ⟨cls, some q, none⟩) fetched = .ok st') :
    st1 = st ∧ st.objectMap q = some o ∧ (st.objects o).ptr = none := by
  obtain ⟨q', e, same, ⟨_, rfl⟩ | ⟨_, fetched_new⟩⟩ := deref_cases found
  · cases e
    exact ⟨rfl, same.symm.trans some_o, (get_some_eq_ok got).1⟩
  · -- a new object has its address from the `get` of `deref`
    cases e
    obtain ⟨_, there, address, _⟩ := get_some_registered fetched_new
    cases (same.symm.trans some_o).symm.trans there
    cases (get_some_eq_ok got).1.symm.trans address

/-- The cached mode on an object of the map without an address. -/
lemma get_of_none (nonnull : q ≠ 0) (own : (st.objects o).cls = cls) (none : (st.objects o).ptr = none)
    (fetched : PtrId → Option ℤ) :
    ∃ st', st.get o (some ⟨cls, some q, .none⟩) fetched = .ok st' ∧ (st'.objects o).cls = cls ∧
      (st'.objects o).ptr = some q ∧ (st'.objects o).holds = some (cls, q) ∧
      st'.pointers = (st.fetch fetched).pointers := by
  rw [StructProxy.get]
  simp only [own, none, ne_eq, not_true_eq_false, if_false, Option.isSome_none, Bool.false_eq_true]
  rw [StructProxy.getAt]
  simp only [StructProxy.setObject_self, if_neg nonnull]
  refine ⟨_, rfl, ?_⟩
  rw [StructProxy.register_objects, StructProxy.setObject_self]
  exact ⟨rfl, rfl, rfl, rfl⟩

/-- A cached object is like a fresh one only where the map has one without an address. -/
lemma cachedLikeFresh_iff (st : StructProxy) (c : String) (p : ℤ) (cache : Option ObjectOffset)
    (cls : String) (offset : ℤ) (made : Made) :
    CachedLikeFresh st ⟨c, some p, cache⟩ cls offset made ↔
      MappedWithoutAddress st cls (p - offset) := by
  constructor
  · intro like
    obtain ⟨_, o, st', _, _, address, cached, _, own, _⟩ := like
    cases address
    obtain ⟨⟨r, st1⟩, found, rest⟩ := bind_eq_ok.1 cached
    cases r with
    | none => exact nomatch rest
    | some o' =>
      obtain ⟨st2, got, e⟩ := bind_eq_ok.1 rest
      cases e
      obtain ⟨rfl, there, none⟩ := deref_get_ok found rfl got
      obtain ⟨nonnull, _, _, kept⟩ := get_some_registered got
      exact ⟨nonnull, o, there, kept.symm.trans own, none⟩
  · intro mapped
    obtain ⟨nonnull, o, there, own, none⟩ := mapped
    obtain ⟨st', got, cls', address, held, pointers⟩ := get_of_none nonnull own none made.fetched
    refine ⟨p, o, st', made.id, _, rfl, ?_, rfl, cls', address, ?_, pointers⟩
    · have found : st.deref ⟨cls, some (p - offset), .none⟩ made = .ok (some o, st) := by
        rw [StructProxy.deref]
        simp [there]
      rw [StructProxy.container_of_ptr]
      simp only [Bool.false_eq_true, if_false, found, ok_bind, got]
    · rw [StructProxy.setObject_self]
      exact held

/-- After any run of calls the cached mode ends in an `AssertionError`. -/
lemma container_of_ptr_cached_fails (run : proxy.Outcome (.ok st)) (c : String) (p : ℤ)
    (cache : Option ObjectOffset) (cls : String) (offset : ℤ) (made : Made) :
    st.container_of_ptr ⟨c, some p, cache⟩ cls offset false made = .error .assertionError := by
  have reg := registered_of_run run
  rw [StructProxy.container_of_ptr]
  simp only [Bool.false_eq_true, if_false]
  cases there : st.objectMap (p - offset) with
  | some o =>
    have found : st.deref ⟨cls, some (p - offset), none⟩ made = .ok (some o, st) := by
      rw [StructProxy.deref]
      simp [there]
    rw [found]
    show st.get o _ _ >>= _ = _
    rw [get_some_of_address (reg _ _ there).1]
    rfl
  | none =>
    rcases eq_or_ne (p - offset) 0 with null | nonnull
    · -- `deref` already refuses the null address
      have refused : (st.construct cls made).get made.id (some ⟨cls, some (p - offset), none⟩)
          made.fetched = .error .assertionError := by
        rw [StructProxy.get, StructProxy.construct]
        simp [StructProxy.getAt, null]
      rw [StructProxy.deref]
      simp only [there, Option.isNone_none, if_true, refused]
      rfl
    · obtain ⟨st1, found, object⟩ := deref_missing nonnull there made
      have address : (st1.objects made.id).ptr = some (p - offset) := by rw [object]
      rw [found]
      show st1.get made.id _ _ >>= _ = _
      rw [get_some_of_address address]
      rfl

/-- In every state of the proxy, the cached mode returns what the fresh mode makes if and only if the map
has an instance of the class at the address of the container that itself has no address. No run of calls
leads to such a state: the cached mode ends in an `AssertionError` after every run. -/
theorem container_of_ptr_cached_iff (st : StructProxy) (c : String) (p : ℤ)
    (cache : Option ObjectOffset) (cls : String) (offset : ℤ) (made : Made) :
    (CachedLikeFresh st ⟨c, some p, cache⟩ cls offset made ↔ MappedWithoutAddress st cls (p - offset)) ∧
      (proxy.Outcome (.ok st) →
        st.container_of_ptr ⟨c, some p, cache⟩ cls offset false made = .error .assertionError) :=
  ⟨cachedLikeFresh_iff st c p cache cls offset made,
    fun run => container_of_ptr_cached_fails run c p cache cls offset made⟩

/-- The timeout of a thread on a new proxy. -/
theorem container_of_ptr_cached_iff_timeout :
    StructProxy.empty.container_of_ptr ⟨"_timeout", some 0x50000018, none⟩ "k_thread" 24 false (bare 0) =
      .error .assertionError :=
  (container_of_ptr_cached_iff .empty "_timeout" 0x50000018 none "k_thread" 24 (bare 0)).2 .start

/-- With an empty proxy, `force_new=False` fails. -/
theorem container_of_ptr_cached_asserts :
    StructProxy.empty.container_of_ptr ⟨"_timeout", some 0x50000018, none⟩ "k_thread" 24 false (bare 0) =
        .error .assertionError ∧
      ¬ CachedLikeFresh .empty ⟨"_timeout", some 0x50000018, none⟩ "k_thread" 24 (bare 0) := by
  have fails := container_of_ptr_cached_fails .start "_timeout" 0x50000018 none "k_thread" 24 (bare 0)
  refine ⟨fails, fun like => ?_⟩
  obtain ⟨_, _, _, _, _, _, cached, _⟩ := like
  cases fails.symm.trans cached

end Irx.Python
