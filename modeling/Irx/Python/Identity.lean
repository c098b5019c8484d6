import Irx.Python.ObjectMap

/-!
# The identity of objects

An address that the proxy knows stands for one Python object. In runs in which no call registers an object
over another one (`Separate`), the object of an address is never replaced: a `deref` returns it at any later
time, without fetching anything, and it stays at this address alone (`object_identity`).
-/

namespace Irx.Python
open Irx.Lib System

variable {st st1 st2 st' : StructProxy} {o : ObjId} {p : ℤ} {depth : Nat} {deep : Bool}

/-- What the map holds stays there, and keeps its class. -/
structure Remembers (st st' : StructProxy) : Prop where
  map : ∀ p o, st.objectMap p = some o → st'.objectMap p = some o
  cls : ∀ p o, st.objectMap p = some o → (st'.objects o).cls = (st.objects o).cls

namespace Remembers

/-- Nothing is forgotten. -/
lemma refl (st : StructProxy) : Remembers st st where
  map _ _ := id
  cls _ _ _ := rfl

/-- What two calls remember, both together do. -/
lemma trans (first : Remembers st st1) (second : Remembers st1 st2) : Remembers st st2 where
  map p o there := second.map p o (first.map p o there)
  cls p o there := (second.cls p o (first.map p o there)).trans (first.cls p o there)

/-- To register an object where none or itself stands forgets nothing. -/
lemma register {obj : PyInstance} (alone : ∀ o', st.objectMap p = some o' → o' = o)
    (cls : obj.cls = (st.objects o).cls) : Remembers st ((st.setObject o obj).register o p) where
  map q o' there := by
    by_cases here : q = p
    · subst here
      rw [alone o' there, StructProxy.register_objectMap_self]
    · rw [StructProxy.register_objectMap_of_ne here]
      exact there
  cls q o' _ := by
    rw [StructProxy.register_objects]
    by_cases same : o' = o
    · rw [same, StructProxy.setObject_self, cls]
    · rw [StructProxy.setObject_of_ne same]

/-- An object that the map does not hold may be replaced. -/
lemma setObject {obj : PyInstance} (unused : st.Unused o) : Remembers st (st.setObject o obj) where
  map _ _ := id
  cls q o' there := by
    have other : o' ≠ o := by
      rintro rfl
      exact unused q there
    rw [StructProxy.setObject_of_ne other]

/-- Reading a structure forgets nothing if no other object is at the address. -/
lemma getAt {fetched : PtrId → Option ℤ}
    (separate : ∀ p o', (st.objects o).ptr = some p → st.objectMap p = some o' → o' = o)
    (e : st.getAt o fetched = .ok st') : Remembers st st' := by
  obtain ⟨p, address, _, rfl⟩ := getAt_eq_ok e
  have registered : Remembers (st.fetch fetched) (((st.fetch fetched).setObject o
      { st.objects o with holds := some ((st.objects o).cls, p) }).register o p) :=
    .register (fun o' there => separate p o' address there) rfl
  exact ⟨registered.map, registered.cls⟩

/-- `get` forgets nothing if no other object is at the address. -/
lemma get (sound : Sound st) {ptr : Option PTR} {fetched : PtrId → Option ℤ}
    (separate : ∀ p o', getAddress o ptr st = some p → st.objectMap p = some o' → o' = o)
    (e : st.get o ptr fetched = .ok st') : Remembers st st' := by
  cases ptr with
  | none =>
    refine getAt (fun p o' address => separate p o' ?_) e
    rw [getAddress, address]
  | some ptr =>
    obtain ⟨none, e⟩ := get_some_eq_ok e
    refine (setObject (sound.registered.unused none)).trans (getAt (fun p o' address => ?_) e)
    refine separate p o' ?_
    rw [StructProxy.setObject_self] at address
    rw [getAddress, none]
    exact address

/-- An object that `deref` makes comes to an address that the map does not have. -/
lemma deref (sound : Sound st) {ptr : PTR} {made : Made} {r : Option ObjId}
    (unused : st.Unused made.id) (e : st.deref ptr made = .ok (r, st')) : Remembers st st' := by
  obtain ⟨p, address, _, ⟨_, rfl⟩ | ⟨missing, got⟩⟩ := deref_cases e
  · exact refl _
  · refine (setObject unused).trans (get (sound.setObject unused) (fun q o' there taken => ?_) got)
    have same : getAddress made.id (some ptr) (st.construct ptr.cls made) = ptr.ptr := by
      rw [getAddress, StructProxy.construct, StructProxy.setObject_self]
      rfl
    cases (same.symm.trans there).symm.trans address
    cases missing.symm.trans taken

/-- `structAlloc` answers an address that the map does not have. -/
lemma allocate (placed : Placed st) (o : ObjId) :
    ∀ p o', st.objectMap p = some o' → (st.allocate o).objectMap p = some o' := by
  intro p o' there
  cases address : (st.objects o).ptr with
  | some q => rwa [StructProxy.allocate_of_some address]
  | none =>
    have new : p ≠ st.answers 0 := by
      rintro rfl
      cases (placed.fresh 0).symm.trans there
    rw [StructProxy.allocate_of_none address, StructProxy.register_objectMap_of_ne new]
    exact there

/-- `put` forgets nothing. -/
lemma put (placed : Placed st) (e : StructProxy.put depth deep o st = .ok st') : Remembers st st' := by
  refine ⟨?_, fun p o' _ => (put_exchanged e).cls o'⟩
  refine ((put_relates (R := fun st st' => Placed st → Placed st' ∧
      ∀ p o, st.objectMap p = some o → st'.objectMap p = some o) (fun _ placed => ⟨placed, fun _ _ => id⟩)
    (fun first second placed => ?_) (fun st i ptr placed => ⟨?_, fun _ _ => id⟩)
    (fun o st st1 st2 inner e placed => ?_) depth).1 deep o st st' e placed).2
  · obtain ⟨placed1, kept1⟩ := first placed
    obtain ⟨placed2, kept2⟩ := second placed1
    exact ⟨placed2, fun p o there => kept2 p o (kept1 p o there)⟩
  · exact ⟨placed.inverse, placed.address, placed.apart, placed.fresh⟩
  · obtain ⟨placed1, kept⟩ := inner (placed.allocate o)
    refine ⟨placed1.setStruct e, fun p o' there => ?_⟩
    obtain ⟨_, _, rfl⟩ := StructProxy.setStruct_eq_ok e
    exact kept p o' (allocate placed o p o' there)

/-- Every separate call remembers what the map holds. -/
lemma step (sound : Sound st) {call : Call} (allowed : st.Allowed call) (separate : Separate st call)
    (e : st.step call = .ok st') : Remembers st st' := by
  cases call with
  | script objects pointers =>
    cases e
    exact ⟨fun _ _ => id, fun p o there => (allowed p o there).1⟩
  | get o ptr fetched => exact get sound separate e
  | deref ptr made =>
    obtain ⟨r, ran⟩ := map_snd_eq_ok e
    exact deref sound allowed ran
  | Global cls vvptr size count made =>
    obtain ⟨arr, ran⟩ := map_snd_eq_ok e
    obtain rfl | ran := Global_cases ran
    · exact refl _
    · refine (derefs_keeps (P := fun st' => Sound st' ∧ Remembers st st') ?_ ⟨sound, refl st⟩ allowed ran).2
      rintro st1 ptr made r st2 ⟨sound1, kept⟩ unused made'
      exact ⟨sound1.deref unused made', kept.trans (deref sound1 unused made')⟩
  | put o deep answers depth =>
    have placed : Placed { st with answers := answers } :=
      ⟨sound.inverse, fun p o there => (sound.registered p o there).1, separate.1, separate.2⟩
    have kept := put placed e
    exact ⟨kept.map, kept.cls⟩
  | container_of_ptr ptr cls offset force_new made =>
    obtain ⟨r, ran⟩ := map_snd_eq_ok e
    obtain ⟨obj, rfl⟩ := container_of_ptr_cases sound.registered allowed ran
    have kept : Remembers (st.fetch made.fetched) ((st.fetch made.fetched).setObject made.id obj) :=
      setObject allowed
    exact ⟨kept.map, kept.cls⟩

end Remembers

/-- Runs of separate calls keep the maps sound. -/
lemma sound_of_run (run : (proxy.under Separate).Outcome (.ok st)) : Sound st := by
  refine run.holds (P := Sound) (E := fun _ => True) ?_ ?_
  · exact ⟨fun _ _ => nofun, fun _ _ => ⟨nofun, nofun⟩⟩
  · intro st call sound allowed
    show Holds _ _ (st.step call)
    cases e : st.step call with
    | error => trivial
    | ok st' => exact sound.step allowed.1 allowed.2 e

/-- However a run goes on with separate calls, it remembers what the map holds. -/
lemma remembers_of_run (sound : Sound st)
    (more : ((proxy.under Separate).continued st).Outcome (.ok st')) : Remembers st st' := by
  refine (more.holds (P := fun st' => Sound st' ∧ Remembers st st') (E := fun _ => True) ?_ ?_).2
  · exact ⟨sound, .refl st⟩
  · rintro st1 call ⟨sound1, kept⟩ allowed
    show Holds _ _ (st1.step call)
    cases e : st1.step call with
    | error => trivial
    | ok st2 =>
      exact ⟨sound1.step allowed.1 allowed.2 e, kept.trans (.step sound1 allowed.1 allowed.2 e)⟩

/-- An address that the proxy has an object for stands for this object from then on. However the run goes on
with separate calls, a `deref` of a pointer to the address returns the object and changes nothing, and the
object keeps its class and is at no other address. -/
theorem object_identity {st st' : StructProxy} {p : ℤ} {o : ObjId}
    (run : (proxy.under Separate).Outcome (.ok st))
    (more : ((proxy.under Separate).continued st).Outcome (.ok st')) (known : st.objectMap p = some o) :
    (st'.objects o).cls = (st.objects o).cls ∧ (st'.objects o).ptr = some p ∧
      (∀ ptr made, ptr.ptr = some p → st'.deref ptr made = .ok (some o, st')) ∧
      ∀ q, st'.objectMap q = some o → q = p := by
  have sound := sound_of_run run
  have kept := remembers_of_run sound more
  have sound' := sound_of_run (run.append more)
  have there := kept.map p o known
  have address := (sound'.registered p o there).1
  refine ⟨kept.cls p o known, address, fun ptr made e => ?_, fun q there' => ?_⟩
  · rw [StructProxy.deref, e]
    simp only [there, Option.isNone_some, Bool.false_eq_true, if_false]
  · exact Option.some.inj ((sound'.registered q o there').1.symm.trans address)

/-- A thread, and after it a timeout of another address. -/
def afterTimeout : StructProxy :=
  match afterThread.deref ⟨"_timeout", some 0x50000100, none⟩ (bare 1) with
  | .ok (_, st) => st
  | .error _ => afterThread

/-- The thread is still there. -/
theorem object_identity_thread :
    afterTimeout.deref ⟨"k_thread", some 0x50000000, none⟩ (bare 2) = .ok (some 0, afterTimeout) := by
  have run : (proxy.under Separate).Outcome (.ok afterThread) :=
    Outcome.step (S := proxy.under Separate)
      (i := .deref ⟨"k_thread", some 0x50000000, none⟩ (bare 0)) .start ⟨fun _ => nofun, trivial⟩
  have unused : afterThread.Unused 1 := by
    intro p there
    by_cases here : p = 0x50000000
    · subst here
      cases there
    · rw [show afterThread.objectMap p = none from StructProxy.register_objectMap_of_ne here] at there
      cases there
  have more : ((proxy.under Separate).continued afterThread).Outcome (.ok afterTimeout) :=
    Outcome.step (S := (proxy.under Separate).continued afterThread)
      (i := .deref ⟨"_timeout", some 0x50000100, none⟩ (bare 1)) .start ⟨unused, trivial⟩
  exact (object_identity run more rfl).2.2.1 _ _ rfl

end Irx.Python
