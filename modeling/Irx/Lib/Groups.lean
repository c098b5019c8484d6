import Irx.Lib.OrderedMap

/-!
# Grouping by key

Values are sorted into groups, each an ordered map from keys to values; the key of a value determines
its group. Reading the groups one after the other selects one value per key: none is missed, and a
value is passed over exactly for another one of the same key. So such a selection is a rearrangement
of the values if and only if their keys are different.
-/

namespace Irx.Lib

section Representatives

variable {α β κ : Type*} {key : α → κ} {selected values kept : List α}

/-- A selection of one value per key rearranges a list exactly when the list has different keys and
nothing of it was dropped before the selection. -/
lemma selection_perm_iff (nodup : (selected.map key).Nodup) (from_ : selected ⊆ kept)
    (sub : kept.Sublist values) (cover : ∀ a ∈ kept, key a ∈ selected.map key) (v : α → β) :
    (selected.map v).Perm (values.map v) ↔ (values.map key).Nodup ∧ values ⊆ kept := by
  constructor
  · intro perm
    have length : values.length ≤ selected.length := by
      have := perm.length_eq
      rw [List.length_map, List.length_map] at this
      exact this.ge
    have inside : selected.Subperm values := nodup.of_map.subperm fun a mem => sub.subset (from_ mem)
    -- as many elements as the list, and all of them in it
    have same : selected.Perm values := inside.perm_of_length_le length
    exact ⟨(same.map key).nodup_iff.1 nodup, fun a mem => from_ (same.mem_iff.2 mem)⟩
  · rintro ⟨different, still⟩
    have same : selected.Perm values := by
      rw [List.perm_ext_iff_of_nodup nodup.of_map different.of_map]
      intro a
      constructor
      · exact fun mem => sub.subset (from_ mem)
      · intro mem
        obtain ⟨b, memb, e⟩ := List.mem_map.1 (cover a (still mem))
        have := List.inj_on_of_nodup_map different (sub.subset (from_ memb)) mem e
        rwa [this] at memb
    exact same.map v

end Representatives

variable {γ κ ν : Type*} [LinearOrder κ] {group : κ → γ} {key : ν → κ}

/-- The groups hold values of the list under their keys, every key of the list with its last value. -/
structure Grouped (group : κ → γ) (key : ν → κ) (maps : γ → OrdMap κ ν) (l : List ν) : Prop where
  sound : ∀ g, ∀ x ∈ (maps g).entries, x.2 ∈ l ∧ key x.2 = x.1 ∧ group x.1 = g
  cover : ∀ v ∈ l, key v ∈ (maps (group (key v))).keys
  last : ∀ g, ∀ x ∈ (maps g).entries, (l.filter fun v => key v = x.1).getLast? = some x.2

namespace Grouped

variable {maps : γ → OrdMap κ ν} {l : List ν}

/-- Nothing is grouped in empty groups. -/
lemma empty : Grouped group key (fun _ => .empty) [] := ⟨nofun, nofun, nofun⟩

/-- A value becomes the last one of its key. -/
lemma getLast?_filter_append (key : ν → κ) (l : List ν) (v : ν) :
    ((l ++ [v]).filter fun w => key w = key v).getLast? = some v := by
  rw [List.filter_append, List.filter_cons_of_pos (by simp), List.filter_nil, List.getLast?_concat]

/-- The last value of another key stays. -/
lemma getLast?_filter_append_of_ne {l : List ν} {v : ν} {k : κ} (ne : key v ≠ k) :
    ((l ++ [v]).filter fun w => key w = k).getLast? = (l.filter fun w => key w = k).getLast? := by
  rw [List.filter_append, List.filter_cons_of_neg (by simpa using ne), List.filter_nil,
    List.append_nil]

/-- One more value goes into the group of its key. -/
lemma insert [DecidableEq γ] (gr : Grouped group key maps l) {g : γ} {v : ν}
    (own : group (key v) = g) :
    Grouped group key (Function.update maps g ((maps g).insert (key v) v)) (l ++ [v]) := by
  subst own
  -- only the group of the new value has changed
  refine ⟨fun g x mem => ?_, fun w mem => ?_, fun g x mem => ?_⟩
  · by_cases here : g = group (key v)
    · subst here
      rw [Function.update_self] at mem
      obtain rfl | ⟨mem, _⟩ := OrdMap.mem_insert.1 mem
      · exact ⟨List.mem_append_right _ (.head _), rfl, rfl⟩
      · obtain ⟨old, keyed⟩ := gr.sound _ x mem
        exact ⟨List.mem_append_left _ old, keyed⟩
    · rw [Function.update_of_ne here] at mem
      obtain ⟨old, keyed⟩ := gr.sound g x mem
      exact ⟨List.mem_append_left _ old, keyed⟩
  · have old : w ∈ l ∨ w = v := by
      rwa [List.mem_append, List.mem_singleton] at mem
    by_cases here : group (key w) = group (key v)
    · rw [here, Function.update_self, OrdMap.mem_keys_insert]
      obtain mem | rfl := old
      · exact .inr (here ▸ gr.cover w mem)
      · exact .inl rfl
    · rw [Function.update_of_ne here]
      obtain mem | rfl := old
      · exact gr.cover w mem
      · exact absurd rfl here
  · by_cases here : g = group (key v)
    · subst here
      rw [Function.update_self] at mem
      obtain rfl | ⟨mem, ne⟩ := OrdMap.mem_insert.1 mem
      · exact getLast?_filter_append key l v
      · rw [getLast?_filter_append_of_ne ne.symm]
        exact gr.last _ x mem
    · rw [Function.update_of_ne here] at mem
      have ne : key v ≠ x.1 := fun same => here (same ▸ (gr.sound g x mem).2.2.symm)
      rw [getLast?_filter_append_of_ne ne]
      exact gr.last g x mem

/-- What is selected is in the list. -/
lemma subset (gr : Grouped group key maps l) (order : List γ) :
    order.flatMap (fun g => (maps g).values) ⊆ l := by
  intro v mem
  obtain ⟨g, _, mem⟩ := List.mem_flatMap.1 mem
  obtain ⟨x, memx, rfl⟩ := List.mem_map.1 mem
  exact (gr.sound g x memx).1

/-- The keys of the values of a group are its keys. -/
lemma keys_values (gr : Grouped group key maps l) (g : γ) :
    (maps g).values.map key = (maps g).keys := by
  rw [OrdMap.values, OrdMap.keys, List.map_map]
  exact List.map_congr_left fun x mem => (gr.sound g x mem).2.1

/-- No key is selected twice. -/
lemma nodup (gr : Grouped group key maps l) {order : List γ} (nodup : order.Nodup) :
    ((order.flatMap fun g => (maps g).values).map key).Nodup := by
  rw [List.map_flatMap, List.nodup_flatMap]
  refine ⟨fun g _ => ?_, nodup.imp fun {g g'} ne k mem mem' => ?_⟩
  · rw [gr.keys_values]
    exact (maps g).keys_nodup
  · replace mem : k ∈ (maps g).keys := gr.keys_values g ▸ mem
    replace mem' : k ∈ (maps g').keys := gr.keys_values g' ▸ mem'
    obtain ⟨x, memx, rfl⟩ := List.mem_map.1 mem
    obtain ⟨y, memy, e⟩ := List.mem_map.1 mem'
    rw [← (gr.sound g x memx).2.2, ← (gr.sound g' y memy).2.2, e] at ne
    exact ne rfl

/-- Every key of the list is in an order that has all groups. -/
lemma covered (gr : Grouped group key maps l) {order : List γ}
    (all : ∀ v ∈ l, group (key v) ∈ order) :
    ∀ v ∈ l, key v ∈ (order.flatMap fun g => (maps g).values).map key := by
  intro v mem
  have here : key v ∈ (maps (group (key v))).values.map key := by
    rw [gr.keys_values]
    exact gr.cover v mem
  obtain ⟨w, memw, e⟩ := List.mem_map.1 here
  exact List.mem_map.2 ⟨w, List.mem_flatMap.2 ⟨_, all v mem, memw⟩, e⟩

/-- Selected in an order that has all groups are the last values of their keys. -/
lemma mem_iff_last (gr : Grouped group key maps l) {order : List γ}
    (all : ∀ v ∈ l, group (key v) ∈ order) {v : ν} :
    v ∈ order.flatMap (fun g => (maps g).values) ↔
      (l.filter fun w => key w = key v).getLast? = some v := by
  constructor
  · intro mem
    obtain ⟨g, _, mem⟩ := List.mem_flatMap.1 mem
    obtain ⟨x, memx, rfl⟩ := List.mem_map.1 mem
    rw [(gr.sound g x memx).2.1]
    exact gr.last g x memx
  · intro last
    have mem : v ∈ l := (List.mem_filter.1 (List.mem_of_getLast? last)).1
    obtain ⟨w, memw, same⟩ := List.mem_map.1 (gr.covered all v mem)
    obtain ⟨g, known, memw'⟩ := List.mem_flatMap.1 memw
    obtain ⟨x, memx, rfl⟩ := List.mem_map.1 memw'
    -- both are the last value of one key
    have own := gr.last g x memx
    rw [← (gr.sound g x memx).2.1, same] at own
    cases own.symm.trans last
    exact memw

end Grouped

end Irx.Lib
