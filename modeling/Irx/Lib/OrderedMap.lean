import Irx.Lib.Scan

/-!
# Ordered maps

A finite map over a linear order, kept as its list of entries in strictly increasing key order: what
an iteration over a balanced search tree visits. The order is a field, so an unsorted map cannot be
built. `insert` replaces the value of a key that is present, `erase` drops a key. Every operation
comes with its membership lemma and, where the position of the key is known, with the resulting
entry list.
-/

namespace Irx.Lib

/-- A finite map with its entries in strictly increasing key order. -/
structure OrdMap (κ ν : Type*) [LinearOrder κ] where
  entries : List (κ × ν)
  sorted : entries.Pairwise (fun a b => a.1 < b.1)

namespace OrdMap

variable {κ ν : Type*} [LinearOrder κ]

/-- Maps with the same entries are equal. -/
@[ext] lemma ext {m m' : OrdMap κ ν} (e : m.entries = m'.entries) : m = m' := by
  cases m
  cases m'
  cases e
  rfl

/-- The map without entries. -/
def empty : OrdMap κ ν := ⟨[], .nil⟩

instance : Inhabited (OrdMap κ ν) := ⟨empty⟩

/-- The keys in increasing order. -/
def keys (m : OrdMap κ ν) : List κ := m.entries.map Prod.fst

/-- The values in the order of their keys. -/
def values (m : OrdMap κ ν) : List ν := m.entries.map Prod.snd

/-- Insertion into an ordered entry list, replacing the entry of an equal key. -/
def insertEntry (k : κ) (v : ν) : List (κ × ν) → List (κ × ν)
  | [] => [(k, v)]
  | e :: es =>
    if k < e.1 then (k, v) :: e :: es
    else if k = e.1 then (k, v) :: es
    else e :: insertEntry k v es

/-- An inserted list holds the new entry and the old ones with another key. -/
lemma mem_insertEntry {k : κ} {v : ν} {es : List (κ × ν)} (so : es.Pairwise (fun a b => a.1 < b.1))
    {x : κ × ν} : x ∈ insertEntry k v es ↔ x = (k, v) ∨ (x ∈ es ∧ x.1 ≠ k) := by
  induction es with
  | nil => simp [insertEntry]
  | cons e es ih =>
    obtain ⟨lt, so⟩ := List.pairwise_cons.1 so
    rw [insertEntry]
    split_ifs with h1 h2
    -- below the first key the new one is below all keys
    · have ne : ∀ y ∈ e :: es, y.1 ≠ k := by
        rintro y hy rfl
        rcases List.mem_cons.1 hy with rfl | hy
        · exact lt_irrefl _ h1
        · exact lt_irrefl _ (h1.trans (lt y hy))
      rw [List.mem_cons]
      refine or_congr_right ⟨fun h => ⟨h, ne x h⟩, And.left⟩
    · subst h2
      rw [List.mem_cons, List.mem_cons]
      constructor
      · rintro (rfl | h)
        · exact .inl rfl
        · exact .inr ⟨.inr h, (lt x h).ne'⟩
      · rintro (rfl | ⟨rfl | h, ne⟩)
        · exact .inl rfl
        · exact absurd rfl ne
        · exact .inr h
    · rw [List.mem_cons, ih so, List.mem_cons]
      constructor
      · rintro (rfl | rfl | ⟨h, ne⟩)
        · exact .inr ⟨.inl rfl, fun e => h2 e.symm⟩
        · exact .inl rfl
        · exact .inr ⟨.inr h, ne⟩
      · rintro (rfl | ⟨rfl | h, ne⟩)
        · exact .inr (.inl rfl)
        · exact .inl rfl
        · exact .inr (.inr ⟨h, ne⟩)

/-- Inserting keeps the order. -/
lemma insertEntry_sorted {k : κ} {v : ν} {es : List (κ × ν)}
    (so : es.Pairwise (fun a b => a.1 < b.1)) :
    (insertEntry k v es).Pairwise (fun a b => a.1 < b.1) := by
  induction es with
  | nil => exact List.pairwise_singleton _ _
  | cons e es ih =>
    obtain ⟨lt, so'⟩ := List.pairwise_cons.1 so
    rw [insertEntry]
    split_ifs with h1 h2
    · refine List.pairwise_cons.2 ⟨fun y hy => ?_, so⟩
      rcases List.mem_cons.1 hy with rfl | hy
      · exact h1
      · exact h1.trans (lt y hy)
    · subst h2
      exact List.pairwise_cons.2 ⟨fun y hy => lt y hy, so'⟩
    · refine List.pairwise_cons.2 ⟨fun y hy => ?_, ih so'⟩
      rcases (mem_insertEntry so').1 hy with rfl | ⟨hy, _⟩
      · exact lt_of_le_of_ne (not_lt.1 h1) (Ne.symm h2)
      · exact lt y hy

/-- The map with the value of `k` set to `v`. -/
def insert (m : OrdMap κ ν) (k : κ) (v : ν) : OrdMap κ ν :=
  ⟨insertEntry k v m.entries, insertEntry_sorted m.sorted⟩

/-- The map without key `k`. -/
def erase (m : OrdMap κ ν) (k : κ) : OrdMap κ ν :=
  ⟨m.entries.filter (fun e => e.1 ≠ k), m.sorted.filter _⟩

/-- The entries after inserting. -/
lemma mem_insert {m : OrdMap κ ν} {k : κ} {v : ν} {x : κ × ν} :
    x ∈ (m.insert k v).entries ↔ x = (k, v) ∨ (x ∈ m.entries ∧ x.1 ≠ k) :=
  mem_insertEntry m.sorted

/-- No key is there twice. -/
lemma keys_nodup (m : OrdMap κ ν) : m.keys.Nodup :=
  List.Pairwise.map _ (fun _ _ lt => ne_of_lt lt) m.sorted

/-- A new key goes between the lower and the higher keys. -/
lemma insert_between {m : OrdMap κ ν} {k : κ} {v : ν} {pre post : List (κ × ν)}
    (e : m.entries = pre ++ post) (lower : ∀ x ∈ pre, x.1 < k) (higher : ∀ x ∈ post, k < x.1) :
    (m.insert k v).entries = pre ++ (k, v) :: post := by
  show insertEntry k v m.entries = _
  rw [e]
  induction pre generalizing m with
  | nil =>
    cases post with
    | nil => rfl
    | cons x post =>
      rw [List.nil_append, insertEntry, if_pos (higher x (.head _))]
      rfl
  | cons x pre ih =>
    have lt := lower x (.head _)
    have so := m.sorted
    rw [e, List.cons_append, List.pairwise_cons] at so
    rw [List.cons_append, insertEntry, if_neg lt.not_gt, if_neg lt.ne', List.cons_append]
    exact congrArg (x :: ·) (ih (m := ⟨pre ++ post, so.2⟩) rfl fun y hy => lower y (.tail _ hy))

/-- A key above all others goes to the end. -/
lemma insert_last {m : OrdMap κ ν} {k : κ} {v : ν} (above : ∀ e ∈ m.entries, e.1 < k) :
    (m.insert k v).entries = m.entries ++ [(k, v)] :=
  insert_between (List.append_nil _).symm above fun _ none => absurd none List.not_mem_nil

/-- Erasing the key of a known entry leaves its two sides. -/
lemma erase_middle {m : OrdMap κ ν} {k : κ} {v : ν} {pre post : List (κ × ν)}
    (e : m.entries = pre ++ (k, v) :: post) : (m.erase k).entries = pre ++ post := by
  have nd := m.keys_nodup
  rw [keys, e] at nd
  change m.entries.filter (fun x => x.1 ≠ k) = _
  rw [e]
  exact filter_ne_middle nd

/-- An erased key is gone. -/
lemma not_mem_keys_erase {m : OrdMap κ ν} {k : κ} : k ∉ (m.erase k).keys := by
  intro mem
  obtain ⟨x, memx, e⟩ := List.mem_map.1 mem
  exact of_decide_eq_true (List.mem_filter.1 memx).2 e

/-- What holds of any two entries in their order holds of the entries in the order of their keys. -/
lemma pairwise_iff {m : OrdMap κ ν} {R : κ × ν → κ × ν → Prop} :
    m.entries.Pairwise R ↔ ∀ x ∈ m.entries, ∀ y ∈ m.entries, x.1 < y.1 → R x y := by
  obtain ⟨es, so⟩ := m
  show es.Pairwise R ↔ ∀ x ∈ es, ∀ y ∈ es, x.1 < y.1 → R x y
  constructor
  · intro related x memx y memy lt
    induction es with
    | nil => cases memx
    | cons e es ih =>
      obtain ⟨above, so⟩ := List.pairwise_cons.1 so
      obtain ⟨first, related⟩ := List.pairwise_cons.1 related
      rcases List.mem_cons.1 memx with rfl | later
      · rcases List.mem_cons.1 memy with rfl | later'
        · exact absurd lt (lt_irrefl _)
        · exact first y later'
      · rcases List.mem_cons.1 memy with rfl | later'
        · exact absurd lt (above x later).asymm
        · exact ih so related later later'
  · intro all
    exact so.imp_of_mem fun {x y} memx memy lt => all x memx y memy lt

/-- The keys after inserting. -/
lemma mem_keys_insert {m : OrdMap κ ν} {k k' : κ} {v : ν} :
    k' ∈ (m.insert k v).keys ↔ k' = k ∨ k' ∈ m.keys := by
  simp only [keys, List.mem_map, mem_insert]
  constructor
  · rintro ⟨x, rfl | ⟨mem, _⟩, rfl⟩
    · exact .inl rfl
    · exact .inr ⟨x, mem, rfl⟩
  · rintro (rfl | ⟨x, mem, rfl⟩)
    · exact ⟨_, .inl rfl, rfl⟩
    · by_cases e : x.1 = k
      · exact ⟨_, .inl rfl, e.symm⟩
      · exact ⟨x, .inr ⟨mem, e⟩, rfl⟩

end OrdMap

end Irx.Lib
