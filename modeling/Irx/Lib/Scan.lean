import Mathlib

/-!
# Linear search for the best element

`scan p better l` walks over `l` and keeps the best element seen so far among those with `p`: the
current element replaces the kept one when `better kept current`. `scan_eq_some` names the result
when one element beats all others, `scan_eq_none` is the search without candidate.
`find?_of_nodup` is the search for a key that no two elements share, `filter_ne_middle` the removal
of such a key.
-/

namespace Irx.Lib

variable {α : Type*}

/-- One round of the search. -/
def scanStep (p : α → Bool) (better : α → α → Bool) (kept : Option α) (x : α) : Option α :=
  match p x, kept with
  | false, kept => kept
  | true, none => some x
  | true, some y => if better y x then some x else some y

/-- The search over a list. -/
def scan (p : α → Bool) (better : α → α → Bool) (l : List α) : Option α :=
  l.foldl (scanStep p better) none

variable {p : α → Bool} {better : α → α → Bool}

/-- What is not looked for is passed. -/
lemma scanStep_of_not {x : α} (px : p x = false) (kept : Option α) :
    scanStep p better kept x = kept := by
  rw [scanStep.eq_def, px]

/-- The first one is kept. -/
lemma scanStep_none {x : α} (px : p x = true) : scanStep p better none x = some x := by
  rw [scanStep.eq_def, px]

/-- A better one is kept instead. -/
lemma scanStep_some {x y : α} (px : p x = true) :
    scanStep p better (some y) x = if better y x then some x else some y := by
  rw [scanStep.eq_def, px]

/-- If there is none, none is kept. -/
lemma scan_eq_none {l : List α} (none_ok : ∀ x ∈ l, p x = false) : scan p better l = none := by
  induction l with
  | nil => rfl
  | cons x l ih =>
    rw [scan, List.foldl_cons, scanStep_of_not (none_ok x List.mem_cons_self)]
    exact ih fun y hy => none_ok y (List.mem_cons_of_mem _ hy)

/-- What the search keeps is a candidate of the list, or was kept before. -/
lemma mem_foldl_scanStep {l : List α} {kept : Option α} {y : α}
    (hy : l.foldl (scanStep p better) kept = some y) : kept = some y ∨ (y ∈ l ∧ p y = true) := by
  induction l generalizing kept with
  | nil => exact .inl hy
  | cons x l ih =>
    rcases ih hy with h | ⟨mem, py⟩
    · cases px : p x with
      | false => exact .inl (by rwa [scanStep_of_not px] at h)
      | true =>
        cases kept with
        | none =>
          rw [scanStep_none px] at h
          cases h
          exact .inr ⟨List.mem_cons_self, px⟩
        | some z =>
          rw [scanStep_some px] at h
          split_ifs at h
          · cases h
            exact .inr ⟨List.mem_cons_self, px⟩
          · exact .inl h
    · exact .inr ⟨List.mem_cons_of_mem _ mem, py⟩

/-- The search never loses a kept best element. -/
lemma foldl_scanStep_best {l : List α} {b : α}
    (best : ∀ y ∈ l, p y = true → y = b ∨ better b y = false) :
    l.foldl (scanStep p better) (some b) = some b := by
  induction l with
  | nil => rfl
  | cons x l ih =>
    have rest := ih fun y hy => best y (List.mem_cons_of_mem _ hy)
    rw [List.foldl_cons]
    cases px : p x with
    | false => rwa [scanStep_of_not px]
    | true =>
      rw [scanStep_some px]
      rcases best x List.mem_cons_self px with rfl | nb
      · rwa [ite_self]
      · rwa [nb]

/-- The search never loses an element for none. -/
lemma foldl_scanStep_ne_none {l : List α} {y : α} :
    l.foldl (scanStep p better) (some y) ≠ none := by
  induction l generalizing y with
  | nil => exact Option.some_ne_none y
  | cons x l ih =>
    rw [List.foldl_cons]
    cases px : p x with
    | false =>
      rw [scanStep_of_not px]
      exact ih
    | true =>
      rw [scanStep_some px]
      split_ifs
      · exact ih
      · exact ih

/-- The search fails exactly if there is no candidate. -/
lemma scan_eq_none_iff {l : List α} : scan p better l = none ↔ ∀ x ∈ l, p x = false := by
  refine ⟨fun failed x mem => ?_, scan_eq_none⟩
  obtain ⟨pre, post, rfl⟩ := List.append_of_mem mem
  by_contra px
  rw [Bool.not_eq_false] at px
  rw [scan, List.foldl_append, List.foldl_cons] at failed
  cases kept : pre.foldl (scanStep p better) none with
  | none =>
    rw [kept, scanStep_none px] at failed
    exact foldl_scanStep_ne_none failed
  | some y =>
    rw [kept, scanStep_some px] at failed
    split_ifs at failed
    · exact foldl_scanStep_ne_none failed
    · exact foldl_scanStep_ne_none failed

/-- What is found is a candidate. -/
lemma mem_of_scan_eq_some {l : List α} {x : α} (found : scan p better l = some x) :
    x ∈ l ∧ p x = true := by
  obtain kept | candidate := mem_foldl_scanStep found
  · cases kept
  · exact candidate

/-- An element that beats every other candidate, and is beaten by none, is found. -/
lemma scan_eq_some {l : List α} {b : α} (mem : b ∈ l) (pb : p b = true)
    (best : ∀ y ∈ l, p y = true → y = b ∨ (better y b = true ∧ better b y = false)) :
    scan p better l = some b := by
  obtain ⟨pre, post, rfl⟩ := List.append_of_mem mem
  rw [scan, List.foldl_append, List.foldl_cons]
  have found : scanStep p better (pre.foldl (scanStep p better) none) b = some b := by
    cases kept : pre.foldl (scanStep p better) none with
    | none => exact scanStep_none pb
    | some y =>
      rw [scanStep_some pb]
      rcases mem_foldl_scanStep kept with h | ⟨hy, py⟩
      · cases h
      · rcases best y (List.mem_append_left _ hy) py with rfl | ⟨yb, _⟩
        · rw [ite_self]
        · rw [yb, if_pos rfl]
  rw [found]
  refine foldl_scanStep_best fun y hy py => ?_
  exact (best y (List.mem_append_right _ (List.mem_cons_of_mem _ hy)) py).imp_right And.right

/-- With different keys an item is found by its own. -/
lemma find?_of_nodup {κ : Type*} [DecidableEq κ] {key : α → κ} {l : List α} {x : α}
    (nd : (l.map key).Nodup) (mem : x ∈ l) : l.find? (fun y => key y = key x) = some x := by
  obtain ⟨y, found⟩ : ∃ y, l.find? (fun y => key y = key x) = some y :=
    Option.isSome_iff_exists.1 (List.find?_isSome.2 ⟨x, mem, decide_eq_true rfl⟩)
  have same := List.find?_some found
  simp only [decide_eq_true_eq] at same
  rw [found, List.inj_on_of_nodup_map nd (List.mem_of_find?_eq_some found) mem same]

/-- With different keys, dropping one drops one item. -/
lemma filter_ne_middle {κ : Type*} [DecidableEq κ] {key : α → κ} {pre post : List α} {x : α}
    (nd : ((pre ++ x :: post).map key).Nodup) :
    (pre ++ x :: post).filter (fun y => key y ≠ key x) = pre ++ post := by
  rw [List.map_append, List.nodup_append'] at nd
  obtain ⟨_, nd2, dj⟩ := nd
  have keep : ∀ l : List α, (∀ y ∈ l, key y ≠ key x) → l.filter (fun y => key y ≠ key x) = l :=
    fun l h => List.filter_eq_self.2 fun y hy => decide_eq_true (h y hy)
  have left : ∀ y ∈ pre, key y ≠ key x :=
    fun y hy e => dj (List.mem_map_of_mem hy) (e ▸ List.mem_cons_self)
  have right : ∀ y ∈ post, key y ≠ key x :=
    fun y hy e => (List.nodup_cons.1 nd2).1 (e ▸ List.mem_map_of_mem hy)
  rw [List.filter_append, keep pre left, List.filter_cons_of_neg (by simp), keep post right]

end Irx.Lib
