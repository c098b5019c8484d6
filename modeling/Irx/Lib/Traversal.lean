import Irx.Lib.Acyclic
import Irx.Lib.DepthFirst
import Irx.Lib.Fold

/-!
# Traversals that end

A traversal is a recursive function over a graph that carries a state along: it returns at once from a node
that is known, and otherwise enters the node, goes on to its successors one by one and leaves it. Nodes that
have a key are known from the second time on. If no cycle consists of nodes without a key, a traversal of a
finite graph ends (`Traversal.ends`): each step takes a key from those not seen, or is one on a path without
keys. The walks of `Irx.Lib.DepthFirst` end only then (`Walk.acyclic`).
-/

namespace Irx.Lib
open Relation Set

variable {σ α κ ε : Type}

/-- What a traversal does with its state; `stop` is its result when the calls are too deep. -/
structure Traversal (σ α ε : Type) where
  known : σ → α → Bool
  enter : σ → α → σ
  succ : α → List α
  after : α → σ → α → σ
  leave : Nat → σ → α → Except ε σ
  stop : ε

namespace Traversal

/-- The traversal from a node, for at most the given depth of calls. -/
def run (t : Traversal σ α ε) : Nat → σ → α → Except ε σ
  | 0, _, _ => .error t.stop
  | depth + 1, s, a =>
    if t.known s a then .ok s
    else do
      let s ← (t.succ a).foldlM (fun s b => do
        let s ← run t depth s b
        .ok (t.after a s b)) (t.enter s a)
      t.leave depth s a

/-- The keys in the state: nodes with such a key are known, and no key gets lost. -/
structure Marks (t : Traversal σ α ε) (key : α → Option κ) (marks : σ → Set κ) : Prop where
  seen : ∀ s a k, key a = some k → k ∈ marks s → t.known s a
  entered : ∀ s a k, key a = some k → k ∈ marks (t.enter s a)
  enter : ∀ s a, marks s ⊆ marks (t.enter s a)
  after : ∀ a s b, marks s ⊆ marks (t.after a s b)
  leave : ∀ s a, ∃ depth s', t.leave depth s a = .ok s' ∧ marks s ⊆ marks s'
  deeper : ∀ depth depth' s a s', t.leave depth s a = .ok s' → depth ≤ depth' → t.leave depth' s a = .ok s'

variable {t : Traversal σ α ε} {key : α → Option κ} {marks : σ → Set κ} {depth depth' : Nat} {s s' : σ}
  {a : α} {l : List α}

/-- One step of the traversal over the successors. -/
def step (t : Traversal σ α ε) (depth : Nat) (a : α) (s : σ) (b : α) : Except ε σ := do
  let s ← t.run depth s b
  .ok (t.after a s b)

/-- A known node is passed. -/
lemma run_known (known : t.known s a) : t.run (depth + 1) s a = .ok s := by
  rw [run, if_pos known]

/-- A new node is entered, its successors are visited, and it is left. -/
lemma run_fresh (fresh : t.known s a = false) : t.run (depth + 1) s a =
    (t.succ a).foldlM (t.step depth a) (t.enter s a) >>= fun s => t.leave depth s a := by
  rw [run, if_neg (by rw [fresh]; exact Bool.false_ne_true)]
  rfl

/-- A node is left when all its successors are dealt with. -/
lemma run_unknown (fresh : t.known s a = false) : t.run (depth + 1) s a = .ok s' ↔
    ∃ s1, (t.succ a).foldlM (t.step depth a) (t.enter s a) = .ok s1 ∧ t.leave depth s1 a = .ok s' := by
  rw [run_fresh fresh]
  cases (t.succ a).foldlM (t.step depth a) (t.enter s a) with
  | error e => exact ⟨nofun, fun ends => by obtain ⟨_, e, _⟩ := ends; cases e⟩
  | ok s1 => exact ⟨fun e => ⟨s1, rfl, e⟩, fun ends => by obtain ⟨_, e, left⟩ := ends; cases e; exact left⟩

/-- A step visits a successor, and goes on after it. -/
lemma step_eq_ok {b : α} :
    t.step depth a s b = .ok s' ↔ ∃ s1, t.run depth s b = .ok s1 ∧ s' = t.after a s1 b := by
  rw [step]
  cases t.run depth s b with
  | error e => exact ⟨nofun, fun ends => by obtain ⟨_, e, _⟩ := ends; cases e⟩
  | ok s1 =>
    refine ⟨fun e => ⟨s1, rfl, (Except.ok.inj e).symm⟩, fun ends => ?_⟩
    obtain ⟨_, e, rfl⟩ := ends
    cases e
    rfl

/-- What ends from the successors at some depth does so at a greater one. -/
lemma fold_deeper (each : ∀ s b s', t.run depth s b = .ok s' → t.run depth' s b = .ok s')
    (fold : l.foldlM (t.step depth a) s = .ok s') : l.foldlM (t.step depth' a) s = .ok s' := by
  apply foldlM_sees id (fun s b _ s' e => ?_) fold
  obtain ⟨s1, inner, rfl⟩ := step_eq_ok.1 e
  exact step_eq_ok.2 ⟨s1, each s b s1 inner, rfl⟩

/-- A traversal that ends does so at any greater depth. -/
lemma run_mono (m : t.Marks key marks) (ran : t.run depth s a = .ok s') (le : depth ≤ depth') :
    t.run depth' s a = .ok s' := by
  induction depth generalizing depth' s a s' with
  | zero => cases ran
  | succ depth ih =>
    cases depth' with
    | zero => exact absurd le (Nat.not_succ_le_zero _)
    | succ depth' =>
      have le := Nat.le_of_succ_le_succ le
      cases fresh : t.known s a with
      | true =>
        rw [run_known fresh] at ran ⊢
        exact ran
      | false =>
        rw [run_unknown fresh] at ran ⊢
        obtain ⟨s1, fold, left⟩ := ran
        refine ⟨s1, ?_, m.deeper depth depth' s1 a s' left le⟩
        exact fold_deeper (fun s b s' inner => ih inner le) fold

/-- The traversal ends, and keeps the keys. -/
def Ends (t : Traversal σ α ε) (marks : σ → Set κ) (s : σ) (a : α) : Prop :=
  ∃ depth s', t.run depth s a = .ok s' ∧ marks s ⊆ marks s'

/-- Successors from which the traversal ends are dealt with. -/
lemma fold_ends (m : t.Marks key marks)
    (each : ∀ b ∈ l, ∀ s', marks s ⊆ marks s' → t.Ends marks s' b) :
    ∃ depth s', l.foldlM (t.step depth a) s = .ok s' ∧ marks s ⊆ marks s' := by
  induction l generalizing s with
  | nil => exact ⟨0, s, rfl, Subset.rfl⟩
  | cons b l ih =>
    obtain ⟨depth, s1, first, kept⟩ := each b (.head _) s Subset.rfl
    have kept := kept.trans (m.after a s1 b)
    obtain ⟨depth', s', rest, kept'⟩ := ih fun c mem s' le => each c (.tail _ mem) s' (kept.trans le)
    refine ⟨max depth depth', s', ?_, kept.trans kept'⟩
    have head : t.step (max depth depth') a s b = .ok (t.after a s1 b) :=
      step_eq_ok.2 ⟨s1, run_mono m first (le_max_left _ _), rfl⟩
    rw [List.foldlM_cons, head]
    exact fold_deeper (fun s c s' inner => run_mono m inner (le_max_right _ _)) rest

/-- A node is dealt with when its successors are. -/
lemma ends_of_succ (m : t.Marks key marks)
    (each : ∀ b ∈ t.succ a, ∀ s', marks (t.enter s a) ⊆ marks s' → t.Ends marks s' b) :
    t.Ends marks s a := by
  cases fresh : t.known s a with
  | true => exact ⟨1, s, run_known fresh, Subset.rfl⟩
  | false =>
    obtain ⟨depth, s1, fold, kept⟩ := fold_ends (a := a) m each
    obtain ⟨depth', s', left, kept'⟩ := m.leave s1 a
    refine ⟨max depth depth' + 1, s', ?_, (m.enter s a).trans (kept.trans kept')⟩
    rw [run_unknown fresh]
    refine ⟨s1, ?_, m.deeper _ _ _ _ _ left (le_max_right _ _)⟩
    exact fold_deeper (fun s b s' inner => run_mono m inner (le_max_left _ _)) fold

/-- The keys that the traversal has not seen, of nodes that have successors. -/
def unseen (t : Traversal σ α ε) (key : α → Option κ) (marks : σ → Set κ) (s : σ) : Set κ :=
  {k | ∃ a, t.succ a ≠ [] ∧ key a = some k} \ marks s

/-- Finitely many nodes are left to visit. -/
lemma unseen_finite (finite : {a | t.succ a ≠ []}.Finite) : (t.unseen key marks s).Finite := by
  apply Set.Finite.sdiff
  apply ((finite.image key).preimage (Option.some_injective κ).injOn).subset
  rintro k ⟨a, inner, named⟩
  exact ⟨a, inner, named⟩

/-- With more marks fewer nodes are left. -/
lemma unseen_mono (kept : marks s ⊆ marks s') : t.unseen key marks s' ⊆ t.unseen key marks s :=
  sdiff_subset_sdiff_right kept

/-- Where no cycle consists of nodes without a key, a traversal of a finite graph ends. -/
theorem ends (m : t.Marks key marks) (finite : {a | t.succ a ≠ []}.Finite)
    (acyclic : ∀ a, ¬ TransGen (fun a b => key a = none ∧ b ∈ t.succ a) a a) (s : σ) (a : α) :
    t.Ends marks s a := by
  have sources : {a | ∃ b, key a = none ∧ b ∈ t.succ a}.Finite := by
    apply finite.subset
    rintro a ⟨b, _, mem⟩
    exact List.ne_nil_of_mem mem
  -- by the number of keys not seen and, while it stays the same, by the paths without keys
  suffices all : ∀ n a s, (t.unseen key marks s).ncard ≤ n → t.Ends marks s a from all _ a s le_rfl
  intro n
  induction n using Nat.strong_induction_on with
  | _ n ih =>
    apply acyclic_induction (P := fun a => ∀ s, (t.unseen key marks s).ncard ≤ n → t.Ends marks s a)
      sources acyclic
    intro a unkeyed s le
    cases named : key a with
    | none =>
      apply ends_of_succ m
      intro b mem s' kept
      apply unkeyed b (.single ⟨named, mem⟩) s'
      exact (ncard_le_ncard (unseen_mono ((m.enter s a).trans kept)) (unseen_finite finite)).trans le
    | some k =>
      rcases Classical.em (k ∈ marks s) with seen | fresh
      · exact ⟨1, s, run_known (m.seen s a k named seen), Subset.rfl⟩
      · apply ends_of_succ m
        intro b mem s' kept
        have fewer : (t.unseen key marks s').ncard < (t.unseen key marks s).ncard := by
          apply ncard_lt_ncard ?_ (unseen_finite finite)
          refine ⟨unseen_mono ((m.enter s a).trans kept), fun back => ?_⟩
          have inside : k ∈ t.unseen key marks s := ⟨⟨a, List.ne_nil_of_mem mem, named⟩, fresh⟩
          exact (back inside).2 (kept (m.entered s a k named))
        exact ih _ (fewer.trans_le le) b s' le_rfl

end Traversal

/-! ### Walks -/

section Walks

variable {key : α → Option κ} {succ : α → List α} {done done' : List κ} {out out' l : List α} {a : α}

/-- A walk that ends comes to no cycle of nodes without a key. -/
lemma Walk.acyclic (walk : Walk key succ done out l done' out') (mem : a ∈ l) :
    ¬ TransGen (fun a b => key a = none ∧ b ∈ succ a) a a := by
  induction walk generalizing a with
  | nil => cases mem
  | known named _ _ ih =>
    rcases List.mem_cons.1 mem with rfl | mem
    · intro cycle
      obtain ⟨_, first, _⟩ := TransGen.head'_iff.1 cycle
      cases named.symm.trans first.1
    · exact ih mem
  | enter named _ _ _ _ rest =>
    rcases List.mem_cons.1 mem with rfl | mem
    · intro cycle
      obtain ⟨_, first, _⟩ := TransGen.head'_iff.1 cycle
      cases named.symm.trans first.1
    · exact rest mem
  | through _ _ _ inner rest =>
    rcases List.mem_cons.1 mem with rfl | mem
    · intro cycle
      obtain ⟨b, first, back⟩ := TransGen.head'_iff.1 cycle
      exact inner first.2 (TransGen.tail' back first)
    · exact rest mem

/-- A walk marks no key twice. -/
lemma Walk.nodup (walk : Walk key succ done out l done' out') (nodup : done.Nodup) : done'.Nodup := by
  induction walk with
  | nil => exact nodup
  | known _ _ _ ih => exact ih nodup
  | enter _ fresh _ _ inner rest =>
    apply rest
    apply inner
    rw [← List.concat_eq_append]
    exact nodup.concat fresh
  | through _ _ _ inner rest => exact rest (inner nodup)

/-- A walk keeps its marks. -/
lemma Walk.subset (walk : Walk key succ done out l done' out') : done ⊆ done' := by
  induction walk with
  | nil => exact List.Subset.refl _
  | known _ _ _ ih => exact ih
  | enter _ _ _ _ inner rest =>
    exact List.Subset.trans (List.subset_append_left ..) (List.Subset.trans inner rest)
  | through _ _ _ inner rest => exact List.Subset.trans inner rest

/-- Nodes with different keys, all of which were marked between two points of a walk. -/
structure Listed (key : α → Option κ) (done done' : List κ) (new : List α) : Prop where
  apart : new.Pairwise fun n m => key n ≠ key m
  marked : ∀ n ∈ new, ∃ k ∈ done', k ∉ done ∧ key n = some k

/-- Two lists, one after the other. -/
lemma Listed.append {done1 : List κ} {new1 new2 : List α} (first : Listed key done done1 new1)
    (second : Listed key done1 done' new2) (early : done ⊆ done1) (late : done1 ⊆ done') :
    Listed key done done' (new1 ++ new2) where
  apart := by
    apply List.pairwise_append.2
    refine ⟨first.apart, second.apart, fun n mem m mem' same => ?_⟩
    obtain ⟨k, there, _, named⟩ := first.marked n mem
    obtain ⟨k', _, fresh, named'⟩ := second.marked m mem'
    cases named.symm.trans (same.trans named')
    exact fresh there
  marked n mem := by
    rcases List.mem_append.1 mem with mem | mem
    · obtain ⟨k, there, fresh, named⟩ := first.marked n mem
      exact ⟨k, late there, fresh, named⟩
    · obtain ⟨k, there, fresh, named⟩ := second.marked n mem
      exact ⟨k, there, fun known => fresh (early known), named⟩

/-- The nodes that a walk lists have different keys, which it has marked. -/
lemma Walk.listed (walk : Walk key succ done out l done' out') :
    ∃ new, out' = out ++ new ∧ Listed key done done' new := by
  induction walk with
  | nil => exact ⟨[], (List.append_nil _).symm, .nil, nofun⟩
  | known _ _ _ ih => exact ih
  | @enter n k l done out done1 out1 done' out' named fresh walk1 walk2 inner rest =>
    obtain ⟨new1, rfl, first⟩ := inner
    obtain ⟨new2, rfl, second⟩ := rest
    have there : k ∈ done1 := walk1.subset (List.mem_append_right _ (.head _))
    have entered : Listed key done done1 (new1 ++ [n]) := by
      refine ⟨?_, fun m mem => ?_⟩
      · apply List.pairwise_append.2
        refine ⟨first.apart, List.pairwise_singleton _ _, fun m mem m' mem' same => ?_⟩
        obtain ⟨k', _, other, named'⟩ := first.marked m mem
        rw [List.mem_singleton.1 mem'] at same
        cases named'.symm.trans (same.trans named)
        exact other (List.mem_append_right _ (.head _))
      · rcases List.mem_append.1 mem with mem | mem
        · obtain ⟨k', there', other, named'⟩ := first.marked m mem
          exact ⟨k', there', fun known => other (List.mem_append_left _ known), named'⟩
        · rw [List.mem_singleton.1 mem]
          exact ⟨k, there, fresh, named⟩
    have early : done ⊆ done1 := List.Subset.trans (List.subset_append_left ..) walk1.subset
    refine ⟨new1 ++ [n] ++ new2, ?_, entered.append second early walk2.subset⟩
    simp only [List.append_assoc]
  | through _ walk1 walk2 inner rest =>
    obtain ⟨new1, rfl, first⟩ := inner
    obtain ⟨new2, rfl, second⟩ := rest
    exact ⟨new1 ++ new2, List.append_assoc .., first.append second walk1.subset walk2.subset⟩

end Walks

end Irx.Lib
