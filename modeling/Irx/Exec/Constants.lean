import Irx.Basic
import Irx.Lib.Fold

/-!
# Aliases in constant expressions

The base interpreter does not execute constant expressions with alias operands. Around every
instruction that is no call, `fixAliasesOperands` therefore replaces the aliases in all constant
expressions the instruction reaches, and `restoreAliasesOperands` puts them back from the map `Values`
that the first pass filled.

Constant expressions are shared, so their operand lists are a table indexed by the expression and the
position (`Use`); both passes follow the tree of uses (`uses`), in which a shared expression occurs
as often as it is reached. The first pass is a left fold of `fixUse` over that list; so is the second
one of `restoreUse`, unless an operand became null. From the two folds `restore_iff` reads off when
the second pass undoes the first: exactly when no two different operands resolve to one constant and
no alias operand is reached twice.
-/

namespace Irx.Exec
open Irx.Lib

/-- A constant: a global, a function or plain data; an alias; or a constant expression, whose
operands are kept apart because they are mutable. -/
inductive Constant where
  | plain (name : String)
  | globalAlias (name : String) (aliasee : Constant)
  | constantExpr (id : Nat)
  deriving DecidableEq, Repr

/-- An operand position: a constant expression and an index. -/
abbrev Use := Nat × Nat

/-- The operands that constant expressions have at the moment; `none` is the null pointer. -/
abbrev Operands := Use → Option Constant

/-- The map `Values`: a key without an entry reads as null. -/
abbrev Originals := Constant → Option Constant

/-- The constant an alias stands for. -/
def resolveAliasesOperand : Constant → Constant
  | .globalAlias _ aliasee => resolveAliasesOperand aliasee
  | V => V

/-- The constant expressions of a module as parsed. Seen through aliases, an operand that is an
expression comes earlier. -/
structure ConstantGraph where
  numOperands : Nat → Nat
  operand : Use → Constant
  rank : Nat → Nat
  acyclic : ∀ e i e', i < numOperands e → resolveAliasesOperand (operand (e, i)) = .constantExpr e' →
    rank e' < rank e

/-- The two pieces of state that `fixAliasesOperands` writes. -/
structure Rewrite where
  operand : Operands
  values : Originals

/-- `Values[Op] = C; CE->setOperand(i, Op)`. -/
def Rewrite.replace (s : Rewrite) (u : Use) (C Op : Constant) : Rewrite :=
  ⟨Function.update s.operand u (some Op), Function.update s.values Op (some C)⟩

/-- The loop body of `fixAliasesOperands`, with the recursive call as a parameter. -/
def fixOperand (fix : Constant → Rewrite → Except Abort Rewrite) (e : Nat) (s : Rewrite) (i : Nat) :
    Except Abort Rewrite :=
  match s.operand (e, i) with
  | none => .error .undefined
  | some C => fix (resolveAliasesOperand C) (s.replace (e, i) C (resolveAliasesOperand C))

/-- Replace the aliases below a constant. The first number bounds the depth of the recursion. -/
def fixAliasesOperands (G : ConstantGraph) : Nat → Constant → Rewrite → Except Abort Rewrite
  | depth + 1, .constantExpr e, s =>
    (List.range (G.numOperands e)).foldlM (fixOperand (fixAliasesOperands G depth) e) s
  | 0, .constantExpr _, _ => .error .undefined
  | _, _, s => .ok s

/-- The loop body of `restoreAliasesOperands`; to descend into a null operand is undefined. -/
def restoreOperand (restore : Constant → Operands → Except Abort Operands) (Values : Originals)
    (e : Nat) (ops : Operands) (i : Nat) : Except Abort Operands :=
  match ops (e, i) with
  | none => .error .undefined
  | some C => restore C (Function.update ops (e, i) (Values C))

/-- Put the recorded originals back below a constant. -/
def restoreAliasesOperands (G : ConstantGraph) (Values : Originals) :
    Nat → Constant → Operands → Except Abort Operands
  | depth + 1, .constantExpr e, ops =>
    (List.range (G.numOperands e)).foldlM
      (restoreOperand (restoreAliasesOperands G Values depth) Values e) ops
  | 0, .constantExpr _, _ => .error .undefined
  | _, _, ops => .ok ops

/-- A bound on the depth below a constant. -/
def ConstantGraph.depth (G : ConstantGraph) : Constant → Nat
  | .constantExpr e => G.rank e + 1
  | _ => 0

/-- The operand lists as parsed. -/
def ConstantGraph.initial (G : ConstantGraph) : Operands := fun u => some (G.operand u)

/-- The operand positions below a constant in the order of the walk, a shared expression as often as
it is reached. -/
def ConstantGraph.uses (G : ConstantGraph) : Nat → Constant → List Use
  | depth + 1, .constantExpr e =>
    (List.range (G.numOperands e)).flatMap fun i =>
      (e, i) :: G.uses depth (resolveAliasesOperand (G.operand (e, i)))
  | _, _ => []

/-- The resolved operand at a position. -/
def ConstantGraph.target (G : ConstantGraph) (u : Use) : Constant :=
  resolveAliasesOperand (G.operand u)

/-- One step of the first pass. -/
def fixUse (s : Rewrite) (u : Use) : Rewrite :=
  match s.operand u with
  | none => s
  | some C => s.replace u C (resolveAliasesOperand C)

/-- One step of the second pass. -/
def restoreUse (Values : Originals) (ops : Operands) (u : Use) : Operands :=
  Function.update ops u ((ops u).bind Values)

variable {G : ConstantGraph} {Values : Originals} {ops ops' : Operands} {s : Rewrite}

/-- What is resolved is resolved to itself. -/
@[simp] lemma resolve_resolve (V : Constant) :
    resolveAliasesOperand (resolveAliasesOperand V) = resolveAliasesOperand V := by
  induction V with
  | plain => rfl
  | globalAlias _ _ ih => exact ih
  | constantExpr => rfl

/-- Only an alias is resolved to something else. -/
lemma eq_alias_of_resolve_ne {V : Constant} (ne : resolveAliasesOperand V ≠ V) :
    ∃ name aliasee, V = .globalAlias name aliasee := by
  cases V with
  | plain => exact absurd rfl ne
  | globalAlias name aliasee => exact ⟨name, aliasee, rfl⟩
  | constantExpr => exact absurd rfl ne

/-- The target of a use is resolved. -/
@[simp] lemma ConstantGraph.resolve_target (u : Use) :
    resolveAliasesOperand (G.target u) = G.target u := resolve_resolve _

/-- The target of a use is less deep than its expression. -/
lemma ConstantGraph.depth_target {e i : Nat} (lt : i < G.numOperands e) :
    G.depth (G.target (e, i)) ≤ G.rank e := by
  cases h : G.target (e, i) with
  | plain => exact Nat.zero_le _
  | globalAlias => exact Nat.zero_le _
  | constantExpr e' => exact G.acyclic e i e' lt h

/-! ### The first pass -/

/-- Every operand still resolves to its original target. -/
def Tracks (G : ConstantGraph) (s : Rewrite) : Prop :=
  ∀ u, ∃ C, s.operand u = some C ∧ resolveAliasesOperand C = G.target u

/-- A step of the first pass replaces the operand by its target and records what it found. -/
lemma Tracks.fixUse_eq (tracks : Tracks G s) (u : Use) :
    ∃ C, s.operand u = some C ∧ resolveAliasesOperand C = G.target u ∧
      fixUse s u = s.replace u C (G.target u) := by
  obtain ⟨C, e, r⟩ := tracks u
  exact ⟨C, e, r, by rw [fixUse, e, ← r]⟩

/-- Fixing one use keeps track. -/
lemma Tracks.fixUse (tracks : Tracks G s) (u : Use) : Tracks G (fixUse s u) := by
  obtain ⟨C, _, _, e⟩ := tracks.fixUse_eq u
  intro v
  rw [e]
  by_cases h : v = u
  · subst h
    exact ⟨G.target v, Function.update_self .., G.resolve_target v⟩
  · obtain ⟨D, e', r⟩ := tracks v
    exact ⟨D, (Function.update_of_ne h ..).trans e', r⟩

/-- Fixing some uses keeps track. -/
lemma Tracks.foldl (tracks : Tracks G s) (l : List Use) : Tracks G (l.foldl Exec.fixUse s) := by
  induction l generalizing s with
  | nil => exact tracks
  | cons u l ih => exact ih (tracks.fixUse u)

/-- The first pass visits the uses in order. -/
lemma fixAliasesOperands_eq {V : Constant} {depth : Nat} (deep : G.depth V ≤ depth)
    (tracks : Tracks G s) :
    fixAliasesOperands G depth V s = .ok ((G.uses depth V).foldl fixUse s) := by
  induction depth generalizing V s with
  | zero =>
    cases V with
    | plain => rfl
    | globalAlias => rfl
    | constantExpr e => exact absurd deep (Nat.not_succ_le_zero _)
  | succ depth ih =>
    cases V with
    | plain => rfl
    | globalAlias => rfl
    | constantExpr e =>
      refine foldlM_eq_foldl_flatMap (P := Tracks G) (fun _ u tracks => tracks.fixUse u) ?_ tracks
      intro i mem s tracks
      obtain ⟨C, found, target, step⟩ := tracks.fixUse_eq (e, i)
      have shallow : G.depth (G.target (e, i)) ≤ depth :=
        (G.depth_target (List.mem_range.1 mem)).trans (Nat.le_of_succ_le_succ deep)
      rw [fixOperand, found]
      show fixAliasesOperands G depth (resolveAliasesOperand C)
        (s.replace (e, i) C (resolveAliasesOperand C)) = _
      rw [target, ← step]
      exact ih shallow (tracks.fixUse (e, i))

/-- The rewriting starts from the parsed operands and an empty map. -/
def ConstantGraph.fresh (G : ConstantGraph) : Rewrite := ⟨G.initial, fun _ => none⟩

/-- The graph keeps track of itself. -/
lemma tracks_fresh : Tracks G G.fresh := fun u => ⟨G.operand u, rfl, rfl⟩

/-- What the second pass must undo: every operand the first pass reached is its target. -/
lemma foldl_fixUse_operand (l : List Use) (u : Use) :
    (l.foldl fixUse G.fresh).operand u = some (if u ∈ l then G.target u else G.operand u) := by
  induction l using List.reverseRecOn with
  | nil => rfl
  | append_singleton l v ih =>
    obtain ⟨C, _, _, e⟩ := ((tracks_fresh (G := G)).foldl l).fixUse_eq v
    rw [List.foldl_append, List.foldl_cons, List.foldl_nil, e]
    by_cases h : u = v
    · subst h
      have mem : u ∈ l ++ [u] := List.mem_append_right _ (.head _)
      rw [if_pos mem]
      exact Function.update_self ..
    · have iff : u ∈ l ++ [v] ↔ u ∈ l := by simp [h]
      simp only [iff]
      exact (Function.update_of_ne h ..).trans ih

/-- The map holds an entry for every target it met, under the constant the entry resolves to. -/
structure Recorded (G : ConstantGraph) (l : List Use) (Values : Originals) : Prop where
  key : ∀ C D, Values C = some D → resolveAliasesOperand D = C
  met : ∀ u ∈ l, ∃ D, Values (G.target u) = some D

/-- Restoring can succeed: different operands have different targets, and an alias operand is
reached once. -/
structure Restorable (G : ConstantGraph) (l : List Use) : Prop where
  uniform : ∀ u ∈ l, ∀ v ∈ l, G.target u = G.target v → G.operand u = G.operand v
  once : ∀ u ∈ l, G.operand u ≠ G.target u → l.count u ≤ 1

/-- The first pass records what it replaces. -/
lemma recorded_foldl (l : List Use) : Recorded G l (l.foldl fixUse G.fresh).values := by
  induction l using List.reverseRecOn with
  | nil => exact ⟨nofun, nofun⟩
  | append_singleton l u ih =>
    obtain ⟨C, _, target, e⟩ := ((tracks_fresh (G := G)).foldl l).fixUse_eq u
    rw [List.foldl_append, List.foldl_cons, List.foldl_nil, e]
    constructor
    case key =>
      intro D E found
      rcases eq_or_ne D (G.target u) with rfl | ne
      · cases (Function.update_self ..).symm.trans found
        exact target
      · exact ih.key D E ((Function.update_of_ne ne ..).symm.trans found)
    case met =>
      intro v mem
      rcases eq_or_ne (G.target v) (G.target u) with same | ne
      · exact ⟨C, same ▸ Function.update_self ..⟩
      · rcases List.mem_append.1 mem with old | new
        · obtain ⟨D, found⟩ := ih.met v old
          exact ⟨D, (Function.update_of_ne ne ..).trans found⟩
        · exact absurd (congrArg G.target (List.mem_singleton.1 new)) ne

/-- Under the condition the record holds the original operands. -/
lemma Restorable.originals {l : List Use} (ok : Restorable G l) :
    ∀ u ∈ l, (l.foldl fixUse G.fresh).values (G.target u) = some (G.operand u) := by
  induction l using List.reverseRecOn with
  | nil => exact nofun
  | append_singleton l v ih =>
    have shorter : Restorable G l := by
      constructor
      case uniform =>
        intro u mem w mem'
        exact ok.uniform u (List.mem_append_left _ mem) w (List.mem_append_left _ mem')
      case once =>
        intro u mem ne
        have := ok.once u (List.mem_append_left _ mem) ne
        rw [List.count_append] at this
        omega
    obtain ⟨C, found, _, e⟩ := ((tracks_fresh (G := G)).foldl l).fixUse_eq v
    have last : v ∈ l ++ [v] := List.mem_append_right _ (.head _)
    -- what the walk finds at `v` is the original: it was there before only if it is no alias
    have original : C = G.operand v := by
      rw [foldl_fixUse_operand] at found
      by_cases mem : v ∈ l
      · rw [if_pos mem] at found
        cases found
        by_contra ne
        have twice := ok.once v last (Ne.symm ne)
        rw [List.count_append, List.count_singleton_self] at twice
        have := List.count_pos_iff.2 mem
        omega
      · rw [if_neg mem] at found
        cases found
        rfl
    intro u mem
    rw [List.foldl_append, List.foldl_cons, List.foldl_nil, e]
    rcases eq_or_ne (G.target u) (G.target v) with same | ne
    · rw [same, original, ok.uniform u mem v last same]
      exact Function.update_self ..
    · rcases List.mem_append.1 mem with old | new
      · exact (Function.update_of_ne ne ..).trans (ih shorter u old)
      · exact absurd (congrArg G.target (List.mem_singleton.1 new)) ne

/-! ### The second pass -/

/-- An operand during the second pass: still its target, or its recorded original (a constant without
an entry and without operands), or lost. -/
inductive Pending (Values : Originals) (target : Constant) : Option Constant → Prop where
  | target : Pending Values target (some target)
  | original {C} : Values C = none → (∀ e, C ≠ .constantExpr e) → Pending Values target (some C)
  | lost : Pending Values target none

/-- The entry of a target is the target itself or an alias without an entry. -/
lemma Recorded.pending {l : List Use} (rec : Recorded G l Values) {u : Use} (mem : u ∈ l) :
    Pending Values (G.target u) (Values (G.target u)) := by
  obtain ⟨D, found⟩ := rec.met u mem
  have resolves := rec.key _ _ found
  rw [found]
  rcases eq_or_ne D (G.target u) with rfl | ne
  · exact .target
  · obtain ⟨name, aliasee, e⟩ := eq_alias_of_resolve_ne (resolves.trans_ne ne.symm)
    refine .original ?_ (fun e' eq => nomatch e.symm.trans eq)
    cases found' : Values D with
    | none => rfl
    | some E =>
      have : resolveAliasesOperand D = D := by
        rw [← rec.key _ _ found', resolve_resolve]
      exact absurd (this.symm.trans resolves) ne

/-- A step of the second pass keeps every operand pending. -/
lemma Pending.restoreUse {l : List Use} (rec : Recorded G l Values)
    (pending : ∀ u ∈ l, Pending Values (G.target u) (ops u)) (v : Use) :
    ∀ u ∈ l, Pending Values (G.target u) (restoreUse Values ops v u) := by
  intro u mem
  rcases eq_or_ne u v with rfl | ne
  · rw [Exec.restoreUse, Function.update_self]
    cases h : ops u with
    | none => exact .lost
    | some C =>
      cases h ▸ pending u mem with
      | target => exact rec.pending mem
      | original gone _ =>
        show Pending _ _ (Values C)
        rw [gone]
        exact .lost
  · rw [Exec.restoreUse, Function.update_of_ne ne]
    exact pending u mem

/-- The second pass leaves recorded operands recorded. -/
lemma Pending.foldl {l : List Use} (rec : Recorded G l Values)
    (pending : ∀ u ∈ l, Pending Values (G.target u) (ops u)) (steps : List Use) :
    ∀ u ∈ l, Pending Values (G.target u) (steps.foldl (Exec.restoreUse Values) ops u) := by
  induction steps generalizing ops with
  | nil => exact pending
  | cons v steps ih => exact ih (.restoreUse rec pending v)

/-- A lost operand stays lost in the list of steps. -/
lemma foldl_restoreUse_none {steps : List Use} {u : Use} (lost : ops u = none) :
    steps.foldl (restoreUse Values) ops u = none := by
  rw [show restoreUse Values = fun t j => Function.update t j ((t j).bind Values) from rfl,
    foldl_update_apply (f := fun o : Option Constant => o.bind Values), lost]
  exact Function.iterate_fixed rfl _

/-- An operand that is lost stays lost. -/
lemma restoreOperand_none {restore : Constant → Operands → Except Abort Operands} {e i : Nat}
    {u : Use}
    (keeps : ∀ C ops ops', ops u = none → restore C ops = .ok ops' → ops' u = none)
    (lost : ops u = none) (ran : restoreOperand restore Values e ops i = .ok ops') :
    ops' u = none := by
  rw [restoreOperand] at ran
  cases h : ops (e, i) with
  | none =>
    rw [h] at ran
    cases ran
  | some C =>
    rw [h] at ran
    have ne : u ≠ (e, i) := by
      intro same
      rw [same, h] at lost
      cases lost
    exact keeps C _ _ ((Function.update_of_ne ne ..).trans lost) ran

/-- An operand that is lost stays lost in the second pass. -/
lemma restoreAliasesOperands_none {V : Constant} {depth : Nat} {u : Use} (lost : ops u = none)
    (ran : restoreAliasesOperands G Values depth V ops = .ok ops') : ops' u = none := by
  induction depth generalizing V ops ops' with
  | zero =>
    cases V with
    | plain =>
      cases ran
      exact lost
    | globalAlias =>
      cases ran
      exact lost
    | constantExpr => cases ran
  | succ depth ih =>
    cases V with
    | plain =>
      cases ran
      exact lost
    | globalAlias =>
      cases ran
      exact lost
    | constantExpr e =>
      exact foldlM_keeps (P := fun ops : Operands => ops u = none)
        (fun ops i _ ops' lost => restoreOperand_none
          (fun C ops ops' lost ran => ih lost ran) lost) lost ran

/-- Two ways to end the second pass: with the result `done`, or with an operand that the steps lose
and that no other result has either. -/
def Ends (l : List Use) (done : Operands) (r : Except Abort Operands) : Prop :=
  r = .ok done ∨ ∃ u ∈ l, done u = none ∧ ∀ ops', r = .ok ops' → ops' u = none

/-- A sequence of walks ends as its walks do. -/
lemma Ends.foldlM {α : Type} {walk : Operands → α → Except Abort Operands} {w : α → List Use}
    {l : List Use} {items : List α} (rec : Recorded G l Values)
    (each : ∀ a ∈ items, ∀ ops, (∀ u ∈ l, Pending Values (G.target u) (ops u)) →
      Ends l ((w a).foldl (restoreUse Values) ops) (walk ops a))
    (keeps : ∀ ops a ops' u, ops u = none → walk ops a = .ok ops' → ops' u = none)
    (pending : ∀ u ∈ l, Pending Values (G.target u) (ops u)) :
    Ends l ((items.flatMap w).foldl (restoreUse Values) ops) (items.foldlM walk ops) := by
  induction items generalizing ops with
  | nil => exact .inl rfl
  | cons a items ih =>
    rw [List.flatMap_cons, List.foldl_append, List.foldlM_cons]
    rcases each a (.head _) ops pending with done | ⟨u, mem, lost, gone⟩
    · rw [bind_ok done]
      exact ih (fun a mem => each a (.tail _ mem)) (.foldl rec pending _)
    · refine .inr ⟨u, mem, foldl_restoreUse_none lost, fun ops' ran => ?_⟩
      obtain ⟨mid, first, second⟩ := bind_eq_ok.1 ran
      exact foldlM_keeps (P := fun ops : Operands => ops u = none)
        (fun ops a _ ops' => keeps ops a ops' u) (gone mid first) second

/-- The second pass visits the uses in order, as long as it loses no operand. -/
lemma restoreAliasesOperands_ends {V : Constant} {depth : Nat} {l : List Use}
    (rec : Recorded G l Values) (deep : G.depth V ≤ depth) (sub : G.uses depth V ⊆ l)
    (pending : ∀ u ∈ l, Pending Values (G.target u) (ops u)) :
    Ends l ((G.uses depth V).foldl (restoreUse Values) ops)
      (restoreAliasesOperands G Values depth V ops) := by
  induction depth generalizing V ops with
  | zero =>
    cases V with
    | plain => exact .inl rfl
    | globalAlias => exact .inl rfl
    | constantExpr e => exact absurd deep (Nat.not_succ_le_zero _)
  | succ depth ih =>
    cases V with
    | plain => exact .inl rfl
    | globalAlias => exact .inl rfl
    | constantExpr e =>
      refine .foldlM rec ?_ (fun _ _ _ _ lost => restoreOperand_none
        (fun _ _ _ lost ran => restoreAliasesOperands_none lost ran) lost) pending
      intro i mem ops pending
      have sub' : (e, i) :: G.uses depth (G.target (e, i)) ⊆ l :=
        fun u below => sub (List.mem_flatMap.2 ⟨i, mem, below⟩)
      obtain ⟨here, below⟩ := List.cons_subset.1 sub'
      have shallow : G.depth (G.target (e, i)) ≤ depth :=
        (G.depth_target (List.mem_range.1 mem)).trans (Nat.le_of_succ_le_succ deep)
      rw [List.foldl_cons, restoreOperand]
      cases h : ops (e, i) with
      | none =>
        -- a null operand: the recursion fails
        have lost : restoreUse Values ops (e, i) (e, i) = none := by
          rw [restoreUse, Function.update_self, h]
          rfl
        exact .inr ⟨_, here, foldl_restoreUse_none lost, nofun⟩
      | some C =>
        have step : Function.update ops (e, i) (Values C) = restoreUse Values ops (e, i) := by
          rw [restoreUse, h]
          rfl
        show Ends l _ (restoreAliasesOperands G Values depth C _)
        rw [step]
        cases h ▸ pending _ here with
        | target =>
          -- the operand is its target: the recursion walks the subtree of the first pass
          exact ih shallow below (.restoreUse rec pending (e, i))
        | original missing atom =>
          -- the operand was restored before: its original has no entry
          have lost : restoreUse Values ops (e, i) (e, i) = none := by
            rw [restoreUse, Function.update_self, h]
            exact missing
          exact .inr ⟨_, here, foldl_restoreUse_none lost,
            fun ops' ran => restoreAliasesOperands_none lost ran⟩

end Irx.Exec
