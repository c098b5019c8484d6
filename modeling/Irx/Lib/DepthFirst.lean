import Mathlib

/-!
# Depth-first walks

A depth-first walk over a graph marks a node by its key when it enters it, and lists the node when all its
successors are dealt with. Nodes without a key are walked through each time. Where keys tell the nodes
apart, the walk lists what its start leads to (`Explores.reach`), and of two nodes it lists `Y` before `X`
exactly if, on the first way to `X`, it comes by a successor that leads to `Y` (`Explores.order`). What a
node leads to is meant around the nodes that the way has passed.
-/

namespace Irx.Lib

variable {α κ : Type} (key : α → Option κ) (succ : α → List α)

/-- A walk from a list of nodes, with the marks and the list of nodes before and after it. -/
inductive Walk : List κ → List α → List α → List κ → List α → Prop where
  | nil {done out} : Walk done out [] done out
  | known {n k l done out done' out'} : key n = some k → k ∈ done →
      Walk done out l done' out' → Walk done out (n :: l) done' out'
  | enter {n k l done out done1 out1 done' out'} : key n = some k → k ∉ done →
      Walk (done ++ [k]) out (succ n) done1 out1 → Walk done1 (out1 ++ [n]) l done' out' →
      Walk done out (n :: l) done' out'
  | through {n l done out done1 out1 done' out'} : key n = none →
      Walk done out (succ n) done1 out1 → Walk done1 out1 l done' out' →
      Walk done out (n :: l) done' out'

/-- The nodes that a walk comes to, in their order, with the marks before and after it. -/
inductive Comes : List κ → List α → List α → List κ → Prop where
  | nil {done} : Comes done [] [] done
  | known {n k l done visits done'} : key n = some k → k ∈ done → Comes done l visits done' →
      Comes done (n :: l) (n :: visits) done'
  | enter {n k l done visits1 done1 visits done'} : key n = some k → k ∉ done →
      Comes (done ++ [k]) (succ n) visits1 done1 → Comes done1 l visits done' →
      Comes done (n :: l) (n :: (visits1 ++ visits)) done'
  | through {n l done visits1 done1 visits done'} : key n = none → Comes done (succ n) visits1 done1 →
      Comes done1 l visits done' → Comes done (n :: l) (n :: (visits1 ++ visits)) done'

/-- The node has none of these keys. -/
def Free (S : List κ) (a : α) : Prop := ∀ k ∈ S, key a ≠ some k

/-- There is a path around the nodes with these keys. -/
inductive Leads (S : List κ) : α → α → Prop where
  | refl {a} : Free key S a → Leads S a a
  | step {a b c} : Free key S a → b ∈ succ a → Leads S b c → Leads S a c

/-- The keys on a way that goes on to the node. -/
def passed (n : α) (S : List κ) : List κ := (key n).toList ++ S

/-- On the first way to `X`, a successor that leads to `Y` comes before that which leads to `X`, or is one
of `X`. -/
inductive Before (X Y : α) : List κ → List α → Prop where
  | own {S a l} : a ∈ succ X → Leads key succ (passed key X S) a Y → Before X Y S (X :: l)
  | inside {S n l} : n ≠ X → Leads key succ S n X → Before X Y (passed key n S) (succ n) →
      Before X Y S (n :: l)
  | beside {S n b l} : ¬ Leads key succ S n X → Leads key succ S n Y → b ∈ l → Leads key succ S b X →
      Before X Y S (n :: l)
  | later {S n l} : ¬ Leads key succ S n X → Before X Y S l → Before X Y S (n :: l)

/-- The marks are those of a way and of the listed nodes; what a listed node leads to around the way is
listed. -/
structure Settled (S done : List κ) (out : List α) : Prop where
  marks : ∀ k, k ∈ done ↔ k ∈ S ∨ ∃ n ∈ out, key n = some k
  named : ∀ n ∈ out, ∃ k, key n = some k ∧ k ∉ S
  nodup : out.Nodup
  closed : ∀ n ∈ out, ∀ m k, key m = some k → Leads key succ S n m → m ∈ out

/-- What a walk from these nodes does when it comes to them on a way. -/
structure Explores (S : List κ) (l out : List α) (done' : List κ) (out' : List α) : Prop where
  settled : Settled key succ S done' out'
  grows : ∃ new, out' = out ++ new
  reach : ∀ m k, key m = some k → (m ∈ out' ↔ m ∈ out ∨ ∃ a ∈ l, Leads key succ S a m)
  order : ∀ X Y k l1 l2, key Y = some k → out' = l1 ++ X :: l2 → X ∉ out →
    (Y ∈ l1 ↔ Y ∈ out ∨ Before key succ X Y S l)

variable {key succ} {S done done' done1 : List κ} {out out' out1 l : List α} {a b c n m X Y : α} {k : κ}

/-- A node that is free of more keys is free of fewer. -/
lemma Free.mono (free : Free key (k :: S) a) : Free key S a := fun k' mem => free k' (.tail _ mem)

/-- A node with another key is free of one more. -/
lemma Free.cons (free : Free key S a) (ne : key a ≠ some k) : Free key (k :: S) a := by
  intro k' mem
  obtain rfl | mem := List.mem_cons.1 mem
  · exact ne
  · exact free k' mem

namespace Leads

/-- Where a way leads there is a free node. -/
lemma free (leads : Leads key succ S a b) : Free key S a := by
  cases leads with
  | refl free => exact free
  | step free _ _ => exact free

/-- A way that is free of more keys is free of fewer. -/
lemma mono (leads : Leads key succ (k :: S) a b) : Leads key succ S a b := by
  induction leads with
  | refl free => exact .refl free.mono
  | step free mem _ ih => exact .step free.mono mem ih

/-- A path comes by a node, or goes around it. Where it comes by, it goes on from there the last time. -/
lemma around (inj : ∀ n m k, key n = some k → key m = some k → n = m) (named : key n = some k)
    (leads : Leads key succ S a m) : Leads key succ (k :: S) a m ∨ Leads key succ S n m ∧
      (m = n ∨ ∃ b ∈ succ n, Leads key succ (k :: S) b m) := by
  induction leads with
  | @refl a free =>
    by_cases here : key a = some k
    · cases inj a n k here named
      exact .inr ⟨.refl free, .inl rfl⟩
    · exact .inl (.refl (free.cons here))
  | @step a b c free mem leads ih =>
    obtain ahead | later := ih
    · by_cases here : key a = some k
      · cases inj a n k here named
        exact .inr ⟨.step free mem leads, .inr ⟨b, mem, ahead⟩⟩
      · exact .inl (.step (free.cons here) mem ahead)
    · exact .inr later

/-- What a node leads to, one of its successors leads to around it. -/
lemma onward (inj : ∀ n m k, key n = some k → key m = some k → n = m) (named : key n = some k)
    (leads : Leads key succ S n m) : m = n ∨ ∃ b ∈ succ n, Leads key succ (k :: S) b m := by
  obtain avoids | ⟨_, onward⟩ := leads.around inj named
  · exact absurd named (avoids.free k (.head _))
  · exact onward

end Leads

/-- Behind a node its key is passed. -/
lemma passed_of_some (named : key n = some k) : passed key n S = k :: S := by
  rw [passed, named]
  rfl

/-- A node without a key passes none. -/
lemma passed_of_none (unnamed : key n = none) : passed key n S = S := by
  rw [passed, unnamed]
  rfl

/-! ### What comes before a node -/

/-- Where the walk comes to the node itself, one of its successors leads to `Y`. -/
lemma before_self_iff (free : Leads key succ S X X) :
    Before key succ X Y S (X :: l) ↔ ∃ a ∈ succ X, Leads key succ (passed key X S) a Y := by
  constructor
  · intro before
    cases before with
    | own mem leads => exact ⟨_, mem, leads⟩
    | inside ne => exact absurd rfl ne
    | beside none => exact absurd free none
    | later none => exact absurd free none
  · rintro ⟨a, mem, leads⟩
    exact .own mem leads

/-- Where a node leads to `X`, the walk from its successors decides. -/
lemma before_inside_iff (ne : n ≠ X) (leads : Leads key succ S n X) :
    Before key succ X Y S (n :: l) ↔ Before key succ X Y (passed key n S) (succ n) := by
  constructor
  · intro before
    cases before with
    | own => exact absurd rfl ne
    | inside _ _ before => exact before
    | beside none => exact absurd leads none
    | later none => exact absurd leads none
  · exact .inside ne leads

/-- Then the nodes behind it do not matter. -/
lemma before_head_iff (leads : Leads key succ S n X) :
    Before key succ X Y S (n :: l) ↔ Before key succ X Y S [n] := by
  obtain rfl | ne := eq_or_ne n X
  · rw [before_self_iff leads, before_self_iff leads]
  · rw [before_inside_iff ne leads, before_inside_iff ne leads]

/-- A split of a list without repetition that names an element of the first part splits this part. -/
lemma split_of_mem {l1 l2 new : List α} (nodup : (out ++ new).Nodup) (mem : X ∈ out)
    (split : out ++ new = l1 ++ X :: l2) : ∃ l3, out = l1 ++ X :: l3 := by
  obtain ⟨as, rfl, rest⟩ | ⟨bs, rfl, rest⟩ := List.append_eq_append_iff.1 split
  · have there : X ∈ new := by
      rw [rest]
      exact List.mem_append_right _ (.head _)
    exact absurd rfl ((List.nodup_append.1 nodup).2.2 X mem X there)
  · cases bs with
    | nil =>
      have there : X ∈ new := by
        rw [← List.nil_append new, ← rest]
        exact .head _
      exact absurd rfl ((List.nodup_append.1 nodup).2.2 X mem X there)
    | cons x bs =>
      cases rest
      exact ⟨bs, rfl⟩

namespace Explores

/-- There is nothing to explore. -/
lemma nil (settled : Settled key succ S done out) : Explores key succ S [] out done out where
  settled := settled
  grows := ⟨[], (List.append_nil out).symm⟩
  reach m k _ := by simp
  order X Y k l1 l2 _ split fresh := by
    rw [split] at fresh
    exact absurd (List.mem_append_right _ (.head _)) fresh

/-- A node that was marked before. -/
lemma known (inj : ∀ n m k, key n = some k → key m = some k → n = m)
    (settled : Settled key succ S done out) (named : key n = some k) (mem : k ∈ done) :
    Explores key succ S [n] out done out where
  settled := settled
  grows := ⟨[], (List.append_nil out).symm⟩
  reach m k' named' := by
    refine ⟨.inl, fun there => there.elim id ?_⟩
    rintro ⟨a, here, leads⟩
    rw [List.mem_singleton.1 here] at leads
    obtain onway | ⟨n', listed, same⟩ := (settled.marks k).1 mem
    · exact absurd named (leads.free k onway)
    · rw [inj n n' k named same] at leads
      exact settled.closed n' listed m k' named' leads
  order X Y k l1 l2 _ split fresh := by
    rw [split] at fresh
    exact absurd (List.mem_append_right _ (.head _)) fresh

/-- A walk through a node without a key. -/
lemma through (unnamed : key n = none) (inner : Explores key succ S (succ n) out done' out') :
    Explores key succ S [n] out done' out' where
  settled := inner.settled
  grows := inner.grows
  reach m k named := by
    rw [inner.reach m k named]
    refine or_congr_right ⟨?_, ?_⟩
    · rintro ⟨b, mem, leads⟩
      refine ⟨n, .head _, .step (fun k' _ => ?_) mem leads⟩
      rw [unnamed]
      exact nofun
    · rintro ⟨a, here, leads⟩
      rw [List.mem_singleton.1 here] at leads
      cases leads with
      | refl _ => cases unnamed.symm.trans named
      | step _ mem leads => exact ⟨_, mem, leads⟩
  order X Y k l1 l2 named split fresh := by
    have mem : X ∈ out' := by
      rw [split]
      exact List.mem_append_right _ (.head _)
    obtain ⟨kX, namedX, _⟩ := inner.settled.named X mem
    have other : n ≠ X := by
      rintro rfl
      cases unnamed.symm.trans namedX
    obtain ⟨b, mem, leads⟩ := ((inner.reach X kX namedX).1 mem).resolve_left fresh
    have leads : Leads key succ S n X := by
      refine .step (fun k' _ => ?_) mem leads
      rw [unnamed]
      exact nofun
    rw [inner.order X Y k l1 l2 named split fresh, before_inside_iff other leads,
      passed_of_none unnamed]

/-- A node that is entered has not been listed by the walk from its successors. -/
lemma absent (named : key n = some k) (inner : Explores key succ (k :: S) l out done' out') :
    n ∉ out' := by
  intro mem
  obtain ⟨k', named', off⟩ := inner.settled.named n mem
  cases named.symm.trans named'
  exact off (.head _)

/-- With the node, all it leads to is listed. -/
lemma lists (inj : ∀ n m k, key n = some k → key m = some k → n = m) (named : key n = some k)
    (inner : Explores key succ (k :: S) (succ n) out done' out') {k' : κ} (named' : key m = some k')
    (leads : Leads key succ S n m) : m ∈ out' ++ [n] := by
  obtain rfl | ahead := leads.onward inj named
  · exact List.mem_append_right _ (.head _)
  · exact List.mem_append_left _ ((inner.reach m k' named').2 (.inr ahead))

/-- What its successors list, the node leads to. -/
lemma listed (free : Free key S n) (inner : Explores key succ (k :: S) (succ n) out done' out')
    {k' : κ} (named' : key m = some k') (mem : m ∈ out') : m ∈ out ∨ Leads key succ S n m := by
  refine ((inner.reach m k' named').1 mem).imp_right ?_
  rintro ⟨b, mem, leads⟩
  exact .step free mem leads.mono

/-- When the node is left, it is listed and off the way. -/
lemma leave (inj : ∀ n m k, key n = some k → key m = some k → n = m) (named : key n = some k)
    (off : k ∉ S) (inner : Explores key succ (k :: S) (succ n) out done' out') :
    Settled key succ S done' (out' ++ [n]) where
  marks k' := by
    rw [inner.settled.marks]
    constructor
    · rintro (mem | ⟨m, mem, named'⟩)
      · obtain rfl | mem := List.mem_cons.1 mem
        · exact .inr ⟨n, List.mem_append_right _ (.head _), named⟩
        · exact .inl mem
      · exact .inr ⟨m, List.mem_append_left _ mem, named'⟩
    · rintro (mem | ⟨m, mem, named'⟩)
      · exact .inl (.tail _ mem)
      · obtain mem | mem := List.mem_append.1 mem
        · exact .inr ⟨m, mem, named'⟩
        · rw [List.mem_singleton.1 mem] at named'
          cases named.symm.trans named'
          exact .inl (.head _)
  named m mem := by
    obtain mem | mem := List.mem_append.1 mem
    · obtain ⟨k', named', off⟩ := inner.settled.named m mem
      exact ⟨k', named', fun onway => off (.tail _ onway)⟩
    · rw [List.mem_singleton.1 mem]
      exact ⟨k, named, off⟩
  nodup := by
    rw [← List.concat_eq_append]
    exact inner.settled.nodup.concat (inner.absent named)
  closed m mem m' k' named' leads := by
    obtain mem | mem := List.mem_append.1 mem
    · obtain avoids | ⟨leads, _⟩ := leads.around inj named
      · exact List.mem_append_left _ (inner.settled.closed m mem m' k' named' avoids)
      · exact inner.lists inj named named' leads
    · rw [List.mem_singleton.1 mem] at leads
      exact inner.lists inj named named' leads

/-- A node is entered: it is listed after what its successors lead to around it. -/
lemma enter (inj : ∀ n m k, key n = some k → key m = some k → n = m)
    (settled : Settled key succ S done out) (named : key n = some k) (fresh : k ∉ done)
    (inner : Explores key succ (k :: S) (succ n) out done' out') :
    Explores key succ S [n] out done' (out' ++ [n]) := by
  have off : k ∉ S := fun onway => fresh ((settled.marks k).2 (.inl onway))
  have free : Free key S n := by
    intro k' mem same
    cases named.symm.trans same
    exact off mem
  have left := inner.leave inj named off
  constructor
  case settled => exact left
  case grows =>
    obtain ⟨new, rfl⟩ := inner.grows
    exact ⟨new ++ [n], List.append_assoc ..⟩
  case reach =>
    intro m k' named'
    constructor
    · intro mem
      obtain mem | mem := List.mem_append.1 mem
      · exact (inner.listed free named' mem).imp_right fun leads => ⟨n, .head _, leads⟩
      · rw [List.mem_singleton.1 mem]
        exact .inr ⟨n, .head _, .refl free⟩
    · rintro (mem | ⟨a, here, leads⟩)
      · exact List.mem_append_left _ ((inner.reach m k' named').2 (.inl mem))
      · rw [List.mem_singleton.1 here] at leads
        exact inner.lists inj named named' leads
  case order =>
    intro X Y k' l1 l2 namedY split freshX
    have there : X ∈ out' ++ [n] := by
      rw [split]
      exact List.mem_append_right _ (.head _)
    obtain mem | last := List.mem_append.1 there
    · have other : n ≠ X := by
        rintro rfl
        exact inner.absent named mem
      obtain ⟨l3, split'⟩ := split_of_mem left.nodup mem split
      obtain ⟨kX, namedX, _⟩ := inner.settled.named X mem
      have leads := (inner.listed free namedX mem).resolve_left freshX
      rw [inner.order X Y k' l1 l3 namedY split' freshX, before_inside_iff other leads,
        passed_of_some named]
    · -- the node itself is the last in the list
      obtain rfl := List.mem_singleton.1 last
      have same : l1 = out' := by
        obtain ⟨as, e, rest⟩ | ⟨bs, e, rest⟩ := List.append_eq_append_iff.1 split
        · cases as with
          | nil => exact e.trans (List.append_nil _)
          | cons x as =>
            have := congrArg List.length rest
            simp at this
        · cases bs with
          | nil => exact (List.append_nil _).symm.trans e.symm
          | cons x bs =>
            cases rest
            exact absurd (e ▸ List.mem_append_right _ (.head _)) (inner.absent named)
      rw [same, inner.reach Y k' namedY, before_self_iff (.refl free), passed_of_some named]

/-- A node is explored, and then the rest of the list. -/
lemma cons (head : Explores key succ S [n] out done1 out1)
    (tail : Explores key succ S l out1 done' out') : Explores key succ S (n :: l) out done' out' where
  settled := tail.settled
  grows := by
    obtain ⟨new, rfl⟩ := head.grows
    obtain ⟨new', rfl⟩ := tail.grows
    exact ⟨new ++ new', List.append_assoc ..⟩
  reach m k named := by
    rw [tail.reach m k named, head.reach m k named, or_assoc]
    simp
  order X Y k l1 l2 named split fresh := by
    have mem : X ∈ out' := by
      rw [split]
      exact List.mem_append_right _ (.head _)
    obtain ⟨kX, namedX, off⟩ := tail.settled.named X mem
    by_cases early : X ∈ out1
    · -- listed by the walk from the first node
      obtain ⟨new, grows⟩ := tail.grows
      obtain ⟨l3, split'⟩ := split_of_mem (grows ▸ tail.settled.nodup) early (grows ▸ split)
      obtain ⟨a, here, leads⟩ := ((head.reach X kX namedX).1 early).resolve_left fresh
      rw [List.mem_singleton.1 here] at leads
      rw [head.order X Y k l1 l3 named split' fresh]
      exact or_congr_right (before_head_iff leads).symm
    · -- listed later: what the first node leads to is listed before
      have none : ¬ Leads key succ S n X :=
        fun leads => early ((head.reach X kX namedX).2 (.inr ⟨n, .head _, leads⟩))
      obtain ⟨b, there, leads⟩ := ((tail.reach X kX namedX).1 mem).resolve_left early
      rw [tail.order X Y k l1 l2 named split early, head.reach Y k named, or_assoc]
      refine or_congr_right ⟨?_, fun before => ?_⟩
      · rintro (⟨a, here, leadsY⟩ | before)
        · rw [List.mem_singleton.1 here] at leadsY
          exact .beside none leadsY there leads
        · exact .later none before
      · cases before with
        | own =>
          refine absurd (.refl fun k' onway same => ?_) none
          cases namedX.symm.trans same
          exact off onway
        | inside _ leads => exact absurd leads none
        | beside _ leadsY => exact .inl ⟨n, .head _, leadsY⟩
        | later _ before => exact .inr before

end Explores

/-- What a walk does. -/
lemma Walk.explores (inj : ∀ n m k, key n = some k → key m = some k → n = m)
    (walk : Walk key succ done out l done' out') (settled : Settled key succ S done out) :
    Explores key succ S l out done' out' := by
  induction walk generalizing S with
  | nil => exact .nil settled
  | known named mem _ ih => exact (Explores.known inj settled named mem).cons (ih settled)
  | @through n l done out done1 out1 done' out' unnamed _ _ inner rest =>
    have head := (inner settled).through unnamed
    exact head.cons (rest head.settled)
  | @enter n k l done out done1 out1 done' out' named fresh _ _ inner rest =>
    have start : Settled key succ (k :: S) (done ++ [k]) out := by
      refine ⟨fun k' => ?_, fun m mem => ?_, settled.nodup, fun m mem m' k' named' leads => ?_⟩
      · rw [List.mem_append, List.mem_singleton, settled.marks, List.mem_cons, or_comm, or_assoc]
      · obtain ⟨k', named', off⟩ := settled.named m mem
        refine ⟨k', named', fun onway => ?_⟩
        obtain rfl | onway := List.mem_cons.1 onway
        · exact fresh ((settled.marks k').2 (.inr ⟨m, mem, named'⟩))
        · exact off onway
      · exact settled.closed m mem m' k' named' leads.mono
    have head := Explores.enter inj settled named fresh (inner start)
    exact head.cons (rest head.settled)

/-! ### The nodes that a walk comes to -/

/-- Something is in one of two lists. -/
lemma exists_mem_append {p : α → Prop} : (∃ n ∈ out ++ l, p n) ↔ (∃ n ∈ out, p n) ∨ ∃ n ∈ l, p n := by
  simp only [List.mem_append, or_and_right, exists_or]

/-- What is marked at the end was marked before, or is a key of a node that was visited. -/
lemma Comes.marks {visits : List α} (comes : Comes key succ done l visits done') :
    k ∈ done' ↔ k ∈ done ∨ ∃ n ∈ visits, key n = some k := by
  induction comes with
  | nil => simp
  | @known n k' l done visits done' named mem _ ih =>
    rw [ih]
    constructor
    · rintro (marked | ⟨m, there, named'⟩)
      · exact .inl marked
      · exact .inr ⟨m, .tail _ there, named'⟩
    · rintro (marked | ⟨m, there, named'⟩)
      · exact .inl marked
      · obtain rfl | there := List.mem_cons.1 there
        · cases named.symm.trans named'
          exact .inl mem
        · exact .inr ⟨m, there, named'⟩
  | enter named fresh _ _ inner rest =>
    rw [rest, inner, List.mem_append, List.mem_singleton, List.exists_mem_cons_iff, exists_mem_append,
      named, Option.some.injEq, eq_comm, or_assoc, or_assoc]
  | through unnamed _ _ inner rest =>
    rw [rest, inner, List.exists_mem_cons_iff, exists_mem_append, unnamed, or_assoc]
    simp only [reduceCtorEq, false_or]

section First

variable [DecidableEq κ]

variable (key) in
/-- The first of the nodes with a key, which is not marked. -/
def First (done : List κ) (visits : List α) (m : α) : Prop :=
  ∃ k ∉ done, key m = some k ∧ visits.find? (fun n => key n = some k) = some m

/-- The first of the nodes of two walks is that of the first walk, or of the second with the marks of the
first. -/
lemma first_append {visits1 visits : List α}
    (marks : ∀ k, k ∈ done1 ↔ k ∈ done ∨ ∃ n ∈ visits1, key n = some k) :
    First key done (visits1 ++ visits) m ↔ First key done visits1 m ∨ First key done1 visits m := by
  constructor
  · rintro ⟨k, fresh, named, e⟩
    rw [List.find?_append] at e
    cases found : visits1.find? (fun n => key n = some k) with
    | some n =>
      rw [found] at e
      cases e
      exact .inl ⟨k, fresh, named, found⟩
    | none =>
      rw [found] at e
      refine .inr ⟨k, fun marked => ?_, named, e⟩
      obtain marked | ⟨n, mem, named'⟩ := (marks k).1 marked
      · exact fresh marked
      · exact absurd (decide_eq_true named') (List.find?_eq_none.1 found n mem)
  · rintro (⟨k, fresh, named, e⟩ | ⟨k, fresh, named, e⟩)
    · refine ⟨k, fresh, named, ?_⟩
      rw [List.find?_append, e]
      rfl
    · have none : visits1.find? (fun n => key n = some k) = none := by
        refine List.find?_eq_none.2 fun n mem named' => fresh ?_
        exact (marks k).2 (.inr ⟨n, mem, of_decide_eq_true named'⟩)
      refine ⟨k, fun marked => fresh ((marks k).2 (.inl marked)), named, ?_⟩
      rw [List.find?_append, none, e]
      rfl

/-- Nothing is first in an empty list. -/
lemma first_nil : ¬ First key done [] m := by
  rintro ⟨k, _, _, e⟩
  cases e

/-- A node with a new key is first. -/
lemma first_singleton (named : key n = some k) (fresh : k ∉ done) : First key done [n] m ↔ m = n := by
  constructor
  · rintro ⟨k', _, _, e⟩
    exact (List.mem_singleton.1 (List.mem_of_find?_eq_some e))
  · rintro rfl
    refine ⟨k, fresh, named, ?_⟩
    exact List.find?_cons_of_pos (decide_eq_true named)

/-- A node with a known key is not. -/
lemma first_known (known : ∀ k, key n = some k → k ∈ done) : ¬ First key done [n] m := by
  rintro ⟨k, fresh, named, e⟩
  rw [List.mem_singleton.1 (List.mem_of_find?_eq_some e)] at named
  exact fresh (known k named)

/-- A walk lists the first of the nodes with a key that it comes to. -/
lemma Walk.comes (walk : Walk key succ done out l done' out') :
    ∃ visits, Comes key succ done l visits done' ∧
      ∃ new, out' = out ++ new ∧ ∀ m, m ∈ new ↔ First key done visits m := by
  induction walk with
  | nil =>
    refine ⟨[], .nil, [], (List.append_nil _).symm, fun m => ?_⟩
    simp only [List.not_mem_nil, first_nil]
  | @known n k l done out done' out' named mem _ ih =>
    obtain ⟨visits, comes, new, grows, listed⟩ := ih
    refine ⟨n :: visits, .known named mem comes, new, grows, fun m => ?_⟩
    have single : Comes key succ done [n] [n] done := .known named mem .nil
    change _ ↔ First key done ([n] ++ visits) m
    rw [first_append fun _ => single.marks, listed, or_iff_right]
    refine first_known fun k' named' => ?_
    cases named.symm.trans named'
    exact mem
  | @enter n k l done out done1 out1 done' out' named fresh _ _ inner rest =>
    obtain ⟨visits1, comes1, new1, rfl, listed1⟩ := inner
    obtain ⟨visits, comes, new, rfl, listed⟩ := rest
    refine ⟨n :: (visits1 ++ visits), .enter named fresh comes1 comes, new1 ++ [n] ++ new,
      by simp only [List.append_assoc], fun m => ?_⟩
    have marks : ∀ k', k' ∈ done ++ [k] ↔ k' ∈ done ∨ ∃ m ∈ [n], key m = some k' := by
      intro k'
      simp [named, eq_comm]
    change _ ↔ First key done ([n] ++ (visits1 ++ visits)) m
    rw [first_append marks, first_append fun _ => comes1.marks, first_singleton named fresh, List.mem_append,
      List.mem_append, List.mem_singleton, listed1, listed]
    tauto
  | @through n l done out done1 out1 done' out' unnamed _ _ inner rest =>
    obtain ⟨visits1, comes1, new1, rfl, listed1⟩ := inner
    obtain ⟨visits, comes, new, rfl, listed⟩ := rest
    refine ⟨n :: (visits1 ++ visits), .through unnamed comes1 comes, new1 ++ new,
      by simp only [List.append_assoc], fun m => ?_⟩
    have marks : ∀ k, k ∈ done ↔ k ∈ done ∨ ∃ m ∈ [n], key m = some k := by
      intro k
      simp [unnamed]
    change _ ↔ First key done ([n] ++ (visits1 ++ visits)) m
    rw [first_append marks, first_append fun _ => comes1.marks, or_iff_right,
      List.mem_append, listed1, listed]
    refine first_known fun k named => ?_
    cases unnamed.symm.trans named

end First

/-! ### Nodes that share their keys -/

/-- The graph and the start decide what a walk comes to. -/
lemma Comes.unique {visits visits' : List α} (one : Comes key succ done l visits done')
    (other : Comes key succ done l visits' done1) : visits = visits' ∧ done' = done1 := by
  induction one generalizing visits' done1 with
  | nil =>
    cases other
    exact ⟨rfl, rfl⟩
  | known named mem _ ih =>
    cases other with
    | known _ _ rest =>
      obtain ⟨rfl, rfl⟩ := ih rest
      exact ⟨rfl, rfl⟩
    | enter named' fresh =>
      cases named.symm.trans named'
      exact absurd mem fresh
    | through unnamed => cases named.symm.trans unnamed
  | enter named fresh _ _ inner rest =>
    cases other with
    | known named' mem =>
      cases named.symm.trans named'
      exact absurd mem fresh
    | enter named' _ inner' rest' =>
      cases named.symm.trans named'
      obtain ⟨rfl, rfl⟩ := inner inner'
      obtain ⟨rfl, rfl⟩ := rest rest'
      exact ⟨rfl, rfl⟩
    | through unnamed => cases named.symm.trans unnamed
  | through unnamed _ _ inner rest =>
    cases other with
    | known named => cases named.symm.trans unnamed
    | enter named => cases named.symm.trans unnamed
    | through _ inner' rest' =>
      obtain ⟨rfl, rfl⟩ := inner inner'
      obtain ⟨rfl, rfl⟩ := rest rest'
      exact ⟨rfl, rfl⟩

section Shared

variable [DecidableEq κ] {visits : List α}

variable (key) in
/-- The node that stands for all nodes with its key: the first of them that the walk comes to. -/
def standIn (visits : List α) (n : α) : α :=
  match key n with
  | none => n
  | some k => (visits.find? fun m => key m = some k).getD n

variable (key succ) in
/-- The successors of a node, each by the node that stands for it. -/
def ownSucc (visits : List α) (n : α) : List α := (succ n).map (standIn key visits)

/-- A node without a key stands for itself. -/
lemma standIn_of_none (unnamed : key n = none) : standIn key visits n = n := by
  rw [standIn, unnamed]

variable [DecidableEq α]

variable (key) in
/-- Only the node that stands for the others keeps its key. -/
def ownKey (visits : List α) (n : α) : Option κ :=
  (key n).filter fun k => visits.find? (fun m => key m = some k) = some n

/-- A key belongs to the first node that has it. -/
lemma ownKey_eq_some : ownKey key visits n = some k ↔
    key n = some k ∧ visits.find? (fun m => key m = some k) = some n := by
  rw [ownKey, Option.filter_eq_some_iff, decide_eq_true_iff]

/-- A node without a key owns none. -/
lemma ownKey_of_none (unnamed : key n = none) : ownKey key visits n = none := by
  rw [ownKey, unnamed, Option.filter_none]

/-- The keys that are kept tell the nodes apart. -/
lemma ownKey_injective (n m : α) (k : κ) (one : ownKey key visits n = some k)
    (other : ownKey key visits m = some k) : n = m := by
  have first := (ownKey_eq_some.1 one).2
  rw [(ownKey_eq_some.1 other).2] at first
  exact (Option.some.inj first).symm

/-- The first of the nodes with a key keeps it. -/
lemma first_iff_ownKey : First key [] visits n ↔ ∃ k, ownKey key visits n = some k := by
  simp only [First, ownKey_eq_some, List.not_mem_nil, not_false_eq_true, true_and]

/-- A node that is come to has one that stands for it. -/
lemma standIn_of_mem (named : key n = some k) (mem : n ∈ visits) :
    ownKey key visits (standIn key visits n) = some k := by
  cases found : visits.find? (fun m => key m = some k) with
  | none => exact absurd (decide_eq_true named) (List.find?_eq_none.1 found n mem)
  | some m =>
    have own : key m = some k := by simpa using List.find?_some found
    have same : standIn key visits n = m := by
      rw [standIn, named]
      simp only [found, Option.getD_some]
    rw [same, ownKey_eq_some]
    exact ⟨own, found⟩

/-- A node whose key is new stands for the others. -/
lemma standIn_of_fresh {pre post : List α} (named : key n = some k)
    (fresh : ∀ m ∈ pre, key m ≠ some k) (all : visits = pre ++ n :: post) :
    standIn key visits n = n ∧ ownKey key visits n = some k := by
  have found : visits.find? (fun m => key m = some k) = some n := by
    rw [all, List.find?_append,
      List.find?_eq_none.2 fun m mem same => fresh m mem (of_decide_eq_true same), Option.none_or]
    exact List.find?_cons_of_pos (decide_eq_true named)
  constructor
  · rw [standIn, named]
    simp only [found, Option.getD_some]
  · exact ownKey_eq_some.2 ⟨named, found⟩

/-- A walk is one over the nodes that stand for the others. -/
lemma Walk.shares (walk : Walk key succ done out l done' out') :
    ∃ visits, Comes key succ done l visits done' ∧ ∀ all pre post, all = pre ++ (visits ++ post) →
      (∀ k, k ∈ done ↔ ∃ n ∈ pre, key n = some k) →
      Walk (ownKey key all) (ownSucc key succ all) done out (l.map (standIn key all)) done' out' := by
  induction walk with
  | nil => exact ⟨[], .nil, fun _ _ _ _ _ => .nil⟩
  | @known n k l done out done' out' named mem _ ih =>
    obtain ⟨visits, comes, shared⟩ := ih
    refine ⟨n :: visits, .known named mem comes, fun all pre post whole marks => ?_⟩
    have here : n ∈ all := by simp [whole]
    refine .known (standIn_of_mem named here) mem (shared all (pre ++ [n]) post (by simp [whole]) ?_)
    intro k'
    rw [exists_mem_append, ← marks, or_iff_left_of_imp]
    rintro ⟨m, there, named'⟩
    rw [List.mem_singleton.1 there, named] at named'
    exact Option.some.inj named' ▸ mem
  | @enter n k l done out done1 out1 done' out' named fresh _ _ inner rest =>
    obtain ⟨visits1, comes1, shared1⟩ := inner
    obtain ⟨visits, comes, shared⟩ := rest
    refine ⟨n :: (visits1 ++ visits), .enter named fresh comes1 comes, fun all pre post whole marks => ?_⟩
    have new : ∀ m ∈ pre, key m ≠ some k := fun m mem same => fresh ((marks k).2 ⟨m, mem, same⟩)
    have entered : ∀ k', k' ∈ done ++ [k] ↔ ∃ m ∈ pre ++ [n], key m = some k' := by
      intro k'
      rw [exists_mem_append, ← marks, List.mem_append, List.mem_singleton]
      simp [named, eq_comm]
    have left : ∀ k', k' ∈ done1 ↔ ∃ m ∈ pre ++ [n] ++ visits1, key m = some k' := by
      intro k'
      rw [comes1.marks, exists_mem_append, entered]
    obtain ⟨self, own⟩ := standIn_of_fresh named new whole
    have ahead := shared1 all (pre ++ [n]) (visits ++ post) (by simp [whole]) entered
    have behind := shared all (pre ++ [n] ++ visits1) post (by simp [whole]) left
    rw [List.map_cons, self]
    exact .enter own fresh ahead behind
  | @through n l done out done1 out1 done' out' unnamed _ _ inner rest =>
    obtain ⟨visits1, comes1, shared1⟩ := inner
    obtain ⟨visits, comes, shared⟩ := rest
    refine ⟨n :: (visits1 ++ visits), .through unnamed comes1 comes, fun all pre post whole marks => ?_⟩
    have entered : ∀ k, k ∈ done ↔ ∃ m ∈ pre ++ [n], key m = some k := by
      intro k
      rw [exists_mem_append, ← marks]
      simp [unnamed]
    have left : ∀ k, k ∈ done1 ↔ ∃ m ∈ pre ++ [n] ++ visits1, key m = some k := by
      intro k
      rw [comes1.marks, exists_mem_append, entered]
    have ahead := shared1 all (pre ++ [n]) (visits ++ post) (by simp [whole]) entered
    have behind := shared all (pre ++ [n] ++ visits1) post (by simp [whole]) left
    rw [List.map_cons, standIn_of_none unnamed]
    exact .through (ownKey_of_none unnamed) ahead behind

/-- What a walk from the start does, with the nodes that stand for the others. -/
lemma Walk.explores_shared (walk : Walk key succ [] [] l done' out') :
    ∃ visits, Comes key succ [] l visits done' ∧ (∀ m, m ∈ out' ↔ First key [] visits m) ∧
      Explores (ownKey key visits) (ownSucc key succ visits) [] (l.map (standIn key visits)) [] done'
        out' := by
  obtain ⟨visits, comes, shared⟩ := walk.shares
  obtain ⟨visits', comes', new, grows, listed⟩ := walk.comes
  obtain ⟨rfl, _⟩ := comes.unique comes'
  have own := shared visits [] [] (by simp) (by simp)
  have settled : Settled (ownKey key visits) (ownSucc key succ visits) [] [] [] := by
    refine ⟨fun k => ?_, fun _ => nofun, .nil, fun _ => nofun⟩
    simp
  rw [List.nil_append] at grows
  exact ⟨visits, comes, grows ▸ listed, own.explores ownKey_injective settled⟩

end Shared

end Irx.Lib
