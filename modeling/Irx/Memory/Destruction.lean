import Irx.Memory.Sharing
import Irx.Lib.Fuel

/-!
# The end of an allocator

The destructor frees the block with the lowest address until there is none. The `Ledger` of a session
says who owns its host blocks: what `malloc` obtained was either released or belongs to a live block, and the
list `allocations` has exactly the pointers of these. Every operation keeps it, so what was released
over the whole life, the destructor included, is what `malloc` obtained (`destroyed`).
-/

namespace Irx.Memory
open Irx.Lib System

/-- The loop of `~MapAllocator`, and what it releases to the host. -/
def MapAllocator.destroy : Nat → MapAllocator → Except Abort (List (Nat × Nat) × MapAllocator)
  | 0, _ => .error .undefined
  | fuel + 1, a =>
    match a.vvmemStart.entries with
    | [] => .ok ([], a)
    | alloc :: _ => do
      let a' ← a.free alloc.1
      let (released, a'') ← destroy fuel a'
      .ok (a.releases alloc.1 ++ released, a'')

/-- The release of a block: its data record and its host pointer. -/
def Block.release (b : Block) : Nat × Nat := (b.node, b.vptr)

/-- New objects are at places of their own, and no reset goes back to below a live block. -/
def Session.Orderly (s : Session) : Operation → Prop
  | .add vmem _ => ∀ b ∈ s.live, b.vptr ≠ vmem
  | .malloc vmem _ => ∀ b ∈ s.live, b.vptr ≠ vmem
  | op => s.Clear op

/-- The live blocks that `malloc` obtained. -/
def Session.owned (s : Session) : List Block := s.live.filter (fun b => b ∈ s.obtained)

/-- Who owns the host blocks of a session. -/
structure Session.Ledger (s : Session) : Prop where
  complete : s.Complete
  distinct : (s.live.map Block.vptr).Nodup
  own : ∀ p, p ∈ s.allocator.allocations ↔ ∃ b ∈ s.live, b ∈ s.obtained ∧ b.vptr = p
  balance : (s.released ++ s.owned.map Block.release).Perm (s.obtained.map Block.release)
  once : (s.obtained.map Block.node).Nodup
  obtainedBefore : ∀ b ∈ s.obtained, b.node < s.allocator.nextNode
  givenBefore : ∀ b ∈ s.given, b.node < s.allocator.nextNode
  apart : ∀ b ∈ s.given, ∀ c ∈ s.obtained, b.node ≠ c.node

namespace Session

variable {s s' : Session} {bs : List Block} {b : Block} {vmem size : Nat}

/-- Nothing was given yet. -/
lemma Ledger.start : Ledger {} where
  complete := List.forall_mem_nil _
  distinct := .nil
  own _ := iff_of_false List.not_mem_nil (by rintro ⟨_, mem, _⟩; exact List.not_mem_nil mem)
  balance := .nil
  once := .nil
  obtainedBefore := List.forall_mem_nil _
  givenBefore := List.forall_mem_nil _
  apart := List.forall_mem_nil _

/-- The node of a live block was used. -/
lemma Sound.fresh (sound : Sound s bs) (live : b ∈ s.live) : b.node < s.allocator.nextNode :=
  sound.laid.fresh b (sound.live.mem_iff.2 live)

/-- `free` releases the host block of a live block if its pointer is on the list. -/
lemma Sound.releases_eq (sound : Sound s bs) (complete : s.Complete) (live : b ∈ s.live) :
    s.allocator.releases b.vvptr = if b.vptr ∈ s.allocator.allocations then [b.release] else [] := by
  have mem := sound.live.mem_iff.2 live
  rw [MapAllocator.releases,
    sound.laid.find_alone mem b.contains_start (Laid.alone sound.chain mem b.contains_start)]
  simp only [sound.laid.deref mem (complete b live), MapAllocator.isInternalAllocated,
    List.contains_iff_mem]
  rfl

/-! ### What each operation does to the ledger -/

/-- A block that was added is live and was given. -/
lemma Ledger.add (ledger : s.Ledger) (new : ∀ b ∈ s.live, b.vptr ≠ vmem) :
    Ledger { s with
      allocator := s.allocator.grown vmem size
      live := s.live ++ [s.allocator.newBlock vmem size]
      given := s.given ++ [s.allocator.newBlock vmem size] } := by
  have unknown : s.allocator.newBlock vmem size ∉ s.obtained :=
    fun mem => (ledger.obtainedBefore _ mem).false
  constructor
  case complete =>
    refine forall_mem_snoc (fun c live => ?_) ?_
    · exact List.mem_append_left _ (ledger.complete c live)
    · exact List.mem_append_right _ (List.mem_singleton_self _)
  case distinct => exact nodup_map_snoc ledger.distinct new
  case own =>
    intro p
    refine (ledger.own p).trans ⟨?_, ?_⟩
    · rintro ⟨b, live, mem, e⟩
      exact ⟨b, List.mem_append_left _ live, mem, e⟩
    · rintro ⟨b, live, mem, e⟩
      rcases List.mem_append.1 live with live | last
      · exact ⟨b, live, mem, e⟩
      · exact absurd (List.mem_singleton.1 last ▸ mem) unknown
  case balance =>
    show (s.released ++ ((s.live ++ [s.allocator.newBlock vmem size]).filter
      (fun b => b ∈ s.obtained)).map Block.release).Perm _
    rw [List.filter_append, List.filter_cons_of_neg (by simpa using unknown), List.filter_nil,
      List.append_nil]
    exact ledger.balance
  case once => exact ledger.once
  case obtainedBefore => exact fun b mem => Nat.lt_succ_of_lt (ledger.obtainedBefore b mem)
  case givenBefore =>
    exact forall_mem_snoc (fun b mem => Nat.lt_succ_of_lt (ledger.givenBefore b mem))
      (Nat.lt_succ_self _)
  case apart =>
    refine forall_mem_snoc ledger.apart fun c mem => ?_
    exact (ledger.obtainedBefore c mem).ne'

/-- So is a block that was allocated. -/
lemma Ledger.malloc (ledger : s.Ledger) (sound : Sound s bs) (new : ∀ b ∈ s.live, b.vptr ≠ vmem) :
    Ledger { s with
      allocator := MapAllocator.grown
        { s.allocator with allocations := s.allocator.allocations ++ [vmem] } vmem size
      live := s.live ++ [s.allocator.newBlock vmem size]
      obtained := s.obtained ++ [s.allocator.newBlock vmem size] } := by
  have older : ∀ b ∈ s.live, (b ∈ s.obtained ++ [s.allocator.newBlock vmem size] ↔ b ∈ s.obtained) := by
    intro b live
    rw [List.mem_append, List.mem_singleton, or_iff_left]
    rintro rfl
    exact (sound.fresh live).false
  constructor
  case complete =>
    refine forall_mem_snoc (fun c live => ?_) ?_
    · exact List.mem_append_left _ (ledger.complete c live)
    · exact List.mem_append_right _ (List.mem_singleton_self _)
  case distinct => exact nodup_map_snoc ledger.distinct new
  case own =>
    intro p
    show p ∈ s.allocator.allocations ++ [vmem] ↔ _
    rw [List.mem_append, ledger.own, List.mem_singleton]
    constructor
    · rintro (⟨b, live, mem, e⟩ | rfl)
      · exact ⟨b, List.mem_append_left _ live, List.mem_append_left _ mem, e⟩
      · exact ⟨_, List.mem_append_right _ (.head _), List.mem_append_right _ (.head _), rfl⟩
    · rintro ⟨b, live, mem, e⟩
      rcases List.mem_append.1 live with live | last
      · exact .inl ⟨b, live, (older b live).1 mem, e⟩
      · rw [List.mem_singleton.1 last] at e
        exact .inr e.symm
  case balance =>
    have same : s.live.filter (fun b => b ∈ s.obtained ++ [s.allocator.newBlock vmem size]) = s.owned :=
      List.filter_congr fun b live => decide_eq_decide.2 (older b live)
    show (s.released ++ ((s.live ++ [s.allocator.newBlock vmem size]).filter
      (fun b => b ∈ s.obtained ++ [s.allocator.newBlock vmem size])).map Block.release).Perm _
    rw [List.filter_append, same, List.filter_cons_of_pos (by simp), List.filter_nil, List.map_append,
      List.map_append, ← List.append_assoc]
    exact ledger.balance.append_right _
  case once => exact nodup_map_snoc ledger.once fun b mem => (ledger.obtainedBefore b mem).ne
  case obtainedBefore =>
    exact forall_mem_snoc (fun b mem => Nat.lt_succ_of_lt (ledger.obtainedBefore b mem))
      (Nat.lt_succ_self _)
  case givenBefore => exact fun b mem => Nat.lt_succ_of_lt (ledger.givenBefore b mem)
  case apart =>
    intro b given
    exact forall_mem_snoc (ledger.apart b given) (ledger.givenBefore b given).ne

/-- A block that was freed is no longer live, and was released if it was obtained. -/
lemma Ledger.free (ledger : s.Ledger) (sound : Sound s bs) (live : b ∈ s.live) :
    Ledger { s with
      allocator := (s.allocator.disowned b).removed b
      live := s.live.erase b
      released := s.released ++ s.allocator.releases b.vvptr } := by
  have nodup : s.live.Nodup := ledger.distinct.of_map
  have others : ∀ c, c ∈ s.live.erase b ↔ c ∈ s.live ∧ c.vptr ≠ b.vptr := by
    intro c
    rw [nodup.mem_erase_iff, and_comm]
    refine and_congr_right fun mem => not_congr ⟨fun e => e ▸ rfl, fun e => ?_⟩
    exact List.inj_on_of_nodup_map ledger.distinct mem live e
  have owned : b.vptr ∈ s.allocator.allocations ↔ b ∈ s.obtained := by
    rw [ledger.own]
    refine ⟨?_, fun mem => ⟨b, live, mem, rfl⟩⟩
    rintro ⟨c, memc, obtained, e⟩
    exact List.inj_on_of_nodup_map ledger.distinct memc live e ▸ obtained
  constructor
  case complete =>
    intro c mem
    obtain ⟨memc, other⟩ := (others c).1 mem
    exact List.mem_filter.2 ⟨ledger.complete c memc, decide_eq_true other⟩
  case distinct => exact ledger.distinct.sublist (List.erase_sublist.map _)
  case own =>
    intro p
    show p ∈ s.allocator.allocations.filter (fun p => p ≠ b.vptr) ↔ _
    rw [List.mem_filter, ledger.own, decide_eq_true_eq]
    constructor
    · rintro ⟨⟨c, memc, obtained, rfl⟩, other⟩
      exact ⟨c, (others c).2 ⟨memc, other⟩, obtained, rfl⟩
    · rintro ⟨c, mem, obtained, rfl⟩
      obtain ⟨memc, other⟩ := (others c).1 mem
      exact ⟨⟨c, memc, obtained, rfl⟩, other⟩
  case balance =>
    show ((s.released ++ s.allocator.releases b.vvptr) ++
      ((s.live.erase b).filter (fun c => c ∈ s.obtained)).map Block.release).Perm _
    have split := (List.perm_cons_erase live).filter (fun c => decide (c ∈ s.obtained))
    refine List.Perm.trans ?_ ledger.balance
    rw [sound.releases_eq ledger.complete live, Session.owned]
    by_cases obtained : b ∈ s.obtained
    · rw [List.filter_cons_of_pos (by simpa using obtained)] at split
      rw [if_pos (owned.2 obtained), List.append_assoc]
      exact (split.map Block.release).symm.append_left _
    · rw [List.filter_cons_of_neg (by simpa using obtained)] at split
      rw [if_neg (fun mem => obtained (owned.1 mem)), List.append_nil]
      exact (split.map Block.release).symm.append_left _
  case once => exact ledger.once
  case obtainedBefore => exact ledger.obtainedBefore
  case givenBefore => exact ledger.givenBefore
  case apart => exact ledger.apart

/-- Every operation keeps the ledger. -/
lemma Ledger.takes {op : Operation} (ledger : s.Ledger) (sound : Sound s bs) (allowed : s.Allowed op)
    (orderly : s.Orderly op) (takes : s.Takes op s') : s'.Ledger := by
  cases takes with
  | add _ => exact ledger.add orderly
  | malloc _ => exact ledger.malloc sound orderly
  | free _ => exact ledger.free sound allowed
  | freeze =>
    exact ⟨ledger.complete, ledger.distinct, ledger.own, ledger.balance, ledger.once,
      ledger.obtainedBefore, ledger.givenBefore, ledger.apart⟩
  | reset _ =>
    exact ⟨ledger.complete, ledger.distinct, ledger.own, ledger.balance, ledger.once,
      ledger.obtainedBefore, ledger.givenBefore, ledger.apart⟩

/-! ### The destructor -/

/-- The destructor frees one live block after the other. -/
lemma Tight.destroy (tight : Tight s) (ledger : s.Ledger) :
    ∃ released s', (∀ fuel > s.live.length, s.allocator.destroy fuel = .ok (released, s'.allocator)) ∧
      Tight s' ∧ s'.Ledger ∧ s'.live = [] ∧ s'.given = s.given ∧ s'.obtained = s.obtained ∧
      s'.released = s.released ++ released := by
  induction size : s.live.length generalizing s with
  | zero =>
    have none : s.live = [] := List.length_eq_zero_iff.1 size
    obtain ⟨bs, sound⟩ := tight.sound
    have blocks : bs = [] := (none ▸ sound.live).eq_nil
    refine ⟨[], s, fun fuel lt => ?_, tight, ledger, none, rfl, rfl, (List.append_nil _).symm⟩
    obtain ⟨k, rfl⟩ := Nat.exists_eq_add_of_lt lt
    rw [Nat.zero_add, MapAllocator.destroy, sound.laid.start, blocks]
    rfl
  | succ n ih =>
    obtain ⟨bs, sound⟩ := tight.sound
    cases bs with
    | nil =>
      have none : s.live = [] := sound.live.symm.eq_nil
      rw [none] at size
      cases size
    | cons b rest =>
      have live : b ∈ s.live := sound.live.mem_iff.1 (.head _)
      have alone := Laid.alone sound.chain (.head _) b.contains_start
      have freed := sound.laid.free (.head _) alone (ledger.complete b live)
      have ran : s.step (.free b) = .ok { s with
          allocator := (s.allocator.disowned b).removed b
          live := s.live.erase b
          released := s.released ++ s.allocator.releases b.vvptr } := bind_ok freed _
      have allowed : s.Allowed (.free b) := live
      have clear : s.Clear (.free b) := trivial
      obtain ⟨takes, tight1⟩ := tight.step allowed clear ran
      have length : (s.live.erase b).length = n := by
        rw [List.length_erase_of_mem live, size]
        rfl
      obtain ⟨released, s', ends, tight', ledger', none, given, obtained, log⟩ :=
        ih tight1 (ledger.free sound live) length
      refine ⟨s.allocator.releases b.vvptr ++ released, s', fun fuel lt => ?_, tight', ledger', none,
        given, obtained, log.trans (List.append_assoc ..)⟩
      obtain ⟨k, rfl⟩ := Nat.exists_eq_add_of_lt lt
      have first : s.allocator.vvmemStart.entries =
          (b.vvptr, b.node) :: rest.map (fun b => (b.vvptr, b.node)) := sound.laid.start
      rw [MapAllocator.destroy, first]
      exact (bind_ok freed _).trans (bind_ok (ends _ (by omega)) _)

end Session

/-- However an allocator was used, with live blocks at places of their own and without a reset to below
one, its destructor ends with empty maps and an empty holder list. What is released over the whole life is
what `malloc` has obtained, each block once, and no block given to `add`; nor is its host pointer, if
`malloc` never returns the same. -/
theorem destroyed {s : Session} (run : (sessions.under Session.Orderly).Outcome (.ok s)) :
    ∃ released a', Settles (fun fuel => s.allocator.destroy fuel) (released, a') ∧
      a'.vvmemStart.entries = [] ∧ a'.vvmemEnd.entries = [] ∧ a'.allocationsHolder = [] ∧
      (s.released ++ released).Perm (s.obtained.map Block.release) ∧
      (s.obtained.map Block.release).Nodup ∧
      (∀ b ∈ s.given, ∀ p, (b.node, p) ∉ s.released ++ released) ∧
      ∀ b ∈ s.given, (∀ c ∈ s.obtained, c.vptr ≠ b.vptr) →
        b.vptr ∉ (s.released ++ released).map Prod.snd := by
  have holds := run.holds (P := fun s => s.Tight ∧ s.Ledger) (E := fun _ => True)
    ⟨.start, .start⟩ ?_
  · obtain ⟨tight, ledger⟩ := holds
    obtain ⟨released, s', ends, tight', ledger', none, given, obtained, log⟩ := tight.destroy ledger
    obtain ⟨bs, sound⟩ := tight'.sound
    have blocks : bs = [] := (none ▸ sound.live).eq_nil
    have balance := ledger'.balance
    rw [Session.owned, none, List.filter_nil, List.map_nil, List.append_nil, log, obtained] at balance
    refine ⟨released, s'.allocator, ⟨_, fun fuel le => ends fuel le⟩, ?_, ?_, ?_, balance, ?_, ?_, ?_⟩
    · rw [sound.laid.start, blocks]
      rfl
    · rw [sound.laid.stop, blocks]
      rfl
    · refine List.eq_nil_iff_forall_not_mem.2 fun n held => ?_
      obtain ⟨b, mem, _⟩ := sound.laid.held n held
      rw [blocks] at mem
      exact List.not_mem_nil mem
    · exact List.Nodup.of_map Prod.fst (by rw [List.map_map]; exact ledger.once)
    · intro b memb p mem
      obtain ⟨c, memc, e⟩ := List.mem_map.1 (balance.mem_iff.1 mem)
      exact ledger.apart b memb c memc (congrArg Prod.fst e).symm
    · intro b _ other mem
      obtain ⟨x, memx, e⟩ := List.mem_map.1 mem
      obtain ⟨c, memc, rfl⟩ := List.mem_map.1 (balance.mem_iff.1 memx)
      exact other c memc e
  · rintro s op ⟨tight, ledger⟩ ⟨allowed, orderly⟩
    show Holds _ _ (s.step op)
    cases ran : s.step op with
    | error e => exact trivial
    | ok s' =>
      have clear : s.Clear op := by
        cases op with
        | reset => exact orderly
        | add | malloc | free | freeze => exact trivial
      obtain ⟨bs, sound⟩ := tight.sound
      obtain ⟨takes, tight'⟩ := tight.step allowed clear ran
      exact ⟨tight', ledger.takes sound allowed orderly takes⟩

/-- The session after an object was added and a block allocated. -/
def addedAndAllocated : Session := sessionAfter [.add 0x7f0000001000 16, .malloc 0x7f0000002000 4]

/-- The destructor releases the allocated block and not the object. -/
theorem destroyed_allocated :
    ∃ released a', Settles (fun fuel => addedAndAllocated.allocator.destroy fuel) (released, a') ∧
      a'.allocationsHolder = [] ∧ released.Perm [(1, 0x7f0000002000)] := by
  have small : 16 < 9223372036854775808 ∧ 4 < 9223372036854775808 := by decide
  have blocks : (sessionAfter [.add 0x7f0000001000 16]).live =
      [⟨0x50000000, 0x7f0000001000, 16, 0⟩] := rfl
  have new : ∀ b ∈ (sessionAfter [.add 0x7f0000001000 16]).live, b.vptr ≠ 0x7f0000002000 := by
    rw [blocks]
    decide
  have first : (sessions.under Session.Orderly).Outcome
      (.ok (sessionAfter [.add 0x7f0000001000 16])) :=
    Outcome.next .start (i := .add 0x7f0000001000 16)
      ⟨small.1, fun b none => absurd none List.not_mem_nil⟩ rfl
  have run : (sessions.under Session.Orderly).Outcome (.ok addedAndAllocated) :=
    first.next (i := .malloc 0x7f0000002000 4) ⟨small.2, new⟩ rfl
  obtain ⟨released, a', ends, _, _, holder, balance, _⟩ := destroyed run
  exact ⟨released, a', ends, holder, balance⟩

end Irx.Memory
