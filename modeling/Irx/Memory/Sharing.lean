import Irx.Memory.Sessions

/-!
# Blocks with one host pointer

`remove` erases the entries of one block from the maps, but drops all data with its host pointer from the
holder list. A block that shares the pointer loses its data and keeps its entries, which then point to
nothing (`frees_exactly_iff`).
-/

namespace Irx.Memory
open Irx.Lib System

/-- A block has its entries in both maps, and its data. -/
structure Keeps (a : MapAllocator) (b : Block) : Prop where
  start : (b.vvptr, b.node) ∈ a.vvmemStart.entries
  stop : (b.stop, b.node) ∈ a.vvmemEnd.entries
  data : a.deref b.node = .ok ⟨b.vptr, b.size⟩

/-- `free` removes a block from the maps and its data, and keeps every other live block. -/
structure FreesExactly (a : MapAllocator) (live : List Block) (b : Block) (a' : MapAllocator) :
    Prop where
  freed : a.free b.vvptr = .ok a'
  start : b.vvptr ∉ a'.vvmemStart.keys
  stop : b.stop ∉ a'.vvmemEnd.keys
  data : ∀ n ∈ a'.allocationsHolder, n.node ≠ b.node
  kept : ∀ c ∈ live, c ≠ b → Keeps a' c

/-- Only blocks are added. -/
def Session.Requests (_ : Session) : Operation → Prop
  | .add _ _ => True
  | .malloc _ _ => True
  | _ => False

/-- All live blocks have their data. -/
def Session.Complete (s : Session) : Prop :=
  ∀ b ∈ s.live, b.holderNode ∈ s.allocator.allocationsHolder

namespace Laid

variable {a : MapAllocator} {bs pre post : List Block} {b c : Block} {k : Nat}

/-- The translation of an address that lies in one block only. -/
lemma vvptr2vptr (laid : Laid a bs) (mem : b ∈ bs) (inside : b.Contains k)
    (alone : ∀ c ∈ bs, c.Contains k → c = b) (held : b.holderNode ∈ a.allocationsHolder) :
    Memory.vvptr2vptr a k = .ok (word (b.vptr + (k - b.vvptr))) := by
  rw [Memory.vvptr2vptr, if_pos (laid.has mem inside), MapAllocator.vvptr2vptr,
    laid.find_alone mem inside alone]
  exact bind_ok (laid.deref mem held) _

/-- A block that shares its start with no other one, and its host pointer neither, is freed exactly. -/
lemma frees_exactly (laid : Laid a (pre ++ b :: post))
    (alone : ∀ c ∈ pre ++ b :: post, c.Contains b.vvptr → c = b)
    (complete : ∀ c ∈ pre ++ b :: post, c.holderNode ∈ a.allocationsHolder)
    (distinct : ∀ c ∈ pre ++ post, c.vptr ≠ b.vptr) :
    FreesExactly a (pre ++ b :: post) b ((a.disowned b).removed b) := by
  have mem : b ∈ pre ++ b :: post := List.mem_append_right _ (.head _)
  have rest := (laid.disowned b).removed
  refine ⟨laid.free mem alone (complete b mem), OrdMap.not_mem_keys_erase, OrdMap.not_mem_keys_erase,
    fun n memn same => ?_, fun c memc ne => ?_⟩
  · obtain ⟨held, other⟩ := List.mem_filter.1 memn
    obtain ⟨c, memc, rfl⟩ := laid.held n held
    cases List.inj_on_of_nodup_map laid.nodes memc mem same
    exact of_decide_eq_true other rfl
  · have memc' := (List.mem_cons.1 (List.perm_middle.mem_iff.1 memc)).resolve_left ne
    have held : c.holderNode ∈ ((a.disowned b).removed b).allocationsHolder :=
      List.mem_filter.2 ⟨complete c memc, decide_eq_true (distinct c memc')⟩
    constructor
    case start =>
      rw [rest.start]
      exact List.mem_map_of_mem (f := fun b => (b.vvptr, b.node)) memc'
    case stop =>
      rw [rest.stop]
      exact List.mem_map_of_mem (f := fun b => (b.stop, b.node)) memc'
    case data => exact rest.deref memc' held

end Laid

namespace Session

variable {s s' : Session} {bs : List Block} {b c : Block}

/-- A request keeps the data of all blocks. -/
lemma Complete.request {op : Operation} (complete : s.Complete) (request : s.Requests op)
    (takes : s.Takes op s') : s'.Complete := by
  have grown : ∀ (ps : List Nat) vmem size, ∀ c ∈ s.live ++ [s.allocator.newBlock vmem size],
      c.holderNode ∈
        (MapAllocator.grown { s.allocator with allocations := ps } vmem size).allocationsHolder := by
    intro ps vmem size
    refine forall_mem_snoc (fun c live => ?_) ?_
    · exact List.mem_append_left _ (complete c live)
    · exact List.mem_append_right _ (List.mem_singleton_self _)
  cases takes with
  | add _ => exact grown s.allocator.allocations _ _
  | malloc _ => exact grown _ _ _
  | free | freeze | reset => exact absurd request not_false

/-- What `free` does to the other blocks if all have their data. -/
lemma Sound.freesExactly_iff (sound : Sound s bs) (complete : s.Complete) (live : b ∈ s.live) :
    (∃ a', FreesExactly s.allocator s.live b a' ∧ ∀ c ∈ s.live, c ≠ b → ∀ k, c.Contains k →
        vvptr2vptr a' k = vvptr2vptr s.allocator k) ↔
      ∀ c ∈ s.live, c ≠ b → c.vptr ≠ b.vptr := by
  have mem := sound.live.mem_iff.2 live
  have all : ∀ c ∈ bs, c.holderNode ∈ s.allocator.allocationsHolder :=
    fun c memc => complete c (sound.live.mem_iff.1 memc)
  have alone := Laid.alone sound.chain mem b.contains_start
  have freed := sound.laid.free mem alone (all b mem)
  obtain ⟨pre, post, rfl⟩ := List.append_of_mem mem
  have rest := (sound.laid.disowned b).removed
  have others : ∀ c ∈ s.live, c ≠ b → c ∈ pre ++ post := by
    intro c livec ne
    have memc := List.perm_middle.mem_iff.1 (sound.live.mem_iff.2 livec)
    exact (List.mem_cons.1 memc).resolve_left ne
  constructor
  · rintro ⟨a', exactly, _⟩ c livec ne same
    cases freed.symm.trans exactly.freed
    -- the data of `c` were dropped with those of `b`
    have gone : c.holderNode ∉ ((s.allocator.disowned b).removed b).allocationsHolder :=
      fun held => of_decide_eq_true (List.mem_filter.1 held).2 same
    have dangling := rest.deref_dangling (others c livec ne) gone
    cases dangling.symm.trans (exactly.kept c livec ne).data
  · intro distinct
    have around : ∀ c ∈ pre ++ post, c.vptr ≠ b.vptr := by
      intro c memc
      refine distinct c (sound.live.mem_iff.1 (sublist_around.subset memc)) fun e => ?_
      have nodup := List.perm_middle.nodup_iff.1 sound.laid.nodes.of_map
      exact (List.nodup_cons.1 nodup).1 (e ▸ memc)
    have exactly := sound.laid.frees_exactly alone all around
    refine ⟨_, ⟨exactly.freed, exactly.start, exactly.stop, exactly.data, fun c livec ne =>
      exactly.kept c (sound.live.mem_iff.2 livec) ne⟩, fun c livec ne k inside => ?_⟩
    have memc := others c livec ne
    have alone := Laid.alone sound.chain (sound.live.mem_iff.2 livec) inside
    have alone' : ∀ d ∈ pre ++ post, d.Contains k → d = c :=
      fun d memd => alone d (sublist_around.subset memd)
    have held : c.holderNode ∈ ((s.allocator.disowned b).removed b).allocationsHolder :=
      List.mem_filter.2 ⟨complete c livec, decide_eq_true (distinct c livec ne)⟩
    rw [sound.laid.vvptr2vptr (sound.live.mem_iff.2 livec) inside alone (complete c livec),
      rest.vvptr2vptr memc inside alone' held]

end Session

/-- After any sequence of `add` and `malloc`, with any host pointers, `free` of a live block removes
exactly this block, and the addresses of all others translate as before, if and only if no other live block
has its host pointer. -/
theorem frees_exactly_iff {s : Session} (run : (sessions.under Session.Requests).Outcome (.ok s))
    {b : Block} (live : b ∈ s.live) :
    (∃ a', FreesExactly s.allocator s.live b a' ∧ ∀ c ∈ s.live, c ≠ b → ∀ k, c.Contains k →
        vvptr2vptr a' k = vvptr2vptr s.allocator k) ↔
      ∀ c ∈ s.live, c ≠ b → c.vptr ≠ b.vptr := by
  have holds := run.holds (P := fun s => s.Tight ∧ s.Complete) (E := fun _ => True)
    ⟨.start, List.forall_mem_nil _⟩ ?_
  · obtain ⟨tight, complete⟩ := holds
    obtain ⟨bs, sound⟩ := tight.sound
    exact sound.freesExactly_iff complete live
  · rintro s op ⟨tight, complete⟩ ⟨allowed, request⟩
    show Holds _ _ (s.step op)
    cases ran : s.step op with
    | error e => exact trivial
    | ok s' =>
      have clear : s.Clear op := by
        cases op with
        | reset => exact absurd request not_false
        | add | malloc | free | freeze => exact trivial
      obtain ⟨takes, tight'⟩ := tight.step allowed clear ran
      exact ⟨tight', complete.request request takes⟩

/-- The session after two objects at different places were added. -/
def twoObjects : Session := sessionAfter [.add 0x7f0000001000 16, .add 0x7f0000002000 4]

/-- The first object is freed and the second one stays. -/
theorem frees_exactly_iff_two :
    ∃ a', FreesExactly twoObjects.allocator twoObjects.live ⟨0x50000000, 0x7f0000001000, 16, 0⟩ a' := by
  have small : 16 < 9223372036854775808 ∧ 4 < 9223372036854775808 := by decide
  have first : (sessions.under Session.Requests).Outcome
      (.ok (sessionAfter [.add 0x7f0000001000 16])) :=
    Outcome.next .start (i := .add 0x7f0000001000 16) ⟨small.1, trivial⟩ rfl
  have run : (sessions.under Session.Requests).Outcome (.ok twoObjects) :=
    first.next (i := .add 0x7f0000002000 4) ⟨small.2, trivial⟩ rfl
  have blocks : twoObjects.live =
      [⟨0x50000000, 0x7f0000001000, 16, 0⟩, ⟨0x50000014, 0x7f0000002000, 4, 1⟩] := rfl
  have distinct : ∀ c ∈ twoObjects.live, c ≠ ⟨0x50000000, 0x7f0000001000, 16, 0⟩ →
      c.vptr ≠ 0x7f0000001000 := by
    rw [blocks]
    decide
  obtain ⟨a', exactly, _⟩ := (frees_exactly_iff run (blocks ▸ .head _)).2 distinct
  exact ⟨a', exactly⟩

/-- The session after one object was added twice. -/
def sameObject : Session := sessionAfter [.add 0x7f0000001000 16, .add 0x7f0000001000 16]

/-- One object is added twice and its first block freed: the second block keeps its entries, and its data
pointer points to nothing. -/
theorem shared_data_dropped :
    (sessions.under Session.Requests).Outcome (.ok sameObject) ∧
    sameObject.live =
      [⟨0x50000000, 0x7f0000001000, 16, 0⟩, ⟨0x50000014, 0x7f0000001000, 16, 1⟩] ∧
    (∃ a', sameObject.allocator.free 0x50000000 = .ok a' ∧ (0x50000014, 1) ∈ a'.vvmemStart.entries ∧
      vvptr2vptr a' 0x50000014 = .error .undefined) ∧
    ¬ ∃ a', FreesExactly sameObject.allocator sameObject.live ⟨0x50000000, 0x7f0000001000, 16, 0⟩ a' := by
  have small : 16 < 9223372036854775808 := by decide
  have first : (sessions.under Session.Requests).Outcome
      (.ok (sessionAfter [.add 0x7f0000001000 16])) :=
    Outcome.next .start (i := .add 0x7f0000001000 16) ⟨small, trivial⟩ rfl
  have run : (sessions.under Session.Requests).Outcome (.ok sameObject) :=
    first.next (i := .add 0x7f0000001000 16) ⟨small, trivial⟩ rfl
  refine ⟨run, rfl, ⟨_, rfl, .head _, rfl⟩, ?_⟩
  rintro ⟨a', exactly⟩
  have freed : sameObject.allocator.free 0x50000000 = .ok a' := exactly.freed
  have kept := exactly.kept ⟨0x50000014, 0x7f0000001000, 16, 1⟩ (.tail _ (.head _)) (by decide)
  cases freed
  have data : Except.error Abort.undefined = Except.ok (⟨0x7f0000001000, 16⟩ : AllocationData) := kept.data
  cases data

end Irx.Memory
