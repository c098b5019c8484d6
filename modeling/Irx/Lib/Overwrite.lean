import Irx.Lib.Bytes
import Irx.Basic

/-!
# Programs that overwrite a memory

A program on a memory overwrites a set of cells if it always gives them the same contents, whatever was in
the memory before, and leaves all others as they were. Sequences of such programs overwrite the union.
Run again on a memory that was changed in between, such a program restores exactly its own cells
(`Overwrites.again`).
-/

namespace Irx.Lib

variable {ε : Type*} {α β : Type} {f g : (α → β) → Except ε (α → β)} {S T : Set α} {m m1 : α → β}
variable {x : α}

/-- The program always succeeds, gives the cells of the set fixed contents and changes no other cell. -/
def Overwrites (f : (α → β) → Except ε (α → β)) (S : Set α) : Prop :=
  ∃ contents : α → β, ∀ m, ∃ m', f m = .ok m' ∧ (∀ x ∈ S, m' x = contents x) ∧ ∀ x ∉ S, m' x = m x

/-- To do nothing overwrites nothing. -/
lemma overwrites_ok (contents : α → β) : Overwrites (ε := ε) (fun m : α → β => .ok m) ∅ :=
  ⟨contents, fun m => ⟨m, rfl, nofun, fun _ _ => rfl⟩⟩

/-- The cells written last keep what they were given then. -/
lemma Overwrites.bind (first : Overwrites f S) (second : Overwrites g T) :
    Overwrites (fun m => f m >>= g) (S ∪ T) := by
  classical
  obtain ⟨contents, ran⟩ := first
  obtain ⟨contents', ran'⟩ := second
  refine ⟨fun x => if x ∈ T then contents' x else contents x, fun m => ?_⟩
  obtain ⟨m1, e, inside, outside⟩ := ran m
  obtain ⟨m2, e', inside', outside'⟩ := ran' m1
  refine ⟨m2, (bind_ok e _).trans e', fun x mem => ?_, fun x out => ?_⟩
  · by_cases later : x ∈ T
    · exact (inside' x later).trans (if_pos later).symm
    · have earlier := (outside' x later).trans (inside x (mem.resolve_right later))
      exact earlier.trans (if_neg later).symm
  · rw [outside' x fun later => out (.inr later), outside x fun earlier => out (.inl earlier)]

/-- The places may be named in another way. -/
lemma Overwrites.congr (ow : Overwrites f S) (same : ∀ x, x ∈ S ↔ x ∈ T) : Overwrites f T :=
  Set.ext same ▸ ow

/-- Run again on any memory, an overwriting program puts its own cells back to what they were after its
first run, and leaves the others alone. -/
lemma Overwrites.again (ow : Overwrites f S) (first : f m = .ok m1) (m' : α → β) :
    ∃ m1', f m' = .ok m1' ∧ (∀ x ∈ S, m1' x = m1 x) ∧ ∀ x ∉ S, m1' x = m' x := by
  obtain ⟨contents, ran⟩ := ow
  obtain ⟨m2, e, inside, _⟩ := ran m
  cases e.symm.trans first
  obtain ⟨m1', second, inside', outside⟩ := ran m'
  exact ⟨m1', second, fun x mem => (inside' x mem).trans (inside x mem).symm, outside⟩

/-- A copy overwrites the bytes it covers. -/
lemma overwrites_write (a : Nat) (l : List UInt8) :
    Overwrites (ε := ε) (fun m => .ok (write m a l)) (Set.Ico a (a + l.length)) := by
  refine ⟨write (fun _ => 0) a l, fun m => ⟨_, rfl, fun x mem => ?_, fun x out => ?_⟩⟩
  · obtain ⟨le, lt⟩ := mem
    have inside : x - a < l.length := by omega
    rw [write, write, if_pos le, if_pos le, List.getElem?_eq_getElem inside]
    rfl
  · apply write_outside
    by_contra mem
    exact out ⟨by omega, by omega⟩

/-- Bytes that an overwriting program leaves out are read as before. -/
lemma Overwrites.read {f : Bytes → Except ε Bytes} {S : Set Nat} {m m1 : Bytes} {a k : Nat}
    (ow : Overwrites f S) (e : f m = .ok m1) (apart : ∀ x < k, a + x ∉ S) :
    read m1 a k = read m a k := by
  obtain ⟨contents, ran⟩ := ow
  obtain ⟨m', e', _, outside⟩ := ran m
  cases e'.symm.trans e
  exact read_congr fun x lt => outside _ (apart x lt)

end Irx.Lib
