import Mathlib

/-!
# Machine words and abnormal ends

The program computes with `uintptr_t` and `size_t`, here natural numbers below `2 ^ 64` with `word`
for the wrap-around of an operation. A call that does not return ends in an `Abort`: one of the
`exit(EXIT_FAILURE)` of the allocator, a failed `assert`, an exception of the standard library, or a
step the language leaves undefined (an `end()` iterator or a null pointer dereferenced).
-/

namespace Irx

/-- How a call ends that does not return. -/
inductive Abort where
  | exhausted
  | overlapping
  | assertion
  | outOfRange
  | invalidArgument
  | undefined
  deriving DecidableEq, Repr

/-- The result of 64-bit arithmetic. -/
def word (n : Nat) : Nat := n % 18446744073709551616

/-- A number below `2 ^ 64` is its own `size_t`. -/
lemma word_of_lt {n : Nat} (lt : n < 18446744073709551616) : word n = n := Nat.mod_eq_of_lt lt

/-- A `size_t` is below `2 ^ 64`. -/
lemma word_lt (n : Nat) : word n < 18446744073709551616 := Nat.mod_lt _ (by decide)

/-- `~0x03` as a `size_t`. -/
def alignMask : Nat := 0xFFFFFFFFFFFFFFFC

/-- Masking with `~0x03` rounds down to a multiple of four. -/
lemma and_alignMask {n : Nat} (lt : n < 18446744073709551616) : n &&& alignMask = n / 4 * 4 := by
  have mask : alignMask = (2 ^ 62 - 1) <<< 2 := by decide
  have down : n / 4 * 4 = (n >>> 2) <<< 2 := by
    rw [Nat.shiftLeft_eq, Nat.shiftRight_eq_div_pow]
  apply Nat.eq_of_testBit_eq
  intro i
  rw [mask, down, Nat.testBit_and, Nat.testBit_shiftLeft, Nat.testBit_shiftLeft,
    Nat.testBit_two_pow_sub_one, Nat.testBit_shiftRight]
  by_cases low : 2 ≤ i
  · rw [Nat.add_sub_cancel' low]
    by_cases high : i < 64
    · have : i - 2 < 62 := by omega
      simp [low, this]
    · have : n.testBit i = false :=
        Nat.testBit_lt_two_pow (lt.trans_le (Nat.pow_le_pow_right (n := 2) (by decide) (not_lt.1 high)))
      simp [this]
  · simp [low]

/-- A successful sequence of two calls consists of two successful calls. -/
lemma bind_eq_ok {ε : Type*} {α β : Type} {x : Except ε α} {f : α → Except ε β} {b : β} :
    x >>= f = .ok b ↔ ∃ a, x = .ok a ∧ f a = .ok b := by
  cases x with
  | error e => exact ⟨nofun, fun ⟨_, h, _⟩ => nomatch h⟩
  | ok a => exact ⟨fun h => ⟨a, rfl, h⟩, fun ⟨_, h, h'⟩ => by cases h; exact h'⟩

/-- What was computed is handed on. -/
@[simp] lemma ok_bind {ε : Type*} {α β : Type} (a : α) (f : α → Except ε β) :
    Except.ok a >>= f = f a := rfl

/-- An error is passed on. -/
@[simp] lemma error_bind {ε : Type*} {α β : Type} (r : ε) (f : α → Except ε β) :
    Except.error r >>= f = .error r := rfl

/-- A step that has returned hands its result on. -/
lemma bind_ok {ε : Type*} {α β : Type} {x : Except ε α} {a : α} (e : x = .ok a)
    (f : α → Except ε β) : x >>= f = f a := by
  rw [e]
  rfl

/-- A step that has failed ends the rest. -/
lemma bind_error {ε : Type*} {α β : Type} {x : Except ε α} {r : ε} (e : x = .error r)
    (f : α → Except ε β) : x >>= f = .error r := by
  rw [e]
  rfl

end Irx
