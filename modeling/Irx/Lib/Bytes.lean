import Mathlib

/-!
# Integers as little-endian bytes

Fixed-width integers in a byte memory: `littleEndian k n` are the lowest `k` bytes of `n`, and the bytes
of a memory read as an unsigned number or, by `Int.bmod`, as a two's complement number. Reading what was
written gives the number modulo `256 ^ k`, in the range of the reading.
-/

namespace Irx.Lib

/-- The lowest bytes of a number, the lowest one first. -/
def littleEndian : Nat → Nat → List UInt8
  | 0, _ => []
  | k + 1, n => UInt8.ofNat n :: littleEndian k (n / 256)

/-- The number of a byte string, the lowest byte first. -/
def ofLittleEndian : List UInt8 → Nat
  | [] => 0
  | b :: l => b.toNat + 256 * ofLittleEndian l

/-- A number is written in as many bytes as asked for. -/
@[simp] lemma length_littleEndian (k n : Nat) : (littleEndian k n).length = k := by
  induction k generalizing n with
  | zero => rfl
  | succ k ih => rw [littleEndian, List.length_cons, ih]

/-- A number is read back from its bytes, as far as they hold it. -/
lemma ofLittleEndian_littleEndian (k n : Nat) :
    ofLittleEndian (littleEndian k n) = n % 256 ^ k := by
  induction k generalizing n with
  | zero => rw [littleEndian, ofLittleEndian, pow_zero, Nat.mod_one]
  | succ k ih =>
    have low : (UInt8.ofNat n).toNat = n % 256 := UInt8.toNat_ofNat'
    rw [littleEndian, ofLittleEndian, ih, low, pow_succ', Nat.mod_mul]

/-- The lowest bytes depend on the number modulo `256 ^ k` only. -/
lemma littleEndian_mod (k n : Nat) : littleEndian k (n % 256 ^ k) = littleEndian k n := by
  induction k generalizing n with
  | zero => rfl
  | succ k ih =>
    have low : UInt8.ofNat (n % 256 ^ (k + 1)) = UInt8.ofNat n := by
      apply UInt8.toNat_inj.1
      rw [UInt8.toNat_ofNat', UInt8.toNat_ofNat', pow_succ']
      exact Nat.mod_mod_of_dvd n (Dvd.intro _ rfl)
    have high : n % 256 ^ (k + 1) / 256 = n / 256 % 256 ^ k := by
      rw [pow_succ', Nat.mod_mul_right_div_self]
    rw [littleEndian, littleEndian, low, high, ih]

/-- Numbers with the same bytes are equal, as far as the bytes hold them. -/
lemma littleEndian_eq_iff {k n n' : Nat} :
    littleEndian k n = littleEndian k n' ↔ n % 256 ^ k = n' % 256 ^ k := by
  constructor
  · intro same
    rw [← ofLittleEndian_littleEndian, same, ofLittleEndian_littleEndian]
  · intro same
    rw [← littleEndian_mod, same, littleEndian_mod]

/-- A byte string is the bytes of its number. -/
lemma littleEndian_ofLittleEndian (l : List UInt8) : littleEndian l.length (ofLittleEndian l) = l := by
  induction l with
  | nil => rfl
  | cons b l ih =>
    have small : b.toNat < 256 := b.toNat_lt
    have low : UInt8.ofNat (b.toNat + 256 * ofLittleEndian l) = b := by
      apply UInt8.toNat_inj.1
      rw [UInt8.toNat_ofNat']
      omega
    have high : (b.toNat + 256 * ofLittleEndian l) / 256 = ofLittleEndian l := by omega
    rw [List.length_cons, ofLittleEndian, littleEndian, low, high, ih]

/-- The front of the bytes of a number. -/
lemma take_littleEndian (k j n : Nat) : (littleEndian (k + j) n).take k = littleEndian k n := by
  induction k generalizing n with
  | zero => rw [List.take_zero, littleEndian]
  | succ k ih => rw [Nat.add_right_comm, littleEndian, List.take_succ_cons, ih, littleEndian]

/-- Zeros above a number do not change it. -/
lemma ofLittleEndian_append_zeros (l : List UInt8) (k : Nat) :
    ofLittleEndian (l ++ List.replicate k 0) = ofLittleEndian l := by
  have zeros : ofLittleEndian (List.replicate k 0) = 0 := by
    induction k with
    | zero => rfl
    | succ k ih =>
      rw [List.replicate_succ, ofLittleEndian, ih]
      rfl
  induction l with
  | nil => exact zeros
  | cons b l ih => rw [List.cons_append, ofLittleEndian, ih, ofLittleEndian]

/-- The number of a byte string is the number of its front if what comes above is cut off. -/
lemma ofLittleEndian_append_mod (l l' : List UInt8) :
    ofLittleEndian (l ++ l') % 256 ^ l.length = ofLittleEndian l % 256 ^ l.length := by
  induction l with
  | nil => rw [List.length_nil, pow_zero, Nat.mod_one, Nat.mod_one]
  | cons b l ih =>
    have split : ∀ l', ofLittleEndian (b :: l') % 256 ^ (l.length + 1) =
        b.toNat + 256 * (ofLittleEndian l' % 256 ^ l.length) := by
      intro l'
      have small : b.toNat < 256 := b.toNat_lt
      rw [ofLittleEndian, pow_succ', Nat.mod_mul, Nat.add_mul_mod_self_left, Nat.mod_eq_of_lt small,
        Nat.add_mul_div_left _ _ (by decide), Nat.div_eq_of_lt small, Nat.zero_add]
    rw [List.length_cons, List.cons_append, split, split, ih]

/-- A memory of bytes. -/
abbrev Bytes := Nat → UInt8

/-- The bytes from an address on. -/
def read (m : Bytes) (a k : Nat) : List UInt8 := (List.range k).map fun i => m (a + i)

/-- The memory with bytes copied to an address. -/
def write (m : Bytes) (a : Nat) (l : List UInt8) : Bytes := fun x =>
  if a ≤ x then (l[x - a]?).getD (m x) else m x

/-- Where the memories agree, the same is read. -/
lemma read_congr {m m' : Bytes} {a a' k : Nat} (same : ∀ i < k, m (a + i) = m' (a' + i)) :
    read m a k = read m' a' k :=
  List.map_congr_left fun i mem => same i (List.mem_range.1 mem)

/-- As many bytes are read as asked for. -/
@[simp] lemma length_read (m : Bytes) (a k : Nat) : (read m a k).length = k := by
  rw [read, List.length_map, List.length_range]

/-- What was written is read. -/
lemma read_write (m : Bytes) (a : Nat) (l : List UInt8) : read (write m a l) a l.length = l := by
  apply List.ext_getElem
  · exact length_read _ _ _
  · intro i lt lt'
    simp [read, write, lt']

/-- A write changes nothing outside the bytes written. -/
lemma write_outside {m : Bytes} {a x : Nat} {l : List UInt8} (out : x < a ∨ a + l.length ≤ x) :
    write m a l x = m x := by
  rw [write]
  rcases out with lt | le
  · exact if_neg (not_le.2 lt)
  · rw [if_pos (by omega), List.getElem?_eq_none (by omega)]
    rfl

/-- Bytes that a write leaves out are read as before. -/
lemma read_write_of_apart {m : Bytes} {a a' k : Nat} {l : List UInt8}
    (apart : a + l.length ≤ a' ∨ a' + k ≤ a) : read (write m a l) a' k = read m a' k := by
  apply read_congr
  intro i lt
  apply write_outside
  omega

/-- What a write leaves at an address depends on what was there only. -/
lemma write_congr {m m' : Bytes} {a x : Nat} {l : List UInt8} (same : m x = m' x) :
    write m a l x = write m' a l x := by
  rw [write, write, same]

/-- Writes to different bytes commute. -/
lemma write_comm {m : Bytes} {a a' : Nat} {l l' : List UInt8}
    (apart : a + l.length ≤ a' ∨ a' + l'.length ≤ a) :
    write (write m a l) a' l' = write (write m a' l') a l := by
  funext x
  by_cases out : x < a ∨ a + l.length ≤ x
  · rw [write_outside out]
    exact write_congr (write_outside out)
  · have out' : x < a' ∨ a' + l'.length ≤ x := by omega
    rw [write_outside out']
    exact (write_congr (write_outside out')).symm

/-- Two ranges, one behind the other, are read as one. -/
lemma read_add (m : Bytes) (a k j : Nat) : read m a (k + j) = read m a k ++ read m (a + k) j := by
  rw [read, List.range_add, List.map_append, List.map_map]
  congr 1
  apply List.map_congr_left
  intro i _
  rw [Function.comp_apply, Nat.add_assoc]

/-- The unsigned number of the bytes from an address on. -/
def unsigned (m : Bytes) (a k : Nat) : Nat := ofLittleEndian (read m a k)

/-- The two's complement number of the bytes from an address on. -/
def signed (m : Bytes) (a k : Nat) : ℤ := (unsigned m a k : ℤ).bmod (256 ^ k)

/-- The bytes of a number, negative ones in two's complement. -/
def packed (k : Nat) (n : ℤ) : List UInt8 := littleEndian k (n % 256 ^ k).toNat

/-- An integer is packed in as many bytes as asked for. -/
@[simp] lemma length_packed (k : Nat) (n : ℤ) : (packed k n).length = k := length_littleEndian _ _

variable {m : Bytes} {a k : Nat} {n : ℤ}

/-- A packed integer is read without sign as its remainder. -/
lemma unsigned_of_packed (here : read m a k = packed k n) : (unsigned m a k : ℤ) = n % 256 ^ k := by
  have pos : (0 : ℤ) < 256 ^ k := by positivity
  have small : (n % 256 ^ k).toNat < 256 ^ k := by
    have := Int.emod_lt_of_pos n pos
    zify
    rwa [Int.toNat_of_nonneg (Int.emod_nonneg _ pos.ne')]
  rw [unsigned, here, packed, ofLittleEndian_littleEndian, Nat.mod_eq_of_lt small,
    Int.toNat_of_nonneg (Int.emod_nonneg _ pos.ne')]

/-- A packed number is read in two's complement as the number up to overflow. -/
lemma signed_of_packed (here : read m a k = packed k n) : signed m a k = n.bmod (256 ^ k) := by
  rw [signed, unsigned_of_packed here]
  exact_mod_cast Int.emod_bmod n (256 ^ k)

/-- Half of the numbers are negative. -/
lemma pow_half (k : Nat) : (256 : ℤ) ^ (k + 1) = 2 * 2 ^ (8 * k + 7) := by
  rw [show (256 : ℤ) = 2 ^ 8 by norm_num, ← pow_mul, ← pow_succ']
  congr 1

/-- A number in the signed range is its own balanced remainder. -/
lemma bmod_of_range (low : -2 ^ (8 * k + 7) ≤ n) (high : n < 2 ^ (8 * k + 7)) :
    n.bmod (256 ^ (k + 1)) = n := by
  apply Int.bmod_eq_of_le_mul_two
  · push_cast
    rw [pow_half]
    linarith
  · push_cast
    rw [pow_half]
    linarith

/-- A number of an unsigned range is kept by the two's complement reading in its lower half only. -/
lemma bmod_iff_of_nonneg (low : 0 ≤ n) :
    n = n.bmod (256 ^ (k + 1)) ↔ n < 2 ^ (8 * k + 7) := by
  constructor
  · intro kept
    have below := Int.bmod_lt (x := n) (m := 256 ^ (k + 1)) (by positivity)
    rw [← kept] at below
    push_cast at below
    rw [pow_half] at below
    omega
  · intro high
    have half : (0 : ℤ) ≤ 2 ^ (8 * k + 7) := by positivity
    exact (bmod_of_range (by omega) high).symm

/-- Reading more bytes and cutting them off does not matter. -/
lemma unsigned_mod (m : Bytes) (a k j : Nat) :
    unsigned m a (k + j) % 256 ^ k = unsigned m a k % 256 ^ k := by
  have := ofLittleEndian_append_mod (read m a k) (read m (a + k) j)
  rwa [length_read, ← read_add] at this

/-- A natural number is packed as it is written. -/
lemma packed_natCast (k v : Nat) : packed k (v : ℤ) = littleEndian k v := by
  rw [packed, ← littleEndian_mod k v]
  congr 1

/-- Only the remainder is packed. -/
lemma packed_emod (k : Nat) (n : ℤ) : packed k (n % 256 ^ k) = packed k n := by
  rw [packed, packed, Int.emod_emod]

/-- Bytes are those of the number that is read from them. -/
lemma read_eq_packed (m : Bytes) (a k : Nat) : read m a k = packed k (unsigned m a k : ℤ) := by
  have same := littleEndian_ofLittleEndian (read m a k)
  rw [length_read] at same
  rw [packed_natCast, unsigned, same]

end Irx.Lib
