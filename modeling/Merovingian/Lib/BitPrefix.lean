import Mathlib.Data.Nat.Bitwise
import Merovingian.Lib.Bytes

/-!
# Bit prefixes of byte sequences

The bits of a byte sequence are numbered from the most significant bit of the first byte on.
Two sequences share a prefix of `p` bits when they agree on the bits below `p`.  A prefix is
compared byte by byte, with the last byte shifted right by the bits that do not count
(`samePrefix_iff_div`), under a mask (`samePrefix_iff_mask`) or bit by bit
(`samePrefix_iff_and`).
-/

namespace Merovingian

variable {a b c : ℕ → UInt8} {p q : ℕ}

/-- Bit `i` of a byte sequence. -/
def bitAt (bytes : ℕ → UInt8) (i : ℕ) : Bool := (bytes (i / 8)).toNat.testBit (7 - i % 8)

/-- Two byte sequences have the same first `p` bits. -/
def SamePrefix (p : ℕ) (a b : ℕ → UInt8) : Prop := ∀ i < p, bitAt a i = bitAt b i

instance (p : ℕ) (a b : ℕ → UInt8) : Decidable (SamePrefix p a b) :=
  inferInstanceAs (Decidable (∀ i < p, bitAt a i = bitAt b i))

lemma bitAt_add (c : ℕ → UInt8) (i : ℕ) {k : ℕ} (hk : k < 8) :
    bitAt c (8 * i + k) = (c i).toNat.testBit (7 - k) := by
  have hdiv : (8 * i + k) / 8 = i := by omega
  have hmod : (8 * i + k) % 8 = k := by omega
  rw [bitAt, hdiv, hmod]

namespace SamePrefix

lemma symm (h : SamePrefix p a b) : SamePrefix p b a := fun i hi => (h i hi).symm

lemma trans (h : SamePrefix p a b) (h' : SamePrefix p b c) : SamePrefix p a c :=
  fun i hi => (h i hi).trans (h' i hi)

lemma mono (h : SamePrefix p a b) (hq : q ≤ p) : SamePrefix q a b :=
  fun i hi => h i (lt_of_lt_of_le hi hq)

end SamePrefix

lemma samePrefix_congr {a' b' : ℕ → UInt8} (ha : ∀ i, 8 * i < p → a i = a' i)
    (hb : ∀ i, 8 * i < p → b i = b' i) : SamePrefix p a b ↔ SamePrefix p a' b' := by
  refine forall₂_congr fun i hi => ?_
  have hbyte : 8 * (i / 8) < p := by omega
  rw [bitAt, bitAt, bitAt, bitAt, ha _ hbyte, hb _ hbyte]

/-- Bytes agree on their leading `r` bits when their quotients by the place value of the last
of them agree. -/
lemma leading_bits_iff_div {x y : ℕ} (hx : x < 256) (hy : y < 256) {r : ℕ} (hr : r ≤ 8) :
    (∀ k < r, x.testBit (7 - k) = y.testBit (7 - k)) ↔ x / 2 ^ (8 - r) = y / 2 ^ (8 - r) := by
  constructor
  · intro h
    apply Nat.eq_of_testBit_eq
    intro j
    rw [Nat.testBit_div_two_pow, Nat.testBit_div_two_pow]
    by_cases hj : j < r
    · have hbit := h (r - 1 - j) (by omega)
      have hpos : 7 - (r - 1 - j) = j + (8 - r) := by omega
      rwa [hpos] at hbit
    · have hlarge : (256 : ℕ) ≤ 2 ^ (j + (8 - r)) :=
        Nat.pow_le_pow_right (n := 2) (by norm_num) (show 8 ≤ j + (8 - r) by omega)
      rw [Nat.testBit_lt_two_pow (by omega), Nat.testBit_lt_two_pow (by omega)]
  · intro h k hk
    have hbit := congrArg (fun n => n.testBit (r - 1 - k)) h
    simp only [Nat.testBit_div_two_pow] at hbit
    have hpos : r - 1 - k + (8 - r) = 7 - k := by omega
    rwa [hpos] at hbit

/-- A prefix is shared when the whole bytes in it are equal and the next byte agrees on the bits
that are left. -/
theorem samePrefix_iff_div : SamePrefix p a b ↔
    (∀ i < p / 8, a i = b i) ∧
      (a (p / 8)).toNat / 2 ^ (8 - p % 8) = (b (p / 8)).toNat / 2 ^ (8 - p % 8) := by
  have hlt : ∀ x : UInt8, x.toNat < 256 := fun x => x.toNat_lt
  constructor
  · intro h
    have hbits : ∀ i k, k < 8 → 8 * i + k < p →
        (a i).toNat.testBit (7 - k) = (b i).toNat.testBit (7 - k) := by
      intro i k hk hi
      have hbit := h (8 * i + k) hi
      rwa [bitAt_add a i hk, bitAt_add b i hk] at hbit
    refine ⟨fun i hi => ?_, ?_⟩
    · have hquot := (leading_bits_iff_div (hlt _) (hlt _) (le_refl 8)).mp fun k hk =>
        hbits i k hk (by omega)
      exact UInt8.toNat_inj.mp (by simpa using hquot)
    · exact (leading_bits_iff_div (hlt _) (hlt _) (by omega)).mp fun k hk =>
        hbits (p / 8) k (by omega) (by omega)
  · rintro ⟨hbytes, hlast⟩ i hi
    rw [bitAt, bitAt]
    by_cases hwhole : i / 8 < p / 8
    · rw [hbytes _ hwhole]
    · have hbyte : i / 8 = p / 8 := by omega
      rw [hbyte]
      exact (leading_bits_iff_div (hlt _) (hlt _) (by omega)).mpr hlast (i % 8) (by omega)

/-- A sequence of `n` bytes is its prefix of `8 * n` bits. -/
theorem samePrefix_bytes (n : ℕ) : SamePrefix (8 * n) a b ↔ ∀ i < n, a i = b i := by
  have hdiv : 8 * n / 8 = n := by omega
  have hmod : 8 * n % 8 = 0 := by omega
  have hsmall : ∀ x : UInt8, x.toNat / 2 ^ (8 - 0) = 0 := fun x => Nat.div_eq_of_lt x.toNat_lt
  rw [samePrefix_iff_div, hmod, hsmall, hsmall]
  simp

/-- A prefix longer than `n` bytes: those bytes, and a prefix of the rest. -/
theorem samePrefix_add (n : ℕ) : SamePrefix (8 * n + p) a b ↔
    (∀ i < n, a i = b i) ∧ SamePrefix p (fun i => a (n + i)) (fun i => b (n + i)) := by
  have hbit : ∀ (c : ℕ → UInt8) i, bitAt c (8 * n + i) = bitAt (fun j => c (n + j)) i := by
    intro c i
    have hdiv : (8 * n + i) / 8 = n + i / 8 := by omega
    have hmod : (8 * n + i) % 8 = i % 8 := by omega
    rw [bitAt, bitAt, hdiv, hmod]
  constructor
  · intro h
    refine ⟨(samePrefix_bytes n).mp (h.mono (by omega)), fun i hi => ?_⟩
    rw [← hbit, ← hbit]
    exact h (8 * n + i) (by omega)
  · rintro ⟨hfront, hback⟩ i hi
    rcases lt_or_ge i (8 * n) with hlt | hge
    · exact (samePrefix_bytes n).mpr hfront i hlt
    · obtain ⟨j, rfl⟩ := Nat.exists_eq_add_of_le hge
      rw [hbit, hbit]
      exact hback j (by omega)

/-- Two bytes agree under the mask of the leading `r` bits when their quotients agree. -/
lemma and_mask_eq_iff_div {x y : ℕ} (r : ℕ) (hx : x < 256) (hy : y < 256) :
    x &&& (255 <<< (8 - r)) = y &&& (255 <<< (8 - r)) ↔ x / 2 ^ (8 - r) = y / 2 ^ (8 - r) := by
  have hmask : ∀ z < 256, z &&& (255 <<< (8 - r)) = z / 2 ^ (8 - r) * 2 ^ (8 - r) := by
    intro z hz
    apply Nat.eq_of_testBit_eq
    intro j
    rw [Nat.testBit_and, Nat.testBit_shiftLeft, Nat.testBit_mul_two_pow, Nat.testBit_div_two_pow,
      Nat.testBit_two_pow_sub_one 8]
    by_cases hj : 8 - r ≤ j
    · rw [Nat.sub_add_cancel hj]
      by_cases hbit : j < 8
      · simp [hj, (Nat.sub_le _ _).trans_lt hbit]
      · have hlarge : 2 ^ 8 ≤ 2 ^ j := Nat.pow_le_pow_right two_pos (not_lt.mp hbit)
        simp [Nat.testBit_lt_two_pow (hz.trans_le hlarge)]
    · simp [hj]
  rw [hmask x hx, hmask y hy, Nat.mul_left_inj (Nat.two_pow_pos _).ne']

/-- A prefix compared byte by byte, and the byte it ends in, if it ends inside one, under a
mask. -/
theorem samePrefix_iff_mask : SamePrefix p a b ↔
    (∀ i < p / 8, a i = b i) ∧ (p % 8 = 0 ∨
      (a (p / 8)).toNat &&& (255 <<< (8 - p % 8)) =
        (b (p / 8)).toNat &&& (255 <<< (8 - p % 8))) := by
  rw [samePrefix_iff_div, and_mask_eq_iff_div _ (a _).toNat_lt (b _).toNat_lt]
  by_cases hrest : p % 8 = 0
  · have hsmall : ∀ x : UInt8, x.toNat / 2 ^ (8 - p % 8) = 0 := by
      intro x
      rw [hrest]
      exact Nat.div_eq_of_lt x.toNat_lt
    rw [hsmall, hsmall]
    simp
  · simp [hrest]

lemma and_bit_eq_iff (x y : ℕ) {k : ℕ} (hk : k < 8) :
    x &&& (128 >>> k) = y &&& (128 >>> k) ↔ x.testBit (7 - k) = y.testBit (7 - k) := by
  have hmask : 128 >>> k = 2 ^ (7 - k) := by
    interval_cases k <;> rfl
  have hpos : 0 ≠ 2 ^ (7 - k) := (Nat.two_pow_pos _).ne
  rw [hmask, Nat.and_two_pow, Nat.and_two_pow]
  cases x.testBit (7 - k) <;> cases y.testBit (7 - k) <;> simp [hpos]

/-- A prefix compared bit by bit. -/
theorem samePrefix_iff_and : SamePrefix p a b ↔
    ∀ i < p, (a (i / 8)).toNat &&& (128 >>> (i % 8)) = (b (i / 8)).toNat &&& (128 >>> (i % 8)) :=
  forall₂_congr fun i _ => (and_bit_eq_iff _ _ (Nat.mod_lt i (by norm_num))).symm

end Merovingian
