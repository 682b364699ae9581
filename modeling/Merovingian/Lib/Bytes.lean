import Mathlib.Tactic

/-!
# Byte strings

A string is the list of its bytes, compared byte by byte as unsigned numbers.  A
string literal stands for its UTF-8 bytes.  The decimal notation of integers is injective,
and `fromChars` reads it back.
-/

namespace Merovingian

open List Bool

/-- A string of bytes. -/
abbrev Str := List UInt8

/-- The bytes of a string literal. -/
def lit (s : String) : Str := s.toByteArray.data.toList

@[simp] theorem lit_inj {a b : String} : lit a = lit b ↔ a = b := by
  constructor
  · intro h
    have hdata : a.toByteArray.data = b.toByteArray.data := Array.toList_inj.mp h
    have hbytes : a.toByteArray = b.toByteArray := by
      cases ha : a.toByteArray
      cases hb : b.toByteArray
      simp_all
    exact String.toByteArray_inj.mp hbytes
  · rintro rfl
    rfl

instance : Coe String Str := ⟨lit⟩

@[simp] theorem lit_empty : lit "" = [] := rfl

theorem lit_eq_nil {s : String} : lit s = [] ↔ s = "" := by
  rw [← lit_empty, lit_inj]

instance instLinearOrderUInt8 : LinearOrder UInt8 where
  le_refl := UInt8.le_refl
  le_trans _ _ _ := UInt8.le_trans
  le_antisymm _ _ := UInt8.le_antisymm
  le_total := UInt8.le_total
  lt_iff_le_not_ge a b := by
    rw [UInt8.not_le]
    exact ⟨fun h => ⟨UInt8.le_of_lt h, h⟩, fun h => h.2⟩
  toDecidableLE := inferInstance
  toDecidableEq := inferInstance
  toDecidableLT := inferInstance

instance instLinearOrderInt64 : LinearOrder Int64 where
  le_refl := Int64.le_refl
  le_trans _ _ _ := Int64.le_trans
  le_antisymm _ _ := Int64.le_antisymm
  le_total := Int64.le_total
  lt_iff_le_not_ge a b := by
    rw [Int64.not_le]
    exact ⟨fun h => ⟨Int64.le_of_lt h, h⟩, fun h => h.2⟩
  toDecidableLE := inferInstance
  toDecidableEq := inferInstance
  toDecidableLT := inferInstance

instance instLawfulBEqStr : LawfulBEq Str := inferInstance

instance instLawfulBEqStrPair : LawfulBEq (Str × Str) := inferInstance

lemma forall_byte {P : UInt8 → Prop} (h : ∀ n < 256, P (UInt8.ofNat n)) : ∀ b, P b := by
  intro b
  have hb := h b.toNat b.toNat_lt
  rwa [UInt8.ofNat_toNat] at hb

/-! ### Decimal notation -/

/-- The byte of a character below 256. -/
def charByte (c : Char) : UInt8 := UInt8.ofNat c.toNat

/-- A decimal digit. -/
def isDigitByte (b : UInt8) : Bool := 48 ≤ b && b ≤ 57

/-- The number a digit string denotes. -/
def digitsValue (digits : Str) : ℕ :=
  digits.foldl (fun value digit => value * 10 + (digit - 48).toNat) 0

/-- `std::from_chars` into an `int64_t` that consumes the whole token. -/
def fromChars (token : Str) : Option Int64 :=
  let negative := token.head? = some 45
  let digits := if negative then token.drop 1 else token
  if digits.isEmpty || !digits.all isDigitByte then none
  else
    let value : ℤ := if negative then -(digitsValue digits : ℤ) else digitsValue digits
    if -2 ^ 63 ≤ value ∧ value < 2 ^ 63 then some (Int64.ofInt value) else none

/-- The decimal digits of a natural number, most significant first. -/
def decimalNat (n : ℕ) : Str := (Nat.toDigits 10 n).map charByte

/-- An integer in decimal notation, with a leading `-` when it is negative. -/
def decimal (n : ℤ) : Str :=
  if n < 0 then 45 :: decimalNat n.natAbs else decimalNat n.natAbs

variable {c : Char}

theorem toNat_of_isDigit (h : c.isDigit = true) : 48 ≤ c.toNat ∧ c.toNat ≤ 57 := by
  simp only [Char.isDigit, and_eq_true, decide_eq_true_eq] at h
  obtain ⟨h1, h2⟩ := h
  exact ⟨h1, h2⟩

theorem toNat_charByte (h : c.isDigit = true) : (charByte c).toNat = c.toNat := by
  obtain ⟨-, h2⟩ := toNat_of_isDigit h
  exact Nat.mod_eq_of_lt (by omega)

theorem isDigitByte_charByte (h : c.isDigit = true) : isDigitByte (charByte c) = true := by
  obtain ⟨h1, h2⟩ := toNat_of_isDigit h
  simp only [isDigitByte, and_eq_true, decide_eq_true_eq, UInt8.le_iff_toNat_le,
    toNat_charByte h]
  exact ⟨h1, h2⟩

theorem isDigitByte_of_mem_decimalNat {n : ℕ} {b : UInt8} (h : b ∈ decimalNat n) :
    isDigitByte b = true := by
  obtain ⟨c, hc, rfl⟩ := mem_map.mp h
  exact isDigitByte_charByte (Nat.isDigit_of_mem_toDigits (by omega) (by omega) hc)

theorem decimalNat_ne_nil (n : ℕ) : decimalNat n ≠ [] := by
  intro h
  exact Nat.toDigits_ne_nil (map_eq_nil_iff.mp h)

/-- The first byte of a number is a digit or the minus sign. -/
theorem decimal_head (n : ℤ) : ∃ b t, decimal n = b :: t ∧ (b = 45 ∨ isDigitByte b = true) := by
  unfold decimal
  split
  · exact ⟨45, _, rfl, .inl rfl⟩
  · obtain ⟨b, t, hbt⟩ := exists_cons_of_ne_nil (decimalNat_ne_nil n.natAbs)
    refine ⟨b, t, hbt, .inr ?_⟩
    exact isDigitByte_of_mem_decimalNat (n := n.natAbs) (by simp [hbt])

/-! ### Reading numbers back -/

variable {k : ℕ}

lemma decimalNat_of_ge (h : 10 ≤ k) :
    decimalNat k = decimalNat (k / 10) ++ [charByte (Nat.digitChar (k % 10))] := by
  rw [decimalNat, Nat.toDigits_of_base_le (by norm_num) h, map_append]
  rfl

lemma decimalNat_of_lt (h : k < 10) : decimalNat k = [charByte (Nat.digitChar k)] := by
  rw [decimalNat, Nat.toDigits_of_lt_base h]
  rfl

lemma charByte_digitChar (h : k < 10) : charByte (Nat.digitChar k) = UInt8.ofNat (48 + k) := by
  interval_cases k <;> rfl

/-- The digits of a positive number do not start with a zero. -/
lemma decimalNat_head (h : k ≠ 0) :
    ∃ d t, decimalNat k = d :: t ∧ d ≠ 48 ∧ isDigitByte d = true := by
  induction k using Nat.strong_induction_on with
  | _ k ih =>
    by_cases hk : k < 10
    · refine ⟨_, [], decimalNat_of_lt hk, ?_, ?_⟩ <;> rw [charByte_digitChar hk] <;>
        interval_cases k <;> first | exact absurd rfl h | decide
    · obtain ⟨d, t, hd, hne, hdigit⟩ := ih (k / 10) (by omega) (by omega)
      exact ⟨d, t ++ _, by rw [decimalNat_of_ge (by omega), hd, cons_append], hne, hdigit⟩

lemma digitsValue_decimalNat (k : ℕ) : digitsValue (decimalNat k) = k := by
  induction k using Nat.strong_induction_on with
  | _ k ih =>
    have hdigit : ∀ j < 10, (charByte (Nat.digitChar j) - 48).toNat = j := by decide
    by_cases hk : k < 10
    · rw [decimalNat_of_lt hk, digitsValue, foldl_cons, foldl_nil, hdigit k hk]
      omega
    · have hrest := ih (k / 10) (by omega)
      rw [decimalNat_of_ge (by omega), digitsValue, foldl_append, foldl_cons,
        foldl_nil, hdigit (k % 10) (by omega)]
      rw [digitsValue] at hrest
      omega

/-- The decimal notation of an integer of the type is read back. -/
theorem fromChars_decimal (n : Int64) : fromChars (decimal n.toInt) = some n := by
  have hlow := Int64.le_toInt n
  have hhigh := Int64.toInt_lt n
  have hall : ∀ k, (decimalNat k).all isDigitByte = true := fun k =>
    all_eq_true.mpr fun b hb => isDigitByte_of_mem_decimalNat hb
  have hne : ∀ k, (decimalNat k).isEmpty = false := fun k => by
    simpa using decimalNat_ne_nil k
  rw [fromChars]
  unfold decimal
  by_cases hneg : n.toInt < 0
  · have habs : -(n.toInt.natAbs : ℤ) = n.toInt := by omega
    simp only [if_pos hneg, head?_cons, if_true, drop_one, tail_cons, hne, hall,
      Bool.not_true, Bool.or_self, Bool.false_eq_true, if_false, digitsValue_decimalNat, habs]
    rw [if_pos ⟨hlow, hhigh⟩, Int64.ofInt_toInt]
  · have habs : (n.toInt.natAbs : ℤ) = n.toInt := by omega
    have hhead : ¬ (decimalNat n.toInt.natAbs).head? = some 45 := by
      intro hhead
      have hmem : (45 : UInt8) ∈ decimalNat n.toInt.natAbs := mem_of_mem_head? hhead
      exact absurd (isDigitByte_of_mem_decimalNat hmem) (by decide)
    simp only [if_neg hneg, hhead, if_false, hne, hall, Bool.not_true, Bool.or_self,
      false_eq_true, digitsValue_decimalNat, habs]
    rw [if_pos ⟨hlow, hhigh⟩, Int64.ofInt_toInt]

end Merovingian
