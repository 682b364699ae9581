import Merovingian.Lib.Bytes

/-!
# Base64

The encoding of RFC 4648 with padding: three bytes are four digits of six bits each, and a last
group of one or two bytes is filled up with the sign `=`.  What is encoded is decoded to the same
bytes (`decodeBase64_encodeBase64`).
-/

namespace Merovingian

open Option

/-- A digit of the alphabet: `A` to `Z`, `a` to `z`, `0` to `9`, `+` and `/`. -/
def base64Digit (n : ℕ) : UInt8 :=
  if n < 26 then UInt8.ofNat (65 + n)
  else if n < 52 then UInt8.ofNat (97 + (n - 26))
  else if n < 62 then UInt8.ofNat (48 + (n - 52))
  else if n = 62 then 43
  else 47

/-- The value of a digit. -/
def base64Value (digit : UInt8) : Option ℕ :=
  if 65 ≤ digit ∧ digit ≤ 90 then some (digit.toNat - 65)
  else if 97 ≤ digit ∧ digit ≤ 122 then some (digit.toNat - 97 + 26)
  else if 48 ≤ digit ∧ digit ≤ 57 then some (digit.toNat - 48 + 52)
  else if digit = 43 then some 62
  else if digit = 47 then some 63
  else none

/-- The digits of some bytes, with padding. -/
def encodeBase64 : Str → Str
  | [] => []
  | [a] => [base64Digit (a.toNat / 4), base64Digit (a.toNat % 4 * 16), 61, 61]
  | [a, b] =>
    [base64Digit (a.toNat / 4), base64Digit (a.toNat % 4 * 16 + b.toNat / 16),
      base64Digit (b.toNat % 16 * 4), 61]
  | a :: b :: c :: rest =>
    base64Digit (a.toNat / 4) :: base64Digit (a.toNat % 4 * 16 + b.toNat / 16) ::
      base64Digit (b.toNat % 16 * 4 + c.toNat / 64) :: base64Digit (c.toNat % 64) ::
      encodeBase64 rest

/-- The bytes of the last group of four signs, which may be padded. -/
def decodeLastBase64 (w x : ℕ) (y z : UInt8) : Option Str :=
  if z = 61 then
    if y = 61 then if x % 16 = 0 then some [UInt8.ofNat (w * 4 + x / 16)] else none
    else (base64Value y).bind fun y =>
      if y % 4 = 0 then
        some [UInt8.ofNat (w * 4 + x / 16), UInt8.ofNat (x % 16 * 16 + y / 4)]
      else none
  else none

/-- The bytes of some digits; the bits that padding stands for are zero. -/
def decodeBase64 : Str → Option Str
  | [] => some []
  | w :: x :: y :: z :: rest =>
    (base64Value w).bind fun w => (base64Value x).bind fun x =>
      if z = 61 ∧ rest = [] then decodeLastBase64 w x y z
      else (base64Value y).bind fun y => (base64Value z).bind fun z =>
        (decodeBase64 rest).map fun bytes =>
          UInt8.ofNat (w * 4 + x / 16) :: UInt8.ofNat (x % 16 * 16 + y / 4) ::
            UInt8.ofNat (y % 4 * 64 + z) :: bytes
  | _ => none

/-! ### Digits -/

variable {n : ℕ}

lemma base64Digit_spec (h : n < 64) :
    base64Value (base64Digit n) = some n ∧ base64Digit n ≠ 61 ∧ base64Digit n ≤ 0x7F := by
  revert n
  decide

lemma base64Value_digit (h : n < 64) : base64Value (base64Digit n) = some n :=
  (base64Digit_spec h).1

lemma base64Digit_ne_pad (h : n < 64) : base64Digit n ≠ 61 := (base64Digit_spec h).2.1

lemma base64Digit_le (n : ℕ) : base64Digit n ≤ 0x7F := by
  by_cases h : n < 64
  · exact (base64Digit_spec h).2.2
  · have hlarge : base64Digit n = 47 := by
      rw [base64Digit, if_neg (by omega), if_neg (by omega), if_neg (by omega), if_neg (by omega)]
    rw [hlarge]
    decide

lemma ofNat_eq_of_toNat {a : UInt8} (h : n = a.toNat) : UInt8.ofNat n = a := by
  rw [h, UInt8.ofNat_toNat]

/-! ### Both directions -/

/-- Decoding undoes encoding. -/
theorem decodeBase64_encodeBase64 (bytes : Str) : decodeBase64 (encodeBase64 bytes) = some bytes := by
  induction bytes using encodeBase64.induct with
  | case1 => rfl
  | case2 a =>
    have ha := a.toNat_lt
    have hfirst : UInt8.ofNat (a.toNat / 4 * 4 + a.toNat % 4 * 16 / 16) = a :=
      ofNat_eq_of_toNat (by omega)
    rw [encodeBase64, decodeBase64, base64Value_digit (by omega), base64Value_digit (by omega)]
    simp only [bind_some, and_self, if_true, decodeLastBase64, hfirst]
    rw [if_pos (by omega)]
  | case3 a b =>
    have ha := a.toNat_lt
    have hb := b.toNat_lt
    have hfirst : UInt8.ofNat (a.toNat / 4 * 4 + (a.toNat % 4 * 16 + b.toNat / 16) / 16) = a :=
      ofNat_eq_of_toNat (by omega)
    have hsecond : UInt8.ofNat ((a.toNat % 4 * 16 + b.toNat / 16) % 16 * 16 +
        b.toNat % 16 * 4 / 4) = b := ofNat_eq_of_toNat (by omega)
    rw [encodeBase64, decodeBase64, base64Value_digit (by omega), base64Value_digit (by omega)]
    simp only [bind_some, and_self, if_true, decodeLastBase64,
      if_neg (base64Digit_ne_pad (show b.toNat % 16 * 4 < 64 by omega)),
      base64Value_digit (show b.toNat % 16 * 4 < 64 by omega), hfirst, hsecond]
    rw [if_pos (by omega)]
  | case4 a b c rest ih =>
    have ha := a.toNat_lt
    have hb := b.toNat_lt
    have hc := c.toNat_lt
    have hfirst : UInt8.ofNat (a.toNat / 4 * 4 + (a.toNat % 4 * 16 + b.toNat / 16) / 16) = a :=
      ofNat_eq_of_toNat (by omega)
    have hsecond : UInt8.ofNat ((a.toNat % 4 * 16 + b.toNat / 16) % 16 * 16 +
        (b.toNat % 16 * 4 + c.toNat / 64) / 4) = b := ofNat_eq_of_toNat (by omega)
    have hthird : UInt8.ofNat ((b.toNat % 16 * 4 + c.toNat / 64) % 4 * 64 + c.toNat % 64) = c :=
      ofNat_eq_of_toNat (by omega)
    have hpad : base64Digit (c.toNat % 64) ≠ 61 := base64Digit_ne_pad (by omega)
    rw [encodeBase64, decodeBase64, base64Value_digit (by omega), base64Value_digit (by omega)]
    simp only [bind_some, if_neg fun h : _ ∧ _ => hpad h.1,
      base64Value_digit (show b.toNat % 16 * 4 + c.toNat / 64 < 64 by omega),
      base64Value_digit (show c.toNat % 64 < 64 by omega), ih, map_some, hfirst, hsecond,
      hthird]

lemma mem_encodeBase64_le (bytes : Str) : ∀ sign ∈ encodeBase64 bytes, sign ≤ 0x7F := by
  induction bytes using encodeBase64.induct with
  | case1 => simp [encodeBase64]
  | case2 | case3 => simp [encodeBase64, base64Digit_le]
  | case4 a b c rest ih => simpa [encodeBase64, base64Digit_le] using ih

lemma encodeBase64_ne_nil {bytes : Str} (h : bytes ≠ []) : encodeBase64 bytes ≠ [] := by
  intro hnil
  have hdecoded := decodeBase64_encodeBase64 bytes
  rw [hnil, decodeBase64, Option.some.injEq] at hdecoded
  exact h hdecoded.symm

end Merovingian
