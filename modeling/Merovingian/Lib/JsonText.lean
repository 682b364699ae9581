import Merovingian.Lib.Text

/-!
# JSON texts

A reader of the texts of RFC 8259.  It keeps the members of an object in the order they are
written, repeated names included, and a number as the token it was written as.  Strings are read
into UTF-8: a pair of surrogate escapes stands for one character, and a surrogate escape without
its partner is refused.

The reader is a recursive descent with fuel; how much of it a text needs is the subject of
`JsonTextSteps`.
-/

namespace Merovingian

open List

/-- What a JSON text denotes. -/
inductive JsonTree
  | null
  | bool (b : Bool)
  | number (token : Str)
  | string (s : Str)
  | array (items : List JsonTree)
  | object (members : List (Str × JsonTree))

namespace JsonText

/-! ### Tokens -/

/-- Insignificant white space. -/
def isWhiteSpace (b : UInt8) : Bool := b == 32 || b == 10 || b == 13 || b == 9

/-- The text after its leading white space. -/
def skipWhiteSpace (s : Str) : Str := s.dropWhile isWhiteSpace

/-- The text after a word it starts with. -/
def expect : Str → Str → Option Str
  | [], s => some s
  | _ :: _, [] => none
  | w :: word, b :: s => if b = w then expect word s else none

/-- The bytes that occur in numbers. -/
def isNumberByte (b : UInt8) : Bool :=
  isDigitByte b || b == 43 || b == 45 || b == 46 || b == 69 || b == 101

/-- One digit or more up to the end of the token. -/
def isDigits (s : Str) : Bool := !s.isEmpty && s.all isDigitByte

/-- The end of a number: an exponent or nothing. -/
def isExponent : Str → Bool
  | [] => true
  | b :: s => (b == 69 || b == 101) &&
    match s with
    | [] => false
    | c :: t => if c == 43 || c == 45 then isDigits t else isDigits s

/-- The rest of a number after its integer part: a fraction or not, and an exponent or not. -/
def isFractionAndExponent : Str → Bool
  | [] => true
  | b :: s =>
    if b == 46 then
      !(s.takeWhile isDigitByte).isEmpty && isExponent (s.dropWhile isDigitByte)
    else isExponent (b :: s)

/-- A number without its sign: no leading zeros. -/
def isUnsignedNumber : Str → Bool
  | [] => false
  | b :: s =>
    if b == 48 then isFractionAndExponent s
    else isDigitByte b && isFractionAndExponent (s.dropWhile isDigitByte)

/-- `number = [ minus ] int [ frac ] [ exp ]`. -/
def isNumber : Str → Bool
  | [] => false
  | b :: s => if b == 45 then isUnsignedNumber s else isUnsignedNumber (b :: s)

/-- A number, as its token. -/
def readNumber (s : Str) : Option (Str × Str) :=
  let token := s.takeWhile isNumberByte
  if isNumber token then some (token, s.dropWhile isNumberByte) else none

/-! ### Strings -/

/-- The UTF-8 bytes of a code point. -/
def utf8Encode (c : ℕ) : Str :=
  if c < 0x80 then [UInt8.ofNat c]
  else if c < 0x800 then [UInt8.ofNat (0xC0 + c / 64), UInt8.ofNat (0x80 + c % 64)]
  else if c < 0x10000 then
    [UInt8.ofNat (0xE0 + c / 4096), UInt8.ofNat (0x80 + c / 64 % 64), UInt8.ofNat (0x80 + c % 64)]
  else
    [UInt8.ofNat (0xF0 + c / 262144), UInt8.ofNat (0x80 + c / 4096 % 64),
      UInt8.ofNat (0x80 + c / 64 % 64), UInt8.ofNat (0x80 + c % 64)]

/-- Four hexadecimal digits. -/
def readHex4 : Str → Option (ℕ × Str)
  | a :: b :: c :: d :: s =>
    match hexDigitValue a, hexDigitValue b, hexDigitValue c, hexDigitValue d with
    | some a, some b, some c, some d => some (((a * 16 + b) * 16 + c) * 16 + d, s)
    | _, _, _, _ => none
  | _ => none

/-- The rest of `\uXXXX`, and of the escape that has to follow a leading surrogate. -/
def readUnicodeEscape (s : Str) : Option (Str × Str) :=
  match readHex4 s with
  | none => none
  | some (high, r) =>
    if 0xD800 ≤ high ∧ high < 0xDC00 then
      match expect [92, 117] r with
      | none => none
      | some r =>
        match readHex4 r with
        | none => none
        | some (low, r) =>
          if 0xDC00 ≤ low ∧ low < 0xE000 then
            some (utf8Encode (0x10000 + (high - 0xD800) * 0x400 + (low - 0xDC00)), r)
          else none
    else if 0xDC00 ≤ high ∧ high < 0xE000 then none
    else some (utf8Encode high, r)

/-- The byte that an escape of one letter stands for. -/
def simpleEscape (letter : UInt8) : Option UInt8 :=
  if letter = 34 ∨ letter = 92 ∨ letter = 47 then some letter
  else if letter = 98 then some 8
  else if letter = 102 then some 12
  else if letter = 110 then some 10
  else if letter = 114 then some 13
  else if letter = 116 then some 9
  else none

/-- The rest of an escape after its backslash. -/
def readEscape : Str → Option (Str × Str)
  | [] => none
  | letter :: s =>
    if letter = 117 then readUnicodeEscape s
    else (simpleEscape letter).map fun b => ([b], s)

/-- One byte of a string as it is, or one escape. -/
def readUnit : Str → Option (Str × Str)
  | [] => none
  | b :: s =>
    if b = 92 then readEscape s
    else if b < 0x20 ∨ b = 34 then none
    else some ([b], s)

/-- A string after its opening quotation mark. -/
def readStringBody : ℕ → Str → Option (Str × Str)
  | 0, _ => none
  | _ + 1, [] => none
  | n + 1, b :: s =>
    if b = 34 then some ([], s)
    else
      match readUnit (b :: s) with
      | none => none
      | some (bytes, r) =>
        match readStringBody n r with
        | none => none
        | some (t, r) => some (bytes ++ t, r)

/-- A string after its opening quotation mark, with fuel for every byte of it. -/
def readString (s : Str) : Option (Str × Str) := readStringBody s.length s

/-! ### Values -/

mutual

/-- A value at the front of a text. -/
def readValue : ℕ → Str → Option (JsonTree × Str)
  | 0, _ => none
  | _ + 1, [] => none
  | n + 1, b :: s =>
    if b = 34 then (readString s).map fun p => (.string p.1, p.2)
    else if b = 91 then
      match skipWhiteSpace s with
      | 93 :: r => some (.array [], r)
      | _ => (readItems n (skipWhiteSpace s)).map fun p => (.array p.1, p.2)
    else if b = 123 then
      match skipWhiteSpace s with
      | 125 :: r => some (.object [], r)
      | _ => (readMembers n (skipWhiteSpace s)).map fun p => (.object p.1, p.2)
    else if b = 110 then (expect (lit "null") (b :: s)).map fun r => (.null, r)
    else if b = 116 then (expect (lit "true") (b :: s)).map fun r => (.bool true, r)
    else if b = 102 then (expect (lit "false") (b :: s)).map fun r => (.bool false, r)
    else (readNumber (b :: s)).map fun p => (.number p.1, p.2)

/-- The items of an array from the next one on, and its closing bracket. -/
def readItems : ℕ → Str → Option (List JsonTree × Str)
  | 0, _ => none
  | n + 1, s =>
    match readValue n s with
    | none => none
    | some (item, r) =>
      match skipWhiteSpace r with
      | 44 :: r => (readItems n (skipWhiteSpace r)).map fun p => (item :: p.1, p.2)
      | 93 :: r => some ([item], r)
      | _ => none

/-- The members of an object from the next one on, and its closing brace. -/
def readMembers : ℕ → Str → Option (List (Str × JsonTree) × Str)
  | 0, _ => none
  | n + 1, s =>
    match s with
    | 34 :: s =>
      match readString s with
      | none => none
      | some (key, r) =>
        match skipWhiteSpace r with
        | 58 :: r =>
          match readValue n (skipWhiteSpace r) with
          | none => none
          | some (value, r) =>
            match skipWhiteSpace r with
            | 44 :: r => (readMembers n (skipWhiteSpace r)).map fun p => ((key, value) :: p.1, p.2)
            | 125 :: r => some ([(key, value)], r)
            | _ => none
        | _ => none
    | _ => none

end

/-- A whole text: one value with white space around it. -/
def readJson (s : Str) : Option JsonTree :=
  match readValue (2 * s.length + 1) (skipWhiteSpace s) with
  | some (tree, r) => if (skipWhiteSpace r).isEmpty then some tree else none
  | none => none

/-! ### What the tokens are

Each token reader is described once, by the text it takes off the front.  The structure of a
JSON text is written in ASCII, so what is taken off is ASCII except inside strings. -/

/-- All bytes of the text are ASCII. -/
def Ascii (s : Str) : Prop := ∀ b ∈ s, b ≤ 0x7F

instance (s : Str) : Decidable (Ascii s) := decidableBAll (· ≤ 0x7F) s

/-- A code point that is no surrogate. -/
def IsScalar (c : ℕ) : Prop := c < 0xD800 ∨ 0xE000 ≤ c ∧ c < 0x110000

lemma skipWhiteSpace_split (s : Str) : ∃ w, Ascii w ∧ s = w ++ skipWhiteSpace s := by
  refine ⟨s.takeWhile isWhiteSpace, fun b hb => ?_, takeWhile_append_dropWhile.symm⟩
  have hws := mem_takeWhile_imp hb
  simp only [isWhiteSpace, Bool.or_eq_true, beq_iff_eq] at hws
  rcases hws with ((rfl | rfl) | rfl) | rfl <;> decide

lemma expect_eq_some {word s r : Str} (h : expect word s = some r) : s = word ++ r := by
  induction word generalizing s with
  | nil => exact Option.some.inj h
  | cons w word ih =>
    cases s with
    | nil => cases h
    | cons b s =>
      rw [expect] at h
      split at h
      · rename_i hb
        rw [hb, ih h, cons_append]
      · cases h

variable {b : UInt8}

/-- A byte of a range of at most sixteen, counted from `base`. -/
lemma toNat_sub_lt {low high base : UInt8} (hb : (low ≤ b && b ≤ high) = true)
    (hbase : base ≤ low) (hhigh : high.toNat - base.toNat < 16) (hascii : high ≤ 0x7F) :
    (b - base).toNat < 16 ∧ b ≤ 0x7F := by
  rw [Bool.and_eq_true, decide_eq_true_eq, decide_eq_true_eq] at hb
  have hle := UInt8.le_iff_toNat_le.mp hb.2
  rw [UInt8.toNat_sub_of_le _ _ (hbase.trans hb.1)]
  exact ⟨by omega, hb.2.trans hascii⟩

lemma hexDigitValue_eq_some {n : ℕ} (h : hexDigitValue b = some n) :
    n < 16 ∧ b ≤ 0x7F := by
  unfold hexDigitValue at h
  split_ifs at h with hdigit hlower hupper
  · cases h
    exact toNat_sub_lt hdigit (by decide) (by decide) (by decide)
  · cases h
    exact toNat_sub_lt hlower (by decide) (by decide) (by decide)
  · cases h
    exact toNat_sub_lt hupper (by decide) (by decide) (by decide)

lemma readHex4_eq_some {s r : Str} {c : ℕ} (h : readHex4 s = some (c, r)) :
    c < 0x10000 ∧ ∃ e, Ascii e ∧ s = e ++ r := by
  unfold readHex4 at h
  split at h
  · rename_i b₁ b₂ b₃ b₄ s'
    split at h
    · rename_i d₁ d₂ d₃ d₄ h₁ h₂ h₃ h₄
      obtain ⟨hc, hr⟩ := Prod.mk.inj (Option.some.inj h)
      obtain ⟨hd₁, ha₁⟩ := hexDigitValue_eq_some h₁
      obtain ⟨hd₂, ha₂⟩ := hexDigitValue_eq_some h₂
      obtain ⟨hd₃, ha₃⟩ := hexDigitValue_eq_some h₃
      obtain ⟨hd₄, ha₄⟩ := hexDigitValue_eq_some h₄
      refine ⟨by omega, [b₁, b₂, b₃, b₄], ?_, by rw [hr]; rfl⟩
      intro b hb
      simp only [mem_cons, not_mem_nil, or_false] at hb
      rcases hb with rfl | rfl | rfl | rfl <;> assumption
    · cases h
  · cases h

lemma Ascii.append {s t : Str} (hs : Ascii s) (ht : Ascii t) : Ascii (s ++ t) :=
  forall_mem_append.mpr ⟨hs, ht⟩

lemma readUnicodeEscape_eq_some {s bytes r : Str} (h : readUnicodeEscape s = some (bytes, r)) :
    (∃ e, Ascii e ∧ s = e ++ r) ∧ ∃ c, IsScalar c ∧ bytes = utf8Encode c := by
  unfold readUnicodeEscape at h
  cases hhigh : readHex4 s with
  | none => simp [hhigh] at h
  | some p =>
    obtain ⟨high, r₁⟩ := p
    obtain ⟨hlt, e₁, he₁, rfl⟩ := readHex4_eq_some hhigh
    simp only [hhigh] at h
    split at h
    · -- a leading surrogate: the escape after it is part of the character
      rename_i hlead
      cases hword : expect [92, 117] r₁ with
      | none => simp [hword] at h
      | some r₂ =>
        simp only [hword] at h
        obtain rfl := expect_eq_some hword
        cases hlow : readHex4 r₂ with
        | none => simp [hlow] at h
        | some q =>
          obtain ⟨-, e₂, he₂, rfl⟩ := readHex4_eq_some hlow
          simp only [hlow] at h
          split at h
          · rename_i htrail
            obtain ⟨hbytes, hr⟩ := Prod.mk.inj (Option.some.inj h)
            subst hr
            refine ⟨⟨e₁ ++ ([92, 117] ++ e₂), ?_, by simp⟩, _, .inr ⟨?_, ?_⟩, hbytes.symm⟩
            · exact he₁.append (Ascii.append (by decide) he₂)
            · omega
            · omega
          · cases h
    · rename_i hlead
      split at h
      · cases h
      · rename_i htrail
        obtain ⟨hbytes, hr⟩ := Prod.mk.inj (Option.some.inj h)
        subst hr
        refine ⟨⟨e₁, he₁, rfl⟩, high, ?_, hbytes.symm⟩
        rw [IsScalar]
        omega

lemma simpleEscape_eq_some {letter : UInt8} (h : simpleEscape letter = some b) :
    letter ≤ 0x7F ∧ b ≤ 0x7F := by
  rw [simpleEscape] at h
  split at h
  · rename_i hl
    cases h
    rcases hl with rfl | rfl | rfl <;> decide
  · repeat' split at h
    all_goals cases h
    all_goals subst_vars
    all_goals decide

lemma utf8Encode_ascii (h : b ≤ 0x7F) : utf8Encode b.toNat = [b] := by
  have hlt : b.toNat < 0x80 := Nat.lt_succ_of_le (UInt8.le_iff_toNat_le.mp h)
  rw [utf8Encode, if_pos hlt, UInt8.ofNat_toNat]

/-- A unit of a string is a byte that stands for itself, or an escape in ASCII that stands for a
character. -/
theorem readUnit_eq_some {s bytes r : Str} (h : readUnit s = some (bytes, r)) :
    (∃ b, s = b :: r ∧ bytes = [b] ∧ b ≠ 34 ∧ b ≠ 92) ∨
      ∃ e c, Ascii e ∧ s = 92 :: (e ++ r) ∧ IsScalar c ∧ bytes = utf8Encode c := by
  cases s with
  | nil => cases h
  | cons b s =>
    rw [readUnit] at h
    split at h
    · rename_i hb
      subst hb
      right
      cases s with
      | nil => cases h
      | cons letter s =>
        rw [readEscape] at h
        split at h
        · rename_i hletter
          obtain ⟨⟨e, he, rfl⟩, c, hc, hbytes⟩ := readUnicodeEscape_eq_some h
          refine ⟨letter :: e, c, ?_, rfl, hc, hbytes⟩
          rw [hletter]
          exact Ascii.append (s := [117]) (by decide) he
        · obtain ⟨c, hc, hpair⟩ := Option.map_eq_some_iff.mp h
          obtain ⟨hbytes, hr⟩ := Prod.mk.inj hpair
          obtain ⟨hletter, hascii⟩ := simpleEscape_eq_some hc
          have hlt : c.toNat ≤ 127 := UInt8.le_iff_toNat_le.mp hascii
          refine ⟨[letter], c.toNat, ?_, by rw [hr]; rfl, .inl (by omega), ?_⟩
          · intro x hx
            rwa [mem_singleton.mp hx]
          · rw [utf8Encode_ascii hascii, hbytes]
    · rename_i hb
      split at h
      · cases h
      · rename_i hraw
        rw [not_or] at hraw
        obtain ⟨hbytes, hr⟩ := Prod.mk.inj (Option.some.inj h)
        exact .inl ⟨b, by rw [hr], hbytes.symm, hraw.2, hb⟩

lemma readStringBody_succ {n : ℕ} {s t r : Str} (h : readStringBody (n + 1) s = some (t, r)) :
    (s = 34 :: r ∧ t = []) ∨ ∃ bytes r' t', s.head? ≠ some 34 ∧ readUnit s = some (bytes, r') ∧
      readStringBody n r' = some (t', r) ∧ t = bytes ++ t' := by
  cases s with
  | nil => cases h
  | cons b s =>
    rw [readStringBody] at h
    split at h
    · rename_i hb
      obtain ⟨ht, hr⟩ := Prod.mk.inj (Option.some.inj h)
      exact .inl ⟨by rw [hb, hr], ht.symm⟩
    · rename_i hb
      cases hunit : readUnit (b :: s) with
      | none => simp [hunit] at h
      | some p =>
        obtain ⟨bytes, r'⟩ := p
        simp only [hunit] at h
        cases hbody : readStringBody n r' with
        | none => simp [hbody] at h
        | some q =>
          obtain ⟨t', r₂⟩ := q
          simp only [hbody] at h
          obtain ⟨ht, hr⟩ := Prod.mk.inj (Option.some.inj h)
          exact .inr ⟨bytes, r', t', by simpa using hb, rfl, by rw [hbody, hr], ht.symm⟩

lemma isNumberByte_ascii (h : isNumberByte b = true) : b ≤ 0x7F := by
  simp only [isNumberByte, isDigitByte, Bool.or_eq_true, Bool.and_eq_true, decide_eq_true_eq,
    beq_iff_eq] at h
  rcases h with ((((h | rfl) | rfl) | rfl) | rfl) | rfl
  · exact le_trans h.2 (by decide)
  all_goals decide

lemma readNumber_eq_some {s token r : Str} (h : readNumber s = some (token, r)) :
    Ascii token ∧ s = token ++ r := by
  rw [readNumber] at h
  split at h
  · cases h
    exact ⟨fun b hb => isNumberByte_ascii (mem_takeWhile_imp hb), takeWhile_append_dropWhile.symm⟩
  · cases h

end JsonText

end Merovingian
