import Mathlib.Data.List.TakeWhile
import Merovingian.Lib.Bytes

/-!
# Cutting texts

Three ways to take a text apart: at the first occurrence of a byte (`cut`), at the line ends CR LF
(`crlfLines`), and at the blanks around it (`trimBlanks`).

A text that is written with its length before it (`lengthPrefixed`) is read back off the front of
whatever follows it (`lengthPrefixed_append_inj`).
-/

namespace Merovingian

open List

/-! ### The first occurrence of a byte -/

/-- The text before the first byte `b`, and the text after it if there is one. -/
def cut (b : UInt8) : Str → Str × Option Str
  | [] => ([], none)
  | c :: s => if c = b then ([], some s) else (c :: (cut b s).1, (cut b s).2)

variable {s : Str}

lemma cut_append {b : UInt8} (h : b ∉ s) (t : Str) : cut b (s ++ b :: t) = (s, some t) := by
  induction s with
  | nil => simp [cut]
  | cons c s ih =>
    simp only [mem_cons, not_or] at h
    rw [cons_append, cut, if_neg (fun hc => h.1 hc.symm), ih h.2]

lemma eq_of_cut_some {b : UInt8} {t : Str} (h : (cut b s).2 = some t) :
    s = (cut b s).1 ++ b :: t := by
  induction s with
  | nil => cases h
  | cons c s ih =>
    rw [cut] at h ⊢
    split at h
    · rename_i hc
      cases h
      rw [if_pos hc, hc]
      rfl
    · rename_i hc
      rw [if_neg hc, cons_append, ← ih h]

/-! ### Length-prefixed texts -/

/-- The decimal length of a text, a colon and the text. -/
def lengthPrefixed (s : Str) : Str := decimalNat s.length ++ 58 :: s

lemma colon_notMem_decimalNat (n : ℕ) : (58 : UInt8) ∉ decimalNat n := by
  intro h
  exact absurd (isDigitByte_of_mem_decimalNat h) (by decide)

/-- No length-prefixed text runs into what follows it. -/
theorem lengthPrefixed_append_inj {t u v : Str}
    (h : lengthPrefixed s ++ u = lengthPrefixed t ++ v) :
    s = t ∧ u = v := by
  have hcut : ∀ s u : Str, cut 58 (lengthPrefixed s ++ u) = (decimalNat s.length, some (s ++ u)) := by
    intro s u
    rw [lengthPrefixed, append_assoc]
    exact cut_append (colon_notMem_decimalNat _) _
  have hboth := congrArg (cut 58) h
  rw [hcut, hcut, Prod.mk.injEq, Option.some.injEq] at hboth
  have hlen : s.length = t.length := by
    rw [← digitsValue_decimalNat s.length, hboth.1, digitsValue_decimalNat]
  exact append_inj hboth.2 hlen

/-! ### Lines -/

/-- The lines that end in CR LF, where `line` has already been read. -/
def crlfLinesFrom (line : Str) : Str → List Str
  | 13 :: 10 :: s => line :: crlfLinesFrom [] s
  | b :: s => crlfLinesFrom (line ++ [b]) s
  | [] => []

/-- The lines of a text that end in CR LF; what follows the last of them is left out. -/
def crlfLines (s : Str) : List Str := crlfLinesFrom [] s

lemma crlfLinesFrom_append (line s t : Str) :
    crlfLinesFrom line (s ++ 13 :: 10 :: t) = crlfLinesFrom line (s ++ [13, 10]) ++ crlfLines t := by
  induction line, s using crlfLinesFrom.induct with
  | case1 line s ih =>
    simp only [cons_append, crlfLinesFrom] at ih ⊢
    rw [ih]
  | case2 line b s hno ih =>
    have hstep : ∀ u, crlfLinesFrom line ((b :: s) ++ 13 :: u) =
        crlfLinesFrom (line ++ [b]) (s ++ 13 :: u) := by
      intro u
      rw [cons_append, crlfLinesFrom]
      intro s' hb hs
      cases s with
      | nil => exact absurd (cons.inj hs).1 (by decide)
      | cons c s =>
        rw [cons_append, cons.injEq] at hs
        exact hno s hb (by rw [hs.1])
    rw [hstep, hstep, ih]
  | case3 line => simp [crlfLinesFrom, crlfLines]

/-- The lines up to a line end and the lines after it. -/
theorem crlfLines_append (s t : Str) :
    crlfLines (s ++ 13 :: 10 :: t) = crlfLines (s ++ [13, 10]) ++ crlfLines t :=
  crlfLinesFrom_append [] s t

lemma crlfLinesFrom_cons {line : Str} (h : 13 ∉ s) (t : Str) :
    crlfLinesFrom line (s ++ 13 :: 10 :: t) = (line ++ s) :: crlfLines t := by
  induction s generalizing line with
  | nil => simp [crlfLinesFrom, crlfLines]
  | cons b s ih =>
    simp only [mem_cons, not_or] at h
    rw [cons_append, crlfLinesFrom, ih h.2, append_assoc, singleton_append]
    intro s' hb
    exact absurd hb.symm h.1

/-- A text without CR before a line end is the first line. -/
theorem crlfLines_cons (h : 13 ∉ s) (t : Str) :
    crlfLines (s ++ 13 :: 10 :: t) = s :: crlfLines t := by
  rw [crlfLines, crlfLinesFrom_cons h, nil_append]

lemma eq_of_crlfLinesFrom {line first : Str} {lines : List Str}
    (h : crlfLinesFrom line s = first :: lines) :
    ∃ t, line ++ s = first ++ 13 :: 10 :: t ∧ crlfLines t = lines := by
  induction line, s using crlfLinesFrom.induct with
  | case1 line s _ =>
    obtain ⟨rfl, hlines⟩ := cons.inj h
    exact ⟨s, rfl, hlines⟩
  | case2 line b s hno ih =>
    rw [crlfLinesFrom] at h
    · obtain ⟨t, ht, hlines⟩ := ih h
      exact ⟨t, by rw [← ht, append_assoc, singleton_append], hlines⟩
    · exact hno
  | case3 => cases h

lemma eq_of_crlfLines {lines after : List Str} (h : crlfLines s = lines ++ [] :: after) :
    ∃ t, s = (lines.map (· ++ [13, 10])).flatten ++ 13 :: 10 :: t := by
  induction lines generalizing s with
  | nil =>
    obtain ⟨t, ht, -⟩ := eq_of_crlfLinesFrom h
    exact ⟨t, ht⟩
  | cons line lines ih =>
    obtain ⟨t, ht, hlines⟩ := eq_of_crlfLinesFrom h
    obtain ⟨u, rfl⟩ := ih hlines
    exact ⟨u, by simpa using ht⟩

/-- The text up to and including the first two line ends in a row, or the whole text. -/
def throughBlankLine : Str → Str
  | 13 :: 10 :: 13 :: 10 :: _ => [13, 10, 13, 10]
  | b :: s => b :: throughBlankLine s
  | [] => []

/-- Only what stands after a blank line is left out. -/
theorem throughBlankLine_cases (s : Str) : throughBlankLine s = s ∨
    ∃ u t, throughBlankLine s = u ++ [13, 10, 13, 10] ∧ s = u ++ 13 :: 10 :: 13 :: 10 :: t := by
  induction s using throughBlankLine.induct with
  | case1 t => exact .inr ⟨[], t, rfl, rfl⟩
  | case2 b s hno ih =>
    rw [throughBlankLine]
    · rcases ih with ih | ⟨u, t, hu, hs⟩
      · exact .inl (by rw [ih])
      · exact .inr ⟨b :: u, t, by rw [hu]; rfl, by rw [hs]; rfl⟩
    · exact hno
  | case3 => exact .inl rfl

/-! ### Blanks -/

/-- A space or a tab. -/
def isBlank (b : UInt8) : Bool := b == 32 || b == 9

/-- The text without the blanks at its two ends. -/
def trimBlanks (s : Str) : Str := ((s.dropWhile isBlank).reverse.dropWhile isBlank).reverse

/-- The text has no blank at either end. -/
def Trimmed (s : Str) : Prop := (∀ b ∈ s.head?, isBlank b = false) ∧ ∀ b ∈ s.getLast?, isBlank b = false

lemma trimBlanks_eq_self (h : Trimmed s) : trimBlanks s = s := by
  have hdrop : ∀ u : Str, (∀ b ∈ u.head?, isBlank b = false) → u.dropWhile isBlank = u := by
    intro u hu
    cases u with
    | nil => rfl
    | cons b u => rw [dropWhile_cons_of_neg (by rw [hu b rfl]; decide)]
  rw [trimBlanks, hdrop s h.1, hdrop s.reverse (by rw [head?_reverse]; exact h.2), reverse_reverse]

lemma isBlank_head_dropWhile (s : Str) : ∀ b ∈ (s.dropWhile isBlank).head?, isBlank b = false := by
  intro b hb
  have h := head?_dropWhile_not isBlank s
  rwa [hb] at h

lemma trimmed_trimBlanks (s : Str) : Trimmed (trimBlanks s) := by
  rw [Trimmed, trimBlanks, head?_reverse, getLast?_reverse]
  refine ⟨fun b hb => ?_, isBlank_head_dropWhile _⟩
  -- what is left has the same first byte as the text without its leading blanks
  obtain ⟨front, hfront⟩ := dropWhile_suffix (l := (s.dropWhile isBlank).reverse) isBlank
  have hlast : ((s.dropWhile isBlank).reverse).getLast? = some b := by
    rw [← hfront, getLast?_append, hb]
    rfl
  rw [getLast?_reverse] at hlast
  exact isBlank_head_dropWhile s b hlast

lemma length_trimBlanks_le (s : Str) : (trimBlanks s).length ≤ s.length := by
  have h1 := (dropWhile_suffix (p := isBlank) (l := s)).length_le
  have h2 := (dropWhile_suffix (p := isBlank) (l := (s.dropWhile isBlank).reverse)).length_le
  rw [length_reverse] at h2
  rw [trimBlanks, length_reverse]
  omega

/-! ### Hexadecimal digits -/

/-- The value of a hexadecimal digit. -/
def hexDigitValue (b : UInt8) : Option ℕ :=
  if 48 ≤ b && b ≤ 57 then some (b - 48).toNat
  else if 97 ≤ b && b ≤ 102 then some (b - 87).toNat
  else if 65 ≤ b && b ≤ 70 then some (b - 55).toNat
  else none

end Merovingian
