import Merovingian.Lib.JsonText

/-!
# Steps of the JSON reader

What one step of the readers for values, items and members can do (`readValue_succ`,
`readItems_succ`, `readMembers_succ`).
-/

namespace Merovingian

open Option

namespace JsonText

/-! ### One step of the readers -/

/-- What a value that is read with fuel `n + 1` can be: `s` is the text, `t` the value and `r`
the text after it. -/
inductive ValueStep (n : ℕ) : Str → JsonTree → Str → Prop
  | string {s str r : Str} (h : readString s = some (str, r)) :
      ValueStep n (34 :: s) (.string str) r
  | emptyArray {s r : Str} (h : skipWhiteSpace s = 93 :: r) : ValueStep n (91 :: s) (.array []) r
  | array {s r : Str} {items : List JsonTree}
      (h : readItems n (skipWhiteSpace s) = some (items, r)) :
      ValueStep n (91 :: s) (.array items) r
  | emptyObject {s r : Str} (h : skipWhiteSpace s = 125 :: r) :
      ValueStep n (123 :: s) (.object []) r
  | object {s r : Str} {members : List (Str × JsonTree)}
      (h : readMembers n (skipWhiteSpace s) = some (members, r)) :
      ValueStep n (123 :: s) (.object members) r
  | null {r : Str} : ValueStep n (lit "null" ++ r) .null r
  | bool {r : Str} (b : Bool) : ValueStep n (lit (if b then "true" else "false") ++ r) (.bool b) r
  | number {s token r : Str} (h : readNumber s = some (token, r)) :
      ValueStep n s (.number token) r

variable {n : ℕ} {members : List (Str × JsonTree)} {s r r₁ : Str} {items : List JsonTree}
  {value item : JsonTree}

lemma readValue_succ {t : JsonTree} (h : readValue (n + 1) s =
      some (t, r)) : ValueStep n s t r := by
  cases s with
  | nil => cases h
  | cons b s =>
    rw [readValue] at h
    split_ifs at h with hstring harray hobject
    · subst hstring
      obtain ⟨⟨str, r'⟩, hread, hpair⟩ := map_eq_some_iff.mp h
      cases hpair
      exact .string hread
    · subst harray
      split at h
      · rename_i r' hskip
        cases h
        exact .emptyArray hskip
      · obtain ⟨⟨items, r'⟩, hread, hpair⟩ := map_eq_some_iff.mp h
        cases hpair
        exact .array hread
    · subst hobject
      split at h
      · rename_i r' hskip
        cases h
        exact .emptyObject hskip
      · obtain ⟨⟨members, r'⟩, hread, hpair⟩ := map_eq_some_iff.mp h
        cases hpair
        exact .object hread
    · obtain ⟨r', hword, hpair⟩ := map_eq_some_iff.mp h
      cases hpair
      rw [expect_eq_some hword]
      exact .null
    · obtain ⟨r', hword, hpair⟩ := map_eq_some_iff.mp h
      cases hpair
      rw [expect_eq_some hword]
      exact .bool true
    · obtain ⟨r', hword, hpair⟩ := map_eq_some_iff.mp h
      cases hpair
      rw [expect_eq_some hword]
      exact .bool false
    · obtain ⟨⟨token, r'⟩, hread, hpair⟩ := map_eq_some_iff.mp h
      cases hpair
      exact .number hread

lemma readItems_succ (h : readItems (n + 1) s = some (items, r)) :
    ∃ item r₁, readValue n s = some (item, r₁) ∧
      ((∃ r₂ rest, skipWhiteSpace r₁ = 44 :: r₂ ∧
          readItems n (skipWhiteSpace r₂) = some (rest, r) ∧ items = item :: rest) ∨
        skipWhiteSpace r₁ = 93 :: r ∧ items = [item]) := by
  rw [readItems] at h
  cases hvalue : readValue n s with
  | none => simp [hvalue] at h
  | some p =>
    obtain ⟨item, r₁⟩ := p
    simp only [hvalue] at h
    refine ⟨item, r₁, rfl, ?_⟩
    split at h
    · rename_i r₂ hskip
      obtain ⟨⟨rest, r'⟩, hread, hpair⟩ := map_eq_some_iff.mp h
      cases hpair
      exact .inl ⟨r₂, rest, hskip, hread, rfl⟩
    · rename_i r₂ hskip
      cases h
      exact .inr ⟨hskip, rfl⟩
    · cases h

lemma readMembers_succ (h : readMembers (n + 1) s = some (members, r)) :
    ∃ s₀ key r₀ r₁ value r₂, s = 34 :: s₀ ∧ readString s₀ = some (key, r₀) ∧
      skipWhiteSpace r₀ = 58 :: r₁ ∧ readValue n (skipWhiteSpace r₁) = some (value, r₂) ∧
      ((∃ r₃ rest, skipWhiteSpace r₂ = 44 :: r₃ ∧
          readMembers n (skipWhiteSpace r₃) = some (rest, r) ∧ members = (key, value) :: rest) ∨
        skipWhiteSpace r₂ = 125 :: r ∧ members = [(key, value)]) := by
  unfold readMembers at h
  split at h
  · rename_i s₀
    cases hkey : readString s₀ with
    | none => simp [hkey] at h
    | some p =>
      obtain ⟨key, r₀⟩ := p
      simp only [hkey] at h
      split at h
      · rename_i r₁ hcolon
        cases hvalue : readValue n (skipWhiteSpace r₁) with
        | none => simp [hvalue] at h
        | some q =>
          obtain ⟨value, r₂⟩ := q
          simp only [hvalue] at h
          refine ⟨s₀, key, r₀, r₁, value, r₂, rfl, hkey, hcolon, hvalue, ?_⟩
          split at h
          · rename_i r₃ hskip
            obtain ⟨⟨rest, r'⟩, hread, hpair⟩ := map_eq_some_iff.mp h
            cases hpair
            exact .inl ⟨r₃, rest, hskip, hread, rfl⟩
          · rename_i r₃ hskip
            cases h
            exact .inr ⟨hskip, rfl⟩
          · cases h
      · cases h
  · cases h

/-! ### Steps forward -/

lemma readValue_array (hne : ∀ t, skipWhiteSpace s ≠ 93 :: t)
    (h : readItems n (skipWhiteSpace s) = some (items, r)) :
    readValue (n + 1) (91 :: s) = some (.array items, r) := by
  rw [readValue, if_neg (by decide), if_pos rfl]
  split
  · rename_i t ht
    exact absurd ht (hne t)
  · rw [h]
    rfl

lemma readValue_object (hne : ∀ t, skipWhiteSpace s ≠ 125 :: t)
    (h : readMembers n (skipWhiteSpace s) = some (members, r)) :
    readValue (n + 1) (123 :: s) = some (.object members, r) := by
  rw [readValue, if_neg (by decide), if_neg (by decide), if_pos rfl]
  split
  · rename_i t ht
    exact absurd ht (hne t)
  · rw [h]
    rfl

lemma readItems_item (hvalue : readValue n s = some (item, r₁)) :
    (∀ r, skipWhiteSpace r₁ = 93 :: r → readItems (n + 1) s = some ([item], r)) ∧
      ∀ r, skipWhiteSpace r₁ = 44 :: r → readItems (n + 1) s =
        (readItems n (skipWhiteSpace r)).map fun p => (item :: p.1, p.2) := by
  rw [readItems, hvalue]
  constructor <;> intro r hr <;> simp [hr]

lemma readMembers_member {r₀ r₂ key : Str} (hkey : readString s = some (key, r₀))
    (hcolon : skipWhiteSpace r₀ = 58 :: r₁)
    (hvalue : readValue n (skipWhiteSpace r₁) = some (value, r₂)) :
    (∀ r, skipWhiteSpace r₂ = 125 :: r →
        readMembers (n + 1) (34 :: s) = some ([(key, value)], r)) ∧
      ∀ r, skipWhiteSpace r₂ = 44 :: r → readMembers (n + 1) (34 :: s) =
        (readMembers n (skipWhiteSpace r)).map fun p => ((key, value) :: p.1, p.2) := by
  rw [readMembers]
  constructor <;> intro r hr <;> simp [hkey, hcolon, hvalue, hr]

end JsonText

end Merovingian
