import Merovingian.Json.Serializer
import Merovingian.Lib.JsonTextSteps

/-!
# UTF-8 in JSON texts

The parser checks the whole input once.  That covers its strings: an ASCII byte is never inside the
bytes of another character, so a valid text that is cut at quotation marks and escapes falls into
valid pieces, and an escape is read as a valid character (`readString_utf8`).  Hence every string
in the tree of a valid text is valid (`readJson_utf8`).  In the other direction, escaping keeps a
valid string valid (`utf8IsValid_escapedString`).
-/

namespace Merovingian

open JsonText Bool

/-! ### Pieces of a text -/

variable {s : Str} {b : UInt8} {k minCodepoint : ℕ}

/-- An accepted byte moves the scan to a state that does not depend on what follows. -/
lemma utf8Scan_step {pending codepoint : ℕ}
    (h : utf8Scan pending minCodepoint codepoint (b :: s) = true) :
    ∃ pending' minCodepoint' codepoint', ∀ t, utf8Scan pending minCodepoint codepoint (b :: t) =
        utf8Scan pending' minCodepoint' codepoint' t := by
  cases pending with
  | zero =>
    rw [utf8Scan] at h
    split at h
    · rename_i hb
      exact ⟨0, 0, 0, fun t => by rw [utf8Scan, if_pos hb]⟩
    · rename_i hb
      cases hlead : utf8Lead b with
      | none => simp [hlead] at h
      | some lead => exact ⟨_, _, _, fun t => by rw [utf8Scan, if_neg hb, hlead]⟩
  | succ pending =>
    rw [utf8Scan] at h
    split at h
    · cases h
    · rename_i hnext
      split at h
      · cases h
      · rename_i hrefused
        exact ⟨_, _, _, fun t => by rw [utf8Scan, if_neg hnext, if_neg hrefused]⟩

lemma utf8Scan_zero (minCodepoint codepoint : ℕ) (s : Str) :
    utf8Scan 0 minCodepoint codepoint s = utf8IsValid s := by
  cases s with
  | nil => rfl
  | cons b s => rw [utf8IsValid, utf8Scan, utf8Scan]

lemma utf8Scan_append (t : Str) : ∀ {pending minCodepoint codepoint : ℕ},
    utf8Scan pending minCodepoint codepoint s = true →
    utf8Scan pending minCodepoint codepoint (s ++ t) = utf8IsValid t := by
  induction s with
  | nil =>
    intro pending minCodepoint codepoint h
    cases pending with
    | zero => exact utf8Scan_zero _ _ t
    | succ pending => cases h
  | cons b s ih =>
    intro pending minCodepoint codepoint h
    obtain ⟨pending', minCodepoint', codepoint', hstep⟩ := utf8Scan_step h
    rw [List.cons_append, hstep]
    rw [hstep] at h
    exact ih h

lemma utf8IsValid_append {t : Str} (hs : utf8IsValid s = true) (ht : utf8IsValid t = true) :
    utf8IsValid (s ++ t) = true := by
  rw [utf8IsValid, utf8Scan_append t hs, ht]

lemma not_continuation_of_ascii : ∀ b : UInt8, b ≤ 0x7F → b &&& 0xC0 ≠ 0x80 :=
  forall_byte (by decide +kernel)

lemma utf8Scan_ascii_cons {pending codepoint : ℕ} (hb : b ≤ 0x7F) :
    utf8Scan pending minCodepoint codepoint (b :: s) = true ↔
      pending = 0 ∧ utf8IsValid s = true := by
  cases pending with
  | zero =>
    rw [utf8Scan, if_pos hb]
    simp [utf8IsValid]
  | succ pending =>
    rw [utf8Scan]
    simp [not_continuation_of_ascii b hb]

/-- ASCII at the front does not matter. -/
lemma utf8IsValid_ascii_append {e : Str} (he : Ascii e) (s : Str) :
    utf8IsValid (e ++ s) = utf8IsValid s := by
  induction e with
  | nil => rfl
  | cons b e ih =>
    have hb := he b List.mem_cons_self
    have hrest := ih fun x hx => he x (List.mem_cons_of_mem _ hx)
    rw [← hrest, List.cons_append, Bool.eq_iff_iff, utf8IsValid, utf8Scan_ascii_cons hb]
    simp

lemma utf8IsValid_ascii {e : Str} (he : Ascii e) : utf8IsValid e = true := by
  rw [← List.append_nil e, utf8IsValid_ascii_append he]
  rfl

lemma utf8IsValid_skipWhiteSpace (s : Str) : utf8IsValid (skipWhiteSpace s) = utf8IsValid s := by
  obtain ⟨w, hw, hs⟩ := skipWhiteSpace_split s
  conv_rhs => rw [hs]
  rw [utf8IsValid_ascii_append hw]

/-! ### Characters -/

lemma continuation_byte (hk : k < 64) :
    UInt8.ofNat (0x80 + k) &&& 0xC0 = 0x80 ∧ (UInt8.ofNat (0x80 + k) &&& 0x3F).toNat = k := by
  revert k
  decide

/-- A continuation byte that is owed is accepted, unless it completes a refused code point. -/
lemma utf8Scan_continuation {pending codepoint : ℕ} (hk : k < 64) :
    utf8Scan (pending + 1) minCodepoint codepoint (UInt8.ofNat (0x80 + k) :: s) = true ↔
      (pending = 0 → codepointRefused minCodepoint (codepoint * 64 + k) = false) ∧
        utf8Scan pending minCodepoint (codepoint * 64 + k) s = true := by
  obtain ⟨hcont, hbits⟩ := continuation_byte hk
  have hor : codepoint <<< 6 ||| k = codepoint * 64 + k := by
    rw [← Nat.shiftLeft_add_eq_or_of_lt (by omega : k < 2 ^ 6), Nat.shiftLeft_eq]
  rw [utf8Scan]
  simp only [hbits, hor]
  rw [if_neg (not_not.mpr hcont)]
  by_cases hp : pending = 0 <;> simp [hp]

lemma utf8Lead_two (hk : k < 32) :
    utf8Lead (UInt8.ofNat (0xC0 + k)) = some (1, 0x80, k) ∧ ¬ UInt8.ofNat (0xC0 + k) ≤ 0x7F := by
  revert k
  decide

lemma utf8Lead_three (hk : k < 16) :
    utf8Lead (UInt8.ofNat (0xE0 + k)) = some (2, 0x800, k) ∧ ¬ UInt8.ofNat (0xE0 + k) ≤ 0x7F := by
  revert k
  decide

lemma utf8Lead_four (hk : k < 8) :
    utf8Lead (UInt8.ofNat (0xF0 + k)) = some (3, 0x10000, k) ∧
      ¬ UInt8.ofNat (0xF0 + k) ≤ 0x7F := by
  revert k
  decide

lemma codepointRefused_eq_false {low c : ℕ} :
    codepointRefused low c = false ↔ IsScalar c ∧ low ≤ c := by
  simp only [codepointRefused, or_eq_false_iff, decide_eq_false_iff_not, and_eq_false_iff, IsScalar]
  omega

/-- The encoding of a character is valid. -/
theorem utf8IsValid_utf8Encode {c : ℕ} (hc : IsScalar c) : utf8IsValid (utf8Encode c) = true := by
  have hmax : c < 0x110000 := by
    rw [IsScalar] at hc
    omega
  rw [utf8Encode, utf8IsValid]
  split
  · rename_i h1
    have hle : UInt8.ofNat c ≤ 0x7F := by
      rw [UInt8.le_iff_toNat_le, UInt8.toNat_ofNat', Nat.mod_eq_of_lt (by omega)]
      change c ≤ 127
      omega
    rw [utf8Scan, if_pos hle]
    rfl
  · split
    · rename_i h1 h2
      obtain ⟨hlead, hbig⟩ := utf8Lead_two (k := c / 64) (by omega)
      have hvalue : c / 64 * 64 + c % 64 = c := by omega
      rw [utf8Scan, if_neg hbig, hlead]
      simp only
      rw [utf8Scan_continuation (by omega), hvalue]
      exact ⟨fun _ => codepointRefused_eq_false.mpr ⟨hc, by omega⟩, rfl⟩
    · split
      · rename_i h1 h2 h3
        obtain ⟨hlead, hbig⟩ := utf8Lead_three (k := c / 4096) (by omega)
        have hvalue : (c / 4096 * 64 + c / 64 % 64) * 64 + c % 64 = c := by omega
        rw [utf8Scan, if_neg hbig, hlead]
        simp only
        rw [utf8Scan_continuation (by omega), utf8Scan_continuation (by omega), hvalue]
        exact ⟨by simp, fun _ => codepointRefused_eq_false.mpr ⟨hc, by omega⟩, rfl⟩
      · rename_i h1 h2 h3
        obtain ⟨hlead, hbig⟩ := utf8Lead_four (k := c / 262144) (by omega)
        have hvalue : ((c / 262144 * 64 + c / 4096 % 64) * 64 + c / 64 % 64) * 64 + c % 64 = c := by
          omega
        rw [utf8Scan, if_neg hbig, hlead]
        simp only
        rw [utf8Scan_continuation (by omega), utf8Scan_continuation (by omega),
          utf8Scan_continuation (by omega), hvalue]
        exact ⟨by simp, by simp, fun _ => codepointRefused_eq_false.mpr ⟨hc, by omega⟩, rfl⟩

/-! ### The characters of a valid text -/

lemma utf8Lead_cases : ∀ b : UInt8, ∀ lead ∈ utf8Lead b,
    (∃ k < 32, b = UInt8.ofNat (0xC0 + k) ∧ lead = (1, 0x80, k)) ∨
      (∃ k < 16, b = UInt8.ofNat (0xE0 + k) ∧ lead = (2, 0x800, k)) ∨
      ∃ k < 8, b = UInt8.ofNat (0xF0 + k) ∧ lead = (3, 0x10000, k) :=
  forall_byte (by decide +kernel)

lemma continuation_cases : ∀ b : UInt8, b &&& 0xC0 = 0x80 → ∃ k < 64, b = UInt8.ofNat (0x80 + k) :=
  forall_byte (by decide +kernel)

lemma utf8Scan_owed {pending codepoint : ℕ}
    (h : utf8Scan (pending + 1) minCodepoint codepoint s = true) :
    ∃ k < 64, ∃ t, s = UInt8.ofNat (0x80 + k) :: t ∧
      (pending = 0 → codepointRefused minCodepoint (codepoint * 64 + k) = false) ∧
      utf8Scan pending minCodepoint (codepoint * 64 + k) t = true := by
  cases s with
  | nil => cases h
  | cons b t =>
    by_cases hcont : b &&& 0xC0 = 0x80
    · obtain ⟨k, hk, rfl⟩ := continuation_cases b hcont
      exact ⟨k, hk, t, rfl, (utf8Scan_continuation hk).mp h⟩
    · rw [utf8Scan, if_pos hcont] at h
      cases h

lemma exists_utf8Encode_append (h : utf8IsValid (b :: s) = true) :
    ∃ c t, IsScalar c ∧ b :: s = utf8Encode c ++ t ∧ utf8IsValid t = true := by
  rw [utf8IsValid, utf8Scan] at h
  split at h
  · rename_i hb
    have hlt : b.toNat < 0x80 := Nat.lt_succ_of_le (UInt8.le_iff_toNat_le.mp hb)
    exact ⟨b.toNat, s, .inl (by omega), by rw [utf8Encode_ascii hb]; rfl, h⟩
  · cases hlead : utf8Lead b with
    | none => simp [hlead] at h
    | some lead =>
      rw [hlead] at h
      obtain ⟨a, ha, rfl, rfl⟩ | ⟨a, ha, rfl, rfl⟩ | ⟨a, ha, rfl, rfl⟩ := utf8Lead_cases b _ hlead
        <;> obtain ⟨k, hk, t, rfl, hc, ht⟩ := utf8Scan_owed h
      · obtain ⟨hscalar, hlow⟩ := codepointRefused_eq_false.mp (hc rfl)
        refine ⟨_, t, hscalar, ?_, (utf8Scan_zero _ _ t).symm.trans ht⟩
        have hdiv : (a * 64 + k) / 64 = a := by omega
        have hmod : (a * 64 + k) % 64 = k := by omega
        rw [utf8Encode, if_neg (by omega), if_pos (by omega), hdiv, hmod]
        rfl
      · obtain ⟨k₂, hk₂, t, rfl, hc, ht⟩ := utf8Scan_owed ht
        obtain ⟨hscalar, hlow⟩ := codepointRefused_eq_false.mp (hc rfl)
        refine ⟨_, t, hscalar, ?_, (utf8Scan_zero _ _ t).symm.trans ht⟩
        have h1 : ((a * 64 + k) * 64 + k₂) / 4096 = a := by omega
        have h2 : ((a * 64 + k) * 64 + k₂) / 64 % 64 = k := by omega
        have h3 : ((a * 64 + k) * 64 + k₂) % 64 = k₂ := by omega
        rw [utf8Encode, if_neg (by omega), if_neg (by omega), if_pos (by omega), h1, h2, h3]
        rfl
      · obtain ⟨k₂, hk₂, t, rfl, -, ht⟩ := utf8Scan_owed ht
        obtain ⟨k₃, hk₃, t, rfl, hc, ht⟩ := utf8Scan_owed ht
        obtain ⟨hscalar, hlow⟩ := codepointRefused_eq_false.mp (hc rfl)
        refine ⟨_, t, hscalar, ?_, (utf8Scan_zero _ _ t).symm.trans ht⟩
        have h1 : (((a * 64 + k) * 64 + k₂) * 64 + k₃) / 262144 = a := by omega
        have h2 : (((a * 64 + k) * 64 + k₂) * 64 + k₃) / 4096 % 64 = k := by omega
        have h3 : (((a * 64 + k) * 64 + k₂) * 64 + k₃) / 64 % 64 = k₂ := by omega
        have h4 : (((a * 64 + k) * 64 + k₂) * 64 + k₃) % 64 = k₃ := by omega
        rw [utf8Encode, if_neg (by omega), if_neg (by omega), if_neg (by omega), h1, h2, h3, h4]
        rfl

/-- `utf8_is_valid` accepts the concatenations of encoded characters, and nothing else. -/
theorem utf8IsValid_iff (s : Str) : utf8IsValid s = true ↔
    ∃ characters : List ℕ, (∀ c ∈ characters, IsScalar c) ∧ s = characters.flatMap utf8Encode := by
  constructor
  · intro h
    induction hlen : s.length using Nat.strong_induction_on generalizing s with
    | _ n ih =>
      cases s with
      | nil => exact ⟨[], by simp, rfl⟩
      | cons b s =>
        obtain ⟨c, t, hc, heq, ht⟩ := exists_utf8Encode_append h
        have hlt : t.length < n := by
          have hne : utf8Encode c ≠ [] := by
            rw [utf8Encode]
            split_ifs <;> simp
          have := List.length_pos_of_ne_nil hne
          rw [← hlen, heq, List.length_append]
          omega
        obtain ⟨characters, hall, rfl⟩ := ih t.length hlt t ht rfl
        exact ⟨c :: characters, List.forall_mem_cons.mpr ⟨hc, hall⟩, heq⟩
  · rintro ⟨characters, hall, rfl⟩
    induction characters with
    | nil => rfl
    | cons c characters ih =>
      rw [List.forall_mem_cons] at hall
      exact utf8IsValid_append (utf8IsValid_utf8Encode hall.1) (ih hall.2)

/-! ### Strings -/

/-- A string read out of a valid text is valid, and so is the rest of the text.  The string may
start inside a character, of which `pending` bytes are still owed: its raw bytes move the scan of
the text and the scan of the string alike. -/
lemma readStringBody_utf8 {n : ℕ} : ∀ {s t r : Str} {pending minCodepoint codepoint : ℕ},
    utf8Scan pending minCodepoint codepoint s = true → readStringBody n s = some (t, r) →
    utf8Scan pending minCodepoint codepoint t = true ∧ utf8IsValid r = true := by
  induction n with
  | zero =>
    intro s t r pending minCodepoint codepoint _ h
    cases h
  | succ n ih =>
    intro s t r pending minCodepoint codepoint hs h
    rcases readStringBody_succ h with ⟨rfl, rfl⟩ | ⟨bytes, r', t', -, hunit, hbody, rfl⟩
    · obtain ⟨rfl, hr⟩ := (utf8Scan_ascii_cons (by decide)).mp hs
      exact ⟨rfl, hr⟩
    · rcases readUnit_eq_some hunit with ⟨b, rfl, rfl, -, -⟩ | ⟨e, c, he, rfl, hc, rfl⟩
      · -- a raw byte: one step of both scans
        obtain ⟨pending', minCodepoint', codepoint', hstep⟩ := utf8Scan_step hs
        rw [List.singleton_append, hstep]
        rw [hstep] at hs
        exact ih hs hbody
      · -- an escape: the scan of the text is between two characters on both sides of it
        obtain ⟨rfl, hrest⟩ := (utf8Scan_ascii_cons (by decide)).mp hs
        rw [utf8IsValid_ascii_append he] at hrest
        obtain ⟨ht', hr⟩ := ih hrest hbody
        refine ⟨?_, hr⟩
        rw [utf8Scan_zero]
        exact utf8IsValid_append (utf8IsValid_utf8Encode hc) ht'

lemma readString_utf8 {t r : Str} (hs : utf8IsValid s = true) (h : readString s = some (t, r)) :
    utf8IsValid t = true ∧ utf8IsValid r = true :=
  readStringBody_utf8 hs h

/-! ### Trees -/

mutual

/-- Every string and every key of the tree is valid. -/
def ValidTree : JsonTree → Prop
  | .string s => utf8IsValid s = true
  | .array items => ValidItems items
  | .object members => ValidMembers members
  | .null => True
  | .bool _ => True
  | .number _ => True

/-- `ValidTree` for each item. -/
def ValidItems : List JsonTree → Prop
  | [] => True
  | item :: items => ValidTree item ∧ ValidItems items

/-- `ValidTree` for each member, with a valid key. -/
def ValidMembers : List (Str × JsonTree) → Prop
  | [] => True
  | (key, value) :: members => (utf8IsValid key = true ∧ ValidTree value) ∧ ValidMembers members

end

lemma utf8IsValid_of_skipWhiteSpace {r : Str} (hb : b ≤ 0x7F)
    (hs : utf8IsValid s = true) (h : skipWhiteSpace s = b :: r) : utf8IsValid r = true := by
  rw [← utf8IsValid_skipWhiteSpace, h, utf8IsValid, utf8Scan_ascii_cons hb] at hs
  exact hs.2

/-- What is read out of a valid text is valid, and so is the rest of the text. -/
lemma read_utf8 (n : ℕ) :
    (∀ s t r, utf8IsValid s = true → readValue n s = some (t, r) →
      ValidTree t ∧ utf8IsValid r = true) ∧
    (∀ s items r, utf8IsValid s = true → readItems n s = some (items, r) →
      ValidItems items ∧ utf8IsValid r = true) ∧
    ∀ s members r, utf8IsValid s = true → readMembers n s = some (members, r) →
      ValidMembers members ∧ utf8IsValid r = true := by
  induction n with
  | zero => refine ⟨?_, ?_, ?_⟩ <;> intro s t r _ h <;> cases h
  | succ n ih =>
    obtain ⟨hvalue, hitems, hmembers⟩ := ih
    have hcons : ∀ {b : UInt8} {s : Str}, b ≤ 0x7F → utf8IsValid (b :: s) = true →
        utf8IsValid s = true := fun hb hs => ((utf8Scan_ascii_cons hb).mp hs).2
    refine ⟨fun s t r hs h => ?_, fun s items r hs h => ?_, fun s members r hs h => ?_⟩
    · cases readValue_succ h with
      | string h => exact readString_utf8 (hcons (by decide) hs) h
      | emptyArray h =>
        exact ⟨trivial, utf8IsValid_of_skipWhiteSpace (by decide) (hcons (by decide) hs) h⟩
      | array h =>
        have hrest := hcons (by decide) hs
        rw [← utf8IsValid_skipWhiteSpace] at hrest
        exact hitems _ _ _ hrest h
      | emptyObject h =>
        exact ⟨trivial, utf8IsValid_of_skipWhiteSpace (by decide) (hcons (by decide) hs) h⟩
      | object h =>
        have hrest := hcons (by decide) hs
        rw [← utf8IsValid_skipWhiteSpace] at hrest
        exact hmembers _ _ _ hrest h
      | null =>
        exact ⟨trivial, hs⟩
      | bool b =>
        rw [utf8IsValid_ascii_append (by cases b <;> decide)] at hs
        exact ⟨trivial, hs⟩
      | number h =>
        obtain ⟨hascii, rfl⟩ := readNumber_eq_some h
        rw [utf8IsValid_ascii_append hascii] at hs
        exact ⟨trivial, hs⟩
    · obtain ⟨item, r₁, hv, ⟨r₂, rest, hskip, hrest, rfl⟩ | ⟨hskip, rfl⟩⟩ := readItems_succ h
      · obtain ⟨hitem, hr₁⟩ := hvalue _ _ _ hs hv
        have hr₂ := utf8IsValid_of_skipWhiteSpace (by decide) hr₁ hskip
        rw [← utf8IsValid_skipWhiteSpace] at hr₂
        obtain ⟨hitems', hr⟩ := hitems _ _ _ hr₂ hrest
        exact ⟨⟨hitem, hitems'⟩, hr⟩
      · obtain ⟨hitem, hr₁⟩ := hvalue _ _ _ hs hv
        exact ⟨⟨hitem, trivial⟩, utf8IsValid_of_skipWhiteSpace (by decide) hr₁ hskip⟩
    · obtain ⟨s₀, key, r₀, r₁, value, r₂, rfl, hkey, hcolon, hv, hend⟩ := readMembers_succ h
      obtain ⟨hk, hr₀⟩ := readString_utf8 (hcons (by decide) hs) hkey
      have hr₁ := utf8IsValid_of_skipWhiteSpace (by decide) hr₀ hcolon
      rw [← utf8IsValid_skipWhiteSpace] at hr₁
      obtain ⟨hval, hr₂⟩ := hvalue _ _ _ hr₁ hv
      rcases hend with ⟨r₃, rest, hskip, hrest, rfl⟩ | ⟨hskip, rfl⟩
      · have hr₃ := utf8IsValid_of_skipWhiteSpace (by decide) hr₂ hskip
        rw [← utf8IsValid_skipWhiteSpace] at hr₃
        obtain ⟨hmembers', hr⟩ := hmembers _ _ _ hr₃ hrest
        exact ⟨⟨⟨hk, hval⟩, hmembers'⟩, hr⟩
      · exact ⟨⟨⟨hk, hval⟩, trivial⟩, utf8IsValid_of_skipWhiteSpace (by decide) hr₂ hskip⟩

/-- The strings in the tree of a valid text are valid. -/
theorem readJson_utf8 {t : JsonTree} (hs : utf8IsValid s = true) (h : readJson s = some t) :
    ValidTree t := by
  rw [readJson] at h
  cases hread : readValue (2 * s.length + 1) (skipWhiteSpace s) with
  | none => simp [hread] at h
  | some p =>
    simp only [hread] at h
    split at h
    · cases h
      exact ((read_utf8 _).1 _ _ _ (by rwa [utf8IsValid_skipWhiteSpace]) hread).1
    · cases h

/-! ### Escaping -/

lemma escapeByte_cases : ∀ b, Ascii (escapeByte b) ∧ b ≤ 0x7F ∨ escapeByte b = [b] :=
  forall_byte (by decide +kernel)

lemma utf8Scan_escaped : ∀ {pending minCodepoint codepoint : ℕ},
    utf8Scan pending minCodepoint codepoint s = true →
    utf8Scan pending minCodepoint codepoint (s.flatMap escapeByte) = true := by
  induction s with
  | nil => exact fun h => h
  | cons b s ih =>
    intro pending minCodepoint codepoint h
    rw [List.flatMap_cons]
    rcases escapeByte_cases b with ⟨hascii, hb⟩ | hself
    · obtain ⟨rfl, hs⟩ := (utf8Scan_ascii_cons hb).mp h
      rw [utf8Scan_zero, utf8IsValid_ascii_append hascii]
      exact ih hs
    · obtain ⟨pending', minCodepoint', codepoint', hstep⟩ := utf8Scan_step h
      rw [hself, List.singleton_append, hstep]
      rw [hstep] at h
      exact ih h

lemma utf8IsValid_escapedString (h : utf8IsValid s = true) :
    utf8IsValid (escapedString s) = true := by
  have hquote : Ascii [34] := by decide
  have hbody := utf8IsValid_append (utf8Scan_escaped h) (utf8IsValid_ascii hquote)
  exact hbody

end Merovingian
