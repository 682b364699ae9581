import Merovingian.Json.Canonical
import Merovingian.Lib.JsonTextSteps

/-!
# Reading serialized values back

The text of a value, followed by anything that can follow a value, is read by a reader of JSON
texts as the tree of that value (`readValue_renderValue`).

So the text determines the value, and two values that `serialize_canonical_strict` accepts have the
same bytes exactly when they are equal up to the order of the members of their objects
(`serializeCanonicalStrict_eq_iff`).
-/

namespace Merovingian

open JsonText List

mutual

/-- The tree a value is written as. -/
def toTree : Value → JsonTree
  | .null => .null
  | .bool b => .bool b
  | .int n => .number (decimal n.toInt)
  | .str s => .string s
  | .arr items => .array (toTreeItems items)
  | .obj members => .object (toTreeMembers members)
  | .double _ => .null
  | .raw token => .number token

/-- `toTree` on each item. -/
def toTreeItems : List Value → List JsonTree
  | [] => []
  | item :: items => toTree item :: toTreeItems items

/-- `toTree` on each member's value. -/
def toTreeMembers : List (Str × Value) → List (Str × JsonTree)
  | [] => []
  | (key, value) :: members => (key, toTree value) :: toTreeMembers members

end

/-! ### Strings -/

variable {b : UInt8} {u v : Value} (key : Str) (text : Str) (texts : List Str) (r : Str)

lemma hexDigitValue_hexDigit : ∀ b : UInt8, b < 0x20 →
    hexDigitValue (hexDigit (b >>> 4)) = some (b.toNat / 16) ∧
      hexDigitValue (hexDigit b) = some (b.toNat % 16) :=
  forall_byte (by decide +kernel)

lemma readUnit_controlEscape (h : b < 0x20) (r : Str) :
    readUnit (controlEscape b ++ r) = some ([b], r) := by
  obtain ⟨hhigh, hlow⟩ := hexDigitValue_hexDigit b h
  have hzero : hexDigitValue 48 = some 0 := by decide
  have hlt : b.toNat < 32 := by simpa [UInt8.lt_iff_toNat_lt] using h
  have hvalue : ((0 * 16 + 0) * 16 + b.toNat / 16) * 16 + b.toNat % 16 = b.toNat := by omega
  have hhex : readHex4 (48 :: 48 :: hexDigit (b >>> 4) :: hexDigit b :: r) = some (b.toNat, r) := by
    rw [readHex4, hzero, hhigh, hlow]
    simp only [hvalue]
  have hascii : b ≤ 0x7F := UInt8.le_iff_toNat_le.mpr (show b.toNat ≤ 127 by omega)
  have hescape : readUnicodeEscape (48 :: 48 :: hexDigit (b >>> 4) :: hexDigit b :: r) =
      some ([b], r) := by
    rw [readUnicodeEscape, hhex]
    simp only
    rw [if_neg (by omega), if_neg (by omega), utf8Encode_ascii hascii]
  change readUnit (92 :: 117 :: 48 :: 48 :: hexDigit (b >>> 4) :: hexDigit b :: r) = some ([b], r)
  rw [readUnit, if_pos rfl, readEscape, if_pos rfl, hescape]

lemma readUnit_escapeByte (b : UInt8) (r : Str) : readUnit (escapeByte b ++ r) = some ([b], r) := by
  unfold escapeByte
  repeat' split
  all_goals first
    | (rename_i h; subst h; rfl)
    | skip
  · rename_i h
    exact readUnit_controlEscape h r
  · rename_i hquote hslash _ _ _ _ _ hcontrol
    rw [singleton_append, readUnit, if_neg hslash, if_neg (by tauto)]

/-- No escaped byte begins with a quotation mark. -/
lemma head_escapeByte (b : UInt8) : ∃ c t, escapeByte b = c :: t ∧ c ≠ 34 := by
  unfold escapeByte
  repeat' split
  all_goals first
    | exact ⟨92, _, rfl, by decide⟩
    | exact ⟨b, [], rfl, by assumption⟩

lemma readStringBody_escaped (s r : Str) {n : ℕ} (hn : (s.flatMap escapeByte).length < n) :
    readStringBody n (s.flatMap escapeByte ++ 34 :: r) = some (s, r) := by
  induction s generalizing n with
  | nil =>
    cases n with
    | zero => exact absurd hn (by omega)
    | succ n => rfl
  | cons b s ih =>
    cases n with
    | zero => exact absurd hn (by omega)
    | succ n =>
      obtain ⟨c, t, hct, hc⟩ := head_escapeByte b
      have hunit := readUnit_escapeByte b (s.flatMap escapeByte ++ 34 :: r)
      have hlen : (s.flatMap escapeByte).length < n := by
        rw [flatMap_cons, length_append, hct, length_cons] at hn
        omega
      rw [flatMap_cons, append_assoc]
      rw [hct, cons_append] at hunit ⊢
      rw [readStringBody, if_neg hc, hunit]
      simp [ih hlen]

lemma readString_escaped (s r : Str) :
    readString (s.flatMap escapeByte ++ 34 :: r) = some (s, r) := by
  refine readStringBody_escaped s r ?_
  rw [length_append, length_cons]
  omega

/-! ### Numbers -/

/-- What may follow a value: the end of the text, a comma or a closing bracket. -/
def Closes (r : Str) : Prop := ∀ b ∈ r.head?, b = 44 ∨ b = 93 ∨ b = 125

lemma mem_decimal {n : ℤ} (h : b ∈ decimal n) : b = 45 ∨ isDigitByte b = true := by
  unfold decimal at h
  split at h
  · exact (mem_cons.mp h).imp id isDigitByte_of_mem_decimalNat
  · exact .inr (isDigitByte_of_mem_decimalNat h)

lemma isNumberByte_of_mem_decimal {n : ℤ} (h : b ∈ decimal n) : isNumberByte b = true := by
  rcases mem_decimal h with rfl | hdigit
  · decide
  · rw [isNumberByte, hdigit]
    rfl

/-- Digits that do not start with a zero are a number. -/
lemma isUnsignedNumber_decimalNat (k : ℕ) : isUnsignedNumber (decimalNat k) = true := by
  by_cases hk : k = 0
  · subst hk
    decide
  · obtain ⟨d, t, hdt, hne, hdigit⟩ := decimalNat_head hk
    have hdrop : t.dropWhile isDigitByte = [] := by
      rw [dropWhile_eq_nil_iff]
      intro b hb
      exact isDigitByte_of_mem_decimalNat (n := k) (by rw [hdt]; exact mem_cons_of_mem _ hb)
    rw [hdt, isUnsignedNumber, hdrop, hdigit, if_neg (by simpa using hne)]
    rfl

lemma isNumber_decimal (n : ℤ) : isNumber (decimal n) = true := by
  have hunsigned := isUnsignedNumber_decimalNat n.natAbs
  unfold decimal
  split
  · rw [isNumber, if_pos (by decide), hunsigned]
  · obtain ⟨d, t, hdt⟩ := exists_cons_of_ne_nil (decimalNat_ne_nil n.natAbs)
    have hdigit := isDigitByte_of_mem_decimalNat (n := n.natAbs) (b := d) (by simp [hdt])
    rw [hdt] at hunsigned ⊢
    rw [isNumber, if_neg, hunsigned]
    intro hminus
    rw [beq_iff_eq.mp hminus] at hdigit
    exact absurd hdigit (by decide)

lemma readNumber_decimal (n : ℤ) {r : Str} (hr : Closes r) :
    readNumber (decimal n ++ r) = some (decimal n, r) := by
  have hstop : ∀ b ∈ r.head?, isNumberByte b = false := by
    intro b hb
    rcases hr b hb with rfl | rfl | rfl <;> decide
  have htake : (decimal n ++ r).takeWhile isNumberByte = decimal n := by
    rw [takeWhile_append_of_pos fun b hb => isNumberByte_of_mem_decimal hb]
    cases r with
    | nil => simp
    | cons b r => simp [hstop b rfl]
  have hdrop : (decimal n ++ r).dropWhile isNumberByte = r := by
    rw [dropWhile_append_of_pos fun b hb => isNumberByte_of_mem_decimal hb]
    cases r with
    | nil => rfl
    | cons b r => simp [hstop b rfl]
  rw [readNumber, htake, hdrop]
  simp [isNumber_decimal]

/-! ### The beginning and the end of a text -/

/-- A number for each kind of value. -/
def kind : Value → ℕ
  | .null => 0
  | .bool _ => 1
  | .int _ => 2
  | .str _ => 3
  | .arr _ => 4
  | .obj _ => 5
  | .double _ => 6
  | .raw _ => 7

/-- The kind of value a first byte announces. -/
def leadKind (b : UInt8) : ℕ :=
  if b = 45 ∨ isDigitByte b = true then 2
  else if b = 110 then 0
  else if b = 116 ∨ b = 102 then 1
  else if b = 34 then 3
  else if b = 91 then 4
  else if b = 123 then 5
  else 8

lemma renderValue_lead (hu : Strict u) :
    ∃ b t, renderValue u = b :: t ∧ leadKind b = kind u := by
  cases u with
  | null => exact ⟨110, _, rfl, by decide⟩
  | bool b => cases b with
    | false => exact ⟨102, _, rfl, by decide⟩
    | true => exact ⟨116, _, rfl, by decide⟩
  | int n =>
    obtain ⟨b, t, hbt, hb⟩ := decimal_head n.toInt
    exact ⟨b, t, hbt, by rw [leadKind, if_pos hb]; rfl⟩
  | str s => exact ⟨34, _, rfl, rfl⟩
  | arr xs => exact ⟨91, _, rfl, rfl⟩
  | obj ms => exact ⟨123, _, rfl, rfl⟩
  | double | raw => exact absurd hu (by simp [Strict])

/-- A value's text does not begin with a closing bracket. -/
lemma renderValue_ne_close (hu : Strict u) (hb : leadKind b = 8) (r s : Str) :
    b :: r ≠ renderValue u ++ s := by
  intro h
  obtain ⟨c, t, hct, hc⟩ := renderValue_lead hu
  rw [hct, cons_append, cons.injEq] at h
  rw [← h.1, hb] at hc
  cases u <;> simp [kind] at hc

/-- The texts of items or members after the first one. -/
def moreTexts (texts : List Str) : Str := texts.flatMap fun text => 44 :: text

lemma commaSeparated_cons :
    commaSeparated (text :: texts) = text ++ moreTexts texts := by
  induction texts generalizing text with
  | nil => simp [commaSeparated, moreTexts]
  | cons u texts ih =>
    rw [commaSeparated, ih u] <;> simp [moreTexts]

lemma moreTexts_cons :
    moreTexts (text :: texts) = 44 :: commaSeparated (text :: texts) := by
  rw [commaSeparated_cons]
  rfl

lemma closes_tail (hb : b = 93 ∨ b = 125) (r : Str) :
    Closes (moreTexts texts ++ b :: r) := by
  intro c hc
  cases texts with
  | nil =>
    simp only [moreTexts, flatMap_nil, nil_append, head?_cons, Option.mem_def,
      Option.some.injEq] at hc
    exact .inr (hc ▸ hb)
  | cons u texts =>
    rw [moreTexts_cons, cons_append, head?_cons, Option.mem_def, Option.some.injEq] at hc
    exact .inl hc.symm

lemma memberText_append :
    memberText (key, text) ++ r = escapedString key ++ 58 :: (text ++ r) := by
  simp [memberText]

/-! ### Values -/

/-- The text of a value does not start with white space. -/
lemma skipWhiteSpace_renderValue (hv : Strict v) (r : Str) :
    skipWhiteSpace (renderValue v ++ r) = renderValue v ++ r := by
  obtain ⟨b, t, hbt, hkind⟩ := renderValue_lead hv
  have hb : isWhiteSpace b = false := by
    rw [← Bool.not_eq_true]
    intro hws
    have hlead : leadKind b = 8 := by
      simp only [isWhiteSpace, Bool.or_eq_true, beq_iff_eq] at hws
      rcases hws with ((rfl | rfl) | rfl) | rfl <;> rfl
    rw [hlead] at hkind
    cases v <;> simp [kind] at hkind
  rw [hbt, cons_append, skipWhiteSpace, dropWhile_cons_of_neg (by simp [hb])]

lemma skipWhiteSpace_closes {r : Str} (h : Closes r) : skipWhiteSpace r = r := by
  cases r with
  | nil => rfl
  | cons b r =>
    have hb : ¬ isWhiteSpace b = true := by
      rcases h b rfl with rfl | rfl | rfl <;> decide
    rw [skipWhiteSpace, dropWhile_cons_of_neg hb]

lemma skipWhiteSpace_quote : skipWhiteSpace (34 :: r) = 34 :: r :=
  dropWhile_cons_of_neg (by decide)

lemma skipWhiteSpace_colon : skipWhiteSpace (58 :: r) = 58 :: r :=
  dropWhile_cons_of_neg (by decide)

lemma escapedString_append (s r : Str) :
    escapedString s ++ r = 34 :: (s.flatMap escapeByte ++ 34 :: r) := by
  simp [escapedString]

lemma length_memberText : text.length + 3 ≤ (memberText (key, text)).length := by
  simp only [memberText, escapedString, length_append, length_cons]
  omega

/-- The text between the brackets of an array. -/
def itemsText (items : List Value) : Str := commaSeparated (renderItems items)

/-- The text between the braces of an object. -/
def membersText (members : List (Str × Value)) : Str :=
  commaSeparated ((renderMembers members).map memberText)

lemma itemsText_append (item : Value) (items : List Value) (r : Str) :
    itemsText (item :: items) ++ r = renderValue item ++ (moreTexts (renderItems items) ++ r) := by
  rw [itemsText, renderItems, commaSeparated_cons, append_assoc]

lemma skipWhiteSpace_itemsText {item : Value} (hitem : Strict item) (items : List Value)
    (r : Str) : skipWhiteSpace (itemsText (item :: items) ++ r) = itemsText (item :: items) ++ r := by
  rw [itemsText_append, skipWhiteSpace_renderValue hitem]

lemma membersText_cons (value : Value) (members : List (Str × Value)) :
    membersText ((key, value) :: members) =
      memberText (key, renderValue value) ++ moreTexts ((renderMembers members).map memberText) := by
  rw [membersText, renderMembers, map_cons, commaSeparated_cons]

lemma exists_membersText (value : Value) (members : List (Str × Value)) (r : Str) :
    ∃ t, membersText ((key, value) :: members) ++ r = 34 :: t := by
  rw [membersText_cons]
  exact ⟨_, rfl⟩

mutual

/-- **A value is read back off the front of its text.** -/
theorem readValue_renderValue : ∀ (v : Value) {r : Str} {n : ℕ}, Strict v → Closes r →
    2 * (renderValue v).length < n → readValue n (renderValue v ++ r) = some (toTree v, r)
  | v, r, 0, _, _, hn => absurd hn (by omega)
  | .null, r, n + 1, _, _, _ => rfl
  | .bool b, r, n + 1, _, _, _ => by cases b <;> rfl
  | .int k, r, n + 1, _, hr, _ => by
    obtain ⟨b, t, hbt, hlead⟩ := renderValue_lead (u := .int k) trivial
    have hread := readNumber_decimal k.toInt hr
    have hother : ∀ c, leadKind c ≠ 2 → b ≠ c := by
      rintro c hc rfl
      exact hc hlead
    rw [renderValue] at hbt ⊢
    rw [hbt, cons_append] at hread ⊢
    rw [readValue, if_neg (hother 34 (by decide)), if_neg (hother 91 (by decide)),
      if_neg (hother 123 (by decide)), if_neg (hother 110 (by decide)),
      if_neg (hother 116 (by decide)), if_neg (hother 102 (by decide)), hread, toTree, hbt]
    rfl
  | .str s, r, n + 1, _, _, _ => by
    have hread := readString_escaped s r
    change readValue (n + 1) (34 :: ((s.flatMap escapeByte ++ [34]) ++ r)) = _
    rw [readValue, append_assoc, singleton_append, hread]
    rfl
  | .arr [], r, n + 1, _, _, _ => rfl
  | .arr (item :: items), r, n + 1, hv, _, hn => by
    obtain ⟨hitem, hitems⟩ := hv
    have htext : renderValue (.arr (item :: items)) ++ r =
        91 :: (itemsText (item :: items) ++ 93 :: r) := by
      simp [renderValue, arrayText, itemsText]
    have hlen : (renderValue (.arr (item :: items))).length =
        (itemsText (item :: items)).length + 2 := by
      simp [renderValue, arrayText, itemsText]
    rw [htext]
    refine readValue_array (fun t ht => ?_) ?_
    · rw [skipWhiteSpace_itemsText hitem, itemsText_append] at ht
      exact renderValue_ne_close hitem (by decide) _ _ ht.symm
    · rw [skipWhiteSpace_itemsText hitem]
      exact readItems_renderItems item items hitem hitems (by omega)
  | .obj [], r, n + 1, _, _, _ => rfl
  | .obj ((key, value) :: members), r, n + 1, hv, _, hn => by
    obtain ⟨-, ⟨-, hvalue⟩, hmembers⟩ := hv
    have htext : renderValue (.obj ((key, value) :: members)) ++ r =
        123 :: (membersText ((key, value) :: members) ++ 125 :: r) := by
      simp [renderValue, objectText, membersText]
    have hlen : (renderValue (.obj ((key, value) :: members))).length =
        (membersText ((key, value) :: members)).length + 2 := by
      simp [renderValue, objectText, membersText]
    obtain ⟨t, ht⟩ := exists_membersText key value members (125 :: r)
    have hread := readMembers_renderMembers key value members (r := r) (n := n) hvalue hmembers
      (by omega)
    rw [htext]
    rw [ht] at hread ⊢
    refine readValue_object (fun u hu => ?_) ?_
    · exact absurd (cons.inj hu).1 (by decide)
    · exact hread
  | .double _, _, _ + 1, hv, _, _ => absurd hv (by simp [Strict])
  | .raw _, _, _ + 1, hv, _, _ => absurd hv (by simp [Strict])

/-- The items of an array are read back, up to its closing bracket. -/
theorem readItems_renderItems : ∀ (item : Value) (items : List Value) {r : Str} {n : ℕ},
    Strict item → StrictItems items → 2 * (itemsText (item :: items)).length + 1 < n →
    readItems n (itemsText (item :: items) ++ 93 :: r) = some (toTreeItems (item :: items), r)
  | item, items, r, 0, _, _, hn => absurd hn (by omega)
  | item, [], r, n + 1, hitem, _, hn => by
    have hcloses : Closes (93 :: r) := closes_tail [] (.inl rfl) r
    have htext : itemsText [item] = renderValue item := rfl
    rw [htext] at hn ⊢
    exact (readItems_item (readValue_renderValue item hitem hcloses (by omega))).1 _
      (skipWhiteSpace_closes hcloses)
  | item, next :: items, r, n + 1, hitem, ⟨hnext, hitems⟩, hn => by
    have hcloses := closes_tail (renderItems (next :: items)) (.inl rfl) r
    have hmore : moreTexts (renderItems (next :: items)) = 44 :: itemsText (next :: items) :=
      moreTexts_cons _ _
    have htext := congrArg length (itemsText_append item (next :: items) [])
    simp only [length_append, hmore, length_cons] at htext
    have hread := readItems_renderItems next items (r := r) (n := n) hnext hitems (by omega)
    have hitem := (readItems_item (readValue_renderValue item hitem hcloses (n := n) (by omega))).2
    rw [skipWhiteSpace_closes hcloses, hmore] at hitem
    rw [itemsText_append, hmore, hitem _ rfl, append_eq, skipWhiteSpace_itemsText hnext, hread]
    rfl

/-- The members of an object are read back, up to its closing brace. -/
theorem readMembers_renderMembers : ∀ (key : Str) (value : Value) (members : List (Str × Value))
    {r : Str} {n : ℕ}, Strict value → StrictMembers members →
    2 * (membersText ((key, value) :: members)).length + 1 < n →
    readMembers n (membersText ((key, value) :: members) ++ 125 :: r) =
      some (toTreeMembers ((key, value) :: members), r)
  | key, value, members, r, 0, _, _, hn => absurd hn (by omega)
  | key, value, [], r, n + 1, hvalue, _, hn => by
    have hcloses : Closes (125 :: r) := closes_tail [] (.inr rfl) r
    have htext : membersText [(key, value)] = memberText (key, renderValue value) := rfl
    have hlen := length_memberText key (renderValue value)
    rw [htext] at hn ⊢
    rw [memberText_append, escapedString_append]
    have hfirst := readValue_renderValue value hvalue hcloses (n := n) (by omega)
    rw [← skipWhiteSpace_renderValue hvalue] at hfirst
    exact (readMembers_member (readString_escaped key _) (skipWhiteSpace_colon _) hfirst).1 _
      (skipWhiteSpace_closes hcloses)
  | key, value, (next, nextValue) :: members, r, n + 1, hvalue, ⟨⟨_, hnext⟩, hmembers⟩, hn => by
    have hcloses := closes_tail ((renderMembers ((next, nextValue) :: members)).map memberText)
      (.inr rfl) r
    have hmore : moreTexts ((renderMembers ((next, nextValue) :: members)).map memberText) =
        44 :: membersText ((next, nextValue) :: members) := moreTexts_cons _ _
    obtain ⟨t, ht⟩ := exists_membersText next nextValue members (125 :: r)
    have hlen := length_memberText key (renderValue value)
    rw [membersText_cons, length_append, hmore, length_cons] at hn
    have hread := readMembers_renderMembers next nextValue members (r := r) (n := n) hnext hmembers
      (by omega)
    rw [membersText_cons, append_assoc, memberText_append, escapedString_append]
    have hfirst := readValue_renderValue value hvalue hcloses (n := n) (by omega)
    rw [← skipWhiteSpace_renderValue hvalue] at hfirst
    have hmember := (readMembers_member (readString_escaped key _) (skipWhiteSpace_colon _) hfirst).2
    rw [skipWhiteSpace_closes hcloses, hmore] at hmember
    rw [hmore, hmember _ rfl, append_eq, ht, skipWhiteSpace_quote, ← ht, hread]
    rfl

end

/-- The whole text of a value is read back. -/
theorem readJson_renderValue (hv : Strict v) :
    readJson (renderValue v) = some (toTree v) := by
  have hskip := skipWhiteSpace_renderValue hv []
  have hread := readValue_renderValue v (r := []) (n := 2 * (renderValue v).length + 1) hv
    (by simp [Closes]) (by omega)
  rw [append_nil] at hskip hread
  rw [readJson, hskip, hread]
  rfl

/-! ### Payloads identify values -/

mutual

lemma toTree_inj : ∀ (u w : Value), Strict u → Strict w → toTree u = toTree w → u = w
  | .null, w, _, hw, h => by
    cases w <;> simp_all [toTree, Strict]
  | .bool b, w, _, hw, h => by
    cases w <;> simp_all [toTree]
  | .int n, w, _, hw, h => by
    cases w with
    | int m =>
      have hread := congrArg fromChars (JsonTree.number.inj h)
      rw [fromChars_decimal, fromChars_decimal] at hread
      rw [Option.some.inj hread]
    | raw t => exact absurd hw (by simp [Strict])
    | _ => simp [toTree] at h
  | .str s, w, _, hw, h => by
    cases w <;> simp_all [toTree]
  | .arr items, w, hu, hw, h => by
    cases w with
    | arr items' => rw [toTreeItems_inj items items' hu hw (JsonTree.array.inj h)]
    | _ => simp [toTree] at h
  | .obj members, w, hu, hw, h => by
    cases w with
    | obj members' => rw [toTreeMembers_inj members members' hu.2 hw.2 (JsonTree.object.inj h)]
    | _ => simp [toTree] at h

lemma toTreeItems_inj : ∀ (xs ys : List Value), StrictItems xs → StrictItems ys →
    toTreeItems xs = toTreeItems ys → xs = ys
  | [], ys, _, _, h => by
    cases ys with
    | nil => rfl
    | cons y ys => simp [toTreeItems] at h
  | x :: xs, ys, hx, hy, h => by
    cases ys with
    | nil => simp [toTreeItems] at h
    | cons y ys =>
      simp only [toTreeItems, cons.injEq] at h
      rw [toTree_inj x y hx.1 hy.1 h.1, toTreeItems_inj xs ys hx.2 hy.2 h.2]

lemma toTreeMembers_inj : ∀ (ms ns : List (Str × Value)), StrictMembers ms → StrictMembers ns →
    toTreeMembers ms = toTreeMembers ns → ms = ns
  | [], ns, _, _, h => by
    cases ns with
    | nil => rfl
    | cons n ns => simp [toTreeMembers] at h
  | (k, v) :: ms, ns, hm, hn, h => by
    cases ns with
    | nil => simp [toTreeMembers] at h
    | cons n ns =>
      obtain ⟨k', w⟩ := n
      simp only [toTreeMembers, cons.injEq, Prod.mk.injEq] at h
      obtain ⟨⟨rfl, hv⟩, hms⟩ := h
      rw [toTree_inj v w hm.1.2 hn.1.2 hv, toTreeMembers_inj ms ns hm.2 hn.2 hms]

end

lemma renderValue_inj {w : Value} (hu : Strict u) (hw : Strict w)
    (h : renderValue u = renderValue w) : u = w := by
  have htree := readJson_renderValue hu
  rw [h, readJson_renderValue hw] at htree
  exact toTree_inj u w hu hw (Option.some.inj htree).symm

lemma same_of_serialize_eq {w : Value} {out : Str} (hv : serializeCanonicalStrict v = .ok out)
    (hw : serializeCanonicalStrict w = .ok out) : SameUpToOrder v w := by
  obtain ⟨hsv, hv⟩ := (serializeValue_eq_ok v).mp hv
  obtain ⟨hsw, hw⟩ := (serializeValue_eq_ok w).mp hw
  have hcanon : canonValue v = canonValue w :=
    renderValue_inj ((strict_canonValue v).mpr hsv) ((strict_canonValue w).mpr hsw)
      (hv.trans hw.symm)
  exact same_of_canonValue_eq w v hcanon.symm

/-- Two values that serialize have the same canonical text exactly when they differ at most in
the order of members. -/
theorem serializeCanonicalStrict_eq_iff {v w : Value} {a b : Str}
    (hv : serializeCanonicalStrict v = .ok a) (hw : serializeCanonicalStrict w = .ok b) :
    a = b ↔ SameUpToOrder v w := by
  constructor
  · rintro rfl
    exact same_of_serialize_eq hv hw
  · intro h
    have hstrict := ((serializeValue_eq_ok v).mp hv).1
    rw [serializeCanonicalStrict_congr hstrict h, hv] at hw
    exact Except.ok.inj hw

/-- An object with a nested array, its members written in the two orders. -/
theorem serializeCanonicalStrict_eq_iff_swap :
    SameUpToOrder (.obj [("b", .arr [.int 1, .null]), ("a", .str "x\n")])
      (.obj [("a", .str "x\n"), ("b", .arr [.int 1, .null])]) := by
  have h : serializeCanonicalStrict (.obj [("b", .arr [.int 1, .null]), ("a", .str "x\n")])
      = .ok (lit "\x7b\"a\":\"x\\n\",\"b\":[1,null]\x7d") := by decide
  have h' : serializeCanonicalStrict (.obj [("a", .str "x\n"), ("b", .arr [.int 1, .null])])
      = .ok (lit "\x7b\"a\":\"x\\n\",\"b\":[1,null]\x7d") := by decide
  exact (serializeCanonicalStrict_eq_iff h h').mp rfl

end Merovingian
