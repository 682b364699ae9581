import Merovingian.Json.Parser
import Merovingian.Json.ReadBack
import Merovingian.Json.Utf8

/-!
# Parsing undoes canonical serialization

The serializer and the parser check different things; `Plain` values of bounded nesting pass both.
Such a value is read back from the text of its sorted form (`convertYyjsonValue_toTree`), and every
value the parser returns is one of them (`convertYyjsonValue_plain`), so it can be serialized and
read again.
-/

namespace Merovingian

open JsonText List Bool

/-! ### Plain values -/

mutual

lemma Plain.strict : ∀ {v : Value}, Plain v → Strict v
  | .null, _ => trivial
  | .bool _, _ => trivial
  | .int _, _ => trivial
  | .str _, h => h
  | .arr _, h => PlainItems.strict h
  | .obj _, ⟨_, hnd, h⟩ => ⟨hnd, PlainMembers.strict h⟩

lemma PlainItems.strict : ∀ {items : List Value}, PlainItems items → StrictItems items
  | [], _ => trivial
  | _ :: _, ⟨hx, hxs⟩ => ⟨hx.strict, PlainItems.strict hxs⟩

lemma PlainMembers.strict : ∀ {members : List (Str × Value)}, PlainMembers members →
    StrictMembers members
  | [], _ => trivial
  | (_, _) :: _, ⟨⟨hk, hv⟩, hms⟩ => ⟨⟨hk, hv.strict⟩, PlainMembers.strict hms⟩

end

variable {members : List (Str × Value)}

lemma plainMembers_iff :
    PlainMembers members ↔ ∀ m ∈ members, utf8IsValid m.1 = true ∧ Plain m.2 := by
  induction members with
  | nil => simp [PlainMembers]
  | cons m members ih =>
    simp [PlainMembers, ih]

lemma nestingMembers_le_iff {k : ℕ} :
    nestingMembers members ≤ k ↔ ∀ m ∈ members, nesting m.2 + 1 ≤ k := by
  induction members with
  | nil => simp [nestingMembers]
  | cons m members ih =>
    simp [nestingMembers, ih]

mutual

lemma plain_canonValue : ∀ {v : Value}, Plain v → Plain (canonValue v)
  | .null, _ => trivial
  | .bool _, _ => trivial
  | .int _, h => h
  | .str _, h => h
  | .arr _, h => plain_canonItems h
  | .obj ms, ⟨hlength, hnd, h⟩ => by
    have hperm := sortMembers_perm (canonMembers ms)
    refine ⟨?_, ?_, ?_⟩
    · rw [hperm.length_eq, canonMembers_eq_map, length_map]
      exact hlength
    · refine (hperm.map Prod.fst).nodup_iff.mpr ?_
      rwa [map_fst_canonMembers]
    · refine plainMembers_iff.mpr fun m hm => ?_
      exact plainMembers_iff.mp (plain_canonMembers h) m (hperm.mem_iff.mp hm)

lemma plain_canonItems : ∀ {items : List Value}, PlainItems items → PlainItems (canonItems items)
  | [], _ => trivial
  | _ :: _, ⟨hx, hxs⟩ => ⟨plain_canonValue hx, plain_canonItems hxs⟩

lemma plain_canonMembers : ∀ {members : List (Str × Value)}, PlainMembers members →
    PlainMembers (canonMembers members)
  | [], _ => trivial
  | (_, _) :: _, ⟨⟨hk, hv⟩, hms⟩ => ⟨⟨hk, plain_canonValue hv⟩, plain_canonMembers hms⟩

end

mutual

lemma nesting_canonValue : ∀ v : Value, nesting (canonValue v) = nesting v
  | .null => rfl
  | .bool _ => rfl
  | .int _ => rfl
  | .double _ => rfl
  | .str _ => rfl
  | .raw _ => rfl
  | .arr items => nesting_canonItems items
  | .obj ms => by
    have hperm := sortMembers_perm (canonMembers ms)
    have hmembers : nestingMembers (canonMembers ms) = nestingMembers ms :=
      nesting_canonMembers ms
    rw [canonValue, nesting, nesting, ← hmembers]
    refine eq_of_forall_ge_iff fun k => ?_
    rw [nestingMembers_le_iff, nestingMembers_le_iff]
    exact forall_congr' fun m => by rw [hperm.mem_iff]

lemma nesting_canonItems : ∀ items : List Value, nestingItems (canonItems items) = nestingItems items
  | [] => rfl
  | item :: items => by
    rw [canonItems, nestingItems, nestingItems, nesting_canonValue item, nesting_canonItems items]

lemma nesting_canonMembers : ∀ members : List (Str × Value),
    nestingMembers (canonMembers members) = nestingMembers members
  | [] => rfl
  | (key, value) :: members => by
    rw [canonMembers, nestingMembers, nestingMembers, nesting_canonValue value,
      nesting_canonMembers members]

end

/-! ### Number tokens -/

lemma isCanonicalInt64Token_decimal (n : ℤ) : isCanonicalInt64Token (decimal n) = true := by
  by_cases hn : n = 0
  · subst hn
    decide
  · obtain ⟨d, t, hdt, hne, hdigit⟩ := decimalNat_head (Int.natAbs_ne_zero.mpr hn)
    have ht : t.all isDigitByte = true := by
      rw [all_eq_true]
      intro b hb
      exact isDigitByte_of_mem_decimalNat (n := n.natAbs) (by rw [hdt]; exact mem_cons_of_mem _ hb)
    -- a digit other than zero is neither a sign nor outside `1..9`
    have hall : ∀ d : UInt8, isDigitByte d = true → d ≠ 48 → d ≠ 45 ∧ (d < 49 || 57 < d) = false :=
      forall_byte (by decide +kernel)
    have hd := hall d hdigit hne
    unfold decimal
    split
    · rw [hdt]
      simp [isCanonicalInt64Token, hne, hd.2, ht]
    · rw [hdt]
      simp [isCanonicalInt64Token, hne, hd.1, hd.2, ht]

lemma convertRawNumber_false : convertRawNumber false = rawNumberAsInt64 := by
  funext token
  rw [convertRawNumber]
  cases rawNumberAsInt64 token <;> rfl

lemma rawNumberAsInt64_decimal {n : Int64} (hlow : minSafeInteger ≤ n) (hhigh : n ≤ maxSafeInteger) :
    rawNumberAsInt64 (decimal n.toInt) = .ok (.int n) := by
  have hplain : (decimal n.toInt).any
      (fun character => character == 46 || character == 101 || character == 69) = false := by
    rw [any_eq_false]
    intro b hb
    have hb' := mem_decimal hb
    intro hcontra
    simp only [or_eq_true, beq_iff_eq] at hcontra
    rcases hcontra with (rfl | rfl) | rfl <;> revert hb' <;> decide
  have hrange : (n < minSafeInteger || maxSafeInteger < n) = false := by
    simpa using ⟨hlow, hhigh⟩
  rw [rawNumberAsInt64, hplain, isCanonicalInt64Token_decimal, fromChars_decimal]
  simp [hrange]

variable {v : Value} {texts : List Str}

lemma rawNumberAsInt64_eq_ok {token : Str} (h : rawNumberAsInt64 token = .ok v) :
    ∃ n, v = .int n ∧ minSafeInteger ≤ n ∧ n ≤ maxSafeInteger := by
  rw [rawNumberAsInt64] at h
  split at h
  · cases h
  split at h
  · cases h
  split at h
  · cases h
  · rename_i n hn
    split at h
    · cases h
    · rename_i hrange
      refine ⟨n, (Except.ok.inj h).symm, ?_⟩
      simpa using hrange

/-! ### Conversion -/

lemma length_toTreeMembers (members : List (Str × Value)) :
    (toTreeMembers members).length = members.length := by
  induction members with
  | nil => rfl
  | cons m members ih =>
    rw [toTreeMembers, length_cons, length_cons, ih]

mutual

/-- The tree of a plain value is converted back to it. -/
theorem convertYyjsonValue_toTree : ∀ {v : Value} {depth : ℕ}, Plain v →
    depth + nesting v ≤ maxDepth → convertYyjsonValue rawNumberAsInt64 depth (toTree v) = .ok v
  | .null, depth, _, hd => by
    rw [toTree, convertYyjsonValue, if_neg (by omega)]
  | .bool b, depth, _, hd => by
    rw [toTree, convertYyjsonValue, if_neg (by omega)]
  | .int n, depth, h, hd => by
    rw [toTree, convertYyjsonValue, if_neg (by omega), rawNumberAsInt64_decimal h.1 h.2]
  | .str s, depth, _, hd => by
    rw [toTree, convertYyjsonValue, if_neg (by omega)]
  | .arr items, depth, h, hd => by
    rw [toTree, convertYyjsonValue, if_neg (by omega), convertItems_toTree h hd]
  | .obj members, depth, ⟨hlength, hnd, h⟩, hd => by
    have hwidth : ¬ maxObjectMembers < (toTreeMembers members).length := by
      rw [length_toTreeMembers]
      omega
    rw [toTree, convertYyjsonValue, if_neg (by omega)]
    simp only [if_neg hwidth]
    rw [convertMembers_toTree h hnd (by simp) hd]

theorem convertItems_toTree : ∀ {items : List Value} {depth : ℕ}, PlainItems items →
    depth + nestingItems items ≤ maxDepth →
    convertItems rawNumberAsInt64 depth (toTreeItems items) = .ok items
  | [], _, _, _ => rfl
  | item :: items, depth, ⟨hitem, hitems⟩, hd => by
    rw [nestingItems] at hd
    rw [toTreeItems, convertItems, convertYyjsonValue_toTree hitem (by omega)]
    simp [convertItems_toTree hitems (by omega : depth + nestingItems items ≤ maxDepth)]

/-- The keys still to come are not among those the callback has seen. -/
theorem convertMembers_toTree : ∀ {members : List (Str × Value)} {depth : ℕ} {seen : List Str},
    PlainMembers members → (members.map Prod.fst).Nodup → (∀ m ∈ members, m.1 ∉ seen) →
    depth + nestingMembers members ≤ maxDepth →
    convertMembers rawNumberAsInt64 depth seen (toTreeMembers members) = .ok members
  | [], _, _, _, _, _, _ => rfl
  | (key, value) :: members, depth, seen, ⟨⟨_, hvalue⟩, hmembers⟩, hnd, hseen, hd => by
    rw [nestingMembers] at hd
    rw [map_cons, nodup_cons] at hnd
    have hkey : key ∉ seen := hseen (key, value) mem_cons_self
    have hrest : ∀ m ∈ members, m.1 ∉ key :: seen := by
      intro m hm hmem
      rcases mem_cons.mp hmem with heq | hmem
      · exact hnd.1 (mem_map.mpr ⟨m, hm, heq⟩)
      · exact hseen m (mem_cons_of_mem _ hm) hmem
    rw [toTreeMembers, convertMembers, if_neg hkey, convertYyjsonValue_toTree hvalue (by omega)]
    simp [convertMembers_toTree hmembers hnd.2 hrest
      (by omega : depth + nestingMembers members ≤ maxDepth)]

end

mutual

/-- What the conversion returns is plain, and within the depth that is left. -/
theorem convertYyjsonValue_plain : ∀ {t : JsonTree} {depth : ℕ} {v : Value}, ValidTree t →
    convertYyjsonValue rawNumberAsInt64 depth t = .ok v → Plain v ∧ depth + nesting v ≤ maxDepth
  | .null, depth, v, _, h => by
    rw [convertYyjsonValue] at h
    split at h
    · cases h
    · rename_i hdepth
      obtain rfl := Except.ok.inj h
      exact ⟨trivial, not_lt.mp hdepth⟩
  | .bool b, depth, v, _, h => by
    rw [convertYyjsonValue] at h
    split at h
    · cases h
    · rename_i hdepth
      obtain rfl := Except.ok.inj h
      exact ⟨trivial, not_lt.mp hdepth⟩
  | .number token, depth, v, _, h => by
    rw [convertYyjsonValue] at h
    split at h
    · cases h
    · rename_i hdepth
      cases hraw : rawNumberAsInt64 token with
      | error e => simp [hraw] at h
      | ok w =>
        simp only [hraw] at h
        obtain rfl := Except.ok.inj h
        obtain ⟨n, rfl, hrange⟩ := rawNumberAsInt64_eq_ok hraw
        exact ⟨hrange, not_lt.mp hdepth⟩
  | .string s, depth, v, hs, h => by
    rw [convertYyjsonValue] at h
    split at h
    · cases h
    · rename_i hdepth
      obtain rfl := Except.ok.inj h
      exact ⟨hs, not_lt.mp hdepth⟩
  | .array items, depth, v, hitems, h => by
    rw [convertYyjsonValue] at h
    split at h
    · cases h
    · cases hconv : convertItems rawNumberAsInt64 depth items with
      | error e => simp [hconv] at h
      | ok values =>
        simp only [hconv] at h
        obtain rfl := Except.ok.inj h
        exact convertItems_plain hitems (by omega) hconv
  | .object members, depth, v, hmembers, h => by
    rw [convertYyjsonValue] at h
    split at h
    · cases h
    · split at h
      · cases h
      · cases hconv : convertMembers rawNumberAsInt64 depth [] members with
        | error e => simp [hconv] at h
        | ok object =>
          simp only [hconv] at h
          obtain rfl := Except.ok.inj h
          obtain ⟨hplain, hnd, -, hlength, hd⟩ := convertMembers_plain hmembers (by omega) hconv
          exact ⟨⟨by omega, hnd, hplain⟩, hd⟩

theorem convertItems_plain : ∀ {items : List JsonTree} {depth : ℕ} {values : List Value},
    ValidItems items → depth ≤ maxDepth → convertItems rawNumberAsInt64 depth items = .ok values →
    PlainItems values ∧ depth + nestingItems values ≤ maxDepth
  | [], depth, values, _, hd, h => by
    obtain rfl := Except.ok.inj h
    exact ⟨trivial, hd⟩
  | item :: items, depth, values, ⟨hitem, hitems⟩, hd, h => by
    rw [convertItems] at h
    cases hconv : convertYyjsonValue rawNumberAsInt64 (depth + 1) item with
    | error e => simp [hconv] at h
    | ok value =>
      cases hrest : convertItems rawNumberAsInt64 depth items with
      | error e => simp [hconv, hrest] at h
      | ok rest =>
        simp only [hconv, hrest] at h
        obtain rfl := Except.ok.inj h
        obtain ⟨hvalue, hd₁⟩ := convertYyjsonValue_plain hitem hconv
        obtain ⟨hvalues, hd₂⟩ := convertItems_plain hitems hd hrest
        exact ⟨⟨hvalue, hvalues⟩, by rw [nestingItems]; omega⟩

/-- The keys that are accepted are new and distinct. -/
theorem convertMembers_plain : ∀ {members : List (Str × JsonTree)} {depth : ℕ} {seen : List Str}
    {object : Object}, ValidMembers members → depth ≤ maxDepth →
    convertMembers rawNumberAsInt64 depth seen members = .ok object →
    PlainMembers object ∧ (object.map Prod.fst).Nodup ∧ (∀ m ∈ object, m.1 ∉ seen) ∧
      object.length = members.length ∧ depth + nestingMembers object ≤ maxDepth
  | [], depth, seen, object, _, hd, h => by
    obtain rfl := Except.ok.inj h
    exact ⟨trivial, nodup_nil, by simp, rfl, hd⟩
  | (key, member) :: members, depth, seen, object, ⟨⟨hkey, hmember⟩, hmembers⟩, hd, h => by
    rw [convertMembers] at h
    split at h
    · cases h
    · rename_i hseen
      cases hconv : convertYyjsonValue rawNumberAsInt64 (depth + 1) member with
      | error e => simp [hconv] at h
      | ok value =>
        cases hrest : convertMembers rawNumberAsInt64 depth (key :: seen) members with
        | error e => simp [hconv, hrest] at h
        | ok rest =>
          simp only [hconv, hrest] at h
          obtain rfl := Except.ok.inj h
          obtain ⟨hvalue, hd₁⟩ := convertYyjsonValue_plain hmember hconv
          obtain ⟨hplain, hnd, hnew, hlength, hd₂⟩ := convertMembers_plain hmembers hd hrest
          refine ⟨⟨⟨hkey, hvalue⟩, hplain⟩, ?_, forall_mem_cons.mpr ⟨hseen, fun m hm hmem => ?_⟩,
            by simp [hlength], ?_⟩
          · rw [map_cons, nodup_cons]
            refine ⟨fun hmem => ?_, hnd⟩
            obtain ⟨m, hm, heq⟩ := mem_map.mp hmem
            exact hnew m hm (heq ▸ mem_cons_self)
          · exact hnew m hm (mem_cons_of_mem _ hmem)
          · rw [nestingMembers]
            omega

end

/-! ### The text of a value -/

lemma utf8IsValid_ascii_cons {b : UInt8} (hb : b ≤ 0x7F) {s : Str} (hs : utf8IsValid s = true) :
    utf8IsValid (b :: s) = true :=
  (utf8Scan_ascii_cons hb).mpr ⟨rfl, hs⟩

lemma utf8IsValid_commaSeparated (h : ∀ t ∈ texts, utf8IsValid t = true) :
    utf8IsValid (commaSeparated texts) = true := by
  induction texts using commaSeparated.induct with
  | case1 => rfl
  | case2 text => exact h text mem_cons_self
  | case3 text texts hne ih =>
    rw [commaSeparated]
    · exact utf8IsValid_append (h text mem_cons_self)
        (utf8IsValid_ascii_cons (by decide) (ih fun t ht => h t (mem_cons_of_mem _ ht)))
    · exact hne

lemma utf8IsValid_bracketed {opening closing : UInt8} (ho : opening ≤ 0x7F) (hc : closing ≤ 0x7F)
    (h : ∀ t ∈ texts, utf8IsValid t = true) :
    utf8IsValid (opening :: (commaSeparated texts ++ [closing])) = true :=
  utf8IsValid_ascii_cons ho
    (utf8IsValid_append (utf8IsValid_commaSeparated h) (utf8IsValid_ascii_cons hc rfl))

mutual

lemma utf8IsValid_renderValue : ∀ {v : Value}, Strict v → utf8IsValid (renderValue v) = true
  | .null, _ => by decide
  | .bool b, _ => by cases b <;> decide
  | .int n, _ => by
    refine utf8IsValid_ascii fun b hb => ?_
    rcases mem_decimal hb with rfl | hdigit
    · decide
    · rw [isDigitByte, and_eq_true, decide_eq_true_eq, decide_eq_true_eq] at hdigit
      exact le_trans hdigit.2 (by decide)
  | .str _, h => utf8IsValid_escapedString h
  | .arr _, h => utf8IsValid_bracketed (by decide) (by decide) (utf8IsValid_renderItems h)
  | .obj members, ⟨_, h⟩ => by
    refine utf8IsValid_bracketed (by decide) (by decide) fun t ht => ?_
    obtain ⟨m, hm, rfl⟩ := mem_map.mp ht
    obtain ⟨hkey, htext⟩ := utf8IsValid_renderMembers h m hm
    exact utf8IsValid_append (utf8IsValid_escapedString hkey)
      (utf8IsValid_ascii_cons (by decide) htext)

lemma utf8IsValid_renderItems : ∀ {items : List Value}, StrictItems items →
    ∀ t ∈ renderItems items, utf8IsValid t = true
  | [], _, t, ht => absurd ht not_mem_nil
  | item :: items, ⟨hitem, hitems⟩, t, ht => by
    rcases mem_cons.mp ht with rfl | ht
    · exact utf8IsValid_renderValue hitem
    · exact utf8IsValid_renderItems hitems t ht

lemma utf8IsValid_renderMembers : ∀ {members : List (Str × Value)}, StrictMembers members →
    ∀ m ∈ renderMembers members, utf8IsValid m.1 = true ∧ utf8IsValid m.2 = true
  | [], _, m, hm => absurd hm not_mem_nil
  | (key, value) :: members, ⟨⟨hkey, hvalue⟩, hmembers⟩, m, hm => by
    rcases mem_cons.mp hm with rfl | hm
    · exact ⟨hkey, utf8IsValid_renderValue hvalue⟩
    · exact utf8IsValid_renderMembers hmembers m hm

end

/-- The text of a value is not blank: it would start with white space. -/
lemma inputIsBlank_renderValue (hv : Strict v) : inputIsBlank (renderValue v) = false := by
  have hskip := skipWhiteSpace_renderValue hv []
  obtain ⟨b, t, hbt, -⟩ := renderValue_lead hv
  rw [append_nil, hbt] at hskip
  rw [← not_eq_true, hbt]
  intro hblank
  have hall : ∀ c ∈ b :: t, isWhiteSpace c = true := by
    intro c hc
    have hcase := all_eq_true.mp hblank c hc
    simp only [or_eq_true, beq_iff_eq] at hcase
    rcases hcase with ((rfl | rfl) | rfl) | rfl <;> decide
  rw [skipWhiteSpace, dropWhile_eq_nil_iff.mpr hall] at hskip
  cases hskip

/-! ### Both directions -/

section

variable {yyjson : Yyjson} (hy : yyjson.ReadsJson)

include hy

lemma parseLossless_renderValue (hv : Plain v) (hnest : nesting v ≤ maxDepth) :
    parseLossless yyjson (renderValue v) = .ok v := by
  have hutf8 := utf8IsValid_renderValue hv.strict
  have hread := hy.complete hutf8 (readJson_renderValue hv.strict)
  rw [parseLossless, parseWithRawNumbers, inputIsBlank_renderValue hv.strict, hutf8, hread,
    convertRawNumber_false]
  simp [convertYyjsonValue_toTree hv (by omega : 0 + nesting v ≤ maxDepth)]

/-- What the parser returns is plain and not too deep. -/
lemma parseLossless_plain {input : Str} (h : parseLossless yyjson input = .ok v) :
    Plain v ∧ nesting v ≤ maxDepth := by
  rw [parseLossless, parseWithRawNumbers, convertRawNumber_false] at h
  split at h
  · cases h
  split at h
  · cases h
  rename_i hutf8
  cases hread : yyjson.readRawNumbers input with
  | error code => simp [hread] at h
  | ok p =>
    obtain ⟨root, bytesRead⟩ := p
    simp only [hread] at h
    split at h
    · cases h
    · rename_i hall
      obtain rfl := not_not.mp hall
      have hvalid := readJson_utf8 (by simpa using hutf8) (hy.sound hread)
      simpa using convertYyjsonValue_plain hvalid h

omit hy in
lemma serializeCanonicalStrict_plain (hv : Plain v) :
    serializeCanonicalStrict v = .ok (renderValue (canonValue v)) :=
  (serializeValue_eq_ok v).mpr ⟨hv.strict, rfl⟩

lemma parseLossless_serialized (hv : Plain v) (hnest : nesting v ≤ maxDepth) :
    parseLossless yyjson (renderValue (canonValue v)) = .ok (canonValue v) :=
  parseLossless_renderValue hy (plain_canonValue hv) (by rwa [nesting_canonValue])

end

/-- Parsing undoes canonical serialization.  A plain value of nesting at most sixty-four is
serialized, and what is parsed from the text is the value with its members sorted.  Whatever the
parser returns is serialized too, and its text is parsed to a value with the same text. -/
theorem parseLossless_serializeCanonicalStrict {yyjson : Yyjson} (hy : yyjson.ReadsJson) :
    (∀ v, Plain v → nesting v ≤ maxDepth →
      ∃ out, serializeCanonicalStrict v = .ok out ∧
        parseLossless yyjson out = .ok (canonValue v)) ∧
    ∀ input v, parseLossless yyjson input = .ok v →
      ∃ out, serializeCanonicalStrict v = .ok out ∧
        ∃ w, parseLossless yyjson out = .ok w ∧ serializeCanonicalStrict w = .ok out := by
  refine ⟨fun v hv hnest => ?_, fun input v h => ?_⟩
  · exact ⟨_, serializeCanonicalStrict_plain hv, parseLossless_serialized hy hv hnest⟩
  · obtain ⟨hv, hnest⟩ := parseLossless_plain hy h
    refine ⟨_, serializeCanonicalStrict_plain hv, _, parseLossless_serialized hy hv hnest, ?_⟩
    rw [serializeCanonicalStrict_plain (plain_canonValue hv), canonValue_canonValue]

/-- The reader of the grammar, with one error code for every text outside it. -/
def grammarYyjson : Yyjson where
  readRawNumbers input :=
    match readJson input with
    | some tree => .ok (tree, input.length)
    | none => .error .unexpectedCharacter

lemma grammarYyjson_readsJson : grammarYyjson.ReadsJson where
  complete _ h := by simp [grammarYyjson, h]
  sound := by
    intro input tree h
    simp only [grammarYyjson] at h
    split at h
    · rename_i tree' hread
      obtain rfl : tree' = tree := congrArg Prod.fst (Except.ok.inj h)
      exact hread
    · cases h

/-- An object with its members out of order, and a text with white space and an escape. -/
theorem parseLossless_serializeCanonicalStrict_unsorted :
    (∃ out, serializeCanonicalStrict
        (.obj [("b", .arr [.int (-7), .null]), ("a", .str "x\n")]) = .ok out ∧
      parseLossless grammarYyjson out =
        .ok (.obj [("a", .str "x\n"), ("b", .arr [.int (-7), .null])])) ∧
    parseLossless grammarYyjson (lit " [ \"\\u0041\", 0 ]") = .ok (.arr [.str "A", .int 0]) ∧
    ∃ out, serializeCanonicalStrict (.arr [.str "A", .int 0]) = .ok out ∧
      ∃ w, parseLossless grammarYyjson out = .ok w ∧ serializeCanonicalStrict w = .ok out := by
  have htext : parseLossless grammarYyjson (lit " [ \"\\u0041\", 0 ]") =
      .ok (.arr [.str "A", .int 0]) := by rfl
  have hplain : Plain (.obj [("b", .arr [.int (-7), .null]), ("a", .str "x\n")]) := by
    simp only [Plain, PlainItems, PlainMembers]
    decide
  obtain ⟨hwrite, hread⟩ := parseLossless_serializeCanonicalStrict grammarYyjson_readsJson
  exact ⟨hwrite _ hplain (by decide), htext, hread _ _ htext⟩

end Merovingian
