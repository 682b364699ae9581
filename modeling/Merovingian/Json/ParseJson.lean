import Merovingian.Json.ParserRoundTrip

/-!
# Parsing texts that are not canonical

The model of `parse_json` of `canonicaljson/parser.cpp`.  It differs from the canonical parser in
its numbers: yyjson reads them, an integer that is not in range is refused, and any other number
is a double.  On a text without numbers the two parsers agree
(`convertYyjsonValue_congr`), so such a text is parsed back too (`parseJson_renderValue`).
-/

namespace Merovingian

open JsonText

/-- A number as yyjson reads it when it is not asked for the token. -/
inductive YyjsonNumber
  | integer (value : ℤ)
  | real (value : Double)
deriving DecidableEq, Repr

/-- yyjson, reading numbers: the tree of a text with the bytes it has read, and what the token of a
number stands for. -/
structure YyjsonNumbers where
  readNumbers : Str → Except YyjsonReadCode (JsonTree × ℕ)
  number : Str → YyjsonNumber

/-- The case of a number that was read. -/
def convertYyjsonNumber : YyjsonNumber → Except ParseError Value
  | .integer value =>
    if value < minSafeInteger.toInt || maxSafeInteger.toInt < value then .error .integerOutOfRange
    else .ok (.int (Int64.ofInt value))
  | .real value => .ok (.double value)

def parseJson (yyjson : YyjsonNumbers) (input : Str) : Except ParseError Value :=
  if inputIsBlank input then .error .unexpectedEnd
  else if !utf8IsValid input then .error .invalidString
  else
    match yyjson.readNumbers input with
    | .error code => .error (mapYyjsonError code)
    | .ok (root, bytesRead) =>
      if bytesRead ≠ input.length then .error .trailingData
      else convertYyjsonValue (fun token => convertYyjsonNumber (yyjson.number token)) 0 root

/-! ### Texts without numbers -/

mutual

/-- There is no number in the tree. -/
def NumberFree : JsonTree → Prop
  | .number _ => False
  | .array items => NumberFreeItems items
  | .object members => NumberFreeMembers members
  | .null => True
  | .bool _ => True
  | .string _ => True

/-- `NumberFree` for each item. -/
def NumberFreeItems : List JsonTree → Prop
  | [] => True
  | item :: items => NumberFree item ∧ NumberFreeItems items

/-- `NumberFree` for each member's value. -/
def NumberFreeMembers : List (Str × JsonTree) → Prop
  | [] => True
  | (_, value) :: members => NumberFree value ∧ NumberFreeMembers members

end

/-- yyjson reads the UTF-8 texts of RFC 8259 that have no numbers, all of each, into the trees they
denote.  What it makes of numbers, which it may refuse for their size, is not said. -/
structure YyjsonNumbers.ReadsJson (yyjson : YyjsonNumbers) : Prop where
  complete : ∀ {input tree}, utf8IsValid input = true → readJson input = some tree →
    NumberFree tree → yyjson.readNumbers input = .ok (tree, input.length)

section

variable (f g : Str → Except ParseError Value)

mutual

/-- The conversion of a tree without numbers does not depend on the case of a number. -/
theorem convertYyjsonValue_congr : ∀ {tree : JsonTree} {depth : ℕ}, NumberFree tree →
    convertYyjsonValue f depth tree = convertYyjsonValue g depth tree
  | .null, _, _ => by rw [convertYyjsonValue, convertYyjsonValue]
  | .bool b, _, _ => by rw [convertYyjsonValue, convertYyjsonValue]
  | .string s, _, _ => by rw [convertYyjsonValue, convertYyjsonValue]
  | .array items, _, h => by
    rw [convertYyjsonValue, convertYyjsonValue, convertItems_congr h]
  | .object members, _, h => by
    rw [convertYyjsonValue, convertYyjsonValue, convertMembers_congr h]

theorem convertItems_congr : ∀ {items : List JsonTree} {depth : ℕ}, NumberFreeItems items →
    convertItems f depth items = convertItems g depth items
  | [], _, _ => rfl
  | item :: items, _, ⟨hitem, hitems⟩ => by
    rw [convertItems, convertItems, convertYyjsonValue_congr hitem, convertItems_congr hitems]

theorem convertMembers_congr : ∀ {members : List (Str × JsonTree)} {depth : ℕ} {seen : List Str},
    NumberFreeMembers members →
    convertMembers f depth seen members = convertMembers g depth seen members
  | [], _, _, _ => rfl
  | (key, value) :: members, _, _, ⟨hvalue, hmembers⟩ => by
    rw [convertMembers, convertMembers, convertYyjsonValue_congr hvalue,
      convertMembers_congr hmembers]

end

end

/-- The text of a plain value without numbers is parsed to that value. -/
theorem parseJson_renderValue {yyjson : YyjsonNumbers} (hy : yyjson.ReadsJson) {v : Value}
    (hv : Plain v) (hnest : nesting v ≤ maxDepth) (hfree : NumberFree (toTree v)) :
    parseJson yyjson (renderValue v) = .ok v := by
  have hutf8 := utf8IsValid_renderValue hv.strict
  have hread := hy.complete hutf8 (readJson_renderValue hv.strict) hfree
  have hconvert := convertYyjsonValue_toTree hv (by omega : 0 + nesting v ≤ maxDepth)
  rw [convertYyjsonValue_congr _ (fun token => convertYyjsonNumber (yyjson.number token))
    hfree] at hconvert
  rw [parseJson, inputIsBlank_renderValue hv.strict, hutf8, hread]
  simp [hconvert]

/-- The reader of the grammar; its integers are those that fit the range. -/
def grammarYyjsonNumbers : YyjsonNumbers where
  readNumbers := grammarYyjson.readRawNumbers
  number token := ((fromChars token).map fun value => .integer value.toInt).getD (.real ⟨0⟩)

lemma grammarYyjsonNumbers_readsJson : grammarYyjsonNumbers.ReadsJson where
  complete hutf8 h _ := grammarYyjson_readsJson.complete hutf8 h

end Merovingian
