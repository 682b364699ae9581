import Merovingian.Json.Value

/-!
# Canonical serialization

The model of `canonicaljson/serializer.cpp`, with the UTF-8 check of
`canonicaljson/parser.cpp` it relies on.  A `SerializeResult` carries either an output
or an error, so it is an `Except`.

The flag `reject_floats` of the source chooses between refusing a number that canonical
JSON cannot hold and printing it; here the choice is the presence of a float printer.
`serialize_canonical_strict`, the path under every hash and signature, has none.
-/

namespace Merovingian

/-- `CanonicalJsonError`, without its `none`. -/
inductive CanonicalJsonError where
  | duplicateObjectKey
  | invalidString
  | floatNotAllowed
deriving DecidableEq, Repr

def canonicalJsonErrorName : CanonicalJsonError → Str
  | .duplicateObjectKey => "duplicate_object_key"
  | .invalidString => "invalid_string"
  | .floatNotAllowed => "float_not_allowed"

abbrev SerializeResult := Except CanonicalJsonError Str

/-! ### UTF-8 -/

/-- What the first byte of a multi-byte sequence announces: the continuation bytes to
come, the smallest code point the length may carry, and its own bits. -/
def utf8Lead (first : UInt8) : Option (ℕ × ℕ × ℕ) :=
  if first &&& 0xE0 = 0xC0 then some (1, 0x80, (first &&& 0x1F).toNat)
  else if first &&& 0xF0 = 0xE0 then some (2, 0x800, (first &&& 0x0F).toNat)
  else if first &&& 0xF8 = 0xF0 then some (3, 0x10000, (first &&& 0x07).toNat)
  else none

/-- The code points a sequence may not decode to: overlong, past the end of Unicode, or
a surrogate. -/
def codepointRefused (minCodepoint codepoint : ℕ) : Bool :=
  codepoint < minCodepoint || 0x10FFFF < codepoint || (0xD800 ≤ codepoint && codepoint ≤ 0xDFFF)

/-- The loop of `utf8_is_valid`, with `pending` continuation bytes still owed. -/
def utf8Scan : (pending minCodepoint codepoint : ℕ) → Str → Bool
  | 0, _, _, [] => true
  | _ + 1, _, _, [] => false
  | 0, _, _, first :: rest =>
    if first ≤ 0x7F then utf8Scan 0 0 0 rest
    else match utf8Lead first with
      | none => false
      | some (pending, minCodepoint, codepoint) => utf8Scan pending minCodepoint codepoint rest
  | pending + 1, minCodepoint, codepoint, next :: rest =>
    let decoded := codepoint <<< 6 ||| (next &&& 0x3F).toNat
    if next &&& 0xC0 ≠ 0x80 then false
    else if pending = 0 && codepointRefused minCodepoint decoded then false
    else utf8Scan pending minCodepoint decoded rest

def utf8IsValid (value : Str) : Bool := utf8Scan 0 0 0 value

def stringIsValidForJson (value : Str) : Bool := utf8IsValid value

/-- A two-byte character passes; its overlong and truncated forms and a surrogate do not. -/
example : utf8IsValid [0xC3, 0xA9] = true ∧ utf8IsValid [0xC1, 0xA9] = false ∧
    utf8IsValid [0xC3] = false ∧ utf8IsValid [0xED, 0xA0, 0x80] = false := by decide

/-! ### Strings -/

def hexDigit (value : UInt8) : UInt8 :=
  let digit := value &&& 0x0F
  if digit < 10 then 48 + digit else 87 + digit

/-- `append_control_escape`. -/
def controlEscape (value : UInt8) : Str :=
  [92, 117, 48, 48, hexDigit (value >>> 4), hexDigit value]

/-- The text `append_escaped_string` writes for one byte of a string. -/
def escapeByte (byte : UInt8) : Str :=
  if byte = 34 then [92, 34]            -- quotation mark
  else if byte = 92 then [92, 92]       -- backslash
  else if byte = 8 then [92, 98]        -- \b
  else if byte = 12 then [92, 102]      -- \f
  else if byte = 10 then [92, 110]      -- \n
  else if byte = 13 then [92, 114]      -- \r
  else if byte = 9 then [92, 116]       -- \t
  else if byte < 0x20 then controlEscape byte
  else [byte]

/-- `append_escaped_string`, on an empty output. -/
def escapedString (value : Str) : Str :=
  34 :: (value.flatMap escapeByte ++ [34])

/-! ### Values -/

def objectHasDuplicateKeys (object : Object) : Bool :=
  ¬ (object.map Prod.fst).Nodup

/-- The texts of an array's items, or of an object's members, with commas between them. -/
def commaSeparated : List Str → Str
  | [] => []
  | [text] => text
  | text :: texts => text ++ 44 :: commaSeparated texts

/-- A member of `serialize_object`'s output. -/
def memberText (member : Str × Str) : Str :=
  escapedString member.1 ++ 58 :: member.2

/-- `std::sort` of the serialized members by key. -/
def sortMembers {α : Type} (members : List (Str × α)) : List (Str × α) :=
  members.insertionSort fun lhs rhs => lhs.1 ≤ rhs.1

/-- The object text `serialize_object` assembles from the members it has sorted. -/
def objectText (members : List (Str × Str)) : Str :=
  123 :: (commaSeparated (members.map memberText) ++ [125])

/-- The array text `serialize_array` assembles. -/
def arrayText (items : List Str) : Str :=
  91 :: (commaSeparated items ++ [93])

mutual

/-- `serialize_value`.  A missing float printer is `reject_floats`. -/
def serializeValue (formatDouble : Option (Double → Str)) : Value → SerializeResult
  | .null => .ok "null"
  | .bool b => .ok (if b then "true" else "false")
  | .int n => .ok (decimal n.toInt)
  | .double d =>
    match formatDouble with
    | none => .error .floatNotAllowed
    | some format => .ok (format d)
  | .raw token =>
    match formatDouble with
    | none => .error .floatNotAllowed
    | some _ => .ok token
  | .str s => if stringIsValidForJson s then .ok (escapedString s) else .error .invalidString
  | .arr items =>
    match serializeItems formatDouble items with
    | .error e => .error e
    | .ok texts => .ok (arrayText texts)
  | .obj members =>
    if objectHasDuplicateKeys members then .error .duplicateObjectKey
    else match serializeMembers formatDouble members with
      | .error e => .error e
      | .ok texts => .ok (objectText (sortMembers texts))

/-- The loop of `serialize_array`. -/
def serializeItems (formatDouble : Option (Double → Str)) :
    List Value → Except CanonicalJsonError (List Str)
  | [] => .ok []
  | item :: items =>
    match serializeValue formatDouble item with
    | .error e => .error e
    | .ok text =>
      match serializeItems formatDouble items with
      | .error e => .error e
      | .ok texts => .ok (text :: texts)

/-- The first loop of `serialize_object`. -/
def serializeMembers (formatDouble : Option (Double → Str)) :
    List (Str × Value) → Except CanonicalJsonError (List (Str × Str))
  | [] => .ok []
  | (key, value) :: members =>
    if ¬ stringIsValidForJson key then .error .invalidString
    else match serializeValue formatDouble value with
      | .error e => .error e
      | .ok text =>
        match serializeMembers formatDouble members with
        | .error e => .error e
        | .ok texts => .ok ((key, text) :: texts)

end

def serializeCanonicalStrict (value : Value) : SerializeResult :=
  serializeValue none value

example : serializeCanonicalStrict (.obj [("b", .arr [.int 1, .null]), ("a", .str "x\n")])
    = .ok (lit "\x7b\"a\":\"x\\n\",\"b\":[1,null]\x7d") := by decide

end Merovingian
