import Merovingian.Json.Canonical
import Merovingian.Lib.JsonTextSteps

/-!
# Parsing

The model of `canonicaljson/parser.cpp`.  The text is read by yyjson, which is a parameter here:
it gives a tree in which numbers are raw tokens, with the number of bytes it has read, or an error
code.  The code then copies the tree into a `Value`, and refuses what canonical JSON does not
have: numbers that are no integers in range, repeated keys, and trees that are too deep or too
wide.
-/

namespace Merovingian

/-- `ParseError`, without its `none`. -/
inductive ParseError
  | trailingData
  | unexpectedEnd
  | unexpectedToken
  | invalidLiteral
  | invalidString
  | invalidEscape
  | invalidUnicodeEscape
  | invalidNumber
  | integerOutOfRange
  | duplicateObjectKey
  | nestingTooDeep
  | tooManyObjectMembers
deriving DecidableEq, Repr

/-- `MerovingianYyjsonReadCode`, without its success. -/
inductive YyjsonReadCode
  | emptyContent
  | unexpectedEnd
  | more
  | unexpectedContent
  | invalidNumber
  | invalidString
  | literal
  | unexpectedCharacter
  | jsonStructure
  | invalidComment
  | invalidParameter
  | memoryAllocation
  | fileOpen
  | fileRead
deriving DecidableEq, Repr

/-- yyjson, reading numbers as raw tokens: the tree of a text and the bytes it has read. -/
structure Yyjson where
  readRawNumbers : Str → Except YyjsonReadCode (JsonTree × ℕ)

def mapYyjsonError : YyjsonReadCode → ParseError
  | .emptyContent | .unexpectedEnd | .more => .unexpectedEnd
  | .unexpectedContent => .trailingData
  | .invalidNumber => .invalidNumber
  | .invalidString => .invalidString
  | .literal => .invalidLiteral
  | _ => .unexpectedToken

def maxDepth : ℕ := 64

def maxObjectMembers : ℕ := 65536

/-- `2 ^ 53 - 1`. -/
def maxSafeInteger : Int64 := 9007199254740991

def minSafeInteger : Int64 := -9007199254740991

def inputIsBlank (input : Str) : Bool :=
  input.all fun character =>
    character == 32 || character == 10 || character == 13 || character == 9

/-- The shape `-?(0|[1-9][0-9]*)`, without `-0`. -/
def isCanonicalInt64Token (token : Str) : Bool :=
  match token with
  | [] => false
  | first :: rest =>
    let hasMinus := first == 45
    let digits := if hasMinus then rest else token
    match digits with
    | [] => false
    | digit :: more =>
      if digit = 48 then !hasMinus && more.isEmpty
      else if digit < 49 || 57 < digit then false
      else more.all isDigitByte

def rawNumberAsInt64 (token : Str) : Except ParseError Value :=
  if token.any fun character => character == 46 || character == 101 || character == 69 then
    .error .invalidNumber
  else if !isCanonicalInt64Token token then .error .invalidNumber
  else
    match fromChars token with
    -- the token is a sign and digits, so only its size can be refused
    | none => .error .integerOutOfRange
    | some parsed =>
      if parsed < minSafeInteger || maxSafeInteger < parsed then .error .integerOutOfRange
      else .ok (.int parsed)

/-- The case of a number whose token was asked for. -/
def convertRawNumber (preserveNumbers : Bool) (token : Str) : Except ParseError Value :=
  match rawNumberAsInt64 token with
  | .ok value => .ok value
  | .error error =>
    if preserveNumbers && (error = .invalidNumber || error = .integerOutOfRange) then
      .ok (.raw token)
    else .error error

mutual

/-- `convert_yyjson_value`; its callers differ in what they make of a number. -/
def convertYyjsonValue (number : Str → Except ParseError Value) (depth : ℕ) (tree : JsonTree) :
    Except ParseError Value :=
  if maxDepth < depth then .error .nestingTooDeep
  else
    match tree with
    | .null => .ok .null
    | .bool b => .ok (.bool b)
    | .number token => number token
    | .string s => .ok (.str s)
    | .array items =>
      match convertItems number depth items with
      | .error error => .error error
      | .ok array => .ok (.arr array)
    | .object members =>
      if maxObjectMembers < members.length then .error .tooManyObjectMembers
      else
        match convertMembers number depth [] members with
        | .error error => .error error
        | .ok object => .ok (.obj object)

/-- The callback over the items of an array. -/
def convertItems (number : Str → Except ParseError Value) (depth : ℕ) :
    List JsonTree → Except ParseError (List Value)
  | [] => .ok []
  | item :: items =>
    match convertYyjsonValue number (depth + 1) item with
    | .error error => .error error
    | .ok value =>
      match convertItems number depth items with
      | .error error => .error error
      | .ok values => .ok (value :: values)

/-- The callback over the members of an object, with the keys it has seen. -/
def convertMembers (number : Str → Except ParseError Value) (depth : ℕ) (seenKeys : List Str) :
    List (Str × JsonTree) → Except ParseError (List (Str × Value))
  | [] => .ok []
  | (key, member) :: members =>
    if key ∈ seenKeys then .error .duplicateObjectKey
    else
      match convertYyjsonValue number (depth + 1) member with
      | .error error => .error error
      | .ok value =>
        match convertMembers number depth (key :: seenKeys) members with
        | .error error => .error error
        | .ok object => .ok ((key, value) :: object)

end

def parseWithRawNumbers (yyjson : Yyjson) (preserveNumbers : Bool) (input : Str) :
    Except ParseError Value :=
  if inputIsBlank input then .error .unexpectedEnd
  else if !utf8IsValid input then .error .invalidString
  else
    match yyjson.readRawNumbers input with
    | .error code => .error (mapYyjsonError code)
    | .ok (root, bytesRead) =>
      if bytesRead ≠ input.length then .error .trailingData
      else convertYyjsonValue (convertRawNumber preserveNumbers) 0 root

def parseLossless (yyjson : Yyjson) (input : Str) : Except ParseError Value :=
  parseWithRawNumbers yyjson false input

/-- yyjson reads the UTF-8 texts of RFC 8259, all of each, into the trees they denote. -/
structure Yyjson.ReadsJson (yyjson : Yyjson) : Prop where
  complete : ∀ {input tree}, utf8IsValid input = true → JsonText.readJson input = some tree →
    yyjson.readRawNumbers input = .ok (tree, input.length)
  sound : ∀ {input tree}, yyjson.readRawNumbers input = .ok (tree, input.length) →
    JsonText.readJson input = some tree

/-! ### What the parser returns -/

mutual

/-- The values both directions are for: integers in range, valid strings and keys, no repeated
key, no object that is too wide, and no other number. -/
def Plain : Value → Prop
  | .null => True
  | .bool _ => True
  | .int n => minSafeInteger ≤ n ∧ n ≤ maxSafeInteger
  | .str s => utf8IsValid s = true
  | .arr items => PlainItems items
  | .obj members => members.length ≤ maxObjectMembers ∧ (members.map Prod.fst).Nodup ∧
      PlainMembers members
  | .double _ => False
  | .raw _ => False

/-- `Plain` for each item. -/
def PlainItems : List Value → Prop
  | [] => True
  | item :: items => Plain item ∧ PlainItems items

/-- `Plain` for each member's value, with a valid key. -/
def PlainMembers : List (Str × Value) → Prop
  | [] => True
  | (key, value) :: members => (utf8IsValid key = true ∧ Plain value) ∧ PlainMembers members

end

mutual

/-- The depth of the deepest value inside, as the parser counts it: the value itself is at
depth zero. -/
def nesting : Value → ℕ
  | .arr items => nestingItems items
  | .obj members => nestingMembers members
  | _ => 0

/-- The nesting of an array with these items. -/
def nestingItems : List Value → ℕ
  | [] => 0
  | item :: items => max (nesting item + 1) (nestingItems items)

/-- The nesting of an object with these members. -/
def nestingMembers : List (Str × Value) → ℕ
  | [] => 0
  | (_, value) :: members => max (nesting value + 1) (nestingMembers members)

end

end Merovingian
