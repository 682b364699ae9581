import Merovingian.Lib.Text

/-!
# The HTTP request head

`parseRequestHead` reads the request line and the header lines off the front of the bytes a
connection has sent.  The source looks for CR LF again and again in what remains; the lines it
finds are `crlfLines` of the input, and the loop over them ends at the first empty line.
-/

namespace Merovingian.Http

open Merovingian List

inductive RequestErrorCode
  | none
  | malformedRequestLine
  | invalidMethod
  | invalidTarget
  | startLineTooLarge
  | headersTooLarge
  | tooManyHeaders
  | duplicateContentLength
  | invalidContentLength
  | bodyTooLarge
  | unsupportedTransferEncoding
  deriving DecidableEq

inductive HttpVersion
  | http10
  | http11
  deriving DecidableEq

structure Header where
  name : Str
  value : Str
  deriving DecidableEq

structure RequestHead where
  method : Str
  target : Str
  headers : List Header
  contentLength : ℕ
  hasContentLength : Bool
  version : HttpVersion
  deriving DecidableEq

/-- The head before anything has been read. -/
def RequestHead.initial : RequestHead := ⟨[], [], [], 0, false, .http11⟩

structure RequestParseResult where
  request : RequestHead
  error : RequestErrorCode
  deriving DecidableEq

structure RequestLimits where
  maxStartLineBytes : ℕ
  maxHeaderBytes : ℕ
  maxHeaderCount : ℕ

/-- The default limits. -/
def RequestLimits.default : RequestLimits := ⟨8192, 32768, 100⟩

def isTchar (value : UInt8) : Bool :=
  (65 ≤ value && value ≤ 90) || (97 ≤ value && value ≤ 122) || (48 ≤ value && value ≤ 57) ||
    (lit "!#$%&'*+-.^_`|~").contains value

def containsControlOrSpace (value : Str) : Bool :=
  value.any fun byte => byte ≤ 0x20 || byte == 0x7F

def methodTokenIsValid (method : Str) : Bool := !method.isEmpty && method.all isTchar

def requestTargetIsValid (target : Str) : Bool := !target.isEmpty && !containsControlOrSpace target

def headerNameIsValid (name : Str) : Bool := !name.isEmpty && name.all isTchar

def headerValueIsValid (value : Str) : Bool :=
  value.all fun byte => !((byte < 0x20 && byte != 9) || byte == 0x7F)

/-- An ASCII letter in lower case, any other byte as it is. -/
def asciiLower (b : UInt8) : UInt8 := if 65 ≤ b && b ≤ 90 then b - 65 + 97 else b

def equalsAsciiCaseInsensitive (lhs rhs : Str) : Bool :=
  lhs.length == rhs.length &&
    (lhs.zip rhs).all fun pair => asciiLower pair.1 == asciiLower pair.2

/-- The loop of `parse_u64_decimal` from the number `parsed` on. -/
def parseU64DecimalFrom (parsed : ℕ) : Str → Option ℕ
  | [] => some parsed
  | character :: rest =>
    if character < 48 ∨ 57 < character then none
    else
      let digit := (character - 48).toNat
      if (2 ^ 64 - 1 - digit) / 10 < parsed then none
      else parseU64DecimalFrom (parsed * 10 + digit) rest

def parseU64Decimal (value : Str) : Option ℕ :=
  if value.isEmpty then none else parseU64DecimalFrom 0 value

def appendHeaderOrError (request : RequestHead) (header : Header) :
    RequestHead × RequestErrorCode :=
  if equalsAsciiCaseInsensitive header.name "content-length" then
    match parseU64Decimal (trimBlanks header.value) with
    | none => (request, .invalidContentLength)
    | some parsed =>
      if request.hasContentLength && request.contentLength != parsed then
        (request, .duplicateContentLength)
      else
        ({ request with
            hasContentLength := true
            contentLength := parsed
            headers := request.headers ++ [header] }, .none)
  else if equalsAsciiCaseInsensitive header.name "transfer-encoding" then
    (request, .unsupportedTransferEncoding)
  else ({ request with headers := request.headers ++ [header] }, .none)

/-- The loop over the header lines. -/
def parseHeaderLines (limits : RequestLimits) (request : RequestHead) (totalHeaderBytes : ℕ) :
    List Str → RequestParseResult
  | [] => ⟨request, .malformedRequestLine⟩
  | line :: remaining =>
    if line.isEmpty then ⟨request, .none⟩
    else if limits.maxHeaderBytes < totalHeaderBytes + (line.length + 2) then
      ⟨request, .headersTooLarge⟩
    else if limits.maxHeaderCount ≤ request.headers.length then ⟨request, .tooManyHeaders⟩
    else
      match (cut 58 line).2 with
      | none => ⟨request, .malformedRequestLine⟩
      | some rest =>
        let name := (cut 58 line).1
        let value := trimBlanks rest
        if !headerNameIsValid name || !headerValueIsValid value then
          ⟨request, .malformedRequestLine⟩
        else
          match appendHeaderOrError request ⟨name, value⟩ with
          | (request, .none) =>
            parseHeaderLines limits request (totalHeaderBytes + (line.length + 2)) remaining
          | (request, error) => ⟨request, error⟩

/-- The version the request line ends in. -/
def parseVersion (version : Str) : Option HttpVersion :=
  if version = lit "HTTP/1.1" then some .http11
  else if version = lit "HTTP/1.0" then some .http10
  else none

/-- The request line: the head with its fields, or the head as it is when the check fails. -/
def parseRequestLine (requestLine : Str) : RequestParseResult :=
  let malformed := ⟨RequestHead.initial, .malformedRequestLine⟩
  match (cut 32 requestLine).2 with
  | none => malformed
  | some afterMethod =>
    match (cut 32 afterMethod).2 with
    | none => malformed
    | some version =>
      let method := (cut 32 requestLine).1
      let target := (cut 32 afterMethod).1
      if version.isEmpty then malformed
      else
        match parseVersion version with
        | none => malformed
        | some version =>
          let request := { RequestHead.initial with version := version }
          if !methodTokenIsValid method then ⟨request, .invalidMethod⟩
          else if !requestTargetIsValid target then ⟨request, .invalidTarget⟩
          else ⟨{ request with method := method, target := target }, .none⟩

def parseRequestHead (input : Str) (limits : RequestLimits) : RequestParseResult :=
  match crlfLines input with
  | [] => ⟨RequestHead.initial, .malformedRequestLine⟩
  | requestLine :: remaining =>
    if limits.maxStartLineBytes < requestLine.length then
      ⟨RequestHead.initial, .startLineTooLarge⟩
    else
      match parseRequestLine requestLine with
      | ⟨request, .none⟩ => parseHeaderLines limits request 0 remaining
      | failed => failed

/-! ### Small facts -/

lemma equalsAsciiCaseInsensitive_iff {a b : Str} :
    equalsAsciiCaseInsensitive a b = true ↔ a.map asciiLower = b.map asciiLower := by
  rw [equalsAsciiCaseInsensitive]
  induction a generalizing b with
  | nil => cases b <;> simp
  | cons x a ih =>
    cases b with
    | nil => simp
    | cons y b =>
      have hrest := ih (b := b)
      simp only [length_cons, zip_cons_cons, all_cons, map_cons,
        List.cons.injEq, Bool.and_eq_true, beq_iff_eq, Nat.add_right_cancel_iff] at hrest ⊢
      tauto

/-- No token character is a control character, a blank or a colon. -/
lemma isTchar_ne {b : UInt8} (h : isTchar b = true) :
    b ≠ 0 ∧ b ≠ 10 ∧ b ≠ 13 ∧ b ≠ 32 ∧ b ≠ 58 := by
  refine ⟨?_, ?_, ?_, ?_, ?_⟩ <;> rintro rfl <;> exact absurd h (by decide)

/-- More digits do not make a number smaller. -/
lemma le_foldl_digits (value : Str) (parsed : ℕ) :
    parsed ≤ value.foldl (fun value digit => value * 10 + (digit - 48).toNat) parsed := by
  induction value generalizing parsed with
  | nil => exact le_refl _
  | cons b value ih =>
    have hrest := ih (parsed * 10 + (b - 48).toNat)
    rw [foldl_cons]
    omega

variable {value : Str}

lemma parseU64DecimalFrom_eq_some {parsed n : ℕ} (hparsed : parsed < 2 ^ 64) :
    parseU64DecimalFrom parsed value = some n ↔
      (value.all isDigitByte ∧ n < 2 ^ 64 ∧
        value.foldl (fun value digit => value * 10 + (digit - 48).toNat) parsed = n) := by
  induction value generalizing parsed with
  | nil =>
    simp only [parseU64DecimalFrom, Option.some.injEq, all_nil, true_and]
    exact ⟨fun h => ⟨h ▸ hparsed, h⟩, fun h => h.2⟩
  | cons b value ih =>
    rw [parseU64DecimalFrom]
    by_cases hdigit : isDigitByte b = true
    · have hrange : 48 ≤ b.toNat ∧ b.toNat ≤ 57 := by
        simpa [isDigitByte, UInt8.le_iff_toNat_le] using hdigit
      have hsub : (b - 48).toNat = b.toNat - 48 :=
        UInt8.toNat_sub_of_le _ _ (UInt8.le_iff_toNat_le.mpr hrange.1)
      have hin : ¬ (b < 48 ∨ 57 < b) := by
        change ¬ (b.toNat < 48 ∨ 57 < b.toNat)
        omega
      rw [if_neg hin]
      simp only [all_cons, hdigit, foldl_cons]
      by_cases hover : (2 ^ 64 - 1 - (b - 48).toNat) / 10 < parsed
      · rw [if_pos hover]
        have hlarge := le_foldl_digits value (parsed * 10 + (b - 48).toNat)
        constructor
        · intro h
          cases h
        · rintro ⟨-, hlt, heq⟩
          omega
      · rw [if_neg hover]
        exact ih (by omega)
    · have hout : b < 48 ∨ 57 < b := by
        simpa [isDigitByte, or_iff_not_imp_left] using hdigit
      rw [if_pos hout]
      simp [hdigit]

theorem parseU64Decimal_eq_some {n : ℕ} :
    parseU64Decimal value = some n ↔
      value ≠ [] ∧ value.all isDigitByte ∧ n < 2 ^ 64 ∧ digitsValue value = n := by
  rw [parseU64Decimal]
  split
  · rename_i hempty
    simp [isEmpty_iff.mp hempty]
  · rename_i hempty
    rw [List.isEmpty_iff] at hempty
    rw [parseU64DecimalFrom_eq_some (by norm_num), digitsValue]
    simp [hempty]

end Merovingian.Http
