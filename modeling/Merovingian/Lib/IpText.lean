import Merovingian.Lib.IpAddress
import Merovingian.Lib.Text

/-!
# Textual addresses

The texts of addresses as POSIX `inet_pton` reads them: four decimal numbers for IPv4; for IPv6
up to eight groups of hexadecimal digits, one run of zero groups left out between two colons, and
the last two groups possibly in the IPv4 form.  Programs that call `inet_pton` take an `InetPton`
as a parameter; `posixInetPton` is the reader below.
-/

namespace Merovingian

/-! ### IPv4 -/

/-- A decimal number below 256 without leading zeros. -/
def readOctet (s : Str) : Option UInt8 :=
  if s.isEmpty || !s.all isDigitByte || (s.length ≠ 1 && s.head? = some 48) then none
  else if digitsValue s < 256 then some (UInt8.ofNat (digitsValue s)) else none

/-- Four octets in dotted decimal notation. -/
def readV4 (s : Str) : Option (Vector UInt8 4) :=
  match s.splitOn 46 with
  | [a, b, c, d] => do
    let a ← readOctet a
    let b ← readOctet b
    let c ← readOctet c
    let d ← readOctet d
    return #v[a, b, c, d]
  | _ => none

/-! ### IPv6 -/

/-- A group of one to four hexadecimal digits, as two octets. -/
def readGroup (s : Str) : Option (List UInt8) :=
  if s.isEmpty || 4 < s.length then none
  else do
    let digits ← s.mapM hexDigitValue
    let value := digits.foldl (fun value digit => value * 16 + digit) 0
    return [UInt8.ofNat (value / 256), UInt8.ofNat (value % 256)]

/-- Groups between colons; the last piece may be an IPv4 address where that is allowed. -/
def readGroups (allowV4 : Bool) : List Str → Option (List UInt8)
  | [] => some []
  | [s] =>
    match readGroup s with
    | some octets => some octets
    | none => if allowV4 then (readV4 s).map Vector.toList else none
  | s :: t :: rest => do
    let octets ← readGroup s
    let more ← readGroups allowV4 (t :: rest)
    return octets ++ more

/-- The octets of a text of groups; the empty text has none. -/
def readPart (allowV4 : Bool) (s : Str) : Option (List UInt8) :=
  if s.isEmpty then some [] else readGroups allowV4 (s.splitOn 58)

/-- The text before and after the first two colons in a row. -/
def cutDoubleColon : Str → Option (Str × Str)
  | 58 :: 58 :: s => some ([], s)
  | b :: s => (cutDoubleColon s).map fun parts => (b :: parts.1, parts.2)
  | [] => none

/-- Sixteen octets. -/
def sixteenOctets (octets : List UInt8) : Option (Vector UInt8 16) :=
  if h : octets.length = 16 then some ⟨octets.toArray, by simpa using h⟩ else none

/-- An IPv6 address.  Two colons stand for at least one group of zeros. -/
def readV6 (s : Str) : Option (Vector UInt8 16) :=
  match cutDoubleColon s with
  | none => (readPart true s).bind sixteenOctets
  | some (before, after) => do
    let front ← readPart false before
    let back ← readPart true after
    if front.length + back.length ≤ 14 then
      sixteenOctets (front ++ List.replicate (16 - front.length - back.length) 0 ++ back)
    else none

/-! ### The interface -/

/-- `inet_pton` for the two families, on a text without its terminating NUL. -/
structure InetPton where
  v4 : Str → Option (Vector UInt8 4)
  v6 : Str → Option (Vector UInt8 16)

/-- The text a C string function sees. -/
def cString (s : Str) : Str := s.takeWhile (· ≠ 0)

lemma cString_eq_self {s : Str} (h : 0 ∉ s) : cString s = s := by
  rw [cString, List.takeWhile_eq_self_iff]
  intro b hb
  simpa using fun h0 : b = 0 => h (h0 ▸ hb)

/-- The reader of the texts above. -/
def posixInetPton : InetPton := ⟨readV4, readV6⟩

example : readV6 (lit "::ffff:8.8.4.4") =
    some #v[0, 0, 0, 0, 0, 0, 0, 0, 0, 0, 255, 255, 8, 8, 4, 4] := by decide

end Merovingian
