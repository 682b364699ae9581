import Merovingian.Lib.IpText

/-!
# Special-use address ranges in the configuration

`parseCidr` reads a range `<address>/<digits>`, and `privateIpRangeIsAllowable` decides whether an
operator may open it to federation: it must be a network of the private space of RFC 1918 or of the
unique local IPv6 addresses, written without host bits.  `inet_pton` is a parameter.
-/

namespace Merovingian

def inet6Addrstrlen : ℕ := 46

/-- `ntohl` of an IPv4 address in network byte order. -/
def ntohl (o : Vector UInt8 4) : UInt32 :=
  (o[0].toUInt32 <<< 24) ||| (o[1].toUInt32 <<< 16) ||| (o[2].toUInt32 <<< 8) ||| o[3].toUInt32

/-- The loop that writes the bytes of an IPv4 address to the front of sixteen zero bytes. -/
def ipv4Bytes (value : UInt32) : Vector UInt8 16 :=
  Vector.ofFn fun index =>
    if index.val < 4 then (value >>> (24 - 8 * UInt32.ofNat index)).toUInt8 else 0

/-- Byte `i` of the array. -/
def byteAt (bytes : Vector UInt8 16) (i : ℕ) : UInt8 := bytes.toList.getD i 0

/-- `std::from_chars` into an `unsigned`: the number and the text after its digits. -/
def fromCharsUnsigned (text : Str) : Option (ℕ × Str) :=
  let digits := text.takeWhile isDigitByte
  if digits.isEmpty || 2 ^ 32 ≤ digitsValue digits then none
  else some (digitsValue digits, text.dropWhile isDigitByte)

structure SpecialUseBlock where
  ipv6 : Bool
  /-- The blocks `allow_private_ip_ranges` may name. -/
  allowable : Bool
  network : Vector UInt8 16
  prefixBits : ℕ

def specialUseBlocks : List SpecialUseBlock :=
  [⟨false, false, #v[127, 0, 0, 0, 0, 0, 0, 0, 0, 0, 0, 0, 0, 0, 0, 0], 8⟩,
   ⟨false, true, #v[10, 0, 0, 0, 0, 0, 0, 0, 0, 0, 0, 0, 0, 0, 0, 0], 8⟩,
   ⟨false, true, #v[172, 16, 0, 0, 0, 0, 0, 0, 0, 0, 0, 0, 0, 0, 0, 0], 12⟩,
   ⟨false, true, #v[192, 168, 0, 0, 0, 0, 0, 0, 0, 0, 0, 0, 0, 0, 0, 0], 16⟩,
   ⟨true, false, ⟨#[0, 0, 0, 0, 0, 0, 0, 0, 0, 0, 0, 0, 0, 0, 0, 1], by decide⟩, 128⟩,
   ⟨true, true, ⟨#[0xFC, 0, 0, 0, 0, 0, 0, 0, 0, 0, 0, 0, 0, 0, 0, 0], by decide⟩, 7⟩]

structure ParsedCidr where
  ipv6 : Bool
  bytes : Vector UInt8 16
  prefixBits : ℕ

/-- The address part of a range, read into sixteen bytes, with its family. -/
def parseCidrAddress (pton : InetPton) (address : Str) : Option (Bool × Vector UInt8 16) :=
  -- the text is copied into a zeroed buffer, so `inet_pton` stops at the first NUL
  let literal := cString address
  match pton.v4 literal with
  | some v4 => some (false, ipv4Bytes (ntohl v4))
  | none =>
    match pton.v6 literal with
    | some v6 => some (true, v6)
    | none => none

def parseCidr (pton : InetPton) (range : Str) : Option ParsedCidr :=
  match (cut 47 range).2 with
  | none => none
  | some prefixText =>
    let address := (cut 47 range).1
    if address.isEmpty || inet6Addrstrlen ≤ address.length || prefixText.isEmpty ||
        !prefixText.all isDigitByte then none
    else
      match fromCharsUnsigned prefixText with
      | none => none
      | some (prefixBits, rest) =>
        if !rest.isEmpty then none
        else
          match parseCidrAddress pton address with
          | none => none
          | some (ipv6, bytes) =>
            if (if ipv6 then 128 else 32) < prefixBits then none
            else some ⟨ipv6, bytes, prefixBits⟩

def leadingBitsMatch (address network : Vector UInt8 16) (bits : ℕ) : Bool :=
  (List.range bits).all fun bit =>
    (byteAt address (bit / 8)).toNat &&& (0x80 >>> (bit % 8)) ==
      (byteAt network (bit / 8)).toNat &&& (0x80 >>> (bit % 8))

/-- The loop over the bits after the prefix: none of them is set. -/
def noHostBits (bytes : Vector UInt8 16) (prefixBits bits : ℕ) : Bool :=
  (List.range' prefixBits (bits - prefixBits)).all fun bit =>
    (byteAt bytes (bit / 8)).toNat &&& (0x80 >>> (bit % 8)) == 0

def privateIpRangeIsAllowable (pton : InetPton) (range : Str) : Bool :=
  match parseCidr pton range with
  | none => false
  | some parsed =>
    let bits := if parsed.ipv6 then 128 else 32
    noHostBits parsed.bytes parsed.prefixBits bits &&
      specialUseBlocks.any fun block =>
        block.allowable && block.ipv6 == parsed.ipv6 && block.prefixBits ≤ parsed.prefixBits &&
          leadingBitsMatch parsed.bytes block.network block.prefixBits

/-! ### Bytes -/

variable {i : ℕ} (o : Vector UInt8 4)

lemma byteAt_of_lt (bytes : Vector UInt8 16) (hi : i < 16) : byteAt bytes i = bytes[i] := by
  simp [byteAt, hi]

lemma toUInt8_ntohl (hi : i < 4) :
    (ntohl o >>> (24 - 8 * UInt32.ofNat i)).toUInt8 = o[i] := by
  apply UInt8.toBitVec_inj.mp
  ext j hj
  interval_cases i <;> interval_cases j <;> simp [ntohl]

lemma byteAt_ipv4Bytes (hi : i < 4) :
    byteAt (ipv4Bytes (ntohl o)) i = (IpAddress.v4 o).octet i := by
  rw [byteAt_of_lt _ (by omega), IpAddress.octet_v4 hi, ← toUInt8_ntohl o hi, ipv4Bytes]
  simp [hi]

end Merovingian
