import Merovingian.Config.PrivateRanges

/-!
# The outbound address policy

Before the server connects anywhere it looks the host up and asks `addressSetAllowed` about the
addresses it got: every one of them must be public and outside the operator's denied ranges, or
lie in a private range that the operator opened.
-/

namespace Merovingian

/-- IPv4 ranges that are not public. -/
def ipv4IsPrivateOrLoopback (address : UInt32) : Bool :=
  let first := ((address >>> 24) &&& 0xFF).toUInt8
  let second := ((address >>> 16) &&& 0xFF).toUInt8
  if first = 0 ∨ first = 10 ∨ first = 127 ∨ (first = 169 ∧ second = 254) ∨
      (first = 172 ∧ 16 ≤ second ∧ second ≤ 31) ∨ (first = 192 ∧ second = 168) then true
  -- carrier-grade NAT, multicast and reserved space
  else if first = 100 ∧ 64 ≤ second ∧ second ≤ 127 then true
  else if 224 ≤ first then true
  else false

/-- IPv6 ranges that are not public, the mapped forms of the IPv4 ranges included. -/
def ipv6IsPrivateOrLoopback (bytes : Vector UInt8 16) : Bool :=
  let isUnspecified := (bytes.toList.take 16).all (· == 0)
  let isLoopback := (bytes.toList.take 15).all (· == 0) && bytes[15] == 1
  let isUniqueLocal := bytes[0] &&& 0xFE == 0xFC
  let isLinkLocal := bytes[0] == 0xFE && bytes[1] &&& 0xC0 == 0x80
  let isNat64 := bytes[0] == 0x00 && bytes[1] == 0x64 && bytes[2] == 0xFF && bytes[3] == 0x9B &&
    ((bytes.toList.drop 4).take 4).all (· == 0)
  let isMulticast := bytes[0] == 0xFF
  let isV4Mapped := (bytes.toList.take 10).all (· == 0) && bytes[10] == 0xFF && bytes[11] == 0xFF
  let mappedV4 := (bytes[12].toUInt32 <<< 24) ||| (bytes[13].toUInt32 <<< 16) |||
    (bytes[14].toUInt32 <<< 8) ||| bytes[15].toUInt32
  isUnspecified || isLoopback || isUniqueLocal || isLinkLocal || isNat64 || isMulticast ||
    (isV4Mapped && ipv4IsPrivateOrLoopback mappedV4)

def ipAddressIsPrivateOrLoopback (pton : InetPton) (address : Str) : Bool :=
  match pton.v4 (cString address) with
  | some v4 => ipv4IsPrivateOrLoopback (ntohl v4)
  | none =>
    match pton.v6 (cString address) with
    | some v6 => ipv6IsPrivateOrLoopback v6
    | none =>
      -- texts that are no literal address
      address == lit "localhost" || (lit "127.").isPrefixOf address ||
        (lit "10.").isPrefixOf address || (lit "192.168.").isPrefixOf address ||
        (lit "169.254.").isPrefixOf address || (lit "fc").isPrefixOf address ||
        (lit "fd").isPrefixOf address

/-- The bytes of an address and how many of them count; none for a text that is no address. -/
structure IpBytes where
  bytes : Vector UInt8 16
  size : ℕ

/-- No address. -/
def IpBytes.none : IpBytes := ⟨Vector.replicate 16 0, 0⟩

def parseIpBytes (pton : InetPton) (text : Str) : IpBytes :=
  if text.isEmpty || inet6Addrstrlen ≤ text.length || text.contains 0 then IpBytes.none
  else
    match pton.v4 text with
    | some v4 => ⟨ipv4Bytes (ntohl v4), 4⟩
    | none =>
      match pton.v6 text with
      | some v6 => ⟨v6, 16⟩
      | none => IpBytes.none

def prefixMatches (address network : IpBytes) (prefixBits : ℕ) : Bool :=
  if address.size ≠ network.size then false
  else if !(List.range (prefixBits / 8)).all fun index =>
      byteAt address.bytes index == byteAt network.bytes index then false
  else
    let remaining := prefixBits % 8
    let mask := if remaining = 0 then 0 else 0xFF <<< (8 - remaining)
    remaining == 0 ||
      (byteAt address.bytes (prefixBits / 8)).toNat &&& mask ==
        (byteAt network.bytes (prefixBits / 8)).toNat &&& mask

def unwrapV4Mapped (address : IpBytes) : IpBytes :=
  if address.size = 16 ∧ (address.bytes.toList.take 10).all (· == 0) ∧
      address.bytes[10] = 0xFF ∧ address.bytes[11] = 0xFF then
    ⟨Vector.ofFn fun index =>
      if index.val < 4 then byteAt address.bytes (12 + index) else byteAt address.bytes index, 4⟩
  else address

def rangeDenies (pton : InetPton) (address : IpBytes) (range : Str) : Bool :=
  let network := parseIpBytes pton (cut 47 range).1
  -- an invalid policy never opens the boundary
  if network.size = 0 then true
  else
    let unwrapped := if network.size = 4 then unwrapV4Mapped address else address
    match (cut 47 range).2 with
    | none => prefixMatches unwrapped network (network.size * 8)
    | some text =>
      if text.isEmpty then true
      else
        match fromCharsUnsigned text with
        | none => true
        | some (prefixBits, rest) =>
          if !rest.isEmpty || network.size * 8 < prefixBits then true
          else prefixMatches unwrapped network prefixBits

/-- Used for ranges that `privateIpRangeIsAllowable` accepts. -/
def allowableRangeContains (pton : InetPton) (address : IpBytes) (range : Str) : Bool :=
  let network := parseIpBytes pton (cut 47 range).1
  -- without a slash `substr(npos + 1)` is the whole text
  let text := ((cut 47 range).2).getD range
  let prefixBits := match fromCharsUnsigned text with
    | none => 0
    | some (prefixBits, _) => prefixBits
  prefixMatches (if network.size = 4 then unwrapV4Mapped address else address) network prefixBits

def ipAddressInAllowedPrivateRange (pton : InetPton) (address : Str)
    (allowedPrivateRanges : List Str) : Bool :=
  if allowedPrivateRanges.isEmpty then false
  else
    let parsed := parseIpBytes pton address
    parsed.size ≠ 0 && allowedPrivateRanges.any fun range =>
      privateIpRangeIsAllowable pton range && allowableRangeContains pton parsed range

/-- The check of one address in `address_set_allowed`: `true` refuses it. -/
def addressRefused (pton : InetPton) (deniedRanges allowedPrivateRanges : List Str)
    (address : Str) : Bool :=
  if ipAddressInAllowedPrivateRange pton address allowedPrivateRanges then false
  else
    let parsed := parseIpBytes pton address
    parsed.size == 0 || ipAddressIsPrivateOrLoopback pton address ||
      deniedRanges.any fun range => rangeDenies pton parsed range

def addressSetAllowed (pton : InetPton) (addresses deniedRanges allowedPrivateRanges : List Str) :
    Bool :=
  !addresses.isEmpty && !addresses.any (addressRefused pton deniedRanges allowedPrivateRanges)

/-! ### Bytes and addresses -/

/-- The bytes that count are the octets of the address. -/
structure Represents (x : IpBytes) (a : IpAddress) : Prop where
  size : x.size * 8 = a.bits
  bytes : ∀ i < x.size, byteAt x.bytes i = a.octet i

/-- The text of an address, as `inet_pton` reads it. -/
structure Reads (pton : InetPton) (text : Str) (a : IpAddress) : Prop where
  nonempty : text ≠ []
  short : text.length < inet6Addrstrlen
  noNul : 0 ∉ text
  family : (∃ o, pton.v4 text = some o ∧ a = .v4 o) ∨
    ∃ o, pton.v4 text = none ∧ pton.v6 text = some o ∧ a = .v6 o

/-- The text of a block: an address, or an address, a slash and the number of bits. -/
structure ReadsRange (pton : InetPton) (range : Str) (b : CidrBlock) : Prop where
  network : Reads pton (cut 47 range).1 b.network
  length : match (cut 47 range).2 with
    | none => b.length = b.network.bits
    | some digits => digits ≠ [] ∧ digits.all isDigitByte ∧ digitsValue digits = b.length

variable {pton : InetPton} {a a' : IpAddress} {text range : Str} {x : IpBytes}

lemma Reads.unique (h : Reads pton text a) (h' : Reads pton text a') :
    a = a' := by
  rcases h.family with ⟨o, ho, rfl⟩ | ⟨o, ho, ho6, rfl⟩ <;>
    rcases h'.family with ⟨o', ho', rfl⟩ | ⟨o', ho', ho6', rfl⟩
  · rw [Option.some.inj (ho.symm.trans ho')]
  · rw [ho] at ho'
    cases ho'
  · rw [ho] at ho'
    cases ho'
  · rw [Option.some.inj (ho6.symm.trans ho6')]

lemma ReadsRange.unique {b b' : CidrBlock} (h : ReadsRange pton range b)
    (h' : ReadsRange pton range b') : b = b' := by
  have hnetwork : b.network = b'.network := h.network.unique h'.network
  have hlength : b.length = b'.length := by
    have h1 := h.length
    have h2 := h'.length
    cases hcut : (cut 47 range).2 with
    | none =>
      rw [hcut] at h1 h2
      exact h1.trans ((congrArg IpAddress.bits hnetwork).trans h2.symm)
    | some digits =>
      rw [hcut] at h1 h2
      exact h1.2.2.symm.trans h2.2.2
  cases b
  cases b'
  cases hnetwork
  cases hlength
  rfl

lemma Reads.iff_eq (h : Reads pton text a) :
    Reads pton text a' ↔ a' = a :=
  ⟨fun h' => h'.unique h, fun heq => heq ▸ h⟩

lemma ReadsRange.iff_eq {b b' : CidrBlock} (h : ReadsRange pton range b) :
    ReadsRange pton range b' ↔ b' = b :=
  ⟨fun h' => h'.unique h, fun heq => heq ▸ h⟩

lemma represents_v4 (o : Vector UInt8 4) : Represents ⟨ipv4Bytes (ntohl o), 4⟩ (.v4 o) :=
  ⟨rfl, fun _ hi => byteAt_ipv4Bytes o hi⟩

lemma represents_v6 (o : Vector UInt8 16) : Represents ⟨o, 16⟩ (.v6 o) := ⟨rfl, fun _ _ => rfl⟩

lemma Represents.size_ne_zero (h : Represents x a) : x.size ≠ 0 := by
  intro h0
  have hsize := h.size
  rw [h0] at hsize
  cases a <;> simp at hsize

/-- What `parseIpBytes` gives back: the bytes of the address the text is read as, or nothing for
a text that is no address. -/
theorem parseIpBytes_cases (pton : InetPton) (text : Str) :
    (∃ a, Reads pton text a ∧ Represents (parseIpBytes pton text) a) ∨
      (parseIpBytes pton text).size = 0 ∧ ∀ a, ¬ Reads pton text a := by
  by_cases hbad : (text.isEmpty || inet6Addrstrlen ≤ text.length || text.contains 0) = true
  · right
    refine ⟨by rw [parseIpBytes, if_pos hbad]; rfl, fun a ha => ?_⟩
    have h1 := ha.nonempty
    have h2 := ha.short
    have h3 := ha.noNul
    simp only [Bool.or_eq_true, List.isEmpty_iff, decide_eq_true_eq, List.contains_iff_mem] at hbad
    rcases hbad with (hbad | hbad) | hbad
    · exact h1 hbad
    · omega
    · exact h3 hbad
  · have hgood : text ≠ [] ∧ text.length < inet6Addrstrlen ∧ 0 ∉ text := by
      simpa [and_assoc] using hbad
    obtain ⟨h1, h2, h3⟩ := hgood
    rw [parseIpBytes, if_neg hbad]
    cases h4 : pton.v4 text with
    | some o => exact .inl ⟨.v4 o, ⟨h1, h2, h3, .inl ⟨o, h4, rfl⟩⟩, represents_v4 o⟩
    | none =>
      cases h6 : pton.v6 text with
      | some o => exact .inl ⟨.v6 o, ⟨h1, h2, h3, .inr ⟨o, h4, h6, rfl⟩⟩, represents_v6 o⟩
      | none =>
        refine .inr ⟨rfl, fun a ha => ?_⟩
        rcases ha.family with ⟨o, ho, -⟩ | ⟨o, -, ho, -⟩
        · rw [h4] at ho
          cases ho
        · rw [h6] at ho
          cases ho

lemma Reads.represents (h : Reads pton text a) :
    Represents (parseIpBytes pton text) a := by
  rcases parseIpBytes_cases pton text with ⟨a', ha', hrep⟩ | ⟨-, hno⟩
  · rwa [h.unique ha']
  · exact absurd h (hno a)

lemma Represents.unwrap (h : Represents x a) :
    Represents (unwrapV4Mapped x) a.unmapped := by
  obtain ⟨bytes, size⟩ := x
  obtain ⟨hsize, hbytes⟩ := h
  cases a with
  | v4 o =>
    have h4 : size ≠ 16 := by simp at hsize; omega
    rw [unwrapV4Mapped, if_neg (fun hc => h4 hc.1)]
    exact ⟨hsize, hbytes⟩
  | v6 o =>
    have h16 : size = 16 := by simp at hsize; omega
    subst h16
    have heq : bytes = o := by
      ext i hi
      rw [← byteAt_of_lt bytes hi, hbytes i hi, IpAddress.octet_v6 hi]
    subst heq
    have hten : (bytes.toList.take 10).all (· == 0) = true ↔ ∀ i : Fin 10, bytes[i] = 0 := by
      rw [List.all_eq_true]
      constructor
      · intro hall i
        have hmem : bytes[i] ∈ bytes.toList.take 10 := by
          rw [List.mem_take_iff_getElem]
          exact ⟨i, by simp, by simp⟩
        simpa using hall _ hmem
      · intro hall b hb
        obtain ⟨i, hi, rfl⟩ := List.mem_take_iff_getElem.mp hb
        have hi10 : i < 10 := lt_of_lt_of_le hi (min_le_left _ _)
        simpa using hall ⟨i, hi10⟩
    have hcond : ((16 : ℕ) = 16 ∧ (bytes.toList.take 10).all (· == 0) ∧
        bytes[10] = 0xFF ∧ bytes[11] = 0xFF) ↔ IpAddress.IsMapped bytes := by
      rw [hten]
      exact and_iff_right rfl
    rw [unwrapV4Mapped, IpAddress.unmapped]
    by_cases hm : IpAddress.IsMapped bytes
    · rw [if_pos (hcond.mpr hm), if_pos hm]
      refine ⟨rfl, fun i hi => ?_⟩
      dsimp only at hi ⊢
      rw [byteAt_of_lt _ (by omega), Vector.getElem_ofFn]
      interval_cases i <;> exact byteAt_of_lt _ (by norm_num)
    · rw [if_neg (fun hc => hm (hcond.mp hc)), if_neg hm]
      exact represents_v6 bytes

lemma prefixMatches_iff {n : IpBytes} {b : CidrBlock} (hx : Represents x a)
    (hn : Represents n b.network) : prefixMatches x n b.length = true ↔ b.Contains a := by
  have hsizes : x.size = n.size ↔ a.bits = b.network.bits := by
    rw [← hx.size, ← hn.size]
    omega
  rw [prefixMatches, CidrBlock.Contains, ← hsizes]
  by_cases hsize : x.size = n.size
  · have hlen : b.length ≤ n.size * 8 := hn.size ▸ b.length_le
    have hbytes : SamePrefix b.length a.octet b.network.octet ↔
        SamePrefix b.length (byteAt x.bytes) (byteAt n.bytes) :=
      samePrefix_congr (fun i hi => (hx.bytes i (by omega)).symm)
        (fun i hi => (hn.bytes i (by omega)).symm)
    rw [hbytes, samePrefix_iff_mask]
    by_cases hrem : b.length % 8 = 0 <;> simp [hrem]
  · simp [hsize]

end Merovingian
