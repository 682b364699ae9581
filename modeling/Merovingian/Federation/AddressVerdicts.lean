import Merovingian.Federation.AddressPolicy

/-!
# What the address policy lets through

A denied range refuses an address it covers, or every address when it is malformed
(`rangeDenies_eq_false`); an opened range that takes effect is a block inside the private space
(`exists_inside_of_allowable`); the two classifiers know every block that must not be reached
(`isPrivateOrLoopback_of_contains`).  `addressRefused_eq_false` says when an address is accepted.
-/

namespace Merovingian

open IpAddress

variable {pton : InetPton} {a net : IpAddress} {b : CidrBlock} {text range : Str} {x : IpBytes}
  (o : Vector UInt8 4)

/-! ### Ranges -/

lemma fromCharsUnsigned_eq_some {n : ℕ} :
    fromCharsUnsigned text = some (n, []) ↔
      text ≠ [] ∧ text.all isDigitByte ∧ digitsValue text = n ∧ n < 2 ^ 32 := by
  rw [fromCharsUnsigned]
  constructor
  · intro h
    split at h
    · cases h
    · rename_i hok
      have hdrop : text.dropWhile isDigitByte = [] := (Prod.ext_iff.mp (Option.some.inj h)).2
      have hvalue : digitsValue (text.takeWhile isDigitByte) = n :=
        (Prod.ext_iff.mp (Option.some.inj h)).1
      have htake : text.takeWhile isDigitByte = text := by
        have hsplit := List.takeWhile_append_dropWhile (p := isDigitByte) (l := text)
        rwa [hdrop, List.append_nil] at hsplit
      rw [htake] at hvalue hok
      have hall : text.all isDigitByte = true := by
        rw [List.all_eq_true]
        exact List.takeWhile_eq_self_iff.mp htake
      simp only [Bool.or_eq_true, List.isEmpty_iff, decide_eq_true_eq, not_or, not_le] at hok
      exact ⟨hok.1, hall, hvalue, hvalue ▸ hok.2⟩
  · rintro ⟨hne, hall, rfl, hlt⟩
    rw [List.all_eq_true] at hall
    have htake : text.takeWhile isDigitByte = text := List.takeWhile_eq_self_iff.mpr hall
    have hdrop : text.dropWhile isDigitByte = [] := List.dropWhile_eq_nil_iff.mpr hall
    have hok : ¬ (text.isEmpty || 2 ^ 32 ≤ digitsValue text) = true := by
      simp only [Bool.or_eq_true, List.isEmpty_iff, decide_eq_true_eq, not_or, not_le]
      exact ⟨hne, hlt⟩
    simp only [htake, hdrop, if_neg hok]

/-- Comparing a network with the address, unwrapped for an IPv4 network, is asking whether the
block covers the address. -/
lemma prefixMatches_iff_covers {n : IpBytes} (hx : Represents x a) (hn : Represents n b.network) :
    prefixMatches (if n.size = 4 then unwrapV4Mapped x else x) n b.length = true ↔ b.Covers a := by
  have hsize := hn.size
  cases hb : b.network with
  | v4 o =>
    have h4 : n.size = 4 := by rw [hb, bits_v4] at hsize; omega
    rw [if_pos h4, prefixMatches_iff hx.unwrap hn, CidrBlock.covers_of_v4 hb]
  | v6 o =>
    have h4 : n.size ≠ 4 := by rw [hb, bits_v6] at hsize; omega
    rw [if_neg h4, prefixMatches_iff hx hn, CidrBlock.covers_of_v6 hb]

lemma IpAddress.bits_le (a : IpAddress) : a.bits ≤ 128 := by
  cases a <;> simp

lemma ReadsRange.fromChars {digits : Str} (hb : ReadsRange pton range b)
    (hcut : (cut 47 range).2 = some digits) :
    digits ≠ [] ∧ fromCharsUnsigned digits = some (b.length, []) := by
  have hlength := hb.length
  rw [hcut] at hlength
  obtain ⟨hne, hall, hvalue⟩ := hlength
  have hmax := b.network.bits_le
  have hle := b.length_le
  exact ⟨hne, fromCharsUnsigned_eq_some.mpr ⟨hne, hall, hvalue, by omega⟩⟩

lemma rangeDenies_of_reads (hx : Represents x a) (hb : ReadsRange pton range b) :
    rangeDenies pton x range = true ↔ b.Covers a := by
  have hn := hb.network.represents
  rw [← prefixMatches_iff_covers hx hn, rangeDenies, if_neg hn.size_ne_zero]
  cases hcut : (cut 47 range).2 with
  | none =>
    have hlength := hb.length
    rw [hcut] at hlength
    rw [hlength, ← hn.size]
  | some digits =>
    have hlen : b.length ≤ (parseIpBytes pton (cut 47 range).1).size * 8 := hn.size ▸ b.length_le
    simp [(hb.fromChars hcut).1, (hb.fromChars hcut).2, not_lt.mpr hlen]

lemma readsRange_of_rangeDenies_eq_false (h : rangeDenies pton x range = false) :
    ∃ b, ReadsRange pton range b := by
  rw [rangeDenies] at h
  split at h
  · cases h
  · rename_i hsize
    rcases parseIpBytes_cases pton (cut 47 range).1 with ⟨net, hnet, hrep⟩ | ⟨hzero, -⟩
    · cases hcut : (cut 47 range).2 with
      | none => exact ⟨⟨net, net.bits, le_refl _⟩, hnet, by rw [hcut]⟩
      | some digits =>
        simp only [hcut] at h
        split at h
        · cases h
        · cases hfrom : fromCharsUnsigned digits with
          | none => simp [hfrom] at h
          | some parsed =>
            obtain ⟨n, rest⟩ := parsed
            simp only [hfrom] at h
            split at h
            · cases h
            · rename_i hok
              simp only [Bool.or_eq_true, Bool.not_eq_true', List.isEmpty_eq_false_iff,
                decide_eq_true_eq, not_or, not_lt, not_not] at hok
              obtain ⟨rfl, hle⟩ := hok
              obtain ⟨hne, hall, hvalue, -⟩ := fromCharsUnsigned_eq_some.mp hfrom
              exact ⟨⟨net, n, hrep.size ▸ hle⟩, hnet, by rw [hcut]; exact ⟨hne, hall, hvalue⟩⟩
    · exact absurd hzero hsize

/-- A denied range lets an address pass only if it is well formed and does not cover it. -/
theorem rangeDenies_eq_false (hx : Represents x a) (range : Str) :
    rangeDenies pton x range = false ↔ ∃ b, ReadsRange pton range b ∧ ¬ b.Covers a := by
  constructor
  · intro h
    obtain ⟨b, hb⟩ := readsRange_of_rangeDenies_eq_false h
    refine ⟨b, hb, fun hc => ?_⟩
    rw [(rangeDenies_of_reads hx hb).mpr hc] at h
    cases h
  · rintro ⟨b, hb, hc⟩
    rw [← Bool.not_eq_true, rangeDenies_of_reads hx hb]
    exact hc

/-! ### Opened ranges -/

/-- The private networks of RFC 1918 and the unique local IPv6 addresses. -/
def privateBlocks : List CidrBlock :=
  [⟨.v4 #v[10, 0, 0, 0], 8, by decide⟩,
   ⟨.v4 #v[172, 16, 0, 0], 12, by decide⟩,
   ⟨.v4 #v[192, 168, 0, 0], 16, by decide⟩,
   ⟨.v6 #v[0xFC, 0, 0, 0, 0, 0, 0, 0, 0, 0, 0, 0, 0, 0, 0, 0], 7, by decide⟩]

lemma leadingBitsMatch_iff {x y : Vector UInt8 16} {k : ℕ} :
    leadingBitsMatch x y k = true ↔ SamePrefix k (byteAt x) (byteAt y) := by
  rw [samePrefix_iff_and, leadingBitsMatch]
  simp

/-- `parseCidr` reads the same address as `parseIpBytes` wherever that reads one. -/
lemma parseCidr_eq_some {parsed : ParsedCidr}
    (hnet : Reads pton (cut 47 range).1 net) (h : parseCidr pton range = some parsed) :
    (∃ digits, (cut 47 range).2 = some digits ∧
        fromCharsUnsigned digits = some (parsed.prefixBits, [])) ∧
      parsed.prefixBits ≤ net.bits ∧
      ((∃ o, net = .v4 o ∧ parsed.ipv6 = false ∧ parsed.bytes = ipv4Bytes (ntohl o)) ∨
        net = .v6 parsed.bytes ∧ parsed.ipv6 = true) := by
  cases hcut : (cut 47 range).2 with
  | none => simp [parseCidr, hcut] at h
  | some digits =>
    simp only [parseCidr, hcut] at h
    split at h
    · cases h
    · cases hfrom : fromCharsUnsigned digits with
      | none => simp [hfrom] at h
      | some result =>
        obtain ⟨n, rest⟩ := result
        simp only [hfrom, parseCidrAddress, cString_eq_self hnet.noNul] at h
        split at h
        · cases h
        · rename_i hrest
          have hnil : rest = [] := by simpa using hrest
          subst hnil
          rcases hnet.family with ⟨o, h4, rfl⟩ | ⟨o, h4, h6, rfl⟩
          · simp only [h4, Bool.false_eq_true, if_false] at h
            split at h
            · cases h
            · rename_i hle
              cases h
              exact ⟨⟨digits, rfl, hfrom⟩, by simpa using hle, .inl ⟨o, rfl, rfl, rfl⟩⟩
          · simp only [h4, h6, if_true] at h
            split at h
            · cases h
            · rename_i hle
              cases h
              exact ⟨⟨digits, rfl, hfrom⟩, by simpa using hle, .inr ⟨rfl, rfl⟩⟩

/-- A range that may be opened and whose address text is an address is a block inside one of the
private blocks. -/
theorem exists_inside_of_allowable (hnet : Reads pton (cut 47 range).1 net)
    (h : privateIpRangeIsAllowable pton range = true) :
    ∃ b, ReadsRange pton range b ∧ (cut 47 range).2 ≠ none ∧
      ∃ p ∈ privateBlocks, p.length ≤ b.length ∧ p.Contains b.network := by
  rw [privateIpRangeIsAllowable] at h
  cases hparsed : parseCidr pton range with
  | none => simp [hparsed] at h
  | some parsed =>
    obtain ⟨⟨digits, hcut, hfrom⟩, hle, hfamily⟩ := parseCidr_eq_some hnet hparsed
    obtain ⟨hne, hall, hvalue, -⟩ := fromCharsUnsigned_eq_some.mp hfrom
    refine ⟨⟨net, parsed.prefixBits, hle⟩, ⟨hnet, by rw [hcut]; exact ⟨hne, hall, hvalue⟩⟩,
      by simp [hcut], ?_⟩
    simp only [hparsed, Bool.and_eq_true, List.any_eq_true] at h
    obtain ⟨-, block, hmem, ⟨⟨hallowable, hipv6⟩, hlength⟩, hmatch⟩ := h
    rw [leadingBitsMatch_iff] at hmatch
    have hlength' : block.prefixBits ≤ parsed.prefixBits := by simpa using hlength
    have hipv6' : block.ipv6 = parsed.ipv6 := by simpa using hipv6
    -- the bytes of an IPv4 network are its octets as far as an IPv4 prefix reaches
    have hv4 : parsed.ipv6 = false → ∀ p ∈ privateBlocks, ∀ o', p.network = .v4 o' →
        p.length = block.prefixBits → (∀ i < 4, byteAt block.network i = (v4 o').octet i) →
        ∃ p ∈ privateBlocks, p.length ≤ parsed.prefixBits ∧ p.Contains net := by
      intro hfalse p hmem o' hp hplength hblock
      refine ⟨p, hmem, hplength ▸ hlength', ?_⟩
      have h32 : block.prefixBits ≤ 32 := by
        have hp_le := p.length_le
        rwa [hp, hplength] at hp_le
      rcases hfamily with ⟨o, rfl, -, hbytes⟩ | ⟨-, htrue⟩
      · rw [hbytes] at hmatch
        rw [CidrBlock.Contains, hp, hplength]
        exact ⟨rfl, (samePrefix_congr (fun i hi => byteAt_ipv4Bytes o (by omega))
          (fun i hi => hblock i (by omega))).mp hmatch⟩
      · rw [hfalse] at htrue
        cases htrue
    simp only [specialUseBlocks, List.mem_cons, List.not_mem_nil, or_false] at hmem
    rcases hmem with rfl | rfl | rfl | rfl | rfl | rfl
    · cases hallowable
    · exact hv4 hipv6'.symm _ (.head _) _ rfl rfl (by decide)
    · exact hv4 hipv6'.symm _ (.tail _ (.head _)) _ rfl rfl (by decide)
    · exact hv4 hipv6'.symm _ (.tail _ (.tail _ (.head _))) _ rfl rfl (by decide)
    · cases hallowable
    · rcases hfamily with ⟨o, -, hfalse, -⟩ | ⟨rfl, -⟩
      · rw [hfalse] at hipv6'
        cases hipv6'
      · exact ⟨_, .tail _ (.tail _ (.tail _ (.head _))), hlength', rfl, hmatch⟩

/-- An opened range takes effect on the addresses it covers. -/
theorem opened_iff (hx : Represents x a) (range : Str) :
    (privateIpRangeIsAllowable pton range && allowableRangeContains pton x range) = true ↔
      privateIpRangeIsAllowable pton range = true ∧ ∃ b, ReadsRange pton range b ∧ b.Covers a := by
  rw [Bool.and_eq_true]
  refine and_congr_right fun hallow => ?_
  rcases parseIpBytes_cases pton (cut 47 range).1 with ⟨net, hnet, hrep⟩ | ⟨hzero, hno⟩
  · obtain ⟨b, hb, hslash, -⟩ := exists_inside_of_allowable hnet hallow
    have hcontains : allowableRangeContains pton x range = true ↔ b.Covers a := by
      rw [← prefixMatches_iff_covers hx hb.network.represents, allowableRangeContains]
      cases hcut : (cut 47 range).2 with
      | none => exact absurd hcut hslash
      | some digits => simp [(hb.fromChars hcut).2]
    simp [hcontains, hb.iff_eq]
  · -- the address part holds a NUL: `parseCidr` may accept it, but nothing lies in it
    have hsize : ¬ (if (parseIpBytes pton (cut 47 range).1).size = 4 then unwrapV4Mapped x
        else x).size = (parseIpBytes pton (cut 47 range).1).size := by
      rw [hzero]
      exact hx.size_ne_zero
    constructor
    · intro h
      rw [allowableRangeContains, prefixMatches, if_pos hsize] at h
      cases h
    · rintro ⟨b, hb, -⟩
      exact absurd hb.network (hno b.network)

/-! ### The built-in blocks -/

/-- The blocks the built-in policy keeps out. -/
def reservedBlocks : List CidrBlock :=
  [⟨.v4 #v[0, 0, 0, 0], 8, by decide⟩,
   ⟨.v4 #v[10, 0, 0, 0], 8, by decide⟩,
   ⟨.v4 #v[100, 64, 0, 0], 10, by decide⟩,
   ⟨.v4 #v[127, 0, 0, 0], 8, by decide⟩,
   ⟨.v4 #v[169, 254, 0, 0], 16, by decide⟩,
   ⟨.v4 #v[172, 16, 0, 0], 12, by decide⟩,
   ⟨.v4 #v[192, 168, 0, 0], 16, by decide⟩,
   ⟨.v4 #v[224, 0, 0, 0], 3, by decide⟩,
   ⟨.v6 #v[0, 0, 0, 0, 0, 0, 0, 0, 0, 0, 0, 0, 0, 0, 0, 0], 128, by decide⟩,
   ⟨.v6 #v[0, 0, 0, 0, 0, 0, 0, 0, 0, 0, 0, 0, 0, 0, 0, 1], 128, by decide⟩,
   ⟨.v6 #v[0xFC, 0, 0, 0, 0, 0, 0, 0, 0, 0, 0, 0, 0, 0, 0, 0], 7, by decide⟩,
   ⟨.v6 #v[0xFE, 0x80, 0, 0, 0, 0, 0, 0, 0, 0, 0, 0, 0, 0, 0, 0], 10, by decide⟩,
   ⟨.v6 #v[0xFF, 0, 0, 0, 0, 0, 0, 0, 0, 0, 0, 0, 0, 0, 0, 0], 8, by decide⟩,
   CidrBlock.translatedBlock]

/-- Loopback, link-local, carrier-grade NAT, multicast and unspecified addresses. -/
def neverAllowedBlocks : List CidrBlock :=
  [⟨.v4 #v[127, 0, 0, 0], 8, by decide⟩,
   ⟨.v4 #v[169, 254, 0, 0], 16, by decide⟩,
   ⟨.v4 #v[100, 64, 0, 0], 10, by decide⟩,
   ⟨.v4 #v[224, 0, 0, 0], 4, by decide⟩,
   ⟨.v4 #v[0, 0, 0, 0], 8, by decide⟩,
   ⟨.v6 #v[0, 0, 0, 0, 0, 0, 0, 0, 0, 0, 0, 0, 0, 0, 0, 1], 128, by decide⟩,
   ⟨.v6 #v[0xFE, 0x80, 0, 0, 0, 0, 0, 0, 0, 0, 0, 0, 0, 0, 0, 0], 10, by decide⟩,
   ⟨.v6 #v[0xFF, 0, 0, 0, 0, 0, 0, 0, 0, 0, 0, 0, 0, 0, 0, 0], 8, by decide⟩,
   ⟨.v6 #v[0, 0, 0, 0, 0, 0, 0, 0, 0, 0, 0, 0, 0, 0, 0, 0], 128, by decide⟩]

/-- The verdict of the classifier for the address's family. -/
def IpAddress.isPrivateOrLoopback : IpAddress → Bool
  | .v4 o => ipv4IsPrivateOrLoopback (ntohl o)
  | .v6 o => ipv6IsPrivateOrLoopback o

lemma ipAddressIsPrivateOrLoopback_of_reads (h : Reads pton text a) :
    ipAddressIsPrivateOrLoopback pton text = a.isPrivateOrLoopback := by
  rw [ipAddressIsPrivateOrLoopback, cString_eq_self h.noNul]
  rcases h.family with ⟨o, h4, rfl⟩ | ⟨o, h4, h6, rfl⟩
  · simp only [h4]
    rfl
  · simp only [h4, h6]
    rfl

lemma ntohl_octets : ((ntohl o >>> 24) &&& 0xFF).toUInt8 = (v4 o).octet 0 ∧
    ((ntohl o >>> 16) &&& 0xFF).toUInt8 = (v4 o).octet 1 := by
  constructor <;>
  · rw [octet_v4 (by norm_num)]
    apply UInt8.toBitVec_inj.mp
    ext j hj
    interval_cases j <;> simp [ntohl]

lemma ipv4IsPrivateOrLoopback_of_contains (hb : b ∈ reservedBlocks) {o : Vector UInt8 4}
    (h : b.Contains (.v4 o)) : ipv4IsPrivateOrLoopback (ntohl o) = true := by
  obtain ⟨hbits, hshared⟩ := h
  obtain ⟨hwhole, hlast⟩ := samePrefix_iff_div.mp hshared
  have h0 : (v4 o).octet 0 = o[0] := octet_v4 (by norm_num)
  have h1 : (v4 o).octet 1 = o[1] := octet_v4 (by norm_num)
  have hfirst : 0 < b.length / 8 → o[0] = b.network.octet 0 := fun hlt => h0 ▸ hwhole 0 hlt
  have hsecond : 1 < b.length / 8 → o[1] = b.network.octet 1 := fun hlt => h1 ▸ hwhole 1 hlt
  rw [ipv4IsPrivateOrLoopback, (ntohl_octets o).1, (ntohl_octets o).2, h0, h1]
  fin_cases hb
  · rw [hfirst (by decide)]
    rfl
  · rw [hfirst (by decide)]
    rfl
  · -- 100.64.0.0/10: the two leading bits of the second octet are 01
    have hquot : o[1].toNat / 64 = 1 := h1 ▸ hlast
    have hlow : (64 : UInt8) ≤ o[1] := UInt8.le_iff_toNat_le.mpr (show 64 ≤ o[1].toNat by omega)
    have hhigh : o[1] ≤ 127 := UInt8.le_iff_toNat_le.mpr (show o[1].toNat ≤ 127 by omega)
    rw [hfirst (by decide)]
    split
    · rfl
    · rw [if_pos ⟨rfl, hlow, hhigh⟩]
  · rw [hfirst (by decide)]
    rfl
  · rw [hfirst (by decide), hsecond (by decide)]
    rfl
  · -- 172.16.0.0/12: the four leading bits of the second octet are 0001
    have hquot : o[1].toNat / 16 = 1 := h1 ▸ hlast
    have hlow : (16 : UInt8) ≤ o[1] := UInt8.le_iff_toNat_le.mpr (show 16 ≤ o[1].toNat by omega)
    have hhigh : o[1] ≤ 31 := UInt8.le_iff_toNat_le.mpr (show o[1].toNat ≤ 31 by omega)
    rw [hfirst (by decide)]
    rw [if_pos (by simp [hlow, hhigh])]
  · rw [hfirst (by decide), hsecond (by decide)]
    rfl
  · -- 224.0.0.0/3: the three leading bits of the first octet are 111
    have hquot : o[0].toNat / 32 = 7 := h0 ▸ hlast
    have hlow : (224 : UInt8) ≤ o[0] := UInt8.le_iff_toNat_le.mpr (show 224 ≤ o[0].toNat by omega)
    split
    · rfl
    · split
      · rfl
      · rfl
  all_goals exact absurd hbits (by simp [CidrBlock.translatedBlock])

lemma take_drop_all_zero {bytes : Vector UInt8 16} {m n : ℕ}
    (h : ∀ i < b.length / 8, (v6 bytes).octet i = b.network.octet i)
    (hn : m + n ≤ min (b.length / 8) 16) (hzero : ∀ i < n, b.network.octet (m + i) = 0) :
    ((bytes.toList.drop m).take n).all (· == 0) = true := by
  rw [List.all_eq_true]
  intro x hx
  obtain ⟨i, hi, rfl⟩ := List.mem_take_iff_getElem.mp hx
  have hin : i < n := lt_of_lt_of_le hi (min_le_left _ _)
  have hoct := (h (m + i) (by omega)).trans (hzero i hin)
  rw [octet_v6 (by omega)] at hoct
  simpa using hoct

lemma ipv6IsPrivateOrLoopback_of_contains (hb : b ∈ reservedBlocks) {o : Vector UInt8 16}
    (h : b.Contains (.v6 o)) : ipv6IsPrivateOrLoopback o = true := by
  obtain ⟨hbits, hshared⟩ := h
  obtain ⟨hwhole, hlast⟩ := samePrefix_iff_div.mp hshared
  have hbyte : ∀ i (hi : i < 16), i < b.length / 8 → o[i] = b.network.octet i :=
    fun i hi hlt => (octet_v6 hi).symm.trans (hwhole i hlt)
  have h0 : (v6 o).octet 0 = o[0] := octet_v6 (by norm_num)
  have h1 : (v6 o).octet 1 = o[1] := octet_v6 (by norm_num)
  rw [ipv6IsPrivateOrLoopback]
  fin_cases hb
  iterate 8 exact absurd hbits (by simp)
  · have hzero : (o.toList.take 16).all (· == 0) = true :=
      take_drop_all_zero (m := 0) hwhole (by decide) (by decide)
    simp [hzero]
  · have hzero : (o.toList.take 15).all (· == 0) = true :=
      take_drop_all_zero (m := 0) hwhole (by decide) (by decide)
    have hone : o[15] = 1 := hbyte 15 (by norm_num) (by decide)
    simp [hzero, hone]
  · -- fc00::/7: the first octet without its last bit
    have hquot : o[0].toNat / 2 = 126 := h0 ▸ hlast
    have hmask : ∀ x : UInt8, x.toNat / 2 = 126 → x &&& 0xFE = 0xFC :=
      forall_byte (by decide +kernel)
    simp [hmask _ hquot]
  · -- fe80::/10: the first octet and the two leading bits of the second
    have hquot : o[1].toNat / 64 = 2 := h1 ▸ hlast
    have hmask : ∀ x : UInt8, x.toNat / 64 = 2 → x &&& 0xC0 = 0x80 :=
      forall_byte (by decide +kernel)
    have hfe : o[0] = 0xFE := hbyte 0 (by norm_num) (by decide)
    simp [hfe, hmask _ hquot]
  · have hff : o[0] = 0xFF := hbyte 0 (by norm_num) (by decide)
    simp [hff]
  · -- 64:ff9b::/96: the classifier looks at the first eight octets only
    have hzero := take_drop_all_zero (m := 4) (n := 4) hwhole (by decide) (by decide)
    have hzeroth : o[0] = 0 := hbyte 0 (by norm_num) (by decide)
    have hfirst : o[1] = 0x64 := hbyte 1 (by norm_num) (by decide)
    have hsecond : o[2] = 0xFF := hbyte 2 (by norm_num) (by decide)
    have hthird : o[3] = 0x9B := hbyte 3 (by norm_num) (by decide)
    simp [hzero, hzeroth, hfirst, hsecond, hthird]

theorem isPrivateOrLoopback_of_contains (hb : b ∈ reservedBlocks) (h : b.Contains a) :
    a.isPrivateOrLoopback = true := by
  cases a with
  | v4 o => exact ipv4IsPrivateOrLoopback_of_contains hb h
  | v6 o => exact ipv6IsPrivateOrLoopback_of_contains hb h

lemma isPrivateOrLoopback_mapped :
    (mapped o).isPrivateOrLoopback = (v4 o).isPrivateOrLoopback := by
  simp [mapped, isPrivateOrLoopback, ipv6IsPrivateOrLoopback, ntohl]
  rfl

lemma isPrivateOrLoopback_unmapped (a : IpAddress) :
    a.unmapped.isPrivateOrLoopback = a.isPrivateOrLoopback := by
  cases hu : a.unmapped with
  | v4 o =>
    rcases unmapped_eq_v4.mp hu with rfl | rfl
    · rfl
    · exact (isPrivateOrLoopback_mapped o).symm
  | v6 o => rw [unmapped_eq_v6 hu]

/-! ### The verdict -/

/-- An opened range takes effect and covers the address. -/
def OpenedFor (pton : InetPton) (allowed : List Str) (a : IpAddress) : Prop :=
  ∃ range ∈ allowed, privateIpRangeIsAllowable pton range = true ∧
    ∃ b, ReadsRange pton range b ∧ b.Covers a

/-- Every denied range is well formed and does not cover the address. -/
def NotDenied (pton : InetPton) (denied : List Str) (a : IpAddress) : Prop :=
  ∀ range ∈ denied, ∃ b, ReadsRange pton range b ∧ ¬ b.Covers a

lemma ipAddressInAllowedPrivateRange_iff (h : Reads pton text a) (allowed : List Str) :
    ipAddressInAllowedPrivateRange pton text allowed = true ↔ OpenedFor pton allowed a := by
  have hrep := h.represents
  have hsize := hrep.size_ne_zero
  rw [ipAddressInAllowedPrivateRange, OpenedFor]
  cases allowed with
  | nil => simp
  | cons range rest =>
    simp [decide_eq_true hsize, opened_iff hrep]

lemma ipAddressInAllowedPrivateRange_of_not_reads (h : ∀ a, ¬ Reads pton text a)
    (allowed : List Str) : ipAddressInAllowedPrivateRange pton text allowed = false := by
  rcases parseIpBytes_cases pton text with ⟨a, ha, -⟩ | ⟨hzero, -⟩
  · exact absurd ha (h a)
  · simp [ipAddressInAllowedPrivateRange, hzero]

/-- The verdict on one address. -/
theorem addressRefused_eq_false (denied allowed : List Str) (text : Str) :
    addressRefused pton denied allowed text = false ↔
      ∃ a, Reads pton text a ∧ (OpenedFor pton allowed a ∨
        a.isPrivateOrLoopback = false ∧ NotDenied pton denied a) := by
  rcases parseIpBytes_cases pton text with ⟨a, ha, hrep⟩ | ⟨hzero, hno⟩
  · simp only [ha.iff_eq, exists_eq_left]
    rw [addressRefused]
    by_cases hopen : OpenedFor pton allowed a
    · rw [if_pos ((ipAddressInAllowedPrivateRange_iff ha allowed).mpr hopen)]
      exact ⟨fun _ => .inl hopen, fun _ => rfl⟩
    · rw [if_neg (fun h => hopen ((ipAddressInAllowedPrivateRange_iff ha allowed).mp h))]
      have hsize : ((parseIpBytes pton text).size == 0) = false := by
        simpa using hrep.size_ne_zero
      simp [hsize, ipAddressIsPrivateOrLoopback_of_reads ha, rangeDenies_eq_false hrep, hopen,
        NotDenied]
  · constructor
    · intro h
      rw [addressRefused, if_neg
        (by rw [ipAddressInAllowedPrivateRange_of_not_reads hno allowed]; simp)] at h
      simp [hzero] at h
    · rintro ⟨a, ha, -⟩
      exact absurd ha (hno a)

lemma addressSetAllowed_eq_true {addresses denied allowed : List Str} :
    addressSetAllowed pton addresses denied allowed = true ↔
      addresses ≠ [] ∧ ∀ text ∈ addresses, addressRefused pton denied allowed text = false := by
  simp [addressSetAllowed]

end Merovingian
