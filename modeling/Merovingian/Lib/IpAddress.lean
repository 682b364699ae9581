import Merovingian.Lib.BitPrefix

/-!
# Addresses and address blocks

An address is the sequence of its octets, four or sixteen of them.  A block is an address with
the number of leading bits that count: it contains the addresses of its family that share those
bits.  An IPv4 address can be written inside an IPv6 address (`mapped`); `unmapped` takes such an
address back to the IPv4 address it stands for.
-/

namespace Merovingian

/-- An IPv4 or IPv6 address. -/
inductive IpAddress
  | v4 (octets : Vector UInt8 4)
  | v6 (octets : Vector UInt8 16)
  deriving DecidableEq

variable {a : IpAddress} {o : Vector UInt8 16}

namespace IpAddress

/-- The number of bits of the address. -/
def bits : IpAddress → ℕ
  | v4 _ => 32
  | v6 _ => 128

/-- Octet `i` of the address, zero past its end. -/
def octet : IpAddress → ℕ → UInt8
  | v4 octets => fun i => octets.toList.getD i 0
  | v6 octets => fun i => octets.toList.getD i 0

/-- The IPv6 address that holds the four octets after `::ffff:`. -/
def mapped (o : Vector UInt8 4) : IpAddress :=
  v6 #v[0, 0, 0, 0, 0, 0, 0, 0, 0, 0, 255, 255, o.get 0, o.get 1, o.get 2, o.get 3]

/-- The IPv6 address that holds the four octets after the translation prefix `64:ff9b::`. -/
def translated (o : Vector UInt8 4) : IpAddress :=
  v6 #v[0, 100, 255, 155, 0, 0, 0, 0, 0, 0, 0, 0, o.get 0, o.get 1, o.get 2, o.get 3]

/-- The octets of the form `::ffff:a.b.c.d`. -/
def IsMapped (octets : Vector UInt8 16) : Prop :=
  (∀ i : Fin 10, octets[i] = 0) ∧ octets.get 10 = 255 ∧ octets.get 11 = 255

instance (octets : Vector UInt8 16) : Decidable (IsMapped octets) :=
  inferInstanceAs (Decidable (_ ∧ _))

/-- The address itself, or the IPv4 address that it is the mapped form of. -/
def unmapped : IpAddress → IpAddress
  | v4 octets => v4 octets
  | v6 octets =>
    if IsMapped octets then v4 #v[octets.get 12, octets.get 13, octets.get 14, octets.get 15]
    else v6 octets

@[simp] lemma bits_v4 (o : Vector UInt8 4) : (v4 o).bits = 32 := rfl

@[simp] lemma bits_v6 (o : Vector UInt8 16) : (v6 o).bits = 128 := rfl

@[simp] lemma unmapped_v4 (o : Vector UInt8 4) : (v4 o).unmapped = v4 o := rfl

@[simp] lemma octet_v4 {o : Vector UInt8 4} {i : ℕ} (hi : i < 4) : (v4 o).octet i = o[i] := by
  simp [octet, hi]

@[simp] lemma octet_v6 {i : ℕ} (hi : i < 16) : (v6 o).octet i = o[i] := by
  simp [octet, hi]

@[simp] lemma unmapped_mapped (o : Vector UInt8 4) : (mapped o).unmapped = v4 o := by
  have hfour : #v[o.get 0, o.get 1, o.get 2, o.get 3] = o := by
    ext i hi
    interval_cases i <;> rfl
  exact congrArg v4 hfour

/-- The only addresses that are judged as an IPv4 address are that address and its mapped
form. -/
theorem unmapped_eq_v4 {o : Vector UInt8 4} :
    a.unmapped = v4 o ↔ a = v4 o ∨ a = mapped o := by
  constructor
  · intro h
    cases a with
    | v4 octets => exact .inl h
    | v6 octets =>
      rw [unmapped] at h
      split at h
      · rename_i hmapped
        obtain ⟨hzero, hten, heleven⟩ := hmapped
        obtain rfl := IpAddress.v4.inj h
        right
        refine congrArg v6 (Vector.ext fun i hi => ?_)
        by_cases hlow : i < 10
        · have hi0 : octets[i] = 0 := hzero ⟨i, hlow⟩
          rw [hi0]
          interval_cases i <;> rfl
        · interval_cases i
          exacts [hten, heleven, rfl, rfl, rfl, rfl]
      · cases h
  · rintro (rfl | rfl)
    · rfl
    · exact unmapped_mapped o

lemma unmapped_eq_v6 (h : a.unmapped = v6 o) : a = v6 o := by
  cases a with
  | v4 octets => cases h
  | v6 octets =>
    rw [unmapped] at h
    split at h
    · cases h
    · exact h

end IpAddress

open IpAddress

/-! ### Blocks -/

/-- The addresses that share the first `length` bits of `network`. -/
structure CidrBlock where
  network : IpAddress
  length : ℕ
  length_le : length ≤ network.bits

namespace CidrBlock

/-- The address is of the block's family and shares the bits that count. -/
def Contains (b : CidrBlock) (a : IpAddress) : Prop :=
  a.bits = b.network.bits ∧ SamePrefix b.length a.octet b.network.octet

instance (b : CidrBlock) (a : IpAddress) : Decidable (b.Contains a) :=
  inferInstanceAs (Decidable (_ ∧ _))

/-- The address, or the IPv4 address it is the mapped form of, is in the block. -/
def Covers (b : CidrBlock) (a : IpAddress) : Prop := b.Contains a ∨ b.Contains a.unmapped

instance (b : CidrBlock) (a : IpAddress) : Decidable (b.Covers a) :=
  inferInstanceAs (Decidable (_ ∨ _))

/-- Every address of the block is in the other block. -/
def Inside (b c : CidrBlock) : Prop := ∀ a, b.Contains a → c.Contains a

variable {b b' c : CidrBlock}

/-- A block that is at least as long and whose network is in another block lies inside it. -/
theorem inside_of_contains_network (hlength : c.length ≤ b.length)
    (hnetwork : c.Contains b.network) : b.Inside c := by
  rintro a ⟨hbits, hshared⟩
  exact ⟨hbits.trans hnetwork.1, (hshared.mono hlength).trans hnetwork.2⟩

lemma covers_of_v4 {o : Vector UInt8 4} (hb : b.network = .v4 o) (a : IpAddress) :
    b.Covers a ↔ b.Contains a.unmapped := by
  refine ⟨fun h => h.elim (fun hc => ?_) id, .inr⟩
  cases a with
  | v4 _ => exact hc
  | v6 _ => exact absurd hc.1 (by simp [hb])

lemma covers_of_v6 (hb : b.network = .v6 o) (a : IpAddress) :
    b.Covers a ↔ b.Contains a := by
  refine ⟨fun h => h.elim id (fun hc => ?_), .inl⟩
  cases hu : a.unmapped with
  | v4 _ =>
    rw [hu] at hc
    exact absurd hc.1 (by simp [hb])
  | v6 _ => rwa [unmapped_eq_v6 hu, ← hu]

lemma Contains.overlap (hb : b.Contains a) (hc : c.Contains a) : b.network.bits = c.network.bits ∧
      SamePrefix (min b.length c.length) b.network.octet c.network.octet := by
  have hleft := (hb.2.mono (min_le_left b.length c.length)).symm
  have hright := hc.2.mono (min_le_right b.length c.length)
  exact ⟨hb.1.symm.trans hc.1, hleft.trans hright⟩

/-! ### Mapped and translated addresses -/

/-- The addresses `::ffff:a.b.c.d`. -/
def mappedBlock : CidrBlock :=
  ⟨.v6 #v[0, 0, 0, 0, 0, 0, 0, 0, 0, 0, 255, 255, 0, 0, 0, 0], 96, by decide⟩

/-- The addresses `64:ff9b::a.b.c.d`. -/
def translatedBlock : CidrBlock :=
  ⟨.v6 #v[0, 100, 255, 155, 0, 0, 0, 0, 0, 0, 0, 0, 0, 0, 0, 0], 96, by decide⟩

lemma mappedBlock_contains (o : Vector UInt8 4) : mappedBlock.Contains (.mapped o) := by
  refine ⟨rfl, (samePrefix_bytes 12).mpr fun i hi => ?_⟩
  interval_cases i <;> rfl

lemma translatedBlock_contains (o : Vector UInt8 4) : translatedBlock.Contains (.translated o) := by
  refine ⟨rfl, (samePrefix_bytes 12).mpr fun i hi => ?_⟩
  interval_cases i <;> rfl

lemma exists_of_mappedBlock_contains (h : mappedBlock.Contains a) :
    ∃ o, a = .mapped o := by
  obtain ⟨hbits, hshared⟩ := h
  have hbytes := (samePrefix_bytes 12).mp hshared
  cases a with
  | v4 o => exact absurd hbits (by simp [mappedBlock])
  | v6 octets =>
    have hoctet : ∀ i (hi : i < 12), octets[i] = mappedBlock.network.octet i :=
      fun i hi => (octet_v6 (by omega)).symm.trans (hbytes i hi)
    have hmapped : IsMapped octets := by
      refine ⟨fun i => ?_, hoctet 10 (by norm_num), hoctet 11 (by norm_num)⟩
      rw [Fin.getElem_fin, hoctet i (by omega)]
      fin_cases i <;> rfl
    have hunmapped : (v6 octets).unmapped =
        .v4 #v[octets.get 12, octets.get 13, octets.get 14, octets.get 15] := if_pos hmapped
    rcases unmapped_eq_v4.mp hunmapped with h | h
    · cases h
    · exact ⟨_, h⟩

lemma unmapped_eq_self (h : ¬ mappedBlock.Contains a) : a.unmapped = a := by
  cases hu : a.unmapped with
  | v4 o =>
    rcases unmapped_eq_v4.mp hu with rfl | rfl
    · rfl
    · exact absurd (mappedBlock_contains o) h
  | v6 o => exact (unmapped_eq_v6 hu).symm

/-- The second block is the first one in the mapped spelling. -/
def MappedSpelling (b b' : CidrBlock) : Prop :=
  ∃ o, b.network = .v4 o ∧ b'.network = .mapped o ∧ b'.length = 96 + b.length

/-- The mapped spelling of a block contains the mapped forms of its addresses. -/
theorem MappedSpelling.contains_iff (h : MappedSpelling b b')
    (x : Vector UInt8 4) : b'.Contains (.mapped x) ↔ b.Contains (.v4 x) := by
  obtain ⟨o, hb, hb', hlength⟩ := h
  have hfront : ∀ i < 12, (mapped x).octet i = (mapped o).octet i := by
    intro i hi
    interval_cases i <;> rfl
  have hback : ∀ (y : Vector UInt8 4), ∀ i < 4, (mapped y).octet (12 + i) =
      (v4 y).octet i := by
    intro y i hi
    rw [octet_v4 hi, mapped]
    interval_cases i <;> rfl
  have hle : b.length ≤ 32 := by simpa [hb] using b.length_le
  have hshared : SamePrefix (8 * 12 + b.length) (mapped x).octet
      (mapped o).octet ↔
      SamePrefix b.length (v4 x).octet (v4 o).octet := by
    rw [samePrefix_add 12, and_iff_right hfront]
    exact samePrefix_congr (fun i hi => hback x i (by omega)) (fun i hi => hback o i (by omega))
  rw [Contains, Contains, hb, hb', hlength]
  exact and_congr (by simp [mapped]) hshared

/-- The mapped spelling of a block covers only mapped addresses. -/
theorem MappedSpelling.covers_iff (h : MappedSpelling b b') (a : IpAddress) :
    b'.Covers a ↔ ∃ x, a = .mapped x ∧ b.Contains (.v4 x) := by
  have hcontains := h.contains_iff
  obtain ⟨o, -, hb', hlength⟩ := h
  rw [covers_of_v6 hb']
  constructor
  · intro ha
    have hmapped : mappedBlock.Contains a := by
      refine inside_of_contains_network (by rw [hlength]; exact Nat.le_add_right _ _) ?_ a ha
      rw [hb']
      exact mappedBlock_contains o
    obtain ⟨x, rfl⟩ := exists_of_mappedBlock_contains hmapped
    exact ⟨x, rfl, (hcontains x).mp ha⟩
  · rintro ⟨x, rfl, hx⟩
    exact (hcontains x).mpr hx

/-- The block covers what its mapped spelling covers, and its own addresses as they are. -/
theorem MappedSpelling.covers_iff_or (h : MappedSpelling b b') (a : IpAddress) :
    b.Covers a ↔ b'.Covers a ∨ ∃ x, a = .v4 x ∧ b.Contains (.v4 x) := by
  rw [h.covers_iff a]
  obtain ⟨o, hb, -, -⟩ := h
  rw [covers_of_v4 hb]
  constructor
  · intro hcontains
    cases hu : a.unmapped with
    | v4 x =>
      rw [hu] at hcontains
      rcases unmapped_eq_v4.mp hu with rfl | rfl
      · exact .inr ⟨x, rfl, hcontains⟩
      · exact .inl ⟨x, rfl, hcontains⟩
    | v6 x =>
      rw [hu] at hcontains
      exact absurd hcontains.1 (by simp [hb])
  · rintro (⟨x, rfl, hx⟩ | ⟨x, rfl, hx⟩)
    · rwa [unmapped_mapped]
    · exact hx

end CidrBlock

end Merovingian
