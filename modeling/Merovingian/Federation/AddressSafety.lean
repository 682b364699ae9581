import Merovingian.Federation.AddressVerdicts

/-!
# Safety of the outbound address policy

Two results about `addressSetAllowed`, for every behaviour of `inet_pton`.  The first says what an
accepted set is made of: public addresses outside the denied ranges, and addresses of private
ranges that were opened; in particular no address of the blocks that can never be opened, in any
spelling.  The second is about the two spellings of IPv4.  A range in the IPv4 spelling treats both
spellings of an address alike.  A range in the mapped spelling does not: as a denied range it
misses the plain addresses, and as an opened range it has no effect.
-/

namespace Merovingian

open CidrBlock (mappedBlock translatedBlock translatedBlock_contains)

variable {pton : InetPton} {a : IpAddress} {allowed : List Str} {denied : List Str}
  {text range : Str} {b : CidrBlock}

/-! ### Accepted sets -/

lemma neverAllowed_inside_reserved : ∀ b ∈ neverAllowedBlocks, ∃ c ∈ reservedBlocks,
    c.length ≤ b.length ∧ c.Contains b.network := by
  decide +kernel

lemma translatedBlock_mem_reserved : translatedBlock ∈ reservedBlocks := by
  simp [translatedBlock, reservedBlocks]

/-- Private space has nothing in common with the blocks that can never be opened, nor with the
mapped and the translated addresses; and no such block has a mapped address in it. -/
lemma blocks_apart :
    (∀ p ∈ privateBlocks, ∀ b ∈ mappedBlock :: translatedBlock :: neverAllowedBlocks,
      ¬ (p.network.bits = b.network.bits ∧
        SamePrefix (min p.length b.length) p.network.octet b.network.octet)) ∧
    ∀ b ∈ translatedBlock :: neverAllowedBlocks, ¬ (b.network.bits = mappedBlock.network.bits ∧
      SamePrefix (min b.length mappedBlock.length) b.network.octet mappedBlock.network.octet) := by
  decide

lemma contains_unmapped_of_covers {p : CidrBlock} (hp : p ∈ privateBlocks) (h : p.Covers a) :
    p.Contains a.unmapped := by
  rcases h with h | h
  · rwa [CidrBlock.unmapped_eq_self fun hm => blocks_apart.1 p hp mappedBlock (by simp) (h.overlap hm)]
  · exact h

lemma OpenedFor.exists_inside (h : OpenedFor pton allowed a) :
    ∃ range ∈ allowed, ∃ b, ReadsRange pton range b ∧ b.Covers a ∧
      ∃ p ∈ privateBlocks, b.Inside p := by
  obtain ⟨range, hrange, hallow, b, hb, hcovers⟩ := h
  obtain ⟨b', hb', -, p, hp, hlength, hcontains⟩ := exists_inside_of_allowable hb.network hallow
  obtain rfl := hb.unique hb'
  exact ⟨range, hrange, b, hb, hcovers, p, hp, CidrBlock.inside_of_contains_network hlength hcontains⟩

/-- An address that is judged public is in no reserved block. -/
lemma not_contains_of_public (h : a.isPrivateOrLoopback = false) :
    ∀ b ∈ reservedBlocks, ¬ b.Contains a.unmapped := by
  intro b hb hcontains
  have hprivate := isPrivateOrLoopback_of_contains hb hcontains
  rw [isPrivateOrLoopback_unmapped, h] at hprivate
  cases hprivate

section

variable (h : OpenedFor pton allowed a ∨ a.isPrivateOrLoopback = false ∧ NotDenied pton denied a)

include h

/-- An accepted address is, as it is judged, in private space or in no reserved block. -/
lemma accepted_cases :
    (∃ p ∈ privateBlocks, p.Contains a.unmapped) ∨
      ∀ b ∈ reservedBlocks, ¬ b.Contains a.unmapped := by
  rcases h with hopen | ⟨hpublic, -⟩
  · obtain ⟨range, -, b, -, hcovers, p, hp, hinside⟩ := hopen.exists_inside
    have hpcovers : p.Covers a := hcovers.imp (hinside a) (hinside a.unmapped)
    exact .inl ⟨p, hp, contains_unmapped_of_covers hp hpcovers⟩
  · exact .inr (not_contains_of_public hpublic)

/-- An accepted address is in no block that can never be opened, and is no translated address. -/
lemma accepted_avoids :
    ∀ b ∈ translatedBlock :: neverAllowedBlocks, ¬ b.Contains a.unmapped := by
  intro b hb hcontains
  rcases accepted_cases h with ⟨p, hp, hpa⟩ | hreserved
  · exact blocks_apart.1 p hp b (List.mem_cons_of_mem _ hb) (hpa.overlap hcontains)
  · rcases List.mem_cons.mp hb with rfl | hb
    · exact hreserved _ translatedBlock_mem_reserved hcontains
    · obtain ⟨c, hc, hlength, hnetwork⟩ := neverAllowed_inside_reserved b hb
      exact hreserved c hc (CidrBlock.inside_of_contains_network hlength hnetwork _ hcontains)

end

/-- **The outbound address policy is airtight.**  Whatever the operator's lists contain, an
accepted set of texts is not empty, and each text is read as an address that is either outside
the reserved blocks and the denied ranges, or in an opened range that is a block of private
space.  So no address of the blocks that can never be opened is accepted, nor its mapped or
translated form. -/
theorem addressSetAllowed_sound (pton : InetPton) (addresses denied allowed : List Str)
    (h : addressSetAllowed pton addresses denied allowed = true) :
    addresses ≠ [] ∧ ∀ text ∈ addresses, ∃ a, Reads pton text a ∧
      (((∀ b ∈ reservedBlocks, ¬ b.Contains a.unmapped) ∧
          ∀ range ∈ denied, (∃ b, ReadsRange pton range b) ∧
            ∀ b, ReadsRange pton range b → ¬ b.Covers a) ∨
        ∃ range ∈ allowed, ∃ b, ReadsRange pton range b ∧ b.Covers a ∧
          ∃ p ∈ privateBlocks, b.Inside p) ∧
      ∀ b ∈ neverAllowedBlocks, ∀ x, b.Contains x →
        a ≠ x ∧ ∀ o, x = .v4 o → a ≠ .mapped o ∧ a ≠ .translated o := by
  obtain ⟨hne, hall⟩ := addressSetAllowed_eq_true.mp h
  refine ⟨hne, fun text htext => ?_⟩
  obtain ⟨a, ha, haccepted⟩ := (addressRefused_eq_false denied allowed text).mp (hall text htext)
  have havoids := accepted_avoids haccepted
  refine ⟨a, ha, ?_, fun b hb x hx => ⟨?_, ?_⟩⟩
  · rcases haccepted with hopen | ⟨hpublic, hdenied⟩
    · exact .inr hopen.exists_inside
    · refine .inl ⟨not_contains_of_public hpublic, fun range hrange => ?_⟩
      obtain ⟨b, hb, hcovers⟩ := hdenied range hrange
      exact ⟨⟨b, hb⟩, fun b' hb' => hb.unique hb' ▸ hcovers⟩
  · rintro rfl
    have hself : a.unmapped = a := CidrBlock.unmapped_eq_self fun hm =>
      blocks_apart.2 b (List.mem_cons_of_mem _ hb) (hx.overlap hm)
    exact havoids b (List.mem_cons_of_mem _ hb) (by rwa [hself])
  · rintro o rfl
    refine ⟨?_, ?_⟩
    · rintro rfl
      exact havoids b (List.mem_cons_of_mem _ hb) (by rwa [IpAddress.unmapped_mapped])
    · rintro rfl
      have hself : (IpAddress.translated o).unmapped = .translated o :=
        CidrBlock.unmapped_eq_self fun hm => blocks_apart.2 translatedBlock List.mem_cons_self
          ((translatedBlock_contains o).overlap hm)
      exact havoids translatedBlock List.mem_cons_self
        (by rw [hself]; exact translatedBlock_contains o)

/-- A public address and an address of an opened network pass, next to the default ranges and a
malformed entry of the opened ranges. -/
theorem addressSetAllowed_sound_mixed :
    addressSetAllowed posixInetPton ["8.8.8.8", "::ffff:172.18.0.3"]
        ["127.0.0.0/8", "10.0.0.0/8", "172.16.0.0/12", "192.168.0.0/16", "::1/128", "fc00::/7"]
        ["172.18.0.0/16", "127.0.0.0/8", "10.0.0.5/8"] = true ∧
      ∀ text ∈ [lit "8.8.8.8", lit "::ffff:172.18.0.3"], ∃ a, Reads posixInetPton text a := by
  have h : addressSetAllowed posixInetPton ["8.8.8.8", "::ffff:172.18.0.3"]
      ["127.0.0.0/8", "10.0.0.0/8", "172.16.0.0/12", "192.168.0.0/16", "::1/128", "fc00::/7"]
      ["172.18.0.0/16", "127.0.0.0/8", "10.0.0.5/8"] = true := by decide
  refine ⟨h, fun text htext => ?_⟩
  obtain ⟨a, ha, -⟩ := (addressSetAllowed_sound _ _ _ _ h).2 text htext
  exact ⟨a, ha⟩

/-! ### Spellings -/

lemma addressSetAllowed_singleton (h : Reads pton text a) :
    addressSetAllowed pton [text] denied allowed = true ↔
      (OpenedFor pton allowed a ∨ a.isPrivateOrLoopback = false ∧ NotDenied pton denied a) := by
  rw [addressSetAllowed_eq_true]
  simp only [ne_eq, List.cons_ne_self, not_false_eq_true, List.mem_singleton, forall_eq, true_and,
    addressRefused_eq_false, h.iff_eq, exists_eq_left]

/-- A text that is no address is refused. -/
lemma addressSetAllowed_of_not_reads (h : ∀ a, ¬ Reads pton text a) :
    addressSetAllowed pton [text] denied allowed = false := by
  rw [← Bool.not_eq_true, addressSetAllowed_eq_true]
  rintro ⟨-, hall⟩
  obtain ⟨a, ha, -⟩ := (addressRefused_eq_false denied allowed text).mp (hall text (by simp))
  exact h a ha

lemma openedFor_mapped (allowed : List Str) (o : Vector UInt8 4) :
    OpenedFor pton allowed (.mapped o) ↔ OpenedFor pton allowed (.v4 o) := by
  constructor
  · rintro ⟨range, hrange, hallow, b, hb, hcovers⟩
    obtain ⟨b', hb', -, p, hp, hlength, hnetwork⟩ := exists_inside_of_allowable hb.network hallow
    obtain rfl := hb.unique hb'
    refine ⟨range, hrange, hallow, b, hb, ?_⟩
    rcases hcovers with hcontains | hcontains
    · -- private space has no mapped address
      have hpm := CidrBlock.inside_of_contains_network hlength hnetwork _ hcontains
      exact absurd (hpm.overlap (CidrBlock.mappedBlock_contains o))
        (blocks_apart.1 p hp mappedBlock (by simp))
    · rw [IpAddress.unmapped_mapped] at hcontains
      exact .inl hcontains
  · rintro ⟨range, hrange, hallow, b, hb, hcovers⟩
    refine ⟨range, hrange, hallow, b, hb, .inr ?_⟩
    rw [IpAddress.unmapped_mapped]
    exact hcovers.elim id id

/-- Denied ranges treat the mapped form of an address as the address, and refuse it also for the
IPv6 ranges it is in. -/
lemma notDenied_mapped (denied : List Str) (o : Vector UInt8 4) :
    NotDenied pton denied (.mapped o) ↔ NotDenied pton denied (.v4 o) ∧
      ¬ ∃ range ∈ denied, ∃ b, ReadsRange pton range b ∧ b.Contains (.mapped o) := by
  have hcovers : ∀ b : CidrBlock, b.Covers (.mapped o) ↔
      b.Contains (.mapped o) ∨ b.Covers (.v4 o) := by
    intro b
    rw [CidrBlock.Covers, CidrBlock.Covers, IpAddress.unmapped_mapped, IpAddress.unmapped_v4,
      or_self]
  constructor
  · intro h
    refine ⟨fun range hrange => ?_, ?_⟩
    · obtain ⟨b, hb, hnot⟩ := h range hrange
      exact ⟨b, hb, fun hc => hnot ((hcovers b).mpr (.inr hc))⟩
    · rintro ⟨range, hrange, b, hb, hcontains⟩
      obtain ⟨b', hb', hnot⟩ := h range hrange
      obtain rfl := hb.unique hb'
      exact hnot ((hcovers b).mpr (.inl hcontains))
  · rintro ⟨h, hno⟩ range hrange
    obtain ⟨b, hb, hnot⟩ := h range hrange
    refine ⟨b, hb, fun hc => ?_⟩
    rcases (hcovers b).mp hc with hc | hc
    · exact hno ⟨range, hrange, b, hb, hc⟩
    · exact hnot hc

lemma notDenied_insert {before after : List Str} (hb : ReadsRange pton range b) (a : IpAddress) :
    NotDenied pton (before ++ range :: after) a ↔
      NotDenied pton (before ++ after) a ∧ ¬ b.Covers a := by
  simp only [NotDenied, List.mem_append, List.mem_cons, or_imp, forall_and, forall_eq, hb.iff_eq,
    exists_eq_left]
  tauto

lemma openedFor_insert {before after : List Str} (hb : ReadsRange pton range b) (a : IpAddress) :
    OpenedFor pton (before ++ range :: after) a ↔ OpenedFor pton (before ++ after) a ∨
      privateIpRangeIsAllowable pton range = true ∧ b.Covers a := by
  simp only [OpenedFor, List.mem_append, List.mem_cons, or_and_right, exists_or, exists_eq_left,
    hb.iff_eq]
  exact (or_congr_right or_comm).trans or_assoc.symm

/-- The mapped spelling of a range cannot be opened. -/
lemma not_allowable_of_mapped {b' : CidrBlock} (h : CidrBlock.MappedSpelling b b')
    (hb : ReadsRange pton range b') : privateIpRangeIsAllowable pton range = false := by
  rw [← Bool.not_eq_true]
  intro hallow
  obtain ⟨c, hc, -, p, hp, -, hnetwork⟩ := exists_inside_of_allowable hb.network hallow
  obtain rfl := hb.unique hc
  obtain ⟨o, -, hmapped, -⟩ := h
  rw [hmapped] at hnetwork
  exact blocks_apart.1 p hp mappedBlock (by simp)
    (hnetwork.overlap (CidrBlock.mappedBlock_contains o))

lemma address_spellings_agree {o : Vector UInt8 4} {text' : Str} (htext : Reads pton text (.v4 o))
    (htext' : Reads pton text' (.mapped o)) :
    addressSetAllowed pton [text] denied allowed = addressSetAllowed pton [text'] denied allowed ↔
      ¬ (addressSetAllowed pton [text] denied allowed = true ∧
        ¬ OpenedFor pton allowed (.v4 o) ∧
        ∃ range ∈ denied, ∃ b, ReadsRange pton range b ∧ b.Contains (.mapped o)) := by
  rw [Bool.eq_iff_iff, addressSetAllowed_singleton htext, addressSetAllowed_singleton htext',
    openedFor_mapped, isPrivateOrLoopback_mapped, notDenied_mapped]
  by_cases hopen : OpenedFor pton allowed (.v4 o)
  · simp [hopen]
  · by_cases hbad : ∃ range ∈ denied, ∃ b, ReadsRange pton range b ∧ b.Contains (.mapped o)
    · simp [hopen, hbad]
    · simp [hbad]

section Ranges

variable {before after : List Str} {range' : Str} {b' : CidrBlock}
  (hspell : CidrBlock.MappedSpelling b b') (hrange : ReadsRange pton range b)
  (hrange' : ReadsRange pton range' b')

include hspell hrange hrange'

lemma denied_spellings_agree :
    addressSetAllowed pton [text] (before ++ range :: after) allowed =
        addressSetAllowed pton [text] (before ++ range' :: after) allowed ↔
      ¬ ∃ o, Reads pton text (.v4 o) ∧ b.Contains (.v4 o) ∧ ¬ OpenedFor pton allowed (.v4 o) ∧
        addressSetAllowed pton [text] (before ++ after) allowed = true := by
  by_cases hreads : ∃ a, Reads pton text a
  · obtain ⟨a, ha⟩ := hreads
    rw [Bool.eq_iff_iff]
    simp only [addressSetAllowed_singleton ha, notDenied_insert hrange, notDenied_insert hrange',
      hspell.covers_iff_or, ha.iff_eq]
    cases a with
    | v4 o =>
      -- a plain address: only the plain spelling refuses it
      have hfree : ¬ b'.Covers (.v4 o) := by
        rw [hspell.covers_iff]
        rintro ⟨x, hx, -⟩
        cases hx
      simp only [IpAddress.v4.injEq, exists_eq_left, exists_eq_left']
      tauto
    | v6 o => simp
  · rw [not_exists] at hreads
    rw [addressSetAllowed_of_not_reads hreads, addressSetAllowed_of_not_reads hreads]
    simp [hreads]

lemma opened_spellings_agree :
    addressSetAllowed pton [text] denied (before ++ range :: after) =
        addressSetAllowed pton [text] denied (before ++ range' :: after) ↔
      ¬ ∃ a, Reads pton text a ∧ privateIpRangeIsAllowable pton range = true ∧ b.Covers a ∧
        addressSetAllowed pton [text] denied (before ++ after) = false := by
  by_cases hreads : ∃ a, Reads pton text a
  · obtain ⟨a, ha⟩ := hreads
    rw [Bool.eq_iff_iff, ← Bool.not_eq_true]
    simp only [addressSetAllowed_singleton ha, openedFor_insert hrange, openedFor_insert hrange',
      not_allowable_of_mapped hspell hrange', ha.iff_eq,
      exists_eq_left]
    tauto
  · rw [not_exists] at hreads
    rw [addressSetAllowed_of_not_reads hreads, addressSetAllowed_of_not_reads hreads]
    simp [hreads]

end Ranges

/-- **When the two spellings of an address or of a range get one verdict.**  The mapped form of an
address gets the verdict of the address except where the address is accepted and an IPv6 range
that contains the mapped form is denied.  Writing a denied IPv4 range in the mapped spelling
changes the verdict exactly for the plain IPv4 addresses in it that nothing else refuses or opens.
Writing an opened IPv4 range in the mapped spelling changes the verdict exactly for the addresses
in it that are accepted for this range only. -/
theorem spellings_agree_iff (pton : InetPton) (denied allowed : List Str) :
    (∀ (o : Vector UInt8 4) (text text' : Str), Reads pton text (.v4 o) →
      Reads pton text' (.mapped o) →
      (addressSetAllowed pton [text] denied allowed = addressSetAllowed pton [text'] denied allowed
        ↔ ¬ (addressSetAllowed pton [text] denied allowed = true ∧
          ¬ OpenedFor pton allowed (.v4 o) ∧
          ∃ range ∈ denied, ∃ b, ReadsRange pton range b ∧ b.Contains (.mapped o)))) ∧
    ∀ (b b' : CidrBlock) (range range' : Str) (before after : List Str) (text : Str),
      CidrBlock.MappedSpelling b b' → ReadsRange pton range b → ReadsRange pton range' b' →
      (addressSetAllowed pton [text] (before ++ range :: after) allowed =
          addressSetAllowed pton [text] (before ++ range' :: after) allowed ↔
        ¬ ∃ o, Reads pton text (.v4 o) ∧ b.Contains (.v4 o) ∧ ¬ OpenedFor pton allowed (.v4 o) ∧
          addressSetAllowed pton [text] (before ++ after) allowed = true) ∧
      (addressSetAllowed pton [text] denied (before ++ range :: after) =
          addressSetAllowed pton [text] denied (before ++ range' :: after) ↔
        ¬ ∃ a, Reads pton text a ∧ privateIpRangeIsAllowable pton range = true ∧ b.Covers a ∧
          addressSetAllowed pton [text] denied (before ++ after) = false) := by
  refine ⟨fun o text text' htext htext' => address_spellings_agree htext htext',
    fun b b' range range' before after text hspell hrange hrange' =>
      ⟨denied_spellings_agree hspell hrange hrange', opened_spellings_agree hspell hrange hrange'⟩⟩

lemma reads_eights : Reads posixInetPton "8.8.8.8" (.v4 #v[8, 8, 8, 8]) :=
  ⟨by decide, by decide, by decide, .inl ⟨_, by decide, rfl⟩⟩

lemma reads_mapped_eights : Reads posixInetPton "::ffff:8.8.8.8" (.mapped #v[8, 8, 8, 8]) :=
  ⟨by decide, by decide, by decide, .inr ⟨_, by decide, by decide, rfl⟩⟩

/-- The range `8.8.8.0/24` and its mapped spelling. -/
def eightsBlock : CidrBlock := ⟨.v4 #v[8, 8, 8, 0], 24, by decide⟩

def mappedEightsBlock : CidrBlock := ⟨.mapped #v[8, 8, 8, 0], 120, by decide⟩

lemma readsRange_eights : ReadsRange posixInetPton "8.8.8.0/24" eightsBlock := by
  refine ⟨⟨by decide, by decide, by decide, .inl ⟨_, by decide, rfl⟩⟩, ?_⟩
  have hcut : (cut 47 (lit "8.8.8.0/24")).2 = some (lit "24") := by decide
  rw [hcut]
  decide

lemma readsRange_mapped_eights :
    ReadsRange posixInetPton "::ffff:8.8.8.0/120" mappedEightsBlock := by
  refine ⟨⟨by decide, by decide, by decide,
    .inr ⟨_, by decide, by decide, rfl⟩⟩, ?_⟩
  have hcut : (cut 47 (lit "::ffff:8.8.8.0/120")).2 = some (lit "120") := by decide
  rw [hcut]
  decide

/-- With `8.8.8.0/24` denied both spellings of `8.8.8.8` are refused, and writing that range in
the other spelling is the same for the mapped form. -/
theorem spellings_agree_iff_eights :
    addressSetAllowed posixInetPton ["8.8.8.8"] ["8.8.8.0/24"] [] =
        addressSetAllowed posixInetPton ["::ffff:8.8.8.8"] ["8.8.8.0/24"] [] ∧
      addressSetAllowed posixInetPton ["::ffff:8.8.8.8"] ["8.8.8.0/24"] [] =
        addressSetAllowed posixInetPton ["::ffff:8.8.8.8"] ["::ffff:8.8.8.0/120"] [] := by
  have h := spellings_agree_iff posixInetPton ["8.8.8.0/24"] []
  refine ⟨(h.1 _ _ _ reads_eights reads_mapped_eights).mpr ?_,
    (h.2 eightsBlock mappedEightsBlock _ _ [] [] _ ⟨_, rfl, rfl, rfl⟩ readsRange_eights
      readsRange_mapped_eights).1.mpr ?_⟩
  · rintro ⟨hallowed, -⟩
    exact absurd hallowed (by decide)
  · rintro ⟨o, ho, -⟩
    cases reads_mapped_eights.unique ho

/-- A denied range in the mapped spelling refuses `::ffff:8.8.8.8` but not `8.8.8.8`, which the
plain spelling of the range refuses; and an opened range in the mapped spelling has no effect. -/
theorem mapped_range_misses_plain_address :
    (Reads posixInetPton "8.8.8.8" (.v4 #v[8, 8, 8, 8]) ∧
      Reads posixInetPton "::ffff:8.8.8.8" (.mapped #v[8, 8, 8, 8]) ∧
      ReadsRange posixInetPton "8.8.8.0/24" eightsBlock ∧
      ReadsRange posixInetPton "::ffff:8.8.8.0/120" mappedEightsBlock) ∧
    addressSetAllowed posixInetPton ["8.8.8.8"] ["::ffff:8.8.8.0/120"] [] = true ∧
    addressSetAllowed posixInetPton ["::ffff:8.8.8.8"] ["::ffff:8.8.8.0/120"] [] = false ∧
    addressSetAllowed posixInetPton ["8.8.8.8"] ["8.8.8.0/24"] [] = false ∧
    addressSetAllowed posixInetPton ["10.1.2.3"] [] ["10.0.0.0/8"] = true ∧
    addressSetAllowed posixInetPton ["10.1.2.3"] [] ["::ffff:10.0.0.0/104"] = false :=
  ⟨⟨reads_eights, reads_mapped_eights, readsRange_eights, readsRange_mapped_eights⟩,
    by decide⟩

end Merovingian
