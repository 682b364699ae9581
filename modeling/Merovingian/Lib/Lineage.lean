import Merovingian.Lib.Chains

/-!
# Lineages

Elements are issued or minted from a live element, and retired for good.  When minting waits until
the parent of an element and all minted from it before are retired, the live elements of one line
of descent are at most two, one minted from the other (`Paired.length_le_two`), and a retired
element is never minted from again (`Evolves.parent_of_retired`).
-/

namespace Merovingian

open Function Set

variable {κ : Type}

/-- Which elements exist, what each was minted from, and which of them are live. -/
@[ext]
structure Lineage (κ : Type) where
  known : Set κ
  parent : κ → Option κ
  live : Set κ
  live_known : ∀ {a}, a ∈ live → a ∈ known
  parent_known : ∀ {a b}, parent a = some b → a ∈ known ∧ b ∈ known
  acyclic : Acyclic parent

namespace Lineage

variable {L M : Lineage κ} {a b k r : κ}

lemma parent_of_notMem (h : k ∉ L.known) : L.parent k = none := by
  cases hp : L.parent k with
  | none => rfl
  | some b => exact absurd (L.parent_known hp).1 h

lemma eq_of_reaches_notMem (h : Reaches L.parent a k) (hk : k ∉ L.known) : a = k := by
  rcases Relation.ReflTransGen.cases_tail h with heq | ⟨b, -, hbk⟩
  · exact heq.symm
  · exact absurd (L.parent_known hbk).2 hk

/-! ### Steps -/

/-- Some elements stop being live. -/
def retire (L : Lineage κ) (gone : Set κ) : Lineage κ where
  known := L.known
  parent := L.parent
  live := L.live \ gone
  live_known := fun h => L.live_known h.1
  parent_known := L.parent_known
  acyclic := L.acyclic

/-- A new live element that was minted from none. -/
def issue (L : Lineage κ) (k : κ) : Lineage κ where
  known := insert k L.known
  parent := L.parent
  live := insert k L.live
  live_known := fun h => h.imp id L.live_known
  parent_known := fun h => (L.parent_known h).imp (mem_insert_of_mem k) (mem_insert_of_mem k)
  acyclic := L.acyclic

variable [DecidableEq κ]

/-- A new live element minted from `a`. -/
def mint (L : Lineage κ) (a k : κ) (ha : a ∈ L.known) (hk : k ∉ L.known) : Lineage κ where
  known := insert k L.known
  parent := Function.update L.parent k (some a)
  live := insert k L.live
  live_known := fun h => h.imp id L.live_known
  parent_known := by
    intro x y h
    by_cases hx : x = k
    · subst hx
      rw [update_self, Option.some.injEq] at h
      exact ⟨mem_insert x _, mem_insert_of_mem _ (h ▸ ha)⟩
    · rw [update_of_ne hx] at h
      exact (L.parent_known h).imp (mem_insert_of_mem k) (mem_insert_of_mem k)
  acyclic := by
    rw [acyclic_update_iff L.acyclic]
    intro h
    exact hk (eq_of_reaches_notMem h hk ▸ ha)

lemma mint_parent_self (ha : a ∈ L.known) (hk : k ∉ L.known) :
    (L.mint a k ha hk).parent k = some a :=
  update_self ..

lemma mint_parent_of_ne (ha : a ∈ L.known) (hk : k ∉ L.known) (hb : b ≠ k) :
    (L.mint a k ha hk).parent b = L.parent b :=
  update_of_ne hb ..

/-- One step.  Minting is from a live element whose parent and children are retired. -/
inductive Step : Lineage κ → Lineage κ → Prop
  | retire (L : Lineage κ) (gone : Set κ) : Step L (L.retire gone)
  | issue {L : Lineage κ} {k : κ} (hk : k ∉ L.known) : Step L (L.issue k)
  | mint {L : Lineage κ} {a k : κ} (ha : a ∈ L.live) (hk : k ∉ L.known)
      (hparent : ∀ b, L.parent a = some b → b ∉ L.live)
      (hchildren : ∀ b, L.parent b = some a → b ∉ L.live) :
      Step L (L.mint a k (L.live_known ha) hk)

/-- Any number of steps. -/
def Evolves : Lineage κ → Lineage κ → Prop := Relation.ReflTransGen Step

/-! ### Retirement is for good -/

lemma Step.known (h : Step L M) (ha : a ∈ L.known) : a ∈ M.known := by
  cases h with
  | retire => exact ha
  | issue | mint => exact mem_insert_of_mem _ ha

lemma Step.retired (h : Step L M) (ha : a ∈ L.known) (hlive : a ∉ L.live) : a ∉ M.live := by
  cases h with
  | retire => exact fun hm => hlive hm.1
  | issue hk | mint _ hk =>
    rintro (rfl | hm)
    · exact hk ha
    · exact hlive hm

lemma Step.parent_of_retired (h : Step L M) (hlive : a ∉ L.live) (hb : M.parent b = some a) :
    L.parent b = some a := by
  cases h with
  | retire | issue => exact hb
  | @mint x k hx hk =>
    by_cases hbk : b = k
    · subst hbk
      rw [mint_parent_self, Option.some.injEq] at hb
      exact absurd (hb ▸ hx) hlive
    · rwa [mint_parent_of_ne _ hk hbk] at hb

lemma Evolves.known (h : Evolves L M) (ha : a ∈ L.known) : a ∈ M.known := by
  induction h with
  | refl => exact ha
  | tail _ hstep ih => exact hstep.known ih

lemma Evolves.retired (h : Evolves L M) (ha : a ∈ L.known) (hlive : a ∉ L.live) : a ∉ M.live := by
  induction h with
  | refl => exact hlive
  | tail hrun hstep ih => exact hstep.retired (Evolves.known hrun ha) ih

theorem Evolves.parent_of_retired (h : Evolves L M) (ha : a ∈ L.known) (hlive : a ∉ L.live)
    (hb : M.parent b = some a) : L.parent b = some a := by
  induction h with
  | refl => exact hb
  | tail hrun hstep ih => exact ih (hstep.parent_of_retired (Evolves.retired hrun ha hlive) hb)

/-! ### Live elements come in pairs -/

omit [DecidableEq κ] in
/-- Live elements with a common ancestor are equal, or one is minted from the other. -/
def Paired (L : Lineage κ) : Prop :=
  ∀ {a b r}, a ∈ L.live → b ∈ L.live → Reaches L.parent a r → Reaches L.parent b r →
    a = b ∨ L.parent a = some b ∨ L.parent b = some a

/-- Lines of descent of known elements do not change. -/
lemma reaches_of_reaches_mint (ha : a ∈ L.known) (hk : k ∉ L.known) {x : κ} (hx : x ∈ L.known)
    (h : Reaches (L.mint a k ha hk).parent x r) : Reaches L.parent x r ∧ r ∈ L.known := by
  induction h with
  | refl => exact ⟨.refl, hx⟩
  | @tail y z _ hyz ih =>
    obtain ⟨hxy, hy⟩ := ih
    have hne : y ≠ k := fun h => hk (h ▸ hy)
    have hparent : L.parent y = some z := by rwa [mint_parent_of_ne ha hk hne] at hyz
    exact ⟨hxy.tail hparent, (L.parent_known hparent).2⟩

lemma reaches_mint_new (ha : a ∈ L.known) (hk : k ∉ L.known)
    (h : Reaches (L.mint a k ha hk).parent k r) : r = k ∨ Reaches L.parent a r ∧ r ∈ L.known := by
  rcases Relation.ReflTransGen.cases_head h with heq | ⟨y, hky, hyr⟩
  · exact .inl heq.symm
  · rw [mint_parent_self, Option.some.injEq] at hky
    subst hky
    exact .inr (reaches_of_reaches_mint ha hk ha hyr)

lemma Paired.eq_of_mint (h : L.Paired) (ha : a ∈ L.live) (hk : k ∉ L.known)
    (hparent : ∀ b, L.parent a = some b → b ∉ L.live)
    (hchildren : ∀ b, L.parent b = some a → b ∉ L.live) (hb : b ∈ L.live)
    (hkr : Reaches (L.mint a k (L.live_known ha) hk).parent k r)
    (hbr : Reaches (L.mint a k (L.live_known ha) hk).parent b r) : b = a := by
  obtain ⟨hbr', hr⟩ := reaches_of_reaches_mint _ hk (L.live_known hb) hbr
  rcases reaches_mint_new _ hk hkr with rfl | ⟨har, -⟩
  · exact absurd hr hk
  · rcases h hb ha hbr' har with heq | hba | hab
    · exact heq
    · exact absurd hb (hchildren b hba)
    · exact absurd hb (hparent b hab)

lemma Step.paired (h : Step L M) (hL : L.Paired) : M.Paired := by
  cases h with
  | retire => exact fun ha hb => hL ha.1 hb.1
  | @issue k hk =>
    -- the new element shares an ancestor with no other one
    have hnew : ∀ {b r}, b ∈ L.live → Reaches L.parent k r → ¬ Reaches L.parent b r := by
      intro b r hb hkr hbr
      rcases Relation.ReflTransGen.cases_head hkr with rfl | ⟨y, hky, -⟩
      · exact hk (eq_of_reaches_notMem hbr hk ▸ L.live_known hb)
      · exact hk (L.parent_known hky).1
    rintro a b r (rfl | ha) (rfl | hb) har hbr
    · exact .inl rfl
    · exact absurd hbr (hnew hb har)
    · exact absurd har (hnew ha hbr)
    · exact hL ha hb har hbr
  | @mint x k hx hk hparent hchildren =>
    have hminted := mint_parent_self (L.live_known hx) hk
    rintro a b r (rfl | ha) (rfl | hb) har hbr
    · exact .inl rfl
    · rw [hL.eq_of_mint hx hk hparent hchildren hb har hbr]
      exact .inr (.inl hminted)
    · rw [hL.eq_of_mint hx hk hparent hchildren ha hbr har]
      exact .inr (.inr hminted)
    · have hne : ∀ {y}, y ∈ L.live → y ≠ k := fun hy h => hk (h ▸ L.live_known hy)
      have hold := hL ha hb (reaches_of_reaches_mint _ hk (L.live_known ha) har).1
        (reaches_of_reaches_mint _ hk (L.live_known hb) hbr).1
      rwa [mint_parent_of_ne _ hk (hne ha), mint_parent_of_ne _ hk (hne hb)]

theorem Evolves.paired (h : Evolves L M) (hL : L.Paired) : M.Paired := by
  induction h with
  | refl => exact hL
  | tail _ hstep ih => exact hstep.paired ih

omit [DecidableEq κ] in
lemma Paired.eq_of_three (h : L.Paired) {a b c r : κ} (ha : a ∈ L.live) (hb : b ∈ L.live)
    (hc : c ∈ L.live) (har : Reaches L.parent a r) (hbr : Reaches L.parent b r)
    (hcr : Reaches L.parent c r) : a = b ∨ b = c ∨ a = c := by
  by_contra hne
  push Not at hne
  obtain ⟨hab, hbc, hac⟩ := hne
  have hloop : ∀ {x y z}, L.parent x = some y → L.parent y = some z → L.parent z ≠ some x := by
    intro x y z hxy hyz hzx
    exact L.acyclic x (.tail (.tail (.single hxy) hyz) hzx)
  -- each pair is linked, and an element is minted from one other at most
  rcases (h ha hb har hbr).resolve_left hab with h₁ | h₁ <;>
    rcases (h hb hc hbr hcr).resolve_left hbc with h₂ | h₂ <;>
    rcases (h ha hc har hcr).resolve_left hac with h₃ | h₃
  · exact hbc (Option.some.inj (h₁.symm.trans h₃))
  · exact hloop h₁ h₂ h₃
  · exact hbc (Option.some.inj (h₁.symm.trans h₃))
  · exact hab (Option.some.inj (h₃.symm.trans h₂))
  · exact hac (Option.some.inj (h₁.symm.trans h₂))
  · exact hac (Option.some.inj (h₁.symm.trans h₂))
  · exact hloop h₃ h₂ h₁
  · exact hab (Option.some.inj (h₃.symm.trans h₂))

omit [DecidableEq κ] in
theorem Paired.length_le_two (h : L.Paired) {l : List κ} (hl : l.Nodup)
    (hlive : ∀ a ∈ l, a ∈ L.live ∧ Reaches L.parent a r) : l.length ≤ 2 := by
  rcases l with _ | ⟨a, _ | ⟨b, _ | ⟨c, l⟩⟩⟩
  · simp
  · simp
  · simp
  · exfalso
    obtain ⟨ha, har⟩ := hlive a (by simp)
    obtain ⟨hb, hbr⟩ := hlive b (by simp)
    obtain ⟨hc, hcr⟩ := hlive c (by simp)
    simp only [List.nodup_cons, List.mem_cons, not_or] at hl
    rcases h.eq_of_three ha hb hc har hbr hcr with heq | heq | heq
    · exact hl.1.1 heq
    · exact hl.2.1.1 heq
    · exact hl.1.2.1 heq

end Lineage

end Merovingian
