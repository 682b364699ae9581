import Mathlib.Data.List.Nodup

/-!
# Lists of keyed records

A list of records stands for a finite map when it is read by key: `lookupBy` takes the
first record with a key.  The lemmas say how reading goes through the ways such lists are
built: appending, filtering, reordering and keeping the first record of each key.
-/

namespace Merovingian

open List Option

variable {α κ : Type} [DecidableEq κ] (key : α → κ)

/-- The first record with this key. -/
def lookupBy (l : List α) (k : κ) : Option α := l.find? fun a => key a = k

/-- The first record of each key that is not in `seen`, in order. -/
def firstBy (seen : List κ) : List α → List α
  | [] => []
  | a :: l => if key a ∈ seen then firstBy seen l else a :: firstBy (key a :: seen) l

@[simp] lemma lookupBy_nil (k : κ) : lookupBy key ([] : List α) k = none := rfl

lemma lookupBy_cons (a : α) (l : List α) (k : κ) :
    lookupBy key (a :: l) k = if key a = k then some a else lookupBy key l k := by
  by_cases h : key a = k <;> simp [lookupBy, h]

lemma lookupBy_append (l m : List α) (k : κ) :
    lookupBy key (l ++ m) k = (lookupBy key l k).or (lookupBy key m k) := by
  simp [lookupBy]

variable {key} {l m : List α} {a : α} {k : κ} {seen : List κ}

lemma exists_mem_concat {P : α → Prop} : (∃ b ∈ l ++ [a], P b) ↔ (∃ b ∈ l, P b) ∨ P a := by
  simp

lemma key_of_lookupBy (h : lookupBy key l k = some a) : key a = k := by
  simpa using find?_some h

lemma mem_of_lookupBy (h : lookupBy key l k = some a) : a ∈ l :=
  mem_of_find?_eq_some h

lemma lookupBy_eq_none : lookupBy key l k = none ↔ ∀ a ∈ l, key a ≠ k := by
  simp [lookupBy]

section

variable (hnd : (l.map key).Nodup)

include hnd

lemma lookupBy_of_mem (ha : a ∈ l) : lookupBy key l (key a) = some a := by
  cases h : lookupBy key l (key a) with
  | none => exact absurd rfl (lookupBy_eq_none.mp h a ha)
  | some b =>
    have hb := inj_on_of_nodup_map hnd (mem_of_lookupBy h) ha (key_of_lookupBy h)
    rw [hb]

lemma lookupBy_eq_some : lookupBy key l k = some a ↔ a ∈ l ∧ key a = k := by
  constructor
  · intro h
    exact ⟨mem_of_lookupBy h, key_of_lookupBy h⟩
  · rintro ⟨ha, rfl⟩
    exact lookupBy_of_mem hnd ha

lemma lookupBy_filter (p : α → Bool) (k : κ) :
    lookupBy key (l.filter p) k = (lookupBy key l k).filter p := by
  have hnd' : ((l.filter p).map key).Nodup := hnd.sublist (filter_sublist.map key)
  ext a
  rw [lookupBy_eq_some hnd', mem_filter, filter_eq_some_iff, lookupBy_eq_some hnd]
  tauto

lemma lookupBy_replaced {p : α → Bool} (hp : ∀ a, p a = true ↔ key a ∉ m.map key)
    (k : κ) : lookupBy key (l.filter p ++ m) k = (lookupBy key m k).or (lookupBy key l k) := by
  rw [lookupBy_append, lookupBy_filter hnd]
  cases hm : lookupBy key m k with
  | none =>
    have hk : k ∉ m.map key := by simpa using lookupBy_eq_none.mp hm
    rw [or_none]
    cases hl : lookupBy key l k with
    | none => rfl
    | some a => exact filter_eq_some_iff.mpr ⟨rfl, (hp a).mpr (key_of_lookupBy hl ▸ hk)⟩
  | some b =>
    have hk : k ∈ m.map key := key_of_lookupBy hm ▸ mem_map_of_mem (mem_of_lookupBy hm)
    have hgone : (lookupBy key l k).filter p = none :=
      filter_eq_none_iff.mpr fun a ha hpa => (hp a).mp hpa (key_of_lookupBy ha ▸ hk)
    rw [hgone, none_or, some_or]

lemma cons_filter_ne_perm (ha : a ∈ l) : (a :: l.filter fun b => key b ≠ key a).Perm l := by
  induction l with
  | nil => cases ha
  | cons b l ih =>
    rw [map_cons, nodup_cons] at hnd
    rcases mem_cons.mp ha with rfl | ha
    · have hrest : ∀ c ∈ l, key c ≠ key a := fun c hc hcon =>
        hnd.1 (hcon ▸ mem_map_of_mem hc)
      rw [filter_cons_of_neg (by simp), filter_eq_self.mpr (by simpa using hrest)]
    · have hne : key b ≠ key a := fun hcon => hnd.1 (hcon ▸ mem_map_of_mem ha)
      rw [filter_cons_of_pos (by simpa using hne)]
      exact (Perm.swap b a _).trans ((ih hnd.2 ha).cons b)

/-- Reading does not depend on the order of records without repeated keys. -/
lemma lookupBy_perm (h : l.Perm m) (k : κ) : lookupBy key m k = lookupBy key l k := by
  have hnd' : (m.map key).Nodup := (h.map key).nodup_iff.mp hnd
  ext a
  rw [lookupBy_eq_some hnd, lookupBy_eq_some hnd', h.mem_iff]

end

/-- Keeping the first record of each key does not change what is read. -/
lemma lookupBy_firstBy (hk : k ∉ seen) :
    lookupBy key (firstBy key seen l) k = lookupBy key l k := by
  induction l generalizing seen with
  | nil => rfl
  | cons a l ih =>
    unfold firstBy
    by_cases hseen : key a ∈ seen
    · have hne : key a ≠ k := fun h => hk (h ▸ hseen)
      rw [if_pos hseen, ih hk, lookupBy_cons, if_neg hne]
    · rw [if_neg hseen, lookupBy_cons, lookupBy_cons]
      by_cases hak : key a = k
      · rw [if_pos hak, if_pos hak]
      · rw [if_neg hak, if_neg hak]
        refine ih ?_
        rw [mem_cons, not_or]
        exact ⟨Ne.symm hak, hk⟩

lemma mem_of_mem_firstBy (h : a ∈ firstBy key seen l) : a ∈ l ∧ key a ∉ seen := by
  induction l generalizing seen with
  | nil => cases h
  | cons b l ih =>
    rw [firstBy] at h
    by_cases hseen : key b ∈ seen
    · rw [if_pos hseen] at h
      exact ⟨mem_cons_of_mem _ (ih h).1, (ih h).2⟩
    · rw [if_neg hseen] at h
      rcases mem_cons.mp h with rfl | h
      · exact ⟨mem_cons_self, hseen⟩
      · exact ⟨mem_cons_of_mem _ (ih h).1, fun hm => (ih h).2 (mem_cons_of_mem _ hm)⟩

lemma nodup_firstBy (seen : List κ) (l : List α) : ((firstBy key seen l).map key).Nodup := by
  induction l generalizing seen with
  | nil => exact nodup_nil
  | cons a l ih =>
    rw [firstBy]
    by_cases hseen : key a ∈ seen
    · rw [if_pos hseen]
      exact ih seen
    · rw [if_neg hseen, map_cons, nodup_cons]
      refine ⟨fun hm => ?_, ih _⟩
      obtain ⟨b, hb, hkey⟩ := mem_map.mp hm
      exact (mem_of_mem_firstBy hb).2 (hkey ▸ mem_cons_self)

lemma mem_firstBy_iff : a ∈ firstBy key [] l ↔ lookupBy key l (key a) = some a := by
  have hread : lookupBy key (firstBy key [] l) (key a) = lookupBy key l (key a) :=
    lookupBy_firstBy not_mem_nil
  rw [← hread, lookupBy_eq_some (nodup_firstBy [] l)]
  exact (and_iff_left rfl).symm

lemma exists_mem_firstBy (ha : a ∈ l) (hk : key a ∉ seen) :
    ∃ b ∈ firstBy key seen l, key b = key a := by
  cases h : lookupBy key l (key a) with
  | none => exact absurd rfl (lookupBy_eq_none.mp h a ha)
  | some b =>
    rw [← lookupBy_firstBy hk] at h
    exact ⟨b, mem_of_lookupBy h, key_of_lookupBy h⟩

/-- When records with one key are equal, their order does not matter but for the order of the
first ones. -/
lemma firstBy_perm (hkey : ∀ a ∈ l, ∀ b ∈ l, key a = key b → a = b)
    (h : ∀ a, a ∈ l ↔ a ∈ m) : (firstBy key [] l).Perm (firstBy key [] m) := by
  have hmem : ∀ {l : List α}, (∀ a ∈ l, ∀ b ∈ l, key a = key b → a = b) →
      ∀ a, a ∈ firstBy key [] l ↔ a ∈ l := by
    intro l hkey a
    refine ⟨fun ha => (mem_of_mem_firstBy ha).1, fun ha => ?_⟩
    obtain ⟨b, hb, hab⟩ := exists_mem_firstBy ha (not_mem_nil (a := key a))
    rwa [hkey b (mem_of_mem_firstBy hb).1 a ha hab] at hb
  have hkey' : ∀ a ∈ m, ∀ b ∈ m, key a = key b → a = b := fun a ha b hb =>
    hkey a ((h a).mpr ha) b ((h b).mpr hb)
  refine (perm_ext_iff_of_nodup (nodup_firstBy [] l).of_map (nodup_firstBy [] m).of_map).mpr
    fun a => ?_
  rw [hmem hkey, hmem hkey', h]

lemma lookupBy_map {f : α → α} (hf : ∀ a, key (f a) = key a) (l : List α) (k : κ) :
    lookupBy key (l.map f) k = (lookupBy key l k).map f := by
  simp [lookupBy, Function.comp_def, hf]

/-! ### Rewriting one record -/

variable (key) in
/-- The first record with a key is rewritten, or a new record is appended. -/
def upsertBy (k : κ) (create : α) (merge : α → α) : List α → List α
  | [] => [create]
  | a :: l => if key a = k then merge a :: l else a :: upsertBy k create merge l

section Upsert

variable {k : κ} {create : α} {merge : α → α}

lemma lookupBy_upsertBy (hcreate : key create = k) (hmerge : ∀ a, key a = k → key (merge a) = k)
    (l : List α) (j : κ) :
    lookupBy key (upsertBy key k create merge l) j =
      if j = k then some ((lookupBy key l k).elim create merge) else lookupBy key l j := by
  induction l with
  | nil =>
    rw [upsertBy, lookupBy_cons, hcreate]
    by_cases hj : j = k
    · rw [if_pos hj, if_pos hj.symm]
      rfl
    · rw [if_neg hj, if_neg (Ne.symm hj)]
  | cons a l ih =>
    rw [upsertBy]
    by_cases ha : key a = k
    · rw [if_pos ha, lookupBy_cons, hmerge a ha, lookupBy_cons, lookupBy_cons, if_pos ha, ha]
      by_cases hj : j = k
      · rw [if_pos hj, if_pos hj.symm]
        rfl
      · rw [if_neg hj, if_neg (Ne.symm hj), if_neg (Ne.symm hj)]
    · rw [if_neg ha, lookupBy_cons, ih, lookupBy_cons key a l k, if_neg ha, lookupBy_cons]
      by_cases hj : j = k
      · rw [if_pos hj, if_neg (hj ▸ ha), if_pos hj]
      · rw [if_neg hj, if_neg hj]

lemma upsertBy_of_lookupBy_eq_none (h : lookupBy key l k = none) :
    upsertBy key k create merge l = l ++ [create] := by
  induction l with
  | nil => rfl
  | cons a l ih =>
    rw [lookupBy_cons] at h
    split_ifs at h with ha
    rw [upsertBy, if_neg ha, ih h, cons_append]

lemma map_upsertBy (hcreate : key create = k) (hmerge : ∀ a, key a = k → key (merge a) = k)
    (l : List α) : (upsertBy key k create merge l).map key =
      if k ∈ l.map key then l.map key else l.map key ++ [k] := by
  induction l with
  | nil => simp [upsertBy, hcreate]
  | cons a l ih =>
    rw [upsertBy]
    by_cases ha : key a = k
    · simp [ha, hmerge a ha]
    · rw [if_neg ha, map_cons, ih]
      have hmem : k ∈ (a :: l).map key ↔ k ∈ l.map key := by
        rw [map_cons, mem_cons]
        exact or_iff_right (Ne.symm ha)
      by_cases hk : k ∈ l.map key
      · rw [if_pos hk, if_pos (hmem.mpr hk), map_cons]
      · rw [if_neg hk, if_neg (mt hmem.mp hk), map_cons, cons_append]

lemma nodup_upsertBy (hcreate : key create = k) (hmerge : ∀ a, key a = k → key (merge a) = k)
    (h : (l.map key).Nodup) : ((upsertBy key k create merge l).map key).Nodup := by
  rw [map_upsertBy hcreate hmerge]
  by_cases hk : k ∈ l.map key
  · rwa [if_pos hk]
  · rw [if_neg hk]
    exact nodup_append'.mpr ⟨h, nodup_singleton k, fun _ hj hjk =>
      hk (mem_singleton.mp hjk ▸ hj)⟩

lemma mem_upsertBy {b : α} (h : b ∈ upsertBy key k create merge l) :
    b ∈ l ∨ (∃ a ∈ l, key a = k ∧ b = merge a) ∨ b = create := by
  induction l with
  | nil => exact .inr (.inr (mem_singleton.mp h))
  | cons a l ih =>
    rw [upsertBy] at h
    by_cases ha : key a = k
    · rw [if_pos ha] at h
      rcases mem_cons.mp h with rfl | h
      · exact .inr (.inl ⟨a, mem_cons_self, ha, rfl⟩)
      · exact .inl (mem_cons_of_mem _ h)
    · rw [if_neg ha] at h
      rcases mem_cons.mp h with rfl | h
      · exact .inl mem_cons_self
      · rcases ih h with h | ⟨a', ha', hkey, rfl⟩ | h
        · exact .inl (mem_cons_of_mem _ h)
        · exact .inr (.inl ⟨a', mem_cons_of_mem _ ha', hkey, rfl⟩)
        · exact .inr (.inr h)

lemma lookupBy_foldl_upsertBy {β : Type} {rowKey : β → κ} {create : β → α} {merge : β → α → α}
    (hcreate : ∀ row, key (create row) = rowKey row)
    (hmerge : ∀ row a, key a = rowKey row → key (merge row a) = rowKey row)
    {rows : List β} (hrows : (rows.map rowKey).Nodup) (l : List α) (j : κ) :
    lookupBy key (rows.foldl (fun l row =>
        upsertBy key (rowKey row) (create row) (merge row) l) l) j =
      (lookupBy rowKey rows j).elim (lookupBy key l j) fun row =>
        some ((lookupBy key l j).elim (create row) (merge row)) := by
  induction rows generalizing l with
  | nil => rfl
  | cons row rows ih =>
    rw [map_cons, nodup_cons] at hrows
    rw [foldl_cons, ih hrows.2, lookupBy_upsertBy (hcreate row) (hmerge row), lookupBy_cons]
    by_cases hj : j = rowKey row
    · have hrest : lookupBy rowKey rows j = none := by
        refine lookupBy_eq_none.mpr fun other hother heq => hrows.1 ?_
        exact mem_map.mpr ⟨other, hother, heq.trans hj⟩
      rw [if_pos hj, if_pos hj.symm, hrest, ← hj]
      rfl
    · rw [if_neg hj, if_neg (Ne.symm hj)]

end Upsert

end Merovingian
