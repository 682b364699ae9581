import Mathlib.Data.List.Sort
import Mathlib.Data.List.Pairwise
import Mathlib.Data.List.Induction

/-!
# Sorted indexes

An index of the elements with a property is a list of them, each once, in an order.  `IsIndex R S
l` says this of a list `l`, an order `R` and a property `S`.  The lemmas say what the usual ways to
maintain such a list do to it: insertion at a sort key's upper bound, a stable sort of new elements
merged into the old ones, removal and renumbering.  The sort key may be coarser than `R`.
-/

namespace Merovingian

open List Option

variable {α β κ : Type}

/-- `l` lists what `S` holds of, in the order `R`. -/
structure IsIndex (R : α → α → Prop) (S : α → Prop) (l : List α) : Prop where
  pairwise : l.Pairwise R
  mem : ∀ a, a ∈ l ↔ S a

namespace IsIndex

variable {R R' : α → α → Prop} {S S' : α → Prop} {l m : List α} {a : α}

lemma nil (hS : ∀ a, ¬ S a) : IsIndex R S [] :=
  ⟨Pairwise.nil, fun a => ⟨fun h => absurd h not_mem_nil, fun h => absurd h (hS a)⟩⟩

section

variable (h : IsIndex R S l)

include h

lemma congr (hR : ∀ a b, S a → S b → R a b → R' a b) (hS : ∀ a, S a ↔ S' a) : IsIndex R' S' l := by
  refine ⟨?_, fun a => (h.mem a).trans (hS a)⟩
  exact h.pairwise.imp_of_mem fun {a b} ha hb => hR a b ((h.mem a).mp ha) ((h.mem b).mp hb)

lemma congr_mem (hS : ∀ a, S a ↔ S' a) : IsIndex R S' l :=
  h.congr (fun _ _ _ _ hR => hR) hS

lemma nodup (hirrefl : ∀ a, ¬ R a a) : l.Nodup := by
  refine Pairwise.imp ?_ h.pairwise
  rintro a _ haa rfl
  exact hirrefl a haa

lemma unique (h' : IsIndex R S m) (hasymm : ∀ a b, R a b → ¬ R b a) : l = m := by
  have hirrefl : ∀ a, ¬ R a a := fun a haa => hasymm a a haa haa
  have hperm : l.Perm m := (perm_ext_iff_of_nodup (h.nodup hirrefl) (h'.nodup hirrefl)).mpr
    fun a => (h.mem a).trans (h'.mem a).symm
  refine hperm.eq_of_pairwise (fun a b _ _ hab hba => ?_) h.pairwise h'.pairwise
  exact absurd hba (hasymm a b hab)

lemma and (h' : IsIndex R' S l) : IsIndex (fun a b => R a b ∧ R' a b) S l :=
  ⟨h.pairwise.and h'.pairwise, h.mem⟩

lemma rel_or_rel {b : α} (ha : S a) (hb : S b) (hne : a ≠ b) : R a b ∨ R b a := by
  have hsymm : Std.Symm fun a b => R a b ∨ R b a := ⟨fun _ _ => Or.symm⟩
  have hpair : l.Pairwise fun a b => R a b ∨ R b a := h.pairwise.imp .inl
  exact hpair.forall ((h.mem a).mpr ha) ((h.mem b).mpr hb) hne

lemma filter (p : α → Bool) : IsIndex R (fun a => S a ∧ p a) (l.filter p) := by
  refine ⟨h.pairwise.filter p, fun a => ?_⟩
  rw [mem_filter, h.mem]

lemma filterMap {Q : β → β → Prop} (f : α → Option β)
    (hf : ∀ a b a' b', R a b → f a = some a' → f b = some b' → Q a' b') :
    IsIndex Q (fun b => ∃ a, S a ∧ f a = some b) (l.filterMap f) := by
  constructor
  · rw [pairwise_filterMap]
    exact h.pairwise.imp fun {a b} hab a' ha b' hb => hf a b a' b' hab ha hb
  · intro b
    rw [mem_filterMap]
    simp [h.mem]

end

lemma singleton (a : α) : IsIndex R (· = a) [a] :=
  ⟨pairwise_singleton _ _, fun _ => mem_singleton⟩

lemma append (h : IsIndex R S l) (h' : IsIndex R S' m) (hcross : ∀ a b, S a → S' b → R a b) :
    IsIndex R (fun a => S a ∨ S' a) (l ++ m) := by
  constructor
  · rw [pairwise_append]
    refine ⟨h.pairwise, h'.pairwise, fun a ha b hb => ?_⟩
    exact hcross a b ((h.mem a).mp ha) ((h'.mem b).mp hb)
  · intro a
    rw [mem_append, h.mem, h'.mem]

lemma erase [DecidableEq α] (h : IsIndex R S l) (hirrefl : ∀ a, ¬ R a a) (a : α) :
    IsIndex R (fun b => S b ∧ b ≠ a) (l.erase a) := by
  refine ⟨h.pairwise.sublist erase_sublist, fun b => ?_⟩
  rw [(h.nodup hirrefl).mem_erase_iff, h.mem, and_comm]

lemma update {ι : Type} [DecidableEq ι] {S : ι → α → Prop} {index : ι → List α} {own i : ι}
    (h : ∀ i, IsIndex R (S i) (index i)) (hown : i = own → IsIndex R S' l)
    (hother : i ≠ own → ∀ a, S i a ↔ S' a) : IsIndex R S' (Function.update index own l i) := by
  by_cases hi : i = own
  · subst hi
    rw [Function.update_self]
    exact hown rfl
  · rw [Function.update_of_ne hi]
    exact (h i).congr_mem (hother hi)

end IsIndex

lemma filterMap_range_getElem? (l : List α) : ((range l.length).filterMap fun p => l[p]?) = l := by
  induction l using reverseRecOn with
  | nil => rfl
  | append_singleton l a ih =>
    have hold : ((range l.length).filterMap fun p => (l ++ [a])[p]?) =
        (range l.length).filterMap fun p => l[p]? :=
      filterMap_congr fun p hp => getElem?_append_left (mem_range.mp hp)
    rw [length_append, length_singleton, range_succ, filterMap_append, hold, ih]
    simp

/-! ### Insertion by a sort key -/

section Keyed

variable [LinearOrder κ] (key : α → κ)

/-- Insertion before the first element with a greater key, at `std::upper_bound`. -/
def insertUpper (a : α) (l : List α) : List α := l.orderedInsert (fun b c => key b < key c) a

/-- Insertion with the check that the element belongs at the end. -/
def insertNewest (a : α) (l : List α) : List α :=
  if l.getLast?.all fun b => decide (key b ≤ key a) then l ++ [a] else insertUpper key a l

/-- A stable sort by key. -/
def stableSort (l : List α) : List α := l.insertionSort fun a b => key a ≤ key b

/-- A stable merge of two lists that are sorted by key. -/
def stableMerge (l m : List α) : List α := l.merge m fun a b => decide (key a ≤ key b)

/-- Removal of an element from among the elements with this key, `std::equal_range`. -/
def eraseAmong [DecidableEq α] (k : κ) (a : α) (l : List α) : List α :=
  let rest := l.dropWhile fun b => decide (key b < k)
  (l.takeWhile fun b => decide (key b < k)) ++
    ((rest.takeWhile fun b => decide (key b ≤ k)).erase a ++
      rest.dropWhile fun b => decide (key b ≤ k))

/-- Removal of an element found at `std::lower_bound`. -/
def eraseLower [DecidableEq α] (a : α) (l : List α) : List α :=
  let rest := l.dropWhile fun b => decide (key b < key a)
  if rest.head? = some a then (l.takeWhile fun b => decide (key b < key a)) ++ rest.tail else l

variable {key} {R : α → α → Prop} {S S' : α → Prop} {l m : List α} {a : α}

/-- Insertion before the first element that `r` puts later keeps an order that refines `r`. -/
lemma pairwise_orderedInsert {r : α → α → Prop} [DecidableRel r] (hl : l.Pairwise R)
    (hmono : ∀ b c, R b c → r a b → r a c) (hbefore : ∀ b ∈ l, r a b → R a b)
    (hafter : ∀ b ∈ l, ¬ r a b → R b a) : (l.orderedInsert r a).Pairwise R := by
  induction l with
  | nil => exact pairwise_singleton _ _
  | cons b l ih =>
    obtain ⟨hb, hl'⟩ := pairwise_cons.mp hl
    rw [orderedInsert_cons]
    by_cases hab : r a b
    · rw [if_pos hab]
      refine pairwise_cons.mpr ⟨fun c hc => ?_, hl⟩
      rcases mem_cons.mp hc with rfl | hc
      · exact hbefore _ mem_cons_self hab
      · exact hbefore c (mem_cons_of_mem _ hc) (hmono b c (hb c hc) hab)
    · rw [if_neg hab]
      refine pairwise_cons.mpr ⟨fun c hc => ?_, ?_⟩
      · rcases (mem_orderedInsert r).mp hc with rfl | hc
        · exact hafter b mem_cons_self hab
        · exact hb c hc
      · exact ih hl' (fun c hc => hbefore c (mem_cons_of_mem _ hc))
          (fun c hc => hafter c (mem_cons_of_mem _ hc))

section Insert

variable (key : α → κ) (a : α) (h : IsIndex R S l) (hkey : ∀ b c, R b c → key b ≤ key c)
  (hle : ∀ b, S b → key b ≤ key a → R b a) (hlt : ∀ b, S b → key a < key b → R a b)

include h hkey hle hlt

lemma IsIndex.insertUpper : IsIndex R (fun b => b = a ∨ S b) (insertUpper key a l) := by
  constructor
  · refine pairwise_orderedInsert h.pairwise (fun b c hbc hab => lt_of_lt_of_le hab (hkey b c hbc))
      (fun b hb => hlt b ((h.mem b).mp hb)) (fun b hb hab => ?_)
    exact hle b ((h.mem b).mp hb) (not_lt.mp hab)
  · intro b
    rw [Merovingian.insertUpper, mem_orderedInsert, h.mem]

lemma IsIndex.insertNewest : IsIndex R (fun b => b = a ∨ S b) (insertNewest key a l) := by
  rw [Merovingian.insertNewest]
  by_cases hlast : l.getLast?.all fun b => decide (key b ≤ key a)
  · rw [if_pos hlast]
    refine (h.append (singleton a) fun b c hb hc => hc ▸ hle b hb ?_).congr_mem fun b => or_comm
    -- the last element has the greatest key
    have hmem := (h.mem b).mpr hb
    induction l using reverseRecOn with
    | nil => cases hmem
    | append_singleton init c =>
      rw [getLast?_concat, all_some, decide_eq_true_eq] at hlast
      rcases mem_append.mp hmem with hinit | hc
      · have hpair := (pairwise_append.mp h.pairwise).2.2 b hinit c (mem_singleton_self c)
        exact (hkey b c hpair).trans hlast
      · rwa [mem_singleton.mp hc]
  · rw [if_neg hlast]
    exact h.insertUpper key a hkey hle hlt

end Insert

/-- A stable sort of elements that are listed in an order `Q` refines the key by `Q`. -/
lemma isIndex_stableSort {Q : α → α → Prop} (hl : l.Pairwise Q)
    (hkey : ∀ b c, R b c → key b ≤ key c) (hle : ∀ b c, Q b c → key b ≤ key c → R b c)
    (hlt : ∀ b c, Q b c → key c < key b → R c b) : IsIndex R (· ∈ l) (stableSort key l) := by
  refine ⟨?_, fun a => mem_insertionSort _⟩
  induction l with
  | nil => exact Pairwise.nil
  | cons b l ih =>
    obtain ⟨hb, hl'⟩ := pairwise_cons.mp hl
    refine pairwise_orderedInsert (ih hl') (fun c d hcd hbc => hbc.trans (hkey c d hcd)) ?_ ?_
    · intro c hc
      exact hle b c (hb c ((mem_insertionSort _).mp hc))
    · intro c hc hbc
      exact hlt b c (hb c ((mem_insertionSort _).mp hc)) (not_le.mp hbc)

lemma stableSort_perm (key : α → κ) (l : List α) : (stableSort key l).Perm l :=
  perm_insertionSort _ l

lemma pairwise_lt_stableSort (h : (l.map key).Nodup) :
    (stableSort key l).Pairwise fun b c => key b < key c := by
  have hsorted : (stableSort key l).Pairwise fun b c => key b ≤ key c :=
    pairwise_insertionSort _ l
  have hnodup := (((stableSort_perm key l).map key).nodup_iff).mpr h
  exact (hsorted.and (pairwise_map.mp hnodup)).imp fun h => lt_of_le_of_ne h.1 h.2

lemma IsIndex.stableMerge (key : α → κ) (h : IsIndex R S l) (h' : IsIndex R S' m)
    (hkey : ∀ b c, R b c → key b ≤ key c) (hle : ∀ b c, S b → S' c → key b ≤ key c → R b c)
    (hlt : ∀ b c, S b → S' c → key c < key b → R c b) :
    IsIndex R (fun b => S b ∨ S' b) (stableMerge key l m) := by
  refine ⟨?_, fun a => by rw [Merovingian.stableMerge, mem_merge, h.mem, h'.mem]⟩
  obtain ⟨⟨hl, hlS⟩, hm, hmS⟩ := And.intro h h'
  have hcross : ∀ b ∈ l, ∀ c ∈ m, (key b ≤ key c → R b c) ∧ (key c < key b → R c b) := by
    simp only [hlS, hmS]
    exact fun b hb c hc => ⟨hle b c hb hc, hlt b c hb hc⟩
  clear h h' hlS hmS hle hlt
  rw [Merovingian.stableMerge]
  -- the induction follows the merge, which takes the head of `l` when its key is not greater
  induction l generalizing m with
  | nil => rw [nil_merge]; exact hm
  | cons b l ihl =>
    induction m with
    | nil => rw [merge_right]; exact hl
    | cons c m ihm =>
      obtain ⟨hb, hl'⟩ := pairwise_cons.mp hl
      obtain ⟨hc, hm'⟩ := pairwise_cons.mp hm
      rw [cons_merge_cons]
      by_cases hbc : key b ≤ key c
      · rw [if_pos (decide_eq_true hbc)]
        refine pairwise_cons.mpr ⟨fun d hd => ?_, ?_⟩
        · rcases mem_merge.mp hd with hd | hd
          · exact hb d hd
          · refine (hcross b mem_cons_self d hd).1 ?_
            rcases mem_cons.mp hd with rfl | hd
            · exact hbc
            · exact hbc.trans (hkey c d (hc d hd))
        · exact ihl hl' hm fun d hd => hcross d (mem_cons_of_mem _ hd)
      · rw [if_neg (by simpa using hbc)]
        refine pairwise_cons.mpr ⟨fun d hd => ?_, ?_⟩
        · rcases mem_merge.mp hd with hd | hd
          · refine (hcross d hd c mem_cons_self).2 ?_
            rcases mem_cons.mp hd with rfl | hd
            · exact not_le.mp hbc
            · exact (not_le.mp hbc).trans_le (hkey b d (hb d hd))
          · exact hc d hd
        · exact ihm hm' fun d hd e he => hcross d hd e (mem_cons_of_mem _ he)

/-- An element does not stand before the lower bound of its key. -/
lemma erase_eq_lower [DecidableEq α] (key : α → κ) (a : α) (l : List α) :
    l.erase a = (l.takeWhile fun b => decide (key b < key a)) ++
      (l.dropWhile fun b => decide (key b < key a)).erase a := by
  have hnot : a ∉ l.takeWhile fun b => decide (key b < key a) := fun h =>
    lt_irrefl _ (of_decide_eq_true (all_eq_true.mp all_takeWhile a h))
  rw [← erase_append_right _ hnot, takeWhile_append_dropWhile]

variable (hl : l.Pairwise fun b c => key b ≤ key c)

include hl

lemma mem_takeWhile_le (ha : a ∈ l) : a ∈ l.takeWhile fun b => decide (key b ≤ key a) := by
  induction l with
  | nil => cases ha
  | cons b l ih =>
    obtain ⟨hb, hl'⟩ := pairwise_cons.mp hl
    have hle : key b ≤ key a := by
      rcases mem_cons.mp ha with rfl | ha
      · exact le_refl _
      · exact hb a ha
    rw [takeWhile_cons, if_pos (decide_eq_true hle)]
    rcases mem_cons.mp ha with rfl | ha
    · exact mem_cons_self
    · exact mem_cons_of_mem _ (ih hl' ha)

/-- In a list sorted by key, the elements with a key are where `std::equal_range` looks. -/
lemma eraseAmong_eq [DecidableEq α] : eraseAmong key (key a) a l = l.erase a := by
  have hrest := hl.sublist (dropWhile_sublist fun b => decide (key b < key a))
  rw [eraseAmong, erase_eq_lower key a l]
  generalize (l.dropWhile fun b => decide (key b < key a)) = rest at hrest ⊢
  by_cases hmem : a ∈ rest
  · rw [← erase_append_left _ (mem_takeWhile_le hrest hmem), takeWhile_append_dropWhile]
  · have hnot : a ∉ rest.takeWhile fun c => decide (key c ≤ key a) := fun h =>
      hmem ((takeWhile_sublist _).subset h)
    rw [erase_of_not_mem hnot, takeWhile_append_dropWhile, erase_of_not_mem hmem]

/-- In a list sorted by an injective key, an element is where `std::lower_bound` looks. -/
lemma eraseLower_eq [DecidableEq α] (hinj : Function.Injective key) :
    eraseLower key a l = l.erase a := by
  have hrest := hl.sublist (dropWhile_sublist fun b => decide (key b < key a))
  have hhead := head?_dropWhile_not (fun b => decide (key b < key a)) l
  rw [erase_eq_lower key a l, eraseLower]
  split
  · next hfirst =>
    obtain ⟨rest, heq⟩ := head?_eq_some_iff.mp hfirst
    rw [heq, tail_cons, erase_cons_head]
  · next hfirst =>
    -- elsewhere in the rest it would be a second element with the key of the first
    rw [erase_of_not_mem, takeWhile_append_dropWhile]
    intro hmem
    obtain ⟨b, rest, heq⟩ := exists_cons_of_ne_nil (ne_nil_of_mem hmem)
    rw [heq] at hmem hrest hhead hfirst
    have hne : b ≠ a := by simpa using hfirst
    rcases mem_cons.mp hmem with h | h
    · exact hne h.symm
    · exact hne (hinj (le_antisymm ((pairwise_cons.mp hrest).1 a h) (by simpa using hhead)))

end Keyed

/-! ### Closing gaps -/

/-- The rows that are not marked. -/
def unmarked : List Bool → List α → List α
  | true :: marks, _ :: l => unmarked marks l
  | false :: marks, a :: l => a :: unmarked marks l
  | _, _ => []

/-- The position a row has once the marked rows are gone: the number of unmarked rows before
it. -/
def remap : List Bool → ℕ → Option ℕ
  | [], _ => none
  | true :: _, 0 => none
  | false :: _, 0 => some 0
  | true :: marks, position + 1 => remap marks position
  | false :: marks, position + 1 => (remap marks position).map (· + 1)

variable {marks : List Bool} {l : List α} {p q p' q' : ℕ}

lemma getElem?_unmarked (hlen : marks.length = l.length) (h : remap marks p = some q) :
    (unmarked marks l)[q]? = l[p]? := by
  induction marks generalizing l p q with
  | nil => cases h
  | cons mark marks ih =>
    obtain ⟨a, l, rfl⟩ := exists_cons_of_length_eq_add_one hlen.symm
    have hlen' : marks.length = l.length := Nat.succ.inj hlen
    cases mark <;> cases p
    · cases h
      rfl
    · obtain ⟨q', hq', rfl⟩ := map_eq_some_iff.mp h
      exact ih hlen' hq'
    · cases h
    · exact ih hlen' h

lemma exists_remap (hlen : marks.length = l.length) (hq : q < (unmarked marks l).length) :
    ∃ p, remap marks p = some q := by
  induction marks generalizing l q with
  | nil => cases hq
  | cons mark marks ih =>
    obtain ⟨a, l, rfl⟩ := exists_cons_of_length_eq_add_one hlen.symm
    have hlen' : marks.length = l.length := Nat.succ.inj hlen
    cases mark with
    | true =>
      obtain ⟨p, hp⟩ := ih hlen' hq
      exact ⟨p + 1, hp⟩
    | false =>
      cases q with
      | zero => exact ⟨0, rfl⟩
      | succ q =>
        obtain ⟨p, hp⟩ := ih hlen' (Nat.lt_of_succ_lt_succ hq)
        exact ⟨p + 1, by rw [remap, hp]; rfl⟩

lemma remap_lt (hp : remap marks p = some p') (hq : remap marks q = some q') (hlt : p < q) :
    p' < q' := by
  induction marks generalizing p q p' q' with
  | nil => cases hp
  | cons mark marks ih =>
    obtain ⟨q, rfl⟩ : ∃ n, q = n + 1 := ⟨q - 1, by omega⟩
    cases mark with
    | true =>
      cases p with
      | zero => cases hp
      | succ p => exact ih hp hq (by omega)
    | false =>
      obtain ⟨q'', hq'', rfl⟩ := map_eq_some_iff.mp hq
      cases p with
      | zero =>
        cases hp
        exact Nat.succ_pos _
      | succ p =>
        obtain ⟨p'', hp'', rfl⟩ := map_eq_some_iff.mp hp
        exact Nat.succ_lt_succ (ih hp'' hq'' (by omega))

lemma remap_injective (hp : remap marks p = some p') (hq : remap marks q = some p') : p = q :=
  le_antisymm (not_lt.mp fun h => lt_irrefl _ (remap_lt hq hp h))
    (not_lt.mp fun h => lt_irrefl _ (remap_lt hp hq h))

lemma remap_eq_some_iff : (∃ q, remap marks p = some q) ↔ marks[p]? = some false := by
  induction marks generalizing p with
  | nil => simp [remap]
  | cons mark marks ih =>
    cases p with
    | zero => cases mark <;> simp [remap]
    | succ p =>
      rw [getElem?_cons_succ, ← ih]
      cases mark <;> simp [remap]

lemma unmarked_sublist (marks : List Bool) (l : List α) : (unmarked marks l).Sublist l := by
  induction marks generalizing l with
  | nil => exact nil_sublist l
  | cons mark marks ih =>
    cases l with
    | nil => cases mark <;> exact nil_sublist _
    | cons a l =>
      cases mark with
      | true => exact (ih l).cons a
      | false => exact (ih l).cons_cons a

end Merovingian
