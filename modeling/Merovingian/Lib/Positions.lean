import Merovingian.Lib.Keyed
import Mathlib.Data.List.Induction

/-!
# Positions in a list of rows

An index of a table holds positions of its rows.  `positions` lists the positions whose row
satisfies a condition, in increasing order; going through them is going through the rows
(`filterMap_positions`).

An index that is filled by emplacing the position of every new row under the row's key, if it has
one, holds the first position of each key (`emplacePosition_findIdx?`), whether it is kept row by
row or filled afresh (`emplacePositions_eq`).

A row is rewritten in place at the first position with its key.  When the key is kept, indexes by
key do not change (`map_modify_of_key`, `lookupBy_modify`).
-/

namespace Merovingian

open List Option

variable {α κ : Type} {l : List α} (a : α)

/-- The positions of the rows that satisfy `p`. -/
def positions (p : α → Bool) (l : List α) : List ℕ :=
  (List.range l.length).filter fun i => l[i]?.any p

section Positions

variable {p : α → Bool} {l : List α} {i : ℕ}

lemma mem_positions : i ∈ positions p l ↔ ∃ a, l[i]? = some a ∧ p a = true := by
  rw [positions, mem_filter, mem_range, Option.any_eq_true]
  constructor
  · exact And.right
  · rintro ⟨a, ha, hp⟩
    exact ⟨(List.getElem?_eq_some_iff.mp ha).1, a, ha, hp⟩

lemma positions_concat :
    positions p (l ++ [a]) = positions p l ++ if p a then [l.length] else [] := by
  have hold : (range l.length).filter (fun i => (l ++ [a])[i]?.any p) = positions p l := by
    refine filter_congr fun i hi => ?_
    rw [getElem?_append_left (mem_range.mp hi)]
  rw [positions, length_append, length_singleton, range_succ, filter_append, hold]
  cases h : p a <;> simp [h]

lemma filterMap_positions (p : α → Bool) (l : List α) :
    (positions p l).filterMap (l[·]?) = l.filter p := by
  induction l using reverseRecOn with
  | nil => rfl
  | append_singleton l a ih =>
    have hold : (positions p l).filterMap ((l ++ [a])[·]?) = (positions p l).filterMap (l[·]?) := by
      refine filterMap_congr fun i hi => ?_
      obtain ⟨b, hb, -⟩ := mem_positions.mp hi
      exact List.getElem?_append_left (List.getElem?_eq_some_iff.mp hb).1
    rw [positions_concat, filterMap_append, hold, ih]
    cases h : p a <;> simp [h]

lemma positions_map {β : Type} (f : β → α) (m : List β) :
    positions p (m.map f) = positions (p ∘ f) m := by
  simp [positions, Option.any_map, Function.comp_def]

end Positions

section Emplace

variable [DecidableEq κ] {key : α → Option κ}

/-- `emplace` of a position under a key: a held key stays.  A row without a key is not entered. -/
def emplacePosition (index : κ → Option ℕ) (key : Option κ) (position : ℕ) : κ → Option ℕ :=
  key.elim index fun k => Function.update index k ((index k).or (some position))

/-- The index filled from the rows in their order. -/
def emplacePositions (key : α → Option κ) (l : List α) : κ → Option ℕ :=
  l.zipIdx.foldl (fun index entry => emplacePosition index (key entry.1) entry.2) fun _ => none

lemma emplacePosition_findIdx? {index : κ → Option ℕ}
    (h : ∀ k, index k = l.findIdx? fun b => key b = some k) (k : κ) :
    emplacePosition index (key a) l.length k = (l ++ [a]).findIdx? fun b => key b = some k := by
  rw [findIdx?_append, ← h k]
  cases ha : key a with
  | none => simp [emplacePosition, ha]
  | some k' =>
    rw [emplacePosition]
    by_cases hk : k = k'
    · subst hk
      simp [ha]
    · simp [ha, Function.update_of_ne hk, Ne.symm hk]

lemma emplacePositions_eq (key : α → Option κ) (l : List α) (k : κ) :
    emplacePositions key l k = l.findIdx? fun b => key b = some k := by
  induction l using reverseRecOn generalizing k with
  | nil => rfl
  | append_singleton l a ih =>
    rw [emplacePositions, zipIdx_append, foldl_append]
    simp only [Nat.zero_add]
    exact emplacePosition_findIdx? a ih k

end Emplace

section Modify

variable {key : α → κ} {f : α → α}

lemma map_modify_of_key (hf : ∀ a, key (f a) = key a) (l : List α) (i : ℕ) :
    (l.modify i f).map key = l.map key := by
  induction l generalizing i with
  | nil => cases i <;> rfl
  | cons a l ih =>
    cases i with
    | zero => simp [hf]
    | succ i => simpa using ih i

/-- Induction on the first position: the head is it, or it lies in the tail. -/
@[elab_as_elim]
lemma findIdx?_induction {p : α → Bool} {motive : List α → ℕ → Prop}
    (head : ∀ a l, p a → motive (a :: l) 0)
    (tail : ∀ a l i, ¬ p a → motive l i → motive (a :: l) (i + 1)) {i : ℕ}
    (h : l.findIdx? p = some i) : motive l i := by
  induction l generalizing i with
  | nil => cases h
  | cons a l ih =>
    rw [findIdx?_cons] at h
    split at h
    · cases h
      exact head a l ‹_›
    · obtain ⟨j, hj, rfl⟩ := map_eq_some_iff.mp h
      exact tail a l j ‹_› (ih hj)

lemma lookupBy_modify [DecidableEq κ] (hf : ∀ a, key (f a) = key a) {k : κ} {i : ℕ}
    (hi : l.findIdx? (fun a => key a = k) = some i) (k' : κ) :
    lookupBy key (l.modify i f) k' =
      if k' = k then (lookupBy key l k).map f else lookupBy key l k' := by
  refine findIdx?_induction (fun a l ha => ?_) (fun a l i ha ih => ?_) hi
  · rw [modify_zero_cons, lookupBy_cons, lookupBy_cons, lookupBy_cons]
    grind
  · rw [modify_succ_cons, lookupBy_cons, lookupBy_cons, lookupBy_cons]
    grind

end Modify

section Place

variable [DecidableEq κ] {key : α → κ} {k : κ} {l : List α} {i : ℕ}

lemma set_findIdx? (hi : l.findIdx? (fun b => key b = k) = some i) :
    l.set i a = upsertBy key k a (fun _ => a) l := by
  refine findIdx?_induction (fun b l hb => ?_) (fun b l i hb ih => ?_) hi
  · rw [upsertBy, if_pos (of_decide_eq_true hb), set_cons_zero]
  · rw [upsertBy, if_neg fun h => hb (decide_eq_true h), set_cons_succ, ih]

lemma append_of_findIdx?_eq_none (hi : l.findIdx? (fun b => key b = k) = none) :
    l ++ [a] = upsertBy key k a (fun _ => a) l := by
  refine (upsertBy_of_lookupBy_eq_none (lookupBy_eq_none.mpr fun b hb => ?_)).symm
  simpa using findIdx?_eq_none_iff.mp hi b hb

/-- Erasing the first record with a key, where no two share one. -/
lemma eraseIdx_findIdx? (hnd : (l.map key).Nodup) (hi : l.findIdx? (fun b => key b = k) = some i) :
    l.eraseIdx i = l.filter fun b => key b ≠ k := by
  revert hnd
  refine findIdx?_induction (fun b l hb hnd => ?_) (fun b l i hb ih hnd => ?_) hi
  · obtain rfl : key b = k := of_decide_eq_true hb
    rw [filter_cons_of_neg (by simp)]
    refine (filter_eq_self.mpr fun c hc => ?_).symm
    rw [decide_eq_true_eq]
    exact fun h => (nodup_cons.mp hnd).1 (h ▸ mem_map_of_mem hc)
  · rw [eraseIdx_cons_succ, filter_cons_of_pos (by simpa using hb), ih (nodup_cons.mp hnd).2]

lemma findIdx?_eq_of_map {m : List α} (h : l.map key = m.map key) (k : κ) :
    l.findIdx? (fun b => key b = k) = m.findIdx? fun b => key b = k := by
  have hmap : ∀ l : List α, l.findIdx? (fun b => key b = k) =
      (l.map key).findIdx? fun j => j = k := by
    intro l
    rw [findIdx?_map]
    rfl
  rw [hmap, h, hmap]

end Place

end Merovingian
