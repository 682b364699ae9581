import Mathlib.Data.Finmap
import Mathlib.Data.List.Sort

/-!
# Unordered containers

A hash set is a `Finset` and a hash map a `Finmap`: two of them are equal when they hold the
same.  A program that iterates over one sees its elements in some order, which a `Listing`
provides.  What such a loop computes is compared for two listings: `perm_order` and
`perm_items` say that they visit the same things, `emplaceAll_congr` and `assignAll_items`
that the maps built on the way are the same.
-/

namespace Merovingian

open List Option Finmap

/-- A hash map. -/
abbrev Map (κ ν : Type) := Finmap fun _ : κ => ν

/-- The order in which the elements of a finite set are visited, on each of many occasions. -/
structure Listing (ι κ : Type) where
  order : ι → Finset κ → List κ
  nodup : ∀ i s, (order i s).Nodup
  mem : ∀ i s k, k ∈ order i s ↔ k ∈ s

variable {ι κ ν α : Type} {m : Map κ ν}

namespace Listing

lemma perm_order (ω ω' : Listing ι κ) (i i' : ι) (s : Finset κ) :
    (ω.order i s).Perm (ω'.order i' s) := by
  refine (perm_ext_iff_of_nodup (ω.nodup i s) (ω'.nodup i' s)).mpr fun k => ?_
  rw [ω.mem, ω'.mem]

/-- The listing in increasing order. -/
def sorted [LinearOrder κ] : Listing ι κ where
  order _ s := Quot.liftOn s.val (fun l => l.insertionSort (· ≤ ·)) fun l m h =>
    ((perm_insertionSort _ l).trans (h.trans (perm_insertionSort _ m).symm)).eq_of_pairwise
      (fun _ _ _ _ => le_antisymm) (pairwise_insertionSort _ l)
      (pairwise_insertionSort _ m)
  nodup _ s := by
    obtain ⟨s, hs⟩ := s
    induction s using Quot.inductionOn with
    | h l => exact (perm_insertionSort (· ≤ ·) l).nodup_iff.mpr hs
  mem _ s k := by
    obtain ⟨s, hs⟩ := s
    induction s using Quot.inductionOn with
    | h l => exact (perm_insertionSort (· ≤ ·) l).mem_iff

section Maps

variable [DecidableEq κ] (ω ω' : Listing ι κ)

/-- The entries of a map, in the order in which they are visited. -/
def items (i : ι) (m : Map κ ν) : List (κ × ν) :=
  (ω.order i m.keys).filterMap fun k => (m.lookup k).map fun v => (k, v)

lemma mem_items {i : ι} {p : κ × ν} : p ∈ ω.items i m ↔ m.lookup p.1 = some p.2 := by
  obtain ⟨k, v⟩ := p
  simp only [items, mem_filterMap, map_eq_some_iff, Prod.mk.injEq]
  constructor
  · rintro ⟨j, -, w, hj, rfl, rfl⟩
    exact hj
  · intro h
    refine ⟨k, (ω.mem _ _ _).mpr ?_, v, h, rfl, rfl⟩
    exact mem_keys.mpr (mem_of_lookup_eq_some h)

lemma map_fst_items (i : ι) (m : Map κ ν) : (ω.items i m).map Prod.fst = ω.order i m.keys := by
  rw [items, map_filterMap]
  refine (filterMap_congr fun k hk => ?_).trans (filterMap_some)
  obtain ⟨v, hv⟩ := mem_iff.mp (mem_keys.mp ((ω.mem _ _ _).mp hk))
  rw [hv]
  rfl

lemma nodup_map_fst_items (i : ι) (m : Map κ ν) : ((ω.items i m).map Prod.fst).Nodup := by
  rw [map_fst_items]
  exact ω.nodup i _

lemma perm_items (i i' : ι) (m : Map κ ν) : (ω.items i m).Perm (ω'.items i' m) :=
  (ω.perm_order ω' i i' m.keys).filterMap _

end Maps

end Listing

section Emplace

variable [DecidableEq κ] {l : List (κ × ν)} {k : κ} {v : ν} (m : Map κ ν)

/-- Adds an entry unless the key is there already. -/
def emplace (m : Map κ ν) (k : κ) (v : ν) : Map κ ν := if k ∈ m then m else m.insert k v

/-- Adds the entries in turn, so that the first one of each key stays. -/
def emplaceAll (m : Map κ ν) (l : List (κ × ν)) : Map κ ν :=
  l.foldl (fun m p => emplace m p.1 p.2) m

lemma lookup_emplace (k : κ) (v : ν) (j : κ) :
    (emplace m k v).lookup j = (m.lookup j).or (if j = k then some v else none) := by
  rw [emplace]
  by_cases hj : j = k
  · subst hj
    by_cases hmem : j ∈ m
    · obtain ⟨w, hw⟩ := mem_iff.mp hmem
      rw [if_pos hmem, hw, some_or]
    · rw [if_neg hmem, lookup_insert, lookup_eq_none.mpr hmem, if_pos rfl, none_or]
  · rw [if_neg hj, or_none]
    split
    · rfl
    · rw [lookup_insert_of_ne _ hj]

lemma mem_emplace {m : Map κ ν} {j : κ} : j ∈ emplace m k v ↔ j ∈ m ∨ j = k := by
  rw [emplace]
  split
  · rename_i hk
    constructor
    · exact .inl
    · rintro (hj | rfl)
      · exact hj
      · exact hk
  · rw [mem_insert]
    tauto

lemma emplace_comm {j : κ} (v w : ν) (h : j ≠ k) :
    emplace (emplace m j v) k w = emplace (emplace m k w) j v := by
  refine ext_lookup fun i => ?_
  simp only [lookup_emplace, Option.or_assoc]
  by_cases hj : i = j
  · rw [if_pos hj, if_neg (hj ▸ h)]
    rfl
  · rw [if_neg hj, Option.none_or, Option.or_none]

lemma lookup_emplaceAll (l : List (κ × ν)) (k : κ) : (emplaceAll m l).lookup k =
    (m.lookup k).or ((l.find? fun p => p.1 = k).map Prod.snd) := by
  induction l generalizing m with
  | nil => simp [emplaceAll]
  | cons p l ih =>
    show (emplaceAll (emplace m p.1 p.2) l).lookup k = _
    rw [ih, lookup_emplace]
    by_cases h : p.1 = k
    · simp [h]
    · simp [h, Ne.symm h]

omit [DecidableEq κ] in
lemma snd_eq_of_nodup (hnodup : (l.map Prod.fst).Nodup) :
    ∀ p ∈ l, ∀ q ∈ l, p.1 = q.1 → p.2 = q.2 := fun _ hp _ hq hk =>
  congrArg Prod.snd (inj_on_of_nodup_map hnodup hp hq hk)

section

variable (hfun : ∀ p ∈ l, ∀ q ∈ l, p.1 = q.1 → p.2 = q.2)

include hfun

lemma map_find?_eq_some : (l.find? fun p => p.1 = k).map Prod.snd = some v ↔ (k, v) ∈ l := by
  rw [map_eq_some_iff]
  constructor
  · rintro ⟨p, hp, rfl⟩
    have hk : p.1 = k := by simpa using find?_some hp
    exact hk ▸ mem_of_find?_eq_some hp
  · intro h
    cases hfind : l.find? fun p => p.1 = k with
    | none => exact absurd (decide_eq_true rfl) (find?_eq_none.mp hfind (k, v) h)
    | some p =>
      have hk : p.1 = k := by simpa using find?_some hfind
      exact ⟨p, rfl, hfun p (mem_of_find?_eq_some hfind) (k, v) h hk⟩

/-- Entries that agree wherever they have a key in common may be added in any order. -/
theorem emplaceAll_congr {l' : List (κ × ν)} (hmem : ∀ p, p ∈ l ↔ p ∈ l') :
    emplaceAll m l = emplaceAll m l' := by
  have hfun' : ∀ p ∈ l', ∀ q ∈ l', p.1 = q.1 → p.2 = q.2 := fun p hp q hq =>
    hfun p ((hmem p).mpr hp) q ((hmem q).mpr hq)
  refine ext_lookup fun k => ?_
  rw [lookup_emplaceAll, lookup_emplaceAll]
  congr 1
  refine Option.ext fun v => ?_
  rw [map_find?_eq_some hfun, map_find?_eq_some hfun', hmem]

end

lemma lookup_emplaceAll_eq_some {m : Map κ ν}
    (h : (emplaceAll m l).lookup k = some v) : m.lookup k = some v ∨ (k, v) ∈ l := by
  rw [lookup_emplaceAll] at h
  rcases or_eq_some_iff.mp h with h | ⟨-, h⟩
  · exact .inl h
  · obtain ⟨p, hp, rfl⟩ := map_eq_some_iff.mp h
    have hk : p.1 = k := by simpa using find?_some hp
    exact .inr (hk ▸ mem_of_find?_eq_some hp)

lemma lookup_emplaceAll_empty (hnodup : (l.map Prod.fst).Nodup) :
    (emplaceAll (∅ : Map κ ν) l).lookup k = some v ↔ (k, v) ∈ l := by
  rw [lookup_emplaceAll, lookup_empty, none_or, map_find?_eq_some (snd_eq_of_nodup hnodup)]

lemma foldl_emplace_split (p : α → Bool) (entry : α → κ × ν) (l : List α) (maps : Map κ ν × Map κ ν) :
    l.foldl (fun maps a => if p a then (emplace maps.1 (entry a).1 (entry a).2, maps.2)
      else (maps.1, emplace maps.2 (entry a).1 (entry a).2)) maps =
    (emplaceAll maps.1 ((l.filter p).map entry), emplaceAll maps.2 ((l.filter (!p ·)).map entry)) := by
  induction l generalizing maps with
  | nil => rfl
  | cons a l ih =>
    rw [foldl_cons, ih]
    by_cases h : p a
    · rw [if_pos h, filter_cons_of_pos h, filter_cons_of_neg (by simp [h])]
      rfl
    · rw [if_neg h, filter_cons_of_neg h, filter_cons_of_pos (by simp [h])]
      rfl

/-- Writes the entries over a map in turn. -/
def assignAll (m : Map κ ν) (l : List (κ × ν)) : Map κ ν :=
  l.foldl (fun m p => m.insert p.1 p.2) m

lemma lookup_assignAll (hnodup : (l.map Prod.fst).Nodup) (k : κ) :
    (assignAll m l).lookup k = ((l.find? fun p => p.1 = k).map Prod.snd).or (m.lookup k) := by
  induction l generalizing m with
  | nil => rfl
  | cons p l ih =>
    rw [map_cons, nodup_cons] at hnodup
    show (assignAll (m.insert p.1 p.2) l).lookup k = _
    rw [ih _ hnodup.2]
    by_cases h : p.1 = k
    · -- no later entry has this key
      have hnone : l.find? (fun p => p.1 = k) = none := by
        refine find?_eq_none.mpr fun q hq hk => hnodup.1 ?_
        rw [h, ← of_decide_eq_true hk]
        exact mem_map_of_mem hq
      subst h
      rw [hnone]
      simp
    · simp [h, lookup_insert_of_ne _ (Ne.symm h)]

/-- Writing one map over another leaves their union, whatever the order. -/
theorem assignAll_items (ω : Listing ι κ) (i : ι) (m n : Map κ ν) :
    assignAll m (ω.items i n) = n ∪ m := by
  refine ext_lookup fun k => ?_
  have hread : ((ω.items i n).find? fun p => p.1 = k).map Prod.snd = n.lookup k := by
    refine Option.ext fun v => ?_
    rw [map_find?_eq_some (snd_eq_of_nodup (ω.nodup_map_fst_items i n)), ω.mem_items]
  rw [lookup_assignAll m (ω.nodup_map_fst_items i n), hread]
  by_cases hk : k ∈ n
  · obtain ⟨v, hv⟩ := mem_iff.mp hk
    rw [lookup_union_left hk, hv, some_or]
  · rw [lookup_union_right hk, lookup_eq_none.mpr hk, none_or]

end Emplace

end Merovingian
