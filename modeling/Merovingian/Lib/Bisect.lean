import Mathlib.Data.List.TakeWhile
import Mathlib.Tactic.Common

/-!
# Binary search

The loop of `std::lower_bound` and `std::upper_bound`: a range is halved until nothing of it is
left.  On a list in which the elements that pass the test come before those that do not, the
search ends where the test first fails (`bisect_eq`), so that what is found, inserted or erased at
that place is what a scan would find, insert or erase.
-/

namespace Merovingian

open List

variable {α : Type} (test : α → Bool)

/-- The loop over the `count` elements from position `first`. -/
def bisectFrom (l : List α) : (fuel first count : ℕ) → ℕ
  | 0, first, _ => first
  | fuel + 1, first, count =>
    if count = 0 then first
    else
      let step := count / 2
      if (l[first + step]?).any test then bisectFrom l fuel (first + step + 1) (count - (step + 1))
      else bisectFrom l fuel first step

/-- The place where the test first fails, searched for by halving. -/
def bisect (l : List α) : ℕ := bisectFrom test l l.length 0 l.length

variable {test} {l : List α}

/-- The elements that pass the test come first. -/
def Partitioned (test : α → Bool) (l : List α) : Prop :=
  l.Pairwise fun a b => test b = true → test a = true

section

variable (h : Partitioned test l)

include h

lemma Partitioned.any_getElem? (i : ℕ) :
    (l[i]?).any test = true ↔ i < (l.takeWhile test).length := by
  induction l generalizing i with
  | nil => simp
  | cons a l ih =>
    obtain ⟨ha, hl⟩ := pairwise_cons.mp h
    by_cases hpass : test a = true
    · rw [takeWhile_cons_of_pos hpass]
      cases i with
      | zero => simp [hpass]
      | succ i => simpa using ih hl i
    · rw [takeWhile_cons_of_neg hpass]
      have hfail : ∀ b ∈ a :: l, ¬ test b = true :=
        forall_mem_cons.mpr ⟨hpass, fun b hb hcon => hpass (ha b hb hcon)⟩
      simp only [length_nil, Nat.not_lt_zero, iff_false, Option.any_eq_true, not_exists, not_and]
      exact fun b hb => hfail b (mem_of_getElem? hb)

/-- The invariant of the loop: the border is in the range that is left. -/
lemma Partitioned.bisectFrom_eq {fuel first count : ℕ} (hfuel : count ≤ fuel)
    (hfirst : first ≤ (l.takeWhile test).length) (hlast : (l.takeWhile test).length ≤ first + count) :
    bisectFrom test l fuel first count = (l.takeWhile test).length := by
  induction fuel generalizing first count with
  | zero =>
    obtain rfl := Nat.le_zero.mp hfuel
    exact le_antisymm hfirst hlast
  | succ fuel ih =>
    unfold bisectFrom
    by_cases hcount : count = 0
    · subst hcount
      exact le_antisymm hfirst hlast
    rw [if_neg hcount]
    by_cases hpass : (l[first + count / 2]?).any test = true
    · rw [if_pos hpass]
      have hside := (h.any_getElem? _).mp hpass
      exact ih (by omega) hside (by omega)
    · rw [if_neg hpass]
      have hside := mt (h.any_getElem? _).mpr hpass
      exact ih (by omega) hfirst (not_lt.mp hside)

theorem bisect_eq : bisect test l = (l.takeWhile test).length :=
  h.bisectFrom_eq le_rfl (Nat.zero_le _)
    (by simpa using ( takeWhile_prefix test).length_le)

lemma getElem?_bisect : l[bisect test l]? = l.find? fun a => !test a := by
  rw [bisect_eq h]
  clear h
  induction l with
  | nil => rfl
  | cons a l ih =>
    by_cases hpass : test a = true
    · simpa [hpass] using ih
    · simp [hpass]

lemma drop_bisect : l.drop (bisect test l) = l.dropWhile test := by
  rw [bisect_eq h]
  clear h
  induction l with
  | nil => rfl
  | cons a l ih =>
    by_cases hpass : test a = true
    · simpa [hpass] using ih
    · simp [hpass]

lemma insertIdx_bisect (a : α) :
    l.insertIdx (bisect test l) a = l.takeWhile test ++ a :: l.dropWhile test := by
  rw [bisect_eq h]
  clear h
  induction l with
  | nil => rfl
  | cons b l ih =>
    by_cases hpass : test b = true
    · simpa [hpass] using ih
    · simp [hpass]

lemma insertIdx_bisect_perm (a : α) : (l.insertIdx (bisect test l) a).Perm (a :: l) := by
  rw [insertIdx_bisect h]
  refine perm_middle.trans ?_
  rw [takeWhile_append_dropWhile]

lemma Partitioned.not_of_mem_dropWhile {b : α} (hb : b ∈ l.dropWhile test) : ¬ test b = true := by
  induction l with
  | nil => cases hb
  | cons a l ih =>
    obtain ⟨ha, hl⟩ := pairwise_cons.mp h
    by_cases hpass : test a = true
    · rw [dropWhile_cons_of_pos hpass] at hb
      exact ih hl hb
    · rw [dropWhile_cons_of_neg hpass] at hb
      rcases mem_cons.mp hb with rfl | hb
      · exact hpass
      · exact fun hcon => hpass (ha b hb hcon)

end

lemma pairwise_insertIdx_bisect {R : α → α → Prop} (hl : l.Pairwise R) (h : Partitioned test l)
    {a : α} (hbefore : ∀ b ∈ l, test b = true → R b a) (hafter : ∀ b ∈ l, ¬ test b = true → R a b) :
    (l.insertIdx (bisect test l) a).Pairwise R := by
  rw [insertIdx_bisect h]
  have hsplit := hl
  rw [← takeWhile_append_dropWhile (p := test) (l := l)] at hsplit
  obtain ⟨hleft, hright, hcross⟩ := pairwise_append.mp hsplit
  have hmem : ∀ {b}, b ∈ l.takeWhile test → b ∈ l := fun hb => (takeWhile_sublist test).mem hb
  refine pairwise_append.mpr ⟨hleft, pairwise_cons.mpr ⟨fun b hb => ?_, hright⟩, ?_⟩
  · exact hafter b ((dropWhile_sublist test).mem hb) (h.not_of_mem_dropWhile hb)
  · intro b hb c hc
    rcases mem_cons.mp hc with rfl | hc
    · exact hbefore b (hmem hb) (mem_takeWhile_imp hb)
    · exact hcross b hb c hc

end Merovingian
