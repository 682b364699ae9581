import Mathlib.Data.Set.Basic

/-!
# Writing entries over a finite map

`overlay m l` is the map `m` after the entries of `l` have been written to it in turn.  Nothing
is ever taken out, so entries are all that the result holds only if they cover the keys of `m`:
`overlay_graph_iff`.
-/

namespace Merovingian

open List Function

variable {κ ν : Type} [DecidableEq κ]

/-- The map after the entries are written to it in turn. -/
def overlay (m : κ → Option ν) (l : List (κ × ν)) : κ → Option ν :=
  l.foldl (fun m p => Function.update m p.1 (some p.2)) m

variable {m : κ → Option ν} {l : List (κ × ν)} {k : κ} {v : ν}

@[simp] lemma overlay_cons (p : κ × ν) :
    overlay m (p :: l) = overlay (Function.update m p.1 (some p.2)) l := rfl

lemma update_of_held (h : m k = some v) : Function.update m k (some v) = m := by
  rw [← h, update_eq_self]

/-- What is read is an entry, or was there before and has no entry of its key. -/
lemma mem_of_overlay (h : overlay m l k = some v) :
    (k, v) ∈ l ∨ m k = some v ∧ ∀ w, (k, w) ∉ l := by
  induction l generalizing m with
  | nil => exact .inr ⟨h, fun _ => not_mem_nil⟩
  | cons p l ih =>
    obtain ⟨k', v'⟩ := p
    rw [overlay_cons] at h
    rcases ih h with hmem | ⟨hheld, hnone⟩
    · exact .inl (mem_cons_of_mem _ hmem)
    · by_cases hk : k = k'
      · subst hk
        rw [update_self] at hheld
        cases hheld
        exact .inl mem_cons_self
      · rw [update_of_ne hk] at hheld
        refine .inr ⟨hheld, fun w hw => ?_⟩
        rcases mem_cons.mp hw with heq | hw
        · exact hk (Prod.mk.inj heq).1
        · exact hnone w hw

lemma exists_overlay (h : m k ≠ none ∨ ∃ w, (k, w) ∈ l) : ∃ v, overlay m l k = some v := by
  induction l generalizing m with
  | nil =>
    rcases h with h | ⟨w, hw⟩
    · exact Option.ne_none_iff_exists'.mp h
    · cases hw
  | cons p l ih =>
    obtain ⟨k', v'⟩ := p
    rw [overlay_cons]
    refine ih ?_
    by_cases hk : k = k'
    · subst hk
      exact .inl (by simp)
    · rw [update_of_ne hk]
      refine h.imp_right ?_
      rintro ⟨w, hw⟩
      rcases mem_cons.mp hw with heq | hw
      · exact absurd (Prod.mk.inj heq).1 hk
      · exact ⟨w, hw⟩

/-- Let some of the entries of `l` be written to `m`.  Then `l` is exactly what is read, if and
only if it gives each key one value, no other key was held before, and what was not written was
held already. -/
theorem overlay_graph_iff {w : List (κ × ν)} (hsub : ∀ p ∈ w, p ∈ l) :
    (∀ k v, overlay m w k = some v ↔ (k, v) ∈ l) ↔
      (∀ k v v', (k, v) ∈ l → (k, v') ∈ l → v = v') ∧ (∀ k, m k ≠ none → ∃ v, (k, v) ∈ l) ∧
        ∀ k v, (k, v) ∈ l → (k, v) ∈ w ∨ m k = some v := by
  constructor
  · intro h
    refine ⟨fun k v v' hv hv' => ?_, fun k hk => ?_, fun k v hmem => ?_⟩
    · exact Option.some.inj (((h k v).mpr hv).symm.trans ((h k v').mpr hv'))
    · obtain ⟨v, hv⟩ := exists_overlay (l := w) (.inl hk)
      exact ⟨v, (h k v).mp hv⟩
    · exact (mem_of_overlay ((h k v).mpr hmem)).imp_right And.left
  · rintro ⟨hone, hcovers, hwritten⟩ k v
    constructor
    · intro hread
      rcases mem_of_overlay hread with hmem | ⟨hheld, hnone⟩
      · exact hsub _ hmem
      · -- the entry of this key was not written, so it is what was held
        obtain ⟨v', hv'⟩ := hcovers k (by simp [hheld])
        rcases hwritten k v' hv' with hmem | hheld'
        · exact absurd hmem (hnone v')
        · rwa [Option.some.inj (hheld.symm.trans hheld')]
    · intro hmem
      have hkey : m k ≠ none ∨ ∃ v', (k, v') ∈ w := by
        rcases hwritten k v hmem with hw | hheld
        · exact .inr ⟨v, hw⟩
        · exact .inl (by simp [hheld])
      obtain ⟨v', hread⟩ := exists_overlay hkey
      rcases mem_of_overlay hread with hw | ⟨hheld, hnone⟩
      · rw [hread, hone k v' v (hsub _ hw) hmem]
      · rcases hwritten k v hmem with hw | hheld'
        · exact absurd hw (hnone v)
        · rw [hread, ← hheld, hheld']

end Merovingian
