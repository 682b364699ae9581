import Mathlib.Data.Finite.Prod

/-!
# Chains of successors

A partial function `next` sends an element to its successor, and a chain follows it from element
to element.  Giving an element a new successor keeps chains from running in circles exactly when
the element is not on the chain of that successor (`acyclic_update_iff`).  Over finitely many
elements a chain that does not run in a circle comes to an end (`Acyclic.exists_end`).
-/

namespace Merovingian

open Function Finset

variable {α : Type}

/-- `b` is on the chain that starts at `a`. -/
def Reaches (next : α → Option α) : α → α → Prop :=
  Relation.ReflTransGen fun a b => next a = some b

/-- `b` is on the chain that starts after `a`. -/
def Follows (next : α → Option α) : α → α → Prop :=
  Relation.TransGen fun a b => next a = some b

/-- No element comes after itself. -/
def Acyclic (next : α → Option α) : Prop := ∀ a, ¬ Follows next a a

variable {next : α → Option α} {a b c : α}

lemma acyclic_none : Acyclic (fun _ : α => none) := by
  intro a h
  obtain ⟨b, hab, -⟩ := Relation.TransGen.head'_iff.mp h
  exact Option.some_ne_none b hab.symm

/-- A chain stays inside a set that successors do not leave. -/
lemma Reaches.invariant {P : α → Prop} (h : Reaches next a b)
    (hstep : ∀ x y, P x → next x = some y → P y) (ha : P a) : P b := by
  induction h with
  | refl => exact ha
  | tail _ hxy ih => exact hstep _ _ ih hxy

section Update

variable [DecidableEq α]

/-- A chain to `a` does not depend on the successor of `a`. -/
lemma Reaches.update (h : Reaches next b a) (v : Option α) : Reaches (update next a v) b a := by
  induction h using Relation.ReflTransGen.head_induction_on with
  | refl => exact .refl
  | @head x y hxy _ ih =>
    by_cases hx : x = a
    · subst hx
      exact .refl
    · exact .head (by rwa [update_of_ne hx]) ih

/-- A chain through the new successor goes to `a` first and on from `b`. -/
lemma follows_update_cases {x y : α} (h : Follows (update next a (some b)) x y) :
    Follows next x y ∨ Reaches next x a ∧ Reaches next b y := by
  have hstep : ∀ {z y : α}, update next a (some b) z = some y →
      z = a ∧ y = b ∨ next z = some y := by
    intro z y hzy
    by_cases hz : z = a
    · subst hz
      rw [update_self] at hzy
      exact .inl ⟨rfl, (Option.some.inj hzy).symm⟩
    · rw [update_of_ne hz] at hzy
      exact .inr hzy
  induction h with
  | single hxy =>
    rcases hstep hxy with ⟨rfl, rfl⟩ | hold
    · exact .inr ⟨.refl, .refl⟩
    · exact .inl (.single hold)
  | tail _ hzy ih =>
    rcases hstep hzy with ⟨rfl, rfl⟩ | hold
    · rcases ih with hxa | ⟨hxa, -⟩
      · exact .inr ⟨hxa.to_reflTransGen, .refl⟩
      · exact .inr ⟨hxa, .refl⟩
    · rcases ih with hxz | ⟨hxa, hbz⟩
      · exact .inl (hxz.tail hold)
      · exact .inr ⟨hxa, hbz.tail hold⟩

/-- A new successor closes a circle exactly when the element is on the chain of it. -/
theorem acyclic_update_iff (h : Acyclic next) :
    Acyclic (update next a (some b)) ↔ ¬ Reaches next b a := by
  constructor
  · intro hnew hba
    exact hnew a (.head' (update_self ..) (hba.update _))
  · intro hba x hx
    rcases follows_update_cases hx with hold | ⟨hxa, hbx⟩
    · exact h x hold
    · exact hba (hbx.trans hxa)

lemma Acyclic.update_none (h : Acyclic next) (a : α) : Acyclic (update next a none) := by
  intro x hx
  refine h x (Relation.TransGen.mono (fun y z hyz => ?_) x x hx)
  by_cases hy : y = a
  · subst hy
    rw [update_self] at hyz
    exact absurd hyz.symm (Option.some_ne_none z)
  · rwa [update_of_ne hy] at hyz

end Update

/-- Among finitely many elements with a successor, every chain that does not run in a circle
ends. -/
theorem Acyclic.exists_end (h : Acyclic next) (hfinite : {x | next x ≠ none}.Finite) (a : α) :
    ∃ b, Reaches next a b ∧ next b = none := by
  classical
  -- the elements after `a` that have a successor become fewer along the chain
  induction hn : (hfinite.toFinset.filter fun x => Follows next a x).card using
    Nat.strong_induction_on generalizing a with
  | _ n ih =>
    cases hnext : next a with
    | none => exact ⟨a, .refl, hnext⟩
    | some b =>
      by_cases hb : next b = none
      · exact ⟨b, .single hnext, hb⟩
      · have hlt : (hfinite.toFinset.filter fun x => Follows next b x) ⊂
            hfinite.toFinset.filter fun x => Follows next a x := by
          refine Finset.ssubset_iff_subset_ne.mpr ⟨fun x hx => ?_, fun heq => ?_⟩
          · obtain ⟨hxs, hbx⟩ := Finset.mem_filter.mp hx
            exact mem_filter.mpr ⟨hxs, .head hnext hbx⟩
          · have hmem : b ∈ hfinite.toFinset.filter fun x => Follows next a x :=
              mem_filter.mpr ⟨hfinite.mem_toFinset.mpr hb, .single hnext⟩
            rw [← heq] at hmem
            exact h b (mem_filter.mp hmem).2
        obtain ⟨c, hbc, hend⟩ := ih _ (hn ▸ card_lt_card hlt) b rfl
        exact ⟨c, .head hnext hbc, hend⟩

end Merovingian
