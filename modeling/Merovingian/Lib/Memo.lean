import Mathlib.Logic.Function.Basic

/-!
# Memo tables

An object that keeps what it has computed in tables could answer depending on what was asked
before.  `Yields I m a` says that it does not: from every state that satisfies `I`, the computation
`m` returns `a`, and it ends in such a state.  The rules follow the shape of a program, and
`Yields.memo` is the one for a table.
-/

namespace Merovingian

variable {σ α β ε κ ν : Type}

/-- From every state of `I` the computation returns `a`, and it stays in `I`. -/
def Yields (I : σ → Prop) (m : StateM σ α) (a : α) : Prop :=
  ∀ s, I s → (m.run s).1 = a ∧ I (m.run s).2

namespace Yields

variable {I : σ → Prop} {m m' : StateM σ α} {f : α → StateM σ β} {a a' : α} {b : β}

lemma pure (a : α) : Yields I (Pure.pure a) a := fun _ hs => ⟨rfl, hs⟩

lemma bind (hm : Yields I m a) (hf : Yields I (f a) b) : Yields I (m >>= f) b := by
  intro s hs
  obtain ⟨hvalue, hstate⟩ := hm s hs
  have hrun : (m >>= f).run s = (f (m.run s).1).run (m.run s).2 := rfl
  rw [hrun, hvalue]
  exact hf _ hstate

lemma ite {c : Prop} [Decidable c] (hm : c → Yields I m a) (hm' : ¬ c → Yields I m' a') :
    Yields I (if c then m else m') (if c then a else a') := by
  by_cases hc : c
  · rw [if_pos hc, if_pos hc]
    exact hm hc
  · rw [if_neg hc, if_neg hc]
    exact hm' hc

lemma foldlM {body : α → ε → StateM σ α} {step : α → ε → α}
    (hbody : ∀ a x, Yields I (body a x) (step a x)) (l : List ε) (a : α) :
    Yields I (l.foldlM body a) (l.foldl step a) := by
  induction l generalizing a with
  | nil => exact .pure a
  | cons x l ih =>
    exact (hbody a x).bind (ih _)

end Yields

/-! ### Tables -/

/-- Where a state keeps a table. -/
structure TableIn (σ κ ν : Type) where
  get : σ → κ → Option ν
  set : σ → (κ → Option ν) → σ

variable [DecidableEq κ] {entries : κ → Option ν} {key : κ}

/-- The table with a value filed under a key, unless there is one. -/
def emplaceIn (entries : κ → Option ν) (key : κ) (value : ν) : κ → Option ν :=
  Function.update entries key ((entries key).or (some value))

lemma emplaceIn_eq_some {key' : κ} {value v : ν} (h : emplaceIn entries key value key' = some v) :
    entries key' = some v ∨ key' = key ∧ v = value := by
  by_cases hkey : key' = key
  · subst hkey
    rw [emplaceIn, Function.update_self] at h
    cases hentry : entries key' with
    | some w =>
      rw [hentry] at h
      exact .inl h
    | none =>
      rw [hentry] at h
      exact .inr ⟨rfl, (Option.some.inj h).symm⟩
  · rw [emplaceIn, Function.update_of_ne hkey] at h
    exact .inl h

lemma forall_emplaceIn {rule : κ → ν} (h : ∀ k v, entries k = some v → v = rule k) :
    ∀ k v, emplaceIn entries key (rule key) k = some v → v = rule k := by
  intro k v hheld
  rcases emplaceIn_eq_some hheld with hheld | ⟨rfl, rfl⟩
  · exact h k v hheld
  · rfl

/-- The value that a table holds under a key, or else the one that is computed, which is filed. -/
def memo (table : TableIn σ κ ν) (key : κ) (compute : StateM σ ν) : StateM σ ν := do
  match table.get (← get) key with
  | some value => pure value
  | none =>
    let value ← compute
    modify fun s => table.set s (emplaceIn (table.get s) key value)
    pure value

/-- The rule for a table. -/
theorem Yields.memo {I : σ → Prop} {table : TableIn σ κ ν} {compute : StateM σ ν}
    {value : ν} (hcompute : Yields I compute value)
    (hheld : ∀ s v, I s → table.get s key = some v → v = value)
    (hfile : ∀ s, I s → I (table.set s (emplaceIn (table.get s) key value))) :
    Yields I (memo table key compute) value := by
  intro s hs
  cases hget : table.get s key with
  | some v =>
    have hrun : (Merovingian.memo table key compute).run s = (v, s) := by
      show (match table.get s key with
        | some v => (Pure.pure v : StateM σ ν)
        | none => _).run s = _
      rw [hget]
      rfl
    rw [hrun]
    exact ⟨hheld s v hs hget, hs⟩
  | none =>
    obtain ⟨hvalue, hstate⟩ := hcompute s hs
    have hrun : (Merovingian.memo table key compute).run s = ((compute.run s).1,
        table.set (compute.run s).2
          (emplaceIn (table.get (compute.run s).2) key (compute.run s).1)) := by
      show (match table.get s key with
        | some v => (Pure.pure v : StateM σ ν)
        | none => _).run s = _
      rw [hget]
      rfl
    rw [hrun, hvalue]
    exact ⟨rfl, hfile _ hstate⟩

end Merovingian
