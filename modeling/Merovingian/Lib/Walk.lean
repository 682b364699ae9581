import Mathlib.Data.Finset.Card

/-!
# Walks over a store

A walk is a program that asks a store for values by key and gives up when a value is missing.  It
can be run against a source with a cache and a budget of lookups, where what is found depends on
what was asked before, and it can be evaluated against a plain function.

`Walk.run_eq` connects the two: the run succeeds exactly when the evaluation does and the budget
covers the keys it asks for the first time, and the cache it leaves depends on the *set* of keys
asked for alone.  So walks that evaluate alike run alike (`Walk.run_congr`, `Walk.Related.run`).
Evaluation is commutative: two walks with nothing between them may change places
(`Walk.eval_swap`), and so may the steps of a loop (`Walk.eval_fold_perm`).
-/

namespace Merovingian

open Finset

variable {κ ν α β γ δ σ ε : Type}

/-- A program that asks for values and gives up when one is missing. -/
inductive Walk (κ ν : Type) (α : Type) : Type
  | protected pure (a : α) : Walk κ ν α
  | fail : Walk κ ν α
  | ask (k : κ) (next : ν → Walk κ ν α) : Walk κ ν α

namespace Walk

/-- One walk after another. -/
protected def bind : Walk κ ν α → (α → Walk κ ν β) → Walk κ ν β
  | .pure a, f => f a
  | .fail, _ => .fail
  | .ask k next, f => .ask k fun v => (next v).bind f

instance : Monad (Walk κ ν) where
  pure := .pure
  bind := .bind

instance : LawfulMonad (Walk κ ν) := by
  refine LawfulMonad.mk' (Walk κ ν) (fun w => ?_) (fun a f => rfl) fun w f g => ?_
  · show w.bind (fun a => .pure a) = w
    induction w with
    | pure a => rfl
    | fail => rfl
    | ask k next ih => exact congrArg (Walk.ask k) (funext ih)
  · show (w.bind f).bind g = w.bind fun a => (f a).bind g
    induction w with
    | pure a => rfl
    | fail => rfl
    | ask k next ih => exact congrArg (Walk.ask k) (funext ih)

/-- Asks for one value. -/
def find (k : κ) : Walk κ ν ν := .ask k .pure

/-- Gives up unless there is a result. -/
def ofOption : Option α → Walk κ ν α
  | some a => .pure a
  | none => .fail

/-- Gives up unless a condition holds. -/
def require (p : Prop) [Decidable p] : Walk κ ν Unit := if p then .pure () else .fail

/-- A loop over a list that keeps a state. -/
def fold (step : σ → ε → Walk κ ν σ) : σ → List ε → Walk κ ν σ
  | s, [] => pure s
  | s, e :: l => step s e >>= fun s => fold step s l

/-- The results of a walk for each element of a list. -/
def traverse (f : α → Walk κ ν β) : List α → Walk κ ν (List β)
  | [] => pure []
  | a :: l => f a >>= fun b => traverse f l >>= fun bs => pure (b :: bs)

variable [DecidableEq κ]

/-! ### Evaluation against a function -/

/-- The result of a walk over a function, and the keys it asked for. -/
def eval (V : κ → Option ν) : Walk κ ν α → Option (α × Finset κ)
  | .pure a => some (a, ∅)
  | .fail => none
  | .ask k next =>
    match V k with
    | none => none
    | some v => (eval V (next v)).map fun r => (r.1, insert k r.2)

variable {V : κ → Option ν} {f : α → Walk κ ν β} {w : Walk κ ν α} {step : σ → ε → Walk κ ν σ}
  {r : α → β → Prop}

@[simp] lemma eval_pure (a : α) : eval V (pure a : Walk κ ν α) = some (a, ∅) := rfl

@[simp] lemma eval_fail : eval V (.fail : Walk κ ν α) = none := rfl

lemma eval_require (p : Prop) [Decidable p] : eval V (require p : Walk κ ν Unit) =
    if p then some ((), ∅) else none := by
  rw [require]
  split <;> rfl

lemma eval_bind (w : Walk κ ν α) (f : α → Walk κ ν β) : eval V (w >>= f) =
    (eval V w).bind fun r => (eval V (f r.1)).map fun t => (t.1, r.2 ∪ t.2) := by
  show eval V (w.bind f) = _
  induction w with
  | pure a => simp [Walk.bind, eval]
  | fail => rfl
  | ask k next ih =>
    simp only [Walk.bind, eval]
    cases V k with
    | none => rfl
    | some v =>
      simp only [ih v]
      cases eval V (next v) with
      | none => rfl
      | some r => simp [Function.comp_def]

lemma eval_bind_eq_some {b : β} {asked : Finset κ} :
    eval V (w >>= f) = some (b, asked) ↔ ∃ a first rest, eval V w = some (a, first) ∧
      eval V (f a) = some (b, rest) ∧ asked = first ∪ rest := by
  rw [eval_bind]
  constructor
  · intro h
    obtain ⟨⟨a, first⟩, hw, h⟩ := Option.bind_eq_some_iff.mp h
    obtain ⟨⟨b', rest⟩, hf, h⟩ := Option.map_eq_some_iff.mp h
    cases h
    exact ⟨a, first, rest, hw, hf, rfl⟩
  · rintro ⟨a, first, rest, hw, hf, rfl⟩
    rw [hw, Option.bind_some, hf, Option.map_some]

lemma eval_bind_congr {w' : Walk κ ν α} {f' : α → Walk κ ν β} (hw : eval V w = eval V w')
    (hf : ∀ a, eval V (f a) = eval V (f' a)) : eval V (w >>= f) = eval V (w' >>= f') := by
  simp [eval_bind, hw, hf]

lemma eval_require_congr {p q : Prop} [Decidable p] [Decidable q] {f f' : Unit → Walk κ ν β}
    (hpq : p ↔ q) (hf : p → eval V (f ()) = eval V (f' ())) :
    eval V (require p >>= f) = eval V (require q >>= f') := by
  rw [eval_bind, eval_bind, eval_require, eval_require]
  by_cases hp : p
  · rw [if_pos hp, if_pos (hpq.mp hp), Option.bind_some, Option.bind_some, hf hp]
  · rw [if_neg hp, if_neg fun hq => hp (hpq.mpr hq), Option.bind_none, Option.bind_none]

lemma eval_swap (w : Walk κ ν α) (w' : Walk κ ν β) (f : α → β → Walk κ ν γ) :
    eval V (w >>= fun a => w' >>= fun b => f a b) =
      eval V (w' >>= fun b => w >>= fun a => f a b) := by
  simp only [eval_bind]
  cases eval V w with
  | none => cases eval V w' <;> rfl
  | some x =>
    cases eval V w' with
    | none => rfl
    | some y =>
      simp only [Option.bind_some, Option.map_map]
      congr 1
      funext t
      simp [union_left_comm]

lemma optionRel_iff {x : Option α} {y : Option β} :
    Option.Rel r x y ↔ x = none ∧ y = none ∨ ∃ a b, x = some a ∧ y = some b ∧ r a b := by
  constructor
  · rintro (h | -)
    · exact .inr ⟨_, _, rfl, rfl, h⟩
    · exact .inl ⟨rfl, rfl⟩
  · rintro (⟨rfl, rfl⟩ | ⟨a, b, rfl, rfl, h⟩)
    · exact .none
    · exact .some h

/-- Two walks that give related results and ask for the same keys, or both fail. -/
def Related (V : κ → Option ν) (r : α → β → Prop) (w : Walk κ ν α) (w' : Walk κ ν β) : Prop :=
  Option.Rel (fun x y => r x.1 y.1 ∧ x.2 = y.2) (eval V w) (eval V w')

namespace Related

variable {r : α → β → Prop} {w : Walk κ ν α} {w' : Walk κ ν β} {f : α → Walk κ ν γ}

protected lemma pure {a : α} {b : β} (h : r a b) :
    Related V r (pure a : Walk κ ν α) (pure b : Walk κ ν β) :=
  .some ⟨h, rfl⟩

lemma of_eq {r : α → α → Prop} {w' : Walk κ ν α} (hr : ∀ a, r a a)
    (h : eval V w = eval V w') : Related V r w w' := by
  rw [Related, h]
  cases eval V w' with
  | none => exact .none
  | some x => exact .some ⟨hr _, rfl⟩

lemma trans {r' : β → γ → Prop} {r'' : α → γ → Prop} {w'' : Walk κ ν γ} (h : Related V r w w')
    (h' : Related V r' w' w'') (hr : ∀ a b c, r a b → r' b c → r'' a c) : Related V r'' w w'' := by
  refine optionRel_iff.mpr ?_
  rcases optionRel_iff.mp h with ⟨hw, hw'⟩ | ⟨x, y, hw, hw', hxy, hasked⟩
  · rcases optionRel_iff.mp h' with ⟨-, hw''⟩ | ⟨y, z, hy, -⟩
    · exact .inl ⟨hw, hw''⟩
    · exact absurd (hw'.symm.trans hy) (by simp)
  · rcases optionRel_iff.mp h' with ⟨hnone, -⟩ | ⟨y', z, hy, hw'', hyz, hasked'⟩
    · exact absurd (hw'.symm.trans hnone) (by simp)
    · obtain rfl : y = y' := Option.some.inj (hw'.symm.trans hy)
      exact .inr ⟨x, z, hw, hw'', hr _ _ _ hxy hyz, hasked.trans hasked'⟩

protected lemma bind {s : γ → δ → Prop} {f' : β → Walk κ ν δ} (h : Related V r w w')
    (hf : ∀ a b, r a b → Related V s (f a) (f' b)) : Related V s (w >>= f) (w' >>= f') := by
  rw [Related, eval_bind, eval_bind]
  rcases optionRel_iff.mp h with ⟨hw, hw'⟩ | ⟨x, y, hw, hw', hxy, hasked⟩
  · rw [hw, hw']
    exact .none
  · rw [hw, hw', Option.bind_some, Option.bind_some, hasked]
    rcases optionRel_iff.mp (hf x.1 y.1 hxy) with ⟨hf, hf'⟩ | ⟨t, u, hf, hf', htu, hasked'⟩
    · rw [hf, hf']
      exact .none
    · rw [hf, hf', Option.map_some, hasked']
      exact .some ⟨htu, rfl⟩

lemma bind_eq {f' : β → Walk κ ν γ} (h : Related V r w w')
    (hf : ∀ a b, r a b → eval V (f a) = eval V (f' b)) : eval V (w >>= f) = eval V (w' >>= f') := by
  rw [eval_bind, eval_bind]
  rcases optionRel_iff.mp h with ⟨hw, hw'⟩ | ⟨x, y, hw, hw', hxy, hasked⟩
  · rw [hw, hw']
    rfl
  · rw [hw, hw', Option.bind_some, Option.bind_some, hf x.1 y.1 hxy, hasked]

end Related

/-! ### Loops -/

/-- A loop whose steps may change places may take its list in any order. -/
theorem eval_fold_perm {l l' : List ε} (hperm : l.Perm l')
    (hswap : ∀ s, ∀ e ∈ l, ∀ e' ∈ l, eval V (step s e >>= fun s => step s e') =
      eval V (step s e' >>= fun s => step s e)) (s : σ) :
    eval V (fold step s l) = eval V (fold step s l') := by
  induction hperm generalizing s with
  | nil => rfl
  | cons e _ ih =>
    refine eval_bind_congr rfl fun t => ih (fun s e he e' he' => ?_) t
    exact hswap s e (List.mem_cons_of_mem _ he) e' (List.mem_cons_of_mem _ he')
  | swap e e' l =>
    simp only [fold, ← bind_assoc]
    exact eval_bind_congr (hswap s e' (by simp) e (by simp)) fun t => rfl
  | trans h _ ih ih' =>
    refine (ih hswap s).trans (ih' (fun s e he e' he' => ?_) s)
    exact hswap s e (h.mem_iff.mpr he) e' (h.mem_iff.mpr he')

lemma eval_fold_invariant {P : σ → Prop}
    (hstep : ∀ s e t keys, P s → eval V (step s e) = some (t, keys) → P t) {l : List ε} {s t : σ}
    {keys : Finset κ} (hs : P s) (h : eval V (fold step s l) = some (t, keys)) : P t := by
  induction l generalizing s keys with
  | nil =>
    cases h
    exact hs
  | cons e l ih =>
    obtain ⟨s', first, rest, hfirst, hrest, -⟩ := eval_bind_eq_some.mp h
    exact ih (hstep s e s' first hs hfirst) hrest

lemma eval_traverse_congr {l l' : List α}
    (h : List.Forall₂ (fun a a' => eval V (f a) = eval V (f a')) l l') :
    eval V (traverse f l) = eval V (traverse f l') := by
  induction h with
  | nil => rfl
  | cons ha _ ih => exact eval_bind_congr ha fun b => eval_bind_congr ih fun bs => rfl

lemma traverse_perm {l l' : List α} (h : l.Perm l') :
    Related V List.Perm (traverse f l) (traverse f l') := by
  induction h with
  | nil => exact .pure List.Perm.nil
  | cons a _ ih =>
    refine (Related.of_eq (fun b => rfl) rfl).bind fun b b' (hb : b = b') => ?_
    exact ih.bind fun bs bs' hbs => .pure (hb ▸ hbs.cons b)
  | swap a a' l =>
    simp only [traverse, bind_assoc]
    refine (Related.of_eq List.Perm.refl (eval_swap (f a') (f a) _)).trans ?_
      fun _ _ _ => List.Perm.trans
    refine (Related.of_eq (fun b => rfl) rfl).bind fun b b' (hb : b = b') => ?_
    refine (Related.of_eq (fun b => rfl) rfl).bind fun c c' (hc : c = c') => ?_
    refine (Related.of_eq (fun b => rfl) rfl).bind fun bs bs' (hbs : bs = bs') => ?_
    exact .pure (hb ▸ hc ▸ hbs ▸ List.Perm.swap b c bs)
  | trans _ _ ih ih' => exact ih.trans ih' fun _ _ _ => List.Perm.trans

/-! ### Running against a source -/

/-- A source: what is known, what a lookup finds, and how many lookups are allowed. -/
structure Source (κ ν : Type) where
  known : κ → Option ν
  lookup : κ → Option ν
  budget : ℕ

/-- What was looked up so far, with what was found, how many lookups were used, and whether a
value that was needed was missing. -/
structure Cache (κ ν : Type) where
  used : ℕ := 0
  fetched : κ → Option (Option ν) := fun _ => none
  missing : Bool := false

/-- One question to the source.  Once the budget is used up, what is not cached is missing. -/
def Source.fetch (source : Source κ ν) (k : κ) (cache : Cache κ ν) : Option ν × Cache κ ν :=
  match source.known k with
  | some v => (some v, cache)
  | none =>
    match cache.fetched k with
    | some held => (held, cache)
    | none =>
      if source.budget ≤ cache.used then
        (none, { cache with fetched := Function.update cache.fetched k (some none) })
      else
        (source.lookup k,
          { cache with
            used := cache.used + 1
            fetched := Function.update cache.fetched k (some (source.lookup k)) })

/-- Executes a walk against a source: a value that is needed and missing ends it, and leaves its
mark in the cache. -/
def execute (source : Source κ ν) : Walk κ ν α → Cache κ ν → Option α × Cache κ ν
  | .pure a, cache => (some a, cache)
  | .fail, cache => (none, cache)
  | .ask k next, cache =>
    match source.fetch k cache with
    | (none, cache) => (none, { cache with missing := true })
    | (some v, cache) => execute source (next v) cache

/-- Executes a walk, and fails as well when a needed value has been missing, now or before. -/
def run (source : Source κ ν) (w : Walk κ ν α) (cache : Cache κ ν) : Option (α × Cache κ ν) :=
  match execute source w cache with
  | (none, _) => none
  | (some a, cache) => if cache.missing then none else some (a, cache)

/-- What the source answers as long as the budget lasts. -/
def Source.view (source : Source κ ν) (cache : Cache κ ν) (k : κ) : Option ν :=
  match source.known k with
  | some v => some v
  | none =>
    match cache.fetched k with
    | some held => held
    | none => source.lookup k

/-- The keys that have to be looked up. -/
def Source.fresh (source : Source κ ν) (cache : Cache κ ν) (asked : Finset κ) : Finset κ :=
  asked.filter fun k => (source.known k).isNone ∧ (cache.fetched k).isNone

/-- The cache once these keys have been looked up. -/
def Source.absorb (source : Source κ ν) (cache : Cache κ ν) (asked : Finset κ) : Cache κ ν where
  used := cache.used + (source.fresh cache asked).card
  fetched k := if k ∈ source.fresh cache asked then some (source.lookup k) else cache.fetched k
  missing := cache.missing

section Run

variable {source : Source κ ν} {cache : Cache κ ν} {k : κ} {asked : Finset κ}

lemma run_pure (a : α) : run source (.pure a) cache =
    if cache.missing then none else some (a, cache) := rfl

lemma run_ask (next : ν → Walk κ ν α) : run source (.ask k next) cache =
    match source.fetch k cache with
    | (none, _) => none
    | (some v, cache) => run source (next v) cache := by
  simp only [run, execute]
  rcases source.fetch k cache with ⟨_ | v, cache⟩ <;> rfl

omit [DecidableEq κ] in
lemma mem_fresh : k ∈ source.fresh cache asked ↔
    k ∈ asked ∧ source.known k = none ∧ cache.fetched k = none := by
  simp [Source.fresh]

lemma absorb_empty : source.absorb cache ∅ = cache := by
  cases cache
  simp [Source.absorb, Source.fresh]

section

variable (h : source.known k ≠ none ∨ cache.fetched k ≠ none)

include h

/-- A key that need not be looked up changes nothing. -/
lemma fresh_insert_of_held : source.fresh cache (insert k asked) = source.fresh cache asked := by
  have hnot : ¬((source.known k).isNone ∧ (cache.fetched k).isNone) := by
    rcases h with h | h <;> simp [h]
  rw [Source.fresh, filter_insert, if_neg hnot, Source.fresh]

/-- A key that need not be looked up is answered from what is held. -/
lemma fetch_of_held : source.fetch k cache = (source.view cache k, cache) := by
  rw [Source.fetch, Source.view]
  cases hknown : source.known k with
  | some v => rfl
  | none =>
    cases hfetched : cache.fetched k with
    | some held => rfl
    | none => simp [hknown, hfetched] at h

end

/-- The cache after one lookup. -/
def lookedUp (source : Source κ ν) (cache : Cache κ ν) (k : κ) : Cache κ ν :=
  { cache with
    used := cache.used + 1
    fetched := Function.update cache.fetched k (some (source.lookup k)) }

lemma fresh_insert_of_fresh (asked : Finset κ) (hknown : source.known k = none)
    (hfetched : cache.fetched k = none) :
    source.fresh cache (insert k asked) = insert k (source.fresh (lookedUp source cache k) asked) ∧
      k ∉ source.fresh (lookedUp source cache k) asked := by
  constructor
  · ext j
    rw [mem_insert, mem_fresh, mem_fresh]
    by_cases hj : j = k
    · subst hj
      simp [hknown, hfetched]
    · simp [lookedUp, hj]
  · rw [mem_fresh]
    simp [lookedUp]

lemma absorb_insert_of_fresh (asked : Finset κ) (hknown : source.known k = none)
    (hfetched : cache.fetched k = none) :
    source.absorb cache (insert k asked) = source.absorb (lookedUp source cache k) asked := by
  obtain ⟨hfresh, hnot⟩ := fresh_insert_of_fresh asked hknown hfetched
  rw [Source.absorb, hfresh, card_insert_of_notMem hnot]
  congr 1
  · simp only [lookedUp]
    omega
  · funext j
    by_cases hj : j = k
    · subst hj
      simp [lookedUp]
    · simp [hj, lookedUp]

lemma view_lookedUp (hfetched : cache.fetched k = none) :
    source.view (lookedUp source cache k) = source.view cache := by
  funext j
  by_cases hj : j = k
  · subst hj
    simp [Source.view, lookedUp, hfetched]
  · simp [Source.view, lookedUp, hj]

/-- The budget covers the keys that have to be looked up, and nothing was missing before. -/
def Source.Covers (source : Source κ ν) (cache : Cache κ ν) (asked : Finset κ) : Prop :=
  cache.missing = false ∧
    cache.used + (source.fresh cache asked).card ≤ max cache.used source.budget

instance : Decidable (source.Covers cache asked) := by
  unfold Source.Covers
  infer_instance

lemma covers_insert_of_fresh (hknown : source.known k = none) (hfetched : cache.fetched k = none)
    (hbudget : ¬source.budget ≤ cache.used) :
    source.Covers cache (insert k asked) ↔ source.Covers (lookedUp source cache k) asked := by
  obtain ⟨hfresh, hnot⟩ := fresh_insert_of_fresh asked hknown hfetched
  rw [Source.Covers, hfresh, card_insert_of_notMem hnot, Source.Covers]
  simp only [lookedUp]
  refine and_congr_right fun _ => ?_
  omega

lemma not_covers_insert (hknown : source.known k = none) (hfetched : cache.fetched k = none)
    (hbudget : source.budget ≤ cache.used) : ¬source.Covers cache (insert k asked) := by
  obtain ⟨hfresh, hnot⟩ := fresh_insert_of_fresh asked hknown hfetched
  rw [Source.Covers, hfresh, card_insert_of_notMem hnot]
  omega

/-- A walk runs as it evaluates, as long as the budget covers what it asks for the first time,
and leaves a cache that depends on what it asked for alone. -/
theorem run_eq (w : Walk κ ν α) (cache : Cache κ ν) : run source w cache =
    (eval (source.view cache) w).bind fun r =>
      if source.Covers cache r.2 then some (r.1, source.absorb cache r.2) else none := by
  induction w generalizing cache with
  | pure a =>
    rw [run_pure, eval, Option.bind_some, absorb_empty]
    simp only [Source.Covers, Source.fresh, filter_empty]
    cases cache.missing <;> simp
  | fail => rfl
  | ask k next ih =>
    rw [run_ask, eval]
    by_cases hheld : source.known k ≠ none ∨ cache.fetched k ≠ none
    · rw [fetch_of_held hheld]
      cases source.view cache k with
      | none => rfl
      | some v =>
        simp only [ih v cache]
        cases eval (source.view cache) (next v) with
        | none => rfl
        | some r => simp [Source.Covers, Source.absorb, fresh_insert_of_held hheld]
    · push Not at hheld
      obtain ⟨hknown, hfetched⟩ := hheld
      have hview : source.view cache k = source.lookup k := by
        rw [Source.view, hknown]; simp [hfetched]
      rw [hview]
      by_cases hbudget : source.budget ≤ cache.used
      · -- nothing new can be looked up any more
        have hfetch : source.fetch k cache =
            (none, { cache with fetched := Function.update cache.fetched k (some none) }) := by
          rw [Source.fetch, hknown]; simp [hfetched, if_pos hbudget]
        rw [hfetch]
        cases source.lookup k with
        | none => rfl
        | some v =>
          simp only
          cases eval (source.view cache) (next v) with
          | none => rfl
          | some r =>
            simp only [Option.map_some, Option.bind_some]
            rw [if_neg (not_covers_insert hknown hfetched hbudget)]
      · have hfetch : source.fetch k cache = (source.lookup k, lookedUp source cache k) := by
          rw [Source.fetch, hknown]; simp [hfetched, if_neg hbudget]; rfl
        rw [hfetch]
        cases hlookup : source.lookup k with
        | none => rfl
        | some v =>
          simp only [ih v (lookedUp source cache k), view_lookedUp hfetched]
          cases eval (source.view cache) (next v) with
          | none => rfl
          | some r =>
            simp [covers_insert_of_fresh hknown hfetched hbudget,
              absorb_insert_of_fresh r.2 hknown hfetched]

lemma eval_of_run {cache cache' : Cache κ ν} {a : α} (h : run source w cache = some (a, cache')) :
    ∃ asked, eval (source.view cache) w = some (a, asked) := by
  rw [run_eq] at h
  obtain ⟨⟨b, asked⟩, heval, h⟩ := Option.bind_eq_some_iff.mp h
  split at h
  · cases h
    exact ⟨asked, heval⟩
  · cases h

/-- Walks that evaluate alike run alike. -/
theorem run_congr {w' : Walk κ ν α} (h : ∀ V, eval V w = eval V w') :
    run source w = run source w' := by
  funext cache
  rw [run_eq, run_eq, h]

/-- Walks with related results run to related results and leave the same cache. -/
theorem Related.run {w' : Walk κ ν β} (h : ∀ V, Related V r w w') (cache : Cache κ ν) :
    Option.Rel (fun x y => r x.1 y.1 ∧ x.2 = y.2) (run source w cache) (run source w' cache) := by
  rw [run_eq, run_eq]
  rcases optionRel_iff.mp (h (source.view cache)) with ⟨hw, hw'⟩ | ⟨x, y, hw, hw', hr, hasked⟩
  · rw [hw, hw']
    exact .none
  · rw [hw, hw', Option.bind_some, Option.bind_some, hasked]
    split
    · exact .some ⟨hr, rfl⟩
    · exact .none

end Run

end Walk

end Merovingian
