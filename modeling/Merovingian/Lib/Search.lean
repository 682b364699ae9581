import Mathlib.Data.Nat.Notation
import Mathlib.Logic.Relation

/-!
# Bounded search with a stack

A depth-first search for a goal in a graph that is known by what each node leads to.  Nodes that
lead nowhere are pruned, no node is expanded twice, and the search gives up after a number of
expanded nodes.

The search is complete in one direction: if it ends with nothing left to visit, no goal is
reachable through nodes that are not pruned (`Search.search_exhausted`).  The invariant is
`Search.Covered`.
-/

namespace Merovingian

open List

namespace Search

variable {α : Type} [DecidableEq α] (goal : α → Bool) (expand : α → Option (List α))

/-- How a search ends. -/
inductive Verdict
  | found
  | exhausted
  | gaveUp
deriving DecidableEq, Repr

/-- What taking nodes from the stack leads to: the goal, an empty stack, or a new node with what
it leads to, the stack below it and the nodes visited so far. -/
inductive Popped (α : Type)
  | goal
  | empty
  | node (found pending visited : List α)

/-- Takes nodes from the stack up to the first that is the goal or has to be expanded. -/
def pop : (pending visited : List α) → Popped α
  | [], _ => .empty
  | x :: pending, visited =>
    if goal x then .goal
    else if x ∈ visited then pop pending visited
    else match expand x with
      | none => pop pending (x :: visited)
      | some found => .node found pending (x :: visited)

/-- The search from a stack.  What a node leads to is pushed in order, so the last is next. -/
def search : (remaining : ℕ) → (pending visited : List α) → Verdict
  | remaining, pending, visited =>
    match pop goal expand pending visited with
    | .goal => .found
    | .empty => .exhausted
    | .node found pending visited =>
      match remaining with
      | 0 => .gaveUp
      | remaining + 1 => search remaining (found.reverse ++ pending) visited

variable {goal expand} {pending visited : List α} {remaining : ℕ}

/-- One node leads to another. -/
def Leads (expand : α → Option (List α)) (x y : α) : Prop :=
  ∃ found, expand x = some found ∧ y ∈ found

/-- No visited node is a goal, and what one leads to is visited or pending. -/
structure Covered (goal : α → Bool) (expand : α → Option (List α)) (pending visited : List α) :
    Prop where
  notGoal : ∀ x ∈ visited, goal x = false
  leads : ∀ x ∈ visited, ∀ y, Leads expand x y → y ∈ visited ∨ y ∈ pending

/-- What taking nodes from the stack leaves: the same nodes are visited or pending. -/
def Popped.Leaves (goal : α → Bool) (expand : α → Option (List α)) (pending visited : List α) :
    Popped α → Prop
  | .goal => True
  | .empty => ∃ all, Covered goal expand [] all ∧ ∀ x, x ∈ pending ∨ x ∈ visited → x ∈ all
  | .node found pending' visited' => Covered goal expand (found.reverse ++ pending') visited' ∧
      ∀ x, x ∈ pending ∨ x ∈ visited → x ∈ pending' ∨ x ∈ visited'

section

omit [DecidableEq α]

lemma Covered.start (pending : List α) : Covered goal expand pending [] where
  notGoal _ hx := absurd hx not_mem_nil
  leads _ hx := absurd hx not_mem_nil

lemma Covered.skip {x : α} (h : Covered goal expand (x :: pending) visited) (hx : x ∈ visited) :
    Covered goal expand pending visited where
  notGoal := h.notGoal
  leads y hy z hz := by
    rcases h.leads y hy z hz with hz | hz
    · exact .inl hz
    · rcases mem_cons.mp hz with rfl | hz
      · exact .inl hx
      · exact .inr hz

lemma Covered.visit {x : α} {pushed : List α}
    (h : Covered goal expand (x :: pending) visited) (hx : goal x = false)
    (hpushed : ∀ y, Leads expand x y → y ∈ pushed) :
    Covered goal expand (pushed ++ pending) (x :: visited) where
  notGoal y hy := by
    rcases mem_cons.mp hy with rfl | hy
    · exact hx
    · exact h.notGoal y hy
  leads y hy z hz := by
    rw [mem_append, mem_cons]
    rcases mem_cons.mp hy with rfl | hy
    · exact .inr (.inl (hpushed z hz))
    · rcases h.leads y hy z hz with hz | hz
      · exact .inl (.inr hz)
      · rcases mem_cons.mp hz with rfl | hz
        · exact .inl (.inl rfl)
        · exact .inr (.inr hz)

lemma Popped.Leaves.mono {popped : Popped α} {pending' visited' : List α}
    (h : popped.Leaves goal expand pending' visited')
    (hsub : ∀ x, x ∈ pending ∨ x ∈ visited → x ∈ pending' ∨ x ∈ visited') :
    popped.Leaves goal expand pending visited := by
  cases popped with
  | goal => trivial
  | empty =>
    obtain ⟨all, hall, hmem⟩ := h
    exact ⟨all, hall, fun x hx => hmem x (hsub x hx)⟩
  | node found rest seen => exact ⟨h.1, fun x hx => h.2 x (hsub x hx)⟩

end

lemma pop_leaves (h : Covered goal expand pending visited) :
    (pop goal expand pending visited).Leaves goal expand pending visited := by
  induction pending generalizing visited with
  | nil => exact ⟨visited, h, fun x hx => hx.resolve_left not_mem_nil⟩
  | cons x pending ih =>
    rw [pop]
    by_cases hgoal : goal x
    · rw [if_pos hgoal]
      trivial
    have hnot : goal x = false := by simpa using hgoal
    -- what was on the stack stays there, and `x` is visited
    have hmoved : ∀ y, y ∈ x :: pending ∨ y ∈ visited → y ∈ pending ∨ y ∈ x :: visited := by
      intro y hy
      rw [mem_cons]
      rcases hy with hy | hy
      · rcases mem_cons.mp hy with rfl | hy
        · exact .inr (.inl rfl)
        · exact .inl hy
      · exact .inr (.inr hy)
    rw [if_neg hgoal]
    by_cases hx : x ∈ visited
    · rw [if_pos hx]
      refine (ih (h.skip hx)).mono fun y hy => (hmoved y hy).imp_right fun hy => ?_
      rcases mem_cons.mp hy with rfl | hy
      · exact hx
      · exact hy
    rw [if_neg hx]
    cases hexpand : expand x with
    | none =>
      -- a pruned node leads nowhere
      have hnone : ∀ y, Leads expand x y → y ∈ ([] : List α) := by
        rintro y ⟨found, hfound, -⟩
        rw [hexpand] at hfound
        cases hfound
      exact (ih (h.visit hnot hnone)).mono hmoved
    | some found =>
      refine ⟨h.visit hnot ?_, hmoved⟩
      rintro y ⟨found', hfound', hy⟩
      rw [hexpand] at hfound'
      cases hfound'
      exact mem_reverse.mpr hy

lemma search_covered (h : Covered goal expand pending visited)
    (hsearch : search goal expand remaining pending visited = .exhausted) :
    ∃ all, Covered goal expand [] all ∧ ∀ x, x ∈ pending ∨ x ∈ visited → x ∈ all := by
  fun_induction search goal expand remaining pending visited with
  | case1 | case3 => cases hsearch
  | case2 remaining pending visited hpop =>
    have hleaves := pop_leaves h
    rw [hpop] at hleaves
    exact hleaves
  | case4 pending visited found pending' visited' hpop remaining ih =>
    have hleaves := pop_leaves h
    rw [hpop] at hleaves
    obtain ⟨hcovered, hsub⟩ := hleaves
    obtain ⟨all, hall, hvisited⟩ := ih hcovered hsearch
    refine ⟨all, hall, fun x hx => hvisited x ?_⟩
    exact (hsub x hx).imp_left fun hx => mem_append_right _ hx

/-- A search that has nothing left to visit reaches no goal. -/
theorem search_exhausted
    (hsearch : search goal expand remaining pending [] = .exhausted) {x y : α} (hx : x ∈ pending)
    (hreach : Relation.ReflTransGen (Leads expand) x y) : goal y = false := by
  obtain ⟨all, hall, hsub⟩ := search_covered (.start pending) hsearch
  have hmem : y ∈ all := by
    induction hreach with
    | refl => exact hsub x (.inl hx)
    | tail _ hleads ih => exact (hall.leads _ ih _ hleads).resolve_right not_mem_nil
  exact hall.notGoal y hmem

end Search

end Merovingian
