import Mathlib.Data.List.TakeWhile
import Merovingian.Lib.Keyed
import Merovingian.Lib.Unordered
import Merovingian.Lib.Walk

/-!
# Worklists

Loops over what a walk reads from a store.  Two of them follow edges.

* `Walk.explore` builds the graph that is reachable from some nodes, up to a number of nodes.
* `Walk.close` adds to a selection whatever the selected elements lead to.

Both compute the least closed set, whatever the order in which they visit it, so that the results
for the same starting set are the same, with the same keys asked for (`Walk.eval_explore_congr`,
`Walk.close_related`).  `Walk.gather` files one result for each element of a list.
-/

namespace Merovingian

open List Finmap

namespace Walk

variable {κ ν α : Type} [DecidableEq κ] [DecidableEq α] {V : κ → Option ν} {x : α} {found : List α}
  {keys asked' : Finset κ} {S : Finset α}

/-- A set that the edges do not leave. -/
def StaysIn (V : κ → Option ν) (edges : α → Walk κ ν (List α)) (S : α → Prop) : Prop :=
  ∀ x found keys, S x → eval V (edges x) = some (found, keys) → ∀ y ∈ found, S y

/-- A set whose edges can all be read, and that they do not leave. -/
def ClosedSet (V : κ → Option ν) (edges : α → Walk κ ν (List α)) (S : Finset α) : Prop :=
  ∀ x ∈ S, ∃ found keys, eval V (edges x) = some (found, keys) ∧ ∀ y ∈ found, y ∈ S

/-! ### Exploring a graph -/

/-- The nodes that are reachable from the pending ones, each with its edges, if there are no
more than `remaining` new ones.  What a node leads to is put on the pending list by `push`. -/
def explore (edges : α → Walk κ ν (List α)) (push : Map α (List α) → List α → List α → List α) :
    (remaining : ℕ) → (graph : Map α (List α)) → (pending : List α) → Walk κ ν (Map α (List α))
  | remaining, graph, pending =>
    match pending.dropWhile (fun x => x ∈ graph) with
    | [] => pure graph
    | x :: pending =>
      match remaining with
      | 0 => .fail
      | remaining + 1 => edges x >>= fun found =>
          explore edges push remaining (graph.insert x found)
            (push (graph.insert x found) found pending)

/-- Nothing is put on the pending list but what was there or was found, and only nodes of the
graph may be left out. -/
structure PushesNew (push : Map α (List α) → List α → List α → List α) : Prop where
  sound : ∀ {graph found pending y}, y ∈ push graph found pending → y ∈ found ∨ y ∈ pending
  complete : ∀ {graph found pending y}, y ∈ found ∨ y ∈ pending →
    y ∈ push graph found pending ∨ y ∈ graph

section Explore

variable {edges : α → Walk κ ν (List α)} {push : Map α (List α) → List α → List α → List α}
  {graph : Map α (List α)} {pending : List α} {n : ℕ} {result : Map α (List α)} {asked : Finset κ}
  {pending' : List α}

omit [DecidableEq α] in
/-- The first element that is not dropped, and what was dropped before it. -/
lemma dropWhile_eq_cons {p : α → Bool} {l l' : List α} (h : l.dropWhile p = x :: l') :
    p x = false ∧ (∀ y ∈ l, p y ∨ y = x ∨ y ∈ l') ∧ x ∈ l ∧ ∀ y ∈ l', y ∈ l := by
  have hx := head?_dropWhile_not p l
  have hsplit : l.takeWhile p ++ x :: l' = l := h ▸ takeWhile_append_dropWhile
  rw [h] at hx
  refine ⟨hx, fun y hy => ?_, ?_, fun y hy => ?_⟩
  · rw [← hsplit, mem_append, mem_cons] at hy
    exact hy.imp_left mem_takeWhile_imp
  · rw [← hsplit]
    exact mem_append_right _ mem_cons_self
  · rw [← hsplit]
    exact mem_append_right _ (mem_cons_of_mem _ hy)

/-- What a successful exploration has found. -/
structure Explored (V : κ → Option ν) (edges : α → Walk κ ν (List α)) (n : ℕ)
    (graph : Map α (List α)) (pending : List α) (result : Map α (List α)) (asked : Finset κ) :
    Prop where
  keeps : ∀ x found, graph.lookup x = some found → result.lookup x = some found
  visits : ∀ x ∈ pending, x ∈ result
  reads : ∀ x found, result.lookup x = some found → x ∉ graph →
    ∃ keys, eval V (edges x) = some (found, keys) ∧ keys ⊆ asked ∧ ∀ y ∈ found, y ∈ result
  asks : ∀ k ∈ asked, ∃ x ∈ result, x ∉ graph ∧
    ∃ found keys, eval V (edges x) = some (found, keys) ∧ k ∈ keys
  least : ∀ S : α → Prop, StaysIn V edges S → (∀ x ∈ pending, S x) →
    ∀ x ∈ result, x ∉ graph → S x
  card_le : result.keys.card ≤ graph.keys.card + n

lemma keys_insert : (graph.insert x found).keys = insert x graph.keys := by
  ext y
  rw [Finmap.mem_keys, Finmap.mem_insert, Finset.mem_insert, Finmap.mem_keys]

lemma card_keys_insert (hx : x ∉ graph) :
    (graph.insert x found).keys.card = graph.keys.card + 1 := by
  rw [keys_insert, Finset.card_insert_of_notMem (fun h => hx (mem_keys.mp h))]

lemma Explored.done (h : ∀ x ∈ pending, x ∈ graph) :
    Explored V edges n graph pending graph ∅ where
  keeps _ _ hx := hx
  visits := h
  reads _ _ hx hnot := absurd (mem_of_lookup_eq_some hx) hnot
  asks _ hk := absurd hk (Finset.notMem_empty _)
  least _ _ _ _ hx hnot := absurd hx hnot
  card_le := Nat.le_add_right _ _

lemma Explored.step (hpush : PushesNew push) {rest : List α}
    (hx : x ∉ graph) (hcover : ∀ y ∈ pending, y ∈ graph ∨ y = x ∨ y ∈ rest) (hmem : x ∈ pending)
    (hsub : ∀ y ∈ rest, y ∈ pending) (hedges : eval V (edges x) = some (found, keys))
    (h : Explored V edges n (graph.insert x found)
      (push (graph.insert x found) found rest) result asked) :
    Explored V edges (n + 1) graph pending result (keys ∪ asked) := by
  have hxr : result.lookup x = some found := h.keeps x found (lookup_insert _)
  have hold : ∀ {y}, y ∈ graph.insert x found → y ∈ result := by
    intro y hy
    obtain ⟨l, hl⟩ := mem_iff.mp hy
    exact mem_of_lookup_eq_some (h.keeps y l hl)
  have hpushed : ∀ {y}, y ∈ found ∨ y ∈ rest → y ∈ result := fun hy =>
    (hpush.complete hy).elim (h.visits _) hold
  have hnew : ∀ {y}, y ∉ graph → y ≠ x → y ∉ graph.insert x found := by
    intro y hy hne hmem
    rcases mem_insert.mp hmem with rfl | hmem
    · exact hne rfl
    · exact hy hmem
  refine ⟨fun y l hy => ?_, fun y hy => ?_, fun y l hy hnot => ?_, fun k hk => ?_,
    fun S hS hpending y hy hnot => ?_, ?_⟩
  · refine h.keeps y l ?_
    have hne : y ≠ x := fun heq => hx (heq ▸ mem_of_lookup_eq_some hy)
    rw [lookup_insert_of_ne _ hne]
    exact hy
  · rcases hcover y hy with hy | rfl | hy
    · exact hold (mem_insert.mpr (.inr hy))
    · exact mem_of_lookup_eq_some hxr
    · exact hpushed (.inr hy)
  · by_cases hne : y = x
    · subst hne
      obtain rfl : found = l := Option.some.inj (hxr.symm.trans hy)
      exact ⟨keys, hedges, Finset.subset_union_left, fun z hz => hpushed (.inl hz)⟩
    · obtain ⟨keys', heval, hkeys, hclosed⟩ := h.reads y l hy (hnew hnot hne)
      exact ⟨keys', heval, hkeys.trans Finset.subset_union_right, hclosed⟩
  · rcases Finset.mem_union.mp hk with hk | hk
    · exact ⟨x, mem_of_lookup_eq_some hxr, hx, found, keys, hedges, hk⟩
    · obtain ⟨y, hy, hnot, hrest⟩ := h.asks k hk
      exact ⟨y, hy, fun hmem => hnot (mem_insert.mpr (.inr hmem)), hrest⟩
  · by_cases hne : y = x
    · exact hne ▸ hpending x hmem
    · refine h.least S hS (fun z hz => ?_) y hy (hnew hnot hne)
      rcases hpush.sound hz with hz | hz
      · exact hS x found keys (hpending x hmem) hedges z hz
      · exact hpending z (hsub z hz)
  · have := h.card_le
    rw [card_keys_insert hx] at this
    omega

lemma explore_sound (hpush : PushesNew push)
    (h : eval V (explore edges push n graph pending) = some (result, asked)) :
    Explored V edges n graph pending result asked := by
  fun_induction explore edges push n graph pending generalizing asked with
  | case1 n graph pending hdrop =>
    cases h
    exact Explored.done fun x hx => of_decide_eq_true (dropWhile_eq_nil_iff.mp hdrop x hx)
  | case2 graph pending x rest hdrop => cases h
  | case3 graph pending x rest hdrop n ih =>
    obtain ⟨hx, hcover, hmem, hsub⟩ := dropWhile_eq_cons hdrop
    obtain ⟨found, keys, asked', hedges, hrest, rfl⟩ := eval_bind_eq_some.mp h
    refine Explored.step hpush (of_decide_eq_false hx) (fun y hy => ?_) hmem hsub hedges
      (ih found hrest)
    exact (hcover y hy).imp of_decide_eq_true id

lemma explore_complete (hpush : PushesNew push) (hS : ClosedSet V edges S)
    (hpending : ∀ x ∈ pending, x ∈ S) (hgraph : graph.keys ⊆ S)
    (hcard : S.card ≤ graph.keys.card + n) :
    ∃ r, eval V (explore edges push n graph pending) = some r := by
  fun_induction explore edges push n graph pending with
  | case1 n graph pending hdrop => exact ⟨_, rfl⟩
  | case2 graph pending x rest hdrop =>
    -- the graph is the whole set already
    obtain ⟨hx, -, hmem, -⟩ := dropWhile_eq_cons hdrop
    have heq := Finset.eq_of_subset_of_card_le hgraph hcard
    exact absurd (mem_keys.mp (heq ▸ hpending x hmem)) (of_decide_eq_false hx)
  | case3 graph pending x rest hdrop n ih =>
    obtain ⟨hx, -, hmem, hsub⟩ := dropWhile_eq_cons hdrop
    obtain ⟨found, keys, hedges, hfound⟩ := hS x (hpending x hmem)
    have hrest : ∀ y ∈ push (graph.insert x found) found rest, y ∈ S := by
      intro y hy
      rcases hpush.sound hy with hy | hy
      · exact hfound y hy
      · exact hpending y (hsub y hy)
    have hsubset : (graph.insert x found).keys ⊆ S := by
      rw [keys_insert]
      exact Finset.insert_subset (hpending x hmem) hgraph
    have hle : S.card ≤ (graph.insert x found).keys.card + n := by
      rw [card_keys_insert (of_decide_eq_false hx)]
      omega
    obtain ⟨⟨result, asked⟩, hr⟩ := ih found hrest hsubset hle
    exact ⟨_, eval_bind_eq_some.mpr ⟨found, keys, asked, hedges, hr, rfl⟩⟩

/-- Whatever one exploration has found, another one from as many nodes has found too. -/
lemma Explored.subset {n' : ℕ} {result' : Map α (List α)}
    (h : Explored V edges n ∅ pending result asked)
    (h' : Explored V edges n' ∅ pending' result' asked') (hmem : ∀ x ∈ pending, x ∈ pending') :
    (∀ x found, result.lookup x = some found → result'.lookup x = some found) ∧
      asked ⊆ asked' := by
  have hreads : ∀ {x found keys}, x ∈ result' → eval V (edges x) = some (found, keys) →
      result'.lookup x = some found ∧ keys ⊆ asked' ∧ ∀ y ∈ found, y ∈ result' := by
    intro x found keys hx heval
    obtain ⟨found', hfx⟩ := mem_iff.mp hx
    obtain ⟨keys', heval', hkeys, hclosed⟩ := h'.reads x found' hfx notMem_empty
    obtain ⟨rfl, rfl⟩ := Prod.mk.inj (Option.some.inj (heval.symm.trans heval'))
    exact ⟨hfx, hkeys, hclosed⟩
  have hsub : ∀ x ∈ result, x ∈ result' := by
    intro x hx
    refine h.least (· ∈ result') (fun y found keys hy heval => ?_) (fun y hy => ?_) x hx
      notMem_empty
    · exact (hreads hy heval).2.2
    · exact h'.visits y (hmem y hy)
  constructor
  · intro x found hx
    obtain ⟨keys, heval, -, -⟩ := h.reads x found hx notMem_empty
    exact (hreads (hsub x (mem_of_lookup_eq_some hx)) heval).1
  · intro k hk
    obtain ⟨x, hx, -, found, keys, heval, hkeys⟩ := h.asks k hk
    exact (hreads (hsub x hx) heval).2.1 hkeys

lemma explore_transfer (hpush : PushesNew push) (hmem : ∀ x, x ∈ pending ↔ x ∈ pending')
    (h : eval V (explore edges push n ∅ pending) = some (result, asked)) :
    eval V (explore edges push n ∅ pending') = some (result, asked) := by
  have hfound := explore_sound hpush h
  have hclosed : ClosedSet V edges result.keys := by
    intro x hx
    obtain ⟨found, hfx⟩ := mem_iff.mp (mem_keys.mp hx)
    obtain ⟨keys, heval, -, hsub⟩ := hfound.reads x found hfx notMem_empty
    exact ⟨found, keys, heval, fun y hy => mem_keys.mpr (hsub y hy)⟩
  have hpending : ∀ x ∈ pending', x ∈ result.keys := fun x hx =>
    mem_keys.mpr (hfound.visits x ((hmem x).mpr hx))
  obtain ⟨⟨result', asked'⟩, h'⟩ := explore_complete hpush hclosed hpending (by simp)
    hfound.card_le
  obtain ⟨hlookup, hasked⟩ := hfound.subset (explore_sound hpush h') fun x hx => (hmem x).mp hx
  obtain ⟨hlookup', hasked'⟩ := (explore_sound hpush h').subset hfound fun x hx => (hmem x).mpr hx
  have hresult : result' = result := by
    refine ext_lookup fun x => Option.ext fun found => ?_
    exact ⟨hlookup' x found, hlookup x found⟩
  rw [h', hresult, hasked'.antisymm hasked]

/-- An exploration does not depend on the order of the nodes it starts from. -/
theorem eval_explore_congr (hpush : PushesNew push) (n : ℕ) (hmem : ∀ x,
      x ∈ pending ↔ x ∈ pending') :
    eval V (explore edges push n ∅ pending) = eval V (explore edges push n ∅ pending') := by
  refine Option.ext fun r => ⟨explore_transfer hpush hmem, ?_⟩
  exact explore_transfer hpush fun x => (hmem x).symm

end Explore

/-! ### Closing a selection -/

/-- The selected elements and all that they lead to, in the order in which they are selected.
New elements are put on the queue by `push`. -/
def close (next : α → Walk κ ν (List α)) (push : List α → List α → List α) : (fuel : ℕ) →
    (selected queue : List α) → Walk κ ν (List α)
  | _, selected, [] => pure selected
  | 0, _, _ :: _ => .fail
  | fuel + 1, selected, x :: queue => next x >>= fun found =>
      close next push fuel (selected ++ firstBy id selected found)
        (push (firstBy id selected found) queue)

section Close

variable {next next' : α → Walk κ ν (List α)} {push push' : List α → List α → List α} {fuel : ℕ}
  {queue : List α} {asked : Finset κ}

/-- What a successful run of the loop has selected. -/
structure Closed (V : κ → Option ν) (next : α → Walk κ ν (List α)) (fuel : ℕ)
    (selected queue new : List α) (asked : Finset κ) : Prop where
  nodup : new.Nodup
  fresh : ∀ y ∈ new, y ∉ selected
  length_le : queue.length + new.length ≤ fuel
  reads : ∀ x, x ∈ queue ∨ x ∈ new → ∃ found keys, eval V (next x) = some (found, keys) ∧
    keys ⊆ asked ∧ ∀ y ∈ found, y ∈ selected ∨ y ∈ new
  asks : ∀ k ∈ asked, ∃ x, (x ∈ queue ∨ x ∈ new) ∧
    ∃ found keys, eval V (next x) = some (found, keys) ∧ k ∈ keys
  least : ∀ S : α → Prop, StaysIn V next S → (∀ x ∈ queue, S x) → ∀ y ∈ new, S y

lemma mem_firstBy_id {seen l : List α} : x ∈ firstBy id seen l ↔ x ∈ l ∧ x ∉ seen := by
  refine ⟨mem_of_mem_firstBy, fun ⟨hx, hnot⟩ => ?_⟩
  have hfirst : ∃ y ∈ firstBy id seen l, y = x := exists_mem_firstBy hx hnot
  obtain ⟨y, hy, rfl⟩ := hfirst
  exact hy

section

variable (hpush : ∀ l m, (push l m).Perm (l ++ m)) {selected : List α}

include hpush

lemma Closed.step {more : List α} (hnext : eval V (next x) = some (found, keys))
    (h : Closed V next fuel (selected ++ firstBy id selected found)
      (push (firstBy id selected found) queue) more asked) :
    Closed V next (fuel + 1) selected (x :: queue) (firstBy id selected found ++ more)
      (keys ∪ asked) := by
  have hqueue : ∀ y, y ∈ push (firstBy id selected found) queue ↔
      y ∈ firstBy id selected found ∨ y ∈ queue := fun y => by
    rw [(hpush _ _).mem_iff, mem_append]
  refine ⟨?_, fun y hy => ?_, ?_, fun y hy => ?_, fun k hk => ?_, fun S hS hstart y hy => ?_⟩
  · refine (nodup_firstBy selected found).of_map.append h.nodup fun y hy hy' => h.fresh y hy' ?_
    exact mem_append_right _ hy
  · rcases mem_append.mp hy with hy | hy
    · exact (mem_firstBy_id.mp hy).2
    · exact fun hsel => h.fresh y hy (mem_append_left _ hsel)
  · have hlen := h.length_le
    rw [(hpush _ _).length_eq, length_append] at hlen
    rw [length_cons, length_append]
    omega
  · by_cases hyx : y = x
    · subst hyx
      refine ⟨found, keys, hnext, Finset.subset_union_left, fun z hz => ?_⟩
      by_cases hsel : z ∈ selected
      · exact .inl hsel
      · exact .inr (mem_append_left _ (mem_firstBy_id.mpr ⟨hz, hsel⟩))
    · have hy' : y ∈ push (firstBy id selected found) queue ∨ y ∈ more := by
        rw [hqueue]
        simp only [mem_cons, mem_append] at hy
        tauto
      obtain ⟨l, keys', heval, hkeys, hclosed⟩ := h.reads y hy'
      refine ⟨l, keys', heval, hkeys.trans Finset.subset_union_right, fun z hz => ?_⟩
      have := hclosed z hz
      simp only [mem_append] at this ⊢
      tauto
  · rcases Finset.mem_union.mp hk with hk | hk
    · exact ⟨x, .inl mem_cons_self, found, keys, hnext, hk⟩
    · obtain ⟨y, hy, hrest⟩ := h.asks k hk
      refine ⟨y, ?_, hrest⟩
      rw [hqueue] at hy
      simp only [mem_append]
      tauto
  · have hfound : ∀ z ∈ firstBy id selected found, S z := fun z hz =>
      hS x found keys (hstart x mem_cons_self) hnext z (mem_firstBy_id.mp hz).1
    rcases mem_append.mp hy with hy | hy
    · exact hfound y hy
    · refine h.least S hS (fun z hz => ?_) y hy
      rcases (hqueue z).mp hz with hz | hz
      · exact hfound z hz
      · exact hstart z (mem_cons_of_mem _ hz)

lemma close_sound {result : List α}
    (h : eval V (close next push fuel selected queue) = some (result, asked)) :
    ∃ new, result = selected ++ new ∧ Closed V next fuel selected queue new asked := by
  fun_induction close next push fuel selected queue generalizing asked with
  | case1 fuel selected =>
    cases h
    exact ⟨[], by simp, by constructor <;> simp⟩
  | case2 selected x queue => cases h
  | case3 fuel selected x queue ih =>
    obtain ⟨found, keys, asked', hnext, hrest, rfl⟩ := eval_bind_eq_some.mp h
    obtain ⟨more, rfl, hmore⟩ := ih found hrest
    exact ⟨_, append_assoc _ _ _, Closed.step hpush hnext hmore⟩

/-- A closed set around the selection makes the loop succeed, given fuel for each element of
it: every step takes one from the queue, and only new ones are put there. -/
lemma close_complete (hS : ClosedSet V next S)
    (hqueue : ∀ x ∈ queue, x ∈ S) (hselected : ∀ x ∈ selected, x ∈ S) (hnodup : selected.Nodup)
    (hfuel : S.card + queue.length ≤ fuel + selected.length) :
    ∃ r, eval V (close next push fuel selected queue) = some r := by
  fun_induction close next push fuel selected queue with
  | case1 fuel selected => exact ⟨_, rfl⟩
  | case2 selected x queue =>
    have hle : selected.toFinset.card ≤ S.card :=
      Finset.card_le_card fun y hy => hselected y (mem_toFinset.mp hy)
    rw [toFinset_card_of_nodup hnodup] at hle
    rw [length_cons] at hfuel
    omega
  | case3 fuel selected x queue ih =>
    obtain ⟨found, keys, hnext, hfound⟩ := hS x (hqueue x mem_cons_self)
    have hnew : ∀ y ∈ firstBy id selected found, y ∈ S := fun y hy =>
      hfound y (mem_firstBy_id.mp hy).1
    have hqueue' : ∀ y ∈ push (firstBy id selected found) queue, y ∈ S := by
      intro y hy
      rcases mem_append.mp ((hpush _ _).mem_iff.mp hy) with hy | hy
      · exact hnew y hy
      · exact hqueue y (mem_cons_of_mem _ hy)
    have hselected' : ∀ y ∈ selected ++ firstBy id selected found, y ∈ S :=
      forall_mem_append.mpr ⟨hselected, hnew⟩
    have hnodup' : (selected ++ firstBy id selected found).Nodup :=
      hnodup.append (nodup_firstBy _ _).of_map fun y hy hy' => (mem_firstBy_id.mp hy').2 hy
    have hfuel' : S.card + (push (firstBy id selected found) queue).length ≤
        fuel + (selected ++ firstBy id selected found).length := by
      rw [(hpush _ _).length_eq, length_append, length_append]
      rw [length_cons] at hfuel
      omega
    obtain ⟨⟨result, asked⟩, hr⟩ := ih found hqueue' hselected' hnodup' hfuel'
    exact ⟨_, eval_bind_eq_some.mpr ⟨found, keys, asked, hnext, hr, rfl⟩⟩

end

/-- Edges that lead to the same elements. -/
def SameEdges (V : κ → Option ν) (next next' : α → Walk κ ν (List α)) : Prop :=
  ∀ x, Related V (fun l l' => ∀ y, y ∈ l ↔ y ∈ l') (next x) (next' x)

omit [DecidableEq α] in
lemma SameEdges.symm (h : SameEdges V next next') : SameEdges V next' next := by
  intro x
  refine optionRel_iff.mpr ?_
  rcases optionRel_iff.mp (h x) with ⟨hn, hn'⟩ | ⟨p, q, hp, hq, hmem, hkeys⟩
  · exact .inl ⟨hn', hn⟩
  · exact .inr ⟨q, p, hq, hp, fun y => (hmem y).symm, hkeys.symm⟩

omit [DecidableEq α] in
lemma SameEdges.reads (h : SameEdges V next next') (hx : eval V (next x) = some (found, keys)) :
    ∃ found', eval V (next' x) = some (found', keys) ∧ ∀ y, y ∈ found ↔ y ∈ found' := by
  rcases optionRel_iff.mp (h x) with ⟨hn, -⟩ | ⟨p, q, hp, hq, hmem, hkeys⟩
  · exact absurd (hx.symm.trans hn) (by simp)
  · obtain rfl : (found, keys) = p := Option.some.inj (hx.symm.trans hp)
    exact ⟨q.1, hq.trans (congrArg some (Prod.ext rfl hkeys.symm)), hmem⟩

omit [DecidableEq α] in
/-- Whatever one run has selected, another one from as many elements has selected too. -/
lemma Closed.subset (hsame : SameEdges V next next') {fuel' : ℕ}
    {init new init' queue' new' : List α} (hqueue : ∀ x, x ∈ queue ↔ x ∈ init)
    (hqueue' : ∀ x, x ∈ queue' ↔ x ∈ init') (hinit : ∀ x ∈ init, x ∈ init')
    (h : Closed V next fuel init queue new asked)
    (h' : Closed V next' fuel' init' queue' new' asked') :
    (∀ x ∈ init ++ new, x ∈ init' ++ new') ∧ asked ⊆ asked' := by
  have hreads : ∀ {x found keys}, x ∈ init' ++ new' → eval V (next x) = some (found, keys) →
      keys ⊆ asked' ∧ ∀ y ∈ found, y ∈ init' ++ new' := by
    intro x found keys hx heval
    rw [mem_append, ← hqueue'] at hx
    obtain ⟨found', keys', heval', hkeys, hclosed⟩ := h'.reads x hx
    obtain ⟨found'', heval'', hmem⟩ := hsame.reads heval
    obtain ⟨rfl, rfl⟩ := Prod.mk.inj (Option.some.inj (heval'.symm.trans heval''))
    exact ⟨hkeys, fun y hy => mem_append.mpr (hclosed y ((hmem y).mp hy))⟩
  have hsub : ∀ x ∈ init ++ new, x ∈ init' ++ new' := by
    intro x hx
    rcases mem_append.mp hx with hx | hx
    · exact mem_append_left _ (hinit x hx)
    · refine h.least (· ∈ init' ++ new') (fun y found keys hy heval => (hreads hy heval).2)
        (fun y hy => ?_) x hx
      exact mem_append_left _ (hinit y ((hqueue y).mp hy))
  refine ⟨hsub, fun k hk => ?_⟩
  obtain ⟨x, hx, found, keys, heval, hmem⟩ := h.asks k hk
  rw [hqueue] at hx
  exact (hreads (hsub x (mem_append.mpr hx)) heval).1 hmem

lemma close_transfer (hpush : ∀ l m, (push l m).Perm (l ++ m))
    (hpush' : ∀ l m, (push' l m).Perm (l ++ m)) (hsame : SameEdges V next next') (fuel : ℕ)
    {init init' queue' result : List α} (hnodup : init.Nodup) (hqueue : queue.Perm init)
    (hqueue' : queue'.Perm init') (hinit : init.Perm init')
    (h : eval V (close next push fuel init queue) = some (result, asked)) :
    ∃ result', eval V (close next' push' fuel init' queue') = some (result', asked) ∧
      result.Perm result' := by
  obtain ⟨new, rfl, hnew⟩ := close_sound hpush h
  have hall : (init ++ new).Nodup := hnodup.append hnew.nodup fun y hy hy' => hnew.fresh y hy' hy
  have hclosed : ClosedSet V next' (init ++ new).toFinset := by
    intro x hx
    rw [mem_toFinset, mem_append, ← hqueue.mem_iff] at hx
    obtain ⟨found, keys, heval, -, hsub⟩ := hnew.reads x hx
    obtain ⟨found', heval', hmem⟩ := hsame.reads heval
    refine ⟨found', keys, heval', fun y hy => ?_⟩
    rw [mem_toFinset, mem_append]
    exact hsub y ((hmem y).mpr hy)
  have hstart : ∀ x ∈ init', x ∈ (init ++ new).toFinset := fun x hx =>
    mem_toFinset.mpr (mem_append_left _ (hinit.mem_iff.mpr hx))
  have hfuel : (init ++ new).toFinset.card + queue'.length ≤ fuel + init'.length := by
    have hlen := hnew.length_le
    rw [hqueue.length_eq] at hlen
    rw [toFinset_card_of_nodup hall, length_append, hqueue'.length_eq]
    omega
  obtain ⟨⟨result', asked'⟩, h'⟩ := close_complete hpush' hclosed
    (fun x hx => hstart x (hqueue'.mem_iff.mp hx)) hstart (hinit.nodup_iff.mp hnodup) hfuel
  obtain ⟨new', rfl, hnew'⟩ := close_sound hpush' h'
  obtain ⟨hsub, hasked⟩ := hnew.subset hsame (fun x => hqueue.mem_iff) (fun x => hqueue'.mem_iff)
    (fun x => hinit.mem_iff.mp) hnew'
  obtain ⟨hsub', hasked'⟩ := hnew'.subset hsame.symm (fun x => hqueue'.mem_iff)
    (fun x => hqueue.mem_iff) (fun x => hinit.mem_iff.mpr) hnew
  have hall' : (init' ++ new').Nodup :=
    (hinit.nodup_iff.mp hnodup).append hnew'.nodup fun y hy hy' => hnew'.fresh y hy' hy
  refine ⟨_, by rw [h', hasked'.antisymm hasked], ?_⟩
  exact (perm_ext_iff_of_nodup hall hall').mpr fun x => ⟨hsub x, hsub' x⟩

/-- The selection does not depend on any order but for its own. -/
theorem close_related (hpush : ∀ l m, (push l m).Perm (l ++ m))
    (hpush' : ∀ l m, (push' l m).Perm (l ++ m)) (hsame : SameEdges V next next') (fuel : ℕ)
    {init init' queue' : List α} (hnodup : init.Nodup) (hqueue : queue.Perm init)
    (hqueue' : queue'.Perm init') (hinit : init.Perm init') :
    Related V Perm (close next push fuel init queue) (close next' push' fuel init' queue') := by
  refine optionRel_iff.mpr ?_
  cases h : eval V (close next push fuel init queue) with
  | some r =>
    obtain ⟨result', h', hperm⟩ :=
      close_transfer hpush hpush' hsame fuel hnodup hqueue hqueue' hinit h
    exact .inr ⟨r, _, rfl, h', hperm, rfl⟩
  | none =>
    cases h' : eval V (close next' push' fuel init' queue') with
    | none => exact .inl ⟨rfl, rfl⟩
    | some r =>
      obtain ⟨result, h'', -⟩ := close_transfer hpush' hpush hsame.symm fuel
        (hinit.nodup_iff.mp hnodup) hqueue' hqueue hinit.symm h'
      exact absurd (h.symm.trans h'') (by simp)

end Close

/-! ### Gathering results by key -/

/-- The results of a walk for the elements of a list, by key. -/
def gather {β ε : Type} (key : ε → α) (value : ε → Walk κ ν β) (l : List ε) :
    Walk κ ν (Map α β) :=
  fold (fun m e => value e >>= fun v => pure (emplace m (key e) v)) ∅ l

/-- Elements with distinct keys may be taken in any order. -/
theorem eval_gather_perm {β ε : Type} {key : ε → α} {value : ε → Walk κ ν β} {l l' : List ε}
    (hkey : ∀ e ∈ l, ∀ e' ∈ l, key e = key e' → e = e') (h : l.Perm l') :
    eval V (gather key value l) = eval V (gather key value l') := by
  refine eval_fold_perm h (fun m e he e' he' => ?_) ∅
  simp only [bind_assoc, pure_bind]
  by_cases heq : e = e'
  · rw [heq]
  · have hne : key e ≠ key e' := fun hk => heq (hkey e he e' he' hk)
    rw [eval_swap]
    refine eval_bind_congr rfl fun v' => eval_bind_congr rfl fun v => ?_
    rw [emplace_comm m v v' hne]

end Walk

end Merovingian
