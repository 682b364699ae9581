import Merovingian.Lib.Unordered
import Mathlib.Algebra.GroupWithZero.Nat
import Mathlib.Algebra.Order.BigOperators.Group.Finset
import Mathlib.Data.Finset.Max

/-!
# Kahn's algorithm

Every node carries the number of edges that lead to it from nodes which have not been taken yet.  A
node whose number is zero is ready; taking it releases the nodes its edges lead to.  Edges may be
repeated, and the order in which ready nodes wait is a parameter.

* `length_kahn_eq_card_iff`: all nodes are taken exactly when the graph has no cycle, that is
  when some rank grows along every edge.
* `kahn_topological`: a node is taken after the nodes that have an edge to it.
* `kahn_congr`: if nodes wait in an order that does not depend on the order of their arrival,
  then the edges of a node may be listed in any order.
-/

namespace Merovingian

open List Function

namespace Kahn

variable {α : Type} [DecidableEq α]

/-- The number of open edges to each node, and the nodes that are ready. -/
structure State (α : Type) where
  degree : α → ℕ
  ready : List α

/-- One edge to `y` is closed; with its last one, `y` becomes ready. -/
def release (push : α → List α → List α) (s : State α) (y : α) : State α where
  degree := Function.update s.degree y (s.degree y - 1)
  ready := if s.degree y - 1 = 0 then push y s.ready else s.ready

/-- The nodes in the order in which they are taken. -/
def kahn (next : α → List α) (push : α → List α → List α) : (fuel : ℕ) → State α → List α
  | 0, _ => []
  | fuel + 1, s =>
    match s.ready with
    | [] => []
    | x :: ready => x :: kahn next push fuel ((next x).foldl (release push) ⟨s.degree, ready⟩)

/-- The number of edges to each node, when the edges of the listed nodes are counted. -/
def degrees (edges : List (α × List α)) : α → ℕ :=
  edges.foldl (fun degree p => p.2.foldl (fun degree y =>
    Function.update degree y (degree y + 1)) degree) fun _ => 0

section Release

variable {push : α → List α → List α} {s : State α} {l : List α}

@[simp] lemma release_degree_self (y : α) : (release push s y).degree y = s.degree y - 1 :=
  update_self ..

lemma release_degree_of_ne {y z : α} (h : y ≠ z) : (release push s z).degree y = s.degree y :=
  update_of_ne h ..

lemma mem_release_ready (hpush : ∀ y l, (push y l).Perm (y :: l)) {y z : α} :
    y ∈ (release push s z).ready ↔ y ∈ s.ready ∨ y = z ∧ s.degree z - 1 = 0 := by
  rw [release]
  by_cases h0 : s.degree z - 1 = 0
  · rw [if_pos h0, (hpush z s.ready).mem_iff, mem_cons]
    tauto
  · rw [if_neg h0]
    tauto

/-- What releasing a list of nodes does. -/
structure Released (push : α → List α → List α) (s : State α) (l : List α) (t : State α) :
    Prop where
  degree : ∀ y, t.degree y = s.degree y - l.count y
  ready : ∀ y, y ∈ t.ready ↔ y ∈ s.ready ∨ y ∈ l ∧ t.degree y = 0
  nodup : s.ready.Nodup → t.ready.Nodup

lemma foldl_release (hpush : ∀ y l, (push y l).Perm (y :: l)) (hcount : ∀ y, l.count y ≤ s.degree y)
    (hready : ∀ y ∈ s.ready, y ∉ l) : Released push s l (l.foldl (release push) s) := by
  induction l generalizing s with
  | nil => exact ⟨fun y => by simp, fun y => by simp, id⟩
  | cons z l ih =>
    have hz : l.count z + 1 ≤ s.degree z := by simpa using hcount z
    have hcount' : ∀ y, l.count y ≤ (release push s z).degree y := by
      intro y
      by_cases hy : y = z
      · subst hy
        rw [release_degree_self]
        omega
      · rw [release_degree_of_ne hy, ← count_cons_of_ne (Ne.symm hy)]
        exact hcount y
    have hready' : ∀ y ∈ (release push s z).ready, y ∉ l := by
      intro y hy hyl
      rcases (mem_release_ready hpush).mp hy with hy | ⟨rfl, h0⟩
      · exact hready y hy (mem_cons_of_mem _ hyl)
      · have := count_pos_iff.mpr hyl
        omega
    have h := ih hcount' hready'
    refine ⟨fun y => ?_, fun y => ?_, fun hnodup => h.nodup ?_⟩
    · rw [foldl_cons, h.degree]
      by_cases hy : y = z
      · subst hy
        rw [release_degree_self, count_cons_self]
        omega
      · rw [release_degree_of_ne hy, count_cons_of_ne (Ne.symm hy)]
    · rw [foldl_cons, h.ready, mem_release_ready hpush, mem_cons]
      by_cases hy : y = z
      · subst hy
        -- the last edge to `y` is this one, or one of those that follow
        rw [h.degree, release_degree_self]
        constructor
        · rintro ((hy | ⟨-, h0⟩) | ⟨-, h0⟩)
          · exact .inl hy
          · exact .inr ⟨.inl rfl, by omega⟩
          · exact .inr ⟨.inl rfl, h0⟩
        · rintro (hy | ⟨-, h0⟩)
          · exact .inl (.inl hy)
          · by_cases hyl : y ∈ l
            · exact .inr ⟨hyl, h0⟩
            · refine .inl (.inr ⟨rfl, ?_⟩)
              rw [count_eq_zero.mpr hyl] at h0
              exact h0
      · tauto
    · rw [release]
      split
      · refine (hpush z s.ready).nodup_iff.mpr (nodup_cons.mpr ⟨fun hzs => ?_, hnodup⟩)
        exact hready z hzs mem_cons_self
      · exact hnodup

lemma foldl_release_perm (hcomm : ∀ y z l, push y (push z l) = push z (push y l)) {l' : List α}
    (h : l.Perm l') (s : State α) : l.foldl (release push) s = l'.foldl (release push) s := by
  refine h.foldl_eq' (fun y _ z _ s => ?_) s
  by_cases hyz : y = z
  · rw [hyz]
  · rw [release, release, release, release]
    simp only [update_of_ne hyz, update_of_ne (Ne.symm hyz)]
    rw [update_comm hyz]
    split <;> split <;> simp only [hcomm]

end Release

/-! ### Runs -/

section Run

variable {next : α → List α} {push : α → List α → List α} {nodes done : Finset α} {s : State α}

/-- The counts and the ready nodes are right for the nodes taken so far. -/
structure Valid (next : α → List α) (nodes done : Finset α) (s : State α) : Prop where
  degree : ∀ y, s.degree y = ∑ x ∈ nodes \ done, (next x).count y
  closed : ∀ y ∈ done, s.degree y = 0
  nodup : s.ready.Nodup
  ready : ∀ y, y ∈ s.ready ↔ y ∈ nodes ∧ y ∉ done ∧ s.degree y = 0

lemma degree_eq_zero (h : Valid next nodes done s) {y : α} :
    s.degree y = 0 ↔ ∀ x ∈ nodes, x ∉ done → y ∉ next x := by
  rw [h.degree]
  simp [count_eq_zero]

section

variable (hpush : ∀ y l, (push y l).Perm (y :: l))

include hpush

lemma Valid.step
    (hnext : ∀ x ∈ nodes, ∀ y ∈ next x, y ∈ nodes) (h : Valid next nodes done s) {x : α}
    {rest : List α} (hs : s.ready = x :: rest) :
    Valid next nodes (insert x done) ((next x).foldl (release push) ⟨s.degree, rest⟩) := by
  have hnodup : (x :: rest).Nodup := hs ▸ h.nodup
  have hready : ∀ y, y ∈ x :: rest ↔ y ∈ nodes ∧ y ∉ done ∧ s.degree y = 0 := hs ▸ h.ready
  obtain ⟨hx, hxdone, hx0⟩ := (hready x).mp mem_cons_self
  have hsum : ∀ y, s.degree y = (next x).count y +
      ∑ z ∈ nodes \ insert x done, (next z).count y := by
    intro y
    have hx' : x ∈ nodes \ done := Finset.mem_sdiff.mpr ⟨hx, hxdone⟩
    rw [h.degree, ← Finset.add_sum_erase _ _ hx', Finset.sdiff_insert]
  have hrel : Released push ⟨s.degree, rest⟩ (next x) _ :=
    foldl_release hpush (fun y => by rw [hsum y]; exact Nat.le_add_right _ _) fun y hy hmem => by
      have h0 := ((hready y).mp (mem_cons_of_mem _ hy)).2.2
      exact (degree_eq_zero h).mp h0 x hx hxdone hmem
  have hdegree : ∀ y, ((next x).foldl (release push) ⟨s.degree, rest⟩).degree y =
      ∑ z ∈ nodes \ insert x done, (next z).count y := by
    intro y
    rw [hrel.degree, hsum y, Nat.add_sub_cancel_left]
  have hclosed : ∀ y ∈ insert x done, s.degree y = 0 := by
    intro y hy
    rcases Finset.mem_insert.mp hy with rfl | hy
    · exact hx0
    · exact h.closed y hy
  refine ⟨hdegree, fun y hy => ?_, hrel.nodup (nodup_cons.mp hnodup).2, fun y => ?_⟩
  · rw [hrel.degree]
    exact (congrArg (· - _) (hclosed y hy)).trans (Nat.zero_sub _)
  rw [hrel.ready]
  have hrest : y ∈ rest ↔ y ∈ nodes ∧ y ∉ insert x done ∧ s.degree y = 0 := by
    rw [Finset.mem_insert, not_or]
    constructor
    · intro hy
      obtain ⟨hn, hd, h0⟩ := (hready y).mp (mem_cons_of_mem _ hy)
      exact ⟨hn, ⟨fun heq => (nodup_cons.mp hnodup).1 (heq ▸ hy), hd⟩, h0⟩
    · rintro ⟨hn, ⟨hne, hd⟩, h0⟩
      exact (mem_cons.mp ((hready y).mpr ⟨hn, hd, h0⟩)).resolve_left hne
  constructor
  · rintro (hy | ⟨hy, h0⟩)
    · obtain ⟨hn, hd, h0⟩ := hrest.mp hy
      refine ⟨hn, hd, ?_⟩
      rw [hrel.degree]
      exact (congrArg (· - _) h0).trans (Nat.zero_sub _)
    · refine ⟨hnext x hx y hy, ?_, h0⟩
      -- a node that has been taken has no open edge
      intro hdone
      exact (degree_eq_zero h).mp (hclosed y hdone) x hx hxdone hy
  · rintro ⟨hn, hd, h0⟩
    by_cases hy : y ∈ next x
    · exact .inr ⟨hy, h0⟩
    · refine .inl (hrest.mpr ⟨hn, hd, ?_⟩)
      rw [hdegree] at h0
      rw [hsum, h0, count_eq_zero.mpr hy]

/-- What is known of the nodes that a run takes. -/
structure Taken (next : α → List α) (nodes done : Finset α) (fuel : ℕ) (l : List α) : Prop where
  nodup : l.Nodup
  mem : ∀ x ∈ l, x ∈ nodes ∧ x ∉ done
  length_le : l.length ≤ fuel
  stuck : l.length = fuel ∨ ∀ y ∈ nodes, y ∉ done → y ∉ l →
    ∃ x ∈ nodes, x ∉ done ∧ x ∉ l ∧ y ∈ next x
  order : ∀ x ∈ nodes, x ∉ done → ∀ y ∈ l, y ∈ next x → l.idxOf x < l.idxOf y

lemma kahn_taken
    (hnext : ∀ x ∈ nodes, ∀ y ∈ next x, y ∈ nodes) (fuel : ℕ) (h : Valid next nodes done s) :
    Taken next nodes done fuel (kahn next push fuel s) := by
  induction fuel generalizing done s with
  | zero => exact ⟨nodup_nil, by simp [kahn], Nat.le_refl _, .inl rfl, by simp [kahn]⟩
  | succ fuel ih =>
    rw [kahn]
    cases hs : s.ready with
    | nil =>
      refine ⟨nodup_nil, by simp, Nat.zero_le _, .inr fun y hy hdone _ => ?_, by simp⟩
      -- a node that is left is not ready, so it has an open edge
      have hpos : s.degree y ≠ 0 := by
        intro h0
        have hmem := (h.ready y).mpr ⟨hy, hdone, h0⟩
        rw [hs] at hmem
        cases hmem
      rw [Ne, degree_eq_zero h] at hpos
      push Not at hpos
      obtain ⟨x, hx, hxdone, hxy⟩ := hpos
      exact ⟨x, hx, hxdone, not_mem_nil, hxy⟩
    | cons x rest =>
      obtain ⟨hx, hxdone, hx0⟩ := (h.ready x).mp (hs ▸ mem_cons_self)
      have hrest := ih (h.step hpush hnext hs)
      refine ⟨?_, fun y hy => ?_, Nat.succ_le_succ hrest.length_le, ?_, fun z hz hzdone y hy hzy => ?_⟩
      · refine nodup_cons.mpr ⟨fun hmem => (hrest.mem x hmem).2 ?_, hrest.nodup⟩
        exact Finset.mem_insert_self x done
      · rcases mem_cons.mp hy with rfl | hy
        · exact ⟨hx, hxdone⟩
        · exact ⟨(hrest.mem y hy).1, fun hd => (hrest.mem y hy).2 (Finset.mem_insert_of_mem hd)⟩
      · rcases hrest.stuck with hlen | hstuck
        · exact .inl (congrArg (· + 1) hlen)
        · refine .inr fun y hy hdone hnot => ?_
          rw [mem_cons, not_or] at hnot
          have hins : y ∉ insert x done := by
            rw [Finset.mem_insert, not_or]
            exact ⟨hnot.1, hdone⟩
          obtain ⟨z, hz, hzdone, hzl, hzy⟩ := hstuck y hy hins hnot.2
          rw [Finset.mem_insert, not_or] at hzdone
          exact ⟨z, hz, hzdone.2, by rw [mem_cons, not_or]; exact ⟨hzdone.1, hzl⟩, hzy⟩
      · by_cases hyx : y = x
        · -- no edge to `x` is open any more
          exact absurd (hyx ▸ hzy) ((degree_eq_zero h).mp hx0 z hz hzdone)
        · have hyl := (mem_cons.mp hy).resolve_left hyx
          rw [idxOf_cons_ne _ (Ne.symm hyx)]
          by_cases hzx : z = x
          · rw [hzx, idxOf_cons_self]
            exact Nat.succ_pos _
          · rw [idxOf_cons_ne _ (Ne.symm hzx)]
            refine Nat.succ_lt_succ (hrest.order z hz ?_ y hyl hzy)
            rw [Finset.mem_insert, not_or]
            exact ⟨hzx, hzdone⟩

/-- A rank that grows along every edge: the graph has no cycle. -/
def Ranked (next : α → List α) (nodes : Finset α) : Prop :=
  ∃ rank : α → ℕ, ∀ x ∈ nodes, ∀ y ∈ next x, rank x < rank y

/-- All nodes are taken exactly when the graph has no cycle. -/
theorem length_kahn_eq_card_iff
    (hnext : ∀ x ∈ nodes, ∀ y ∈ next x, y ∈ nodes) (h : Valid next nodes ∅ s) :
    (kahn next push nodes.card s).length = nodes.card ↔ Ranked next nodes := by
  have htaken := kahn_taken hpush hnext nodes.card h
  have hsub : (kahn next push nodes.card s).toFinset ⊆ nodes := fun x hx =>
    (htaken.mem x (mem_toFinset.mp hx)).1
  have hcard := toFinset_card_of_nodup htaken.nodup
  constructor
  · intro hlen
    have heq := Finset.eq_of_subset_of_card_le hsub (by rw [hcard, hlen])
    refine ⟨fun x => (kahn next push nodes.card s).idxOf x, fun x hx y hy => ?_⟩
    refine htaken.order x hx (Finset.notMem_empty _) y ?_ hy
    rw [← mem_toFinset, heq]
    exact hnext x hx y hy
  · rintro ⟨rank, hrank⟩
    rcases htaken.stuck with hlen | hstuck
    · exact hlen
    · by_contra hne
      -- the node of least rank among those that are left would have been taken
      have hleft : (nodes \ (kahn next push nodes.card s).toFinset).Nonempty := by
        rw [← Finset.card_pos, Finset.card_sdiff_of_subset hsub]
        have := htaken.length_le
        omega
      obtain ⟨y, hy, hmin⟩ := Finset.exists_min_image _ rank hleft
      rw [Finset.mem_sdiff, mem_toFinset] at hy
      obtain ⟨x, hx, -, hxl, hxy⟩ := hstuck y hy.1 (Finset.notMem_empty _) hy.2
      have hle := hmin x (Finset.mem_sdiff.mpr ⟨hx, fun hm => hxl (mem_toFinset.mp hm)⟩)
      have hlt := hrank x hx y hxy
      omega

end

omit [DecidableEq α] in
/-- A run does not depend on how the edges of a node are listed, if nodes wait in an order of
their own. -/
theorem kahn_congr [DecidableEq α] {next' : α → List α}
    (hcomm : ∀ y z l, push y (push z l) = push z (push y l)) (hnext : ∀ x, (next x).Perm (next' x))
    (fuel : ℕ) (s : State α) : kahn next push fuel s = kahn next' push fuel s := by
  induction fuel generalizing s with
  | zero => rfl
  | succ fuel ih =>
    rw [kahn, kahn]
    cases s.ready with
    | nil => rfl
    | cons x rest => simp [foldl_release_perm hcomm (hnext x), ih]

end Run

/-! ### Counting edges -/

section Degrees

lemma foldl_increment (l : List α) (degree : α → ℕ) (y : α) :
    l.foldl (fun degree y => update degree y (degree y + 1)) degree y = degree y + l.count y := by
  induction l generalizing degree with
  | nil => simp
  | cons z l ih =>
    rw [foldl_cons, ih]
    by_cases hy : y = z
    · subst hy
      rw [update_self, count_cons_self]
      omega
    · rw [update_of_ne hy, count_cons_of_ne (Ne.symm hy)]

lemma degrees_eq (edges : List (α × List α)) (y : α) :
    degrees edges y = (edges.map fun p => p.2.count y).sum := by
  rw [degrees, ← foldl_flatMap, foldl_increment, Nat.zero_add, count_flatMap]
  rfl

section Graphs

variable {ι : Type} (ω : Listing ι α) (graph : Map α (List α))

/-- The edges of a node of a graph. -/
def edgesOf (graph : Map α (List α)) (x : α) : List α := (graph.lookup x).getD []

lemma degrees_items (i : ι) (y : α) :
    degrees (ω.items i graph) y = ∑ x ∈ graph.keys, (edgesOf graph x).count y := by
  have hnodes : (ω.order i graph.keys).toFinset = graph.keys := by
    ext x
    rw [mem_toFinset, ω.mem]
  rw [degrees_eq]
  calc ((ω.items i graph).map fun p => p.2.count y).sum
      = ((ω.items i graph).map fun p => (edgesOf graph p.1).count y).sum := by
        congr 1
        refine map_congr_left fun p hp => ?_
        rw [edgesOf, ω.mem_items.mp hp, Option.getD_some]
    _ = ((ω.order i graph.keys).map fun x => (edgesOf graph x).count y).sum := by
        rw [← ω.map_fst_items, map_map]
        rfl
    _ = ∑ x ∈ graph.keys, (edgesOf graph x).count y := by
        rw [← sum_toFinset _ (ω.nodup i graph.keys), hnodes]

/-- The whole of a graph is taken exactly when it has no cycle, in whatever order it is gone
through. -/
theorem length_kahn_graph_iff {push : α → List α → List α} (hpush : ∀ y l, (push y l).Perm (y :: l))
    (hclosed : ∀ x ∈ graph.keys, ∀ y ∈ edgesOf graph x, y ∈ graph) (i j : ι) :
    (kahn (edgesOf graph) push graph.keys.card ⟨degrees (ω.items i graph),
      (ω.order j graph.keys).filter fun x => degrees (ω.items i graph) x = 0⟩).length =
        graph.keys.card ↔ Ranked (edgesOf graph) graph.keys := by
  refine length_kahn_eq_card_iff hpush (fun x hx y hy => Finmap.mem_keys.mpr (hclosed x hx y hy))
    ⟨fun y => ?_, by simp, ?_, fun y => ?_⟩
  · rw [Finset.sdiff_empty]
    exact degrees_items ω graph i y
  · exact (ω.nodup _ _).filter _
  · simp [ω.mem]

end Graphs

end Degrees

/-! ### Nodes that wait in order -/

omit [DecidableEq α] in
/-- Insertion into a sorted list does not depend on the order of arrival. -/
lemma orderedInsert_comm {r : α → α → Prop} [DecidableRel r] [Std.Total r] [IsTrans α r]
    [Std.Antisymm r] (y z : α) (l : List α) :
    (l.orderedInsert r z).orderedInsert r y = (l.orderedInsert r y).orderedInsert r z := by
  have hboth : ∀ m : List α, (if r y z then y :: z :: m else z :: y :: m) =
      if r z y then z :: y :: m else y :: z :: m := by
    intro m
    by_cases hyz : r y z
    · by_cases hzy : r z y
      · rw [antisymm hyz hzy]
      · rw [if_pos hyz, if_neg hzy]
    · rw [if_neg hyz, if_pos ((Std.Total.total y z).resolve_left hyz)]
  induction l with
  | nil => exact hboth []
  | cons a l ih =>
    by_cases hz : r z a
    · by_cases hy : r y a
      · simp only [orderedInsert_cons, if_pos hz, if_pos hy]
        exact hboth (a :: l)
      · have hyz : ¬r y z := fun h => hy (IsTrans.trans _ _ _ h hz)
        simp [if_pos hz, if_neg hy, if_neg hyz]
    · by_cases hy : r y a
      · have hzy : ¬r z y := fun h => hz (IsTrans.trans _ _ _ h hy)
        simp [if_neg hz, if_pos hy, if_neg hzy]
      · simp [if_neg hz, if_neg hy, ih]

end Kahn

end Merovingian
