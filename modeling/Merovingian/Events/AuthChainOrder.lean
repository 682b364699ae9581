import Merovingian.Events.AuthChains

/-!
# The order of auth-chain walks

The walks of state resolution ask for the same events and give the same result whatever the
order of the groups, of the events in a group, and of the loops over unordered sets.
-/

namespace Merovingian

open Walk List

variable {V : Str → Option SourceEvent} {id : Str}

/-! ### The auth difference -/

section Difference

variable {cap : ℕ} {result start : Finset Str} {event event' : StateEventReference}
  {chains : List (Finset Str)}

lemma addAuthChain_of_null (h : ¬event.eventJson.hasContent) (result : Finset Str) :
    addAuthChain cap result event = pure result := if_neg h

lemma eval_addAuthChain (h : event.eventJson.hasContent) :
    eval V (addAuthChain cap result event) = (eval V (walkAuthChain event.eventJson cap)).bind
      fun r => if (result ∪ r.1).card ≤ cap then some (result ∪ r.1, r.2) else none := by
  rw [addAuthChain, if_pos h, eval_bind]
  congr 1
  funext r
  rw [eval_bind, eval_require]
  split <;> simp

/-- The chains of two events, within the cap.  The cap holds along the way if it does at the
end. -/
lemma eval_addAuthChain_bind (h : event.eventJson.hasContent) (h' : event'.eventJson.hasContent) :
    eval V (addAuthChain cap result event >>= fun s => addAuthChain cap s event') =
      (eval V (walkAuthChain event.eventJson cap)).bind fun r =>
        (eval V (walkAuthChain event'.eventJson cap)).bind fun r' =>
          if (result ∪ r.1 ∪ r'.1).card ≤ cap then some (result ∪ r.1 ∪ r'.1, r.2 ∪ r'.2)
          else none := by
  rw [eval_bind, eval_addAuthChain h, Option.bind_assoc]
  congr 1
  funext r
  by_cases hr : (result ∪ r.1).card ≤ cap
  · rw [if_pos hr, Option.bind_some, eval_addAuthChain h']
    cases eval V (walkAuthChain event'.eventJson cap) with
    | none => rfl
    | some r' =>
      simp only [Option.bind_some]
      split <;> rfl
  · rw [if_neg hr, Option.bind_none]
    cases eval V (walkAuthChain event'.eventJson cap) with
    | none => rfl
    | some r' =>
      have hle : (result ∪ r.1).card ≤ (result ∪ r.1 ∪ r'.1).card :=
        Finset.card_le_card Finset.subset_union_left
      rw [Option.bind_some, if_neg (fun h => hr (hle.trans h))]

lemma eval_addAuthChain_comm (result : Finset Str) (event event' : StateEventReference) :
    eval V (addAuthChain cap result event >>= fun s => addAuthChain cap s event') =
      eval V (addAuthChain cap result event' >>= fun s => addAuthChain cap s event) := by
  by_cases h : event.eventJson.hasContent
  · by_cases h' : event'.eventJson.hasContent
    · rw [eval_addAuthChain_bind h h', eval_addAuthChain_bind h' h]
      cases eval V (walkAuthChain event.eventJson cap) with
      | none => cases eval V (walkAuthChain event'.eventJson cap) <;> rfl
      | some r =>
        cases eval V (walkAuthChain event'.eventJson cap) with
        | none => rfl
        | some r' =>
          simp only [Option.bind_some]
          rw [Finset.union_right_comm, Finset.union_comm r.2]
    · rw [funext (addAuthChain_of_null h'), bind_pure, addAuthChain_of_null h', pure_bind]
  · rw [funext (addAuthChain_of_null h), bind_pure, addAuthChain_of_null h, pure_bind]

lemma mem_foldl_union :
    id ∈ chains.foldl (· ∪ ·) start ↔ id ∈ start ∨ ∃ chain ∈ chains, id ∈ chain := by
  induction chains generalizing start with
  | nil => simp
  | cons chain chains ih =>
    rw [foldl_cons, ih, Finset.mem_union]
    simp [exists_eq_or_imp, or_assoc]

lemma mem_foldl_inter :
    id ∈ chains.foldl (· ∩ ·) start ↔ id ∈ start ∧ ∀ chain ∈ chains, id ∈ chain := by
  induction chains generalizing start with
  | nil => simp
  | cons chain chains ih =>
    rw [foldl_cons, ih, Finset.mem_inter]
    simp [forall_eq_or_imp, and_assoc]

/-- The difference holds what is in some chain and not in all of them. -/
lemma mem_chainDifference :
    id ∈ chainDifference chains ↔
      (∃ chain ∈ chains, id ∈ chain) ∧ ¬∀ chain ∈ chains, id ∈ chain := by
  cases chains with
  | nil => simp [chainDifference]
  | cons chain chains =>
    rw [chainDifference, Finset.mem_sdiff, mem_foldl_union, mem_foldl_inter]
    simp

lemma chainDifference_perm {chains' : List (Finset Str)} (h : chains.Perm chains') :
    chainDifference chains = chainDifference chains' := by
  ext id
  simp only [mem_chainDifference, h.mem_iff]

end Difference

/-- The same groups in another order, each with its events in another order. -/
def PermutedGroups (groups groups' : List StateGroup) : Prop :=
  ∃ middle, groups.Perm middle ∧
    List.Forall₂ (fun group group' => group.groupId = group'.groupId ∧
      group.state.Perm group'.state) middle groups'

/-- The auth difference does not depend on the order of the groups or of their events. -/
lemma eval_computeAuthDifference_congr {groups groups' : List StateGroup}
    (h : PermutedGroups groups groups') (cap : ℕ) :
    eval V (computeAuthDifference groups cap) = eval V (computeAuthDifference groups' cap) := by
  obtain ⟨middle, hperm, hstates⟩ := h
  calc eval V (computeAuthDifference groups cap)
      = eval V (computeAuthDifference middle cap) :=
        (traverse_perm hperm).bind_eq fun chains chains' hchains => by
          rw [chainDifference_perm hchains]
    _ = eval V (computeAuthDifference groups' cap) :=
        eval_bind_congr (eval_traverse_congr (hstates.imp fun group group' hg =>
          eval_fold_perm hg.2 (fun result event _ event' _ =>
            eval_addAuthChain_comm result event event') ∅)) fun _ => rfl

/-! ### The conflicted state subgraph -/

section Subgraph

variable (ω ω' : IterationOrder) {graph : Map Str (List Str)} (conflictedIds : Finset Str)

/-- Kahn's algorithm processes the whole graph exactly when it has no cycle. -/
lemma processedCount_eq_card_iff
    (hclosed : ∀ id ∈ graph.keys, ∀ ancestor ∈ ancestorsIn graph id, ancestor ∈ graph) :
    processedCount ω graph = graph.keys.card ↔ Kahn.Ranked (ancestorsIn graph) graph.keys :=
  Kahn.length_kahn_graph_iff ω.ids graph (fun _ _ => perm_append_comm) hclosed .graph .indegree

lemma mem_citersOf {items : List (Str × List Str)} {citer : Str} :
    citer ∈ citersOf items id ↔ ∃ node ∈ items, node.1 = citer ∧ id ∈ node.2 := by
  simp only [citersOf, mem_flatMap, mem_map, mem_filter, decide_eq_true_eq]
  constructor
  · rintro ⟨node, hnode, ancestor, ⟨hancestor, rfl⟩, rfl⟩
    exact ⟨node, hnode, rfl, hancestor⟩
  · rintro ⟨node, hnode, rfl, hid⟩
    exact ⟨node, hnode, id, ⟨hid, rfl⟩, rfl⟩

lemma eval_reachingEndpoint_congr :
    eval V (reachingEndpoint ω conflictedIds graph) =
      eval V (reachingEndpoint ω' conflictedIds graph) := by
  have hsame : SameEdges V (fun id => pure (citersOf (ω.ids.items .graph graph) id))
      (fun id => pure (citersOf (ω'.ids.items .graph graph) id)) := by
    refine fun id => .pure fun citer => ?_
    simp only [mem_citersOf, (ω.ids.perm_items ω'.ids .graph .graph graph).mem_iff]
  refine (close_related (fun _ _ => perm_append_comm) (fun _ _ => perm_append_comm) hsame
    graph.keys.card (ω.ids.nodup _ _) (List.Perm.refl _) (List.Perm.refl _)
    (ω.ids.perm_order ω'.ids _ _ _)).bind_eq fun reaching reaching' hperm => ?_
  rw [toFinset_eq_of_perm _ _ hperm]

/-- The conflicted state subgraph does not depend on the order of any loop. -/
lemma eval_computeConflictedStateSubgraph_congr (cap : ℕ) :
    eval V (computeConflictedStateSubgraph ω conflictedIds cap) =
      eval V (computeConflictedStateSubgraph ω' conflictedIds cap) := by
  have hpush : PushesNew fun _ (ancestors pending : List Str) => pending ++ ancestors := by
    constructor
    · intro graph found pending y hy
      exact (mem_append.mp hy).symm
    · intro graph found pending y hy
      exact .inl (mem_append.mpr hy.symm)
  refine eval_bind_congr rfl fun _ => eval_bind_congr ?_ fun graph => ?_
  · refine eval_explore_congr hpush cap fun id => ?_
    rw [ω.ids.mem, ω'.ids.mem]
  · refine eval_require_congr Iff.rfl fun hclosed => ?_
    have hprocessed := (processedCount_eq_card_iff ω hclosed).trans
      (processedCount_eq_card_iff ω' hclosed).symm
    exact eval_require_congr hprocessed fun _ => eval_reachingEndpoint_congr ω ω' conflictedIds

end Subgraph

end Merovingian
