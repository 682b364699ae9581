import Merovingian.Events.AuthSelection
import Merovingian.Events.StatePartition

/-!
# State resolution does not depend on order

Two servers that resolve the same state groups get the same answer, although they go through the
groups, their events and every hash container in orders of their own.  Each phase of
`resolve_state_v2` is shown to compute the same from inputs in another order: the full
conflicted set, the two orderings, the selection of power events, and the auth checks, which run
through lists that are the same by then.
-/

namespace Merovingian

open Walk List StateEventReference

variable {V : Str → Option SourceEvent}

/-! ### The comparison of the two orderings -/

section Ranks

variable {ρ : Type} [LinearOrder ρ] {a b c : ρ × Int64 × Str}

/-- The comparison as a lexicographic one. -/
def rankKey (a : ρ × Int64 × Str) : ρᵒᵈ ×ₗ Int64 ×ₗ Str :=
  toLex (OrderDual.toDual a.1, toLex (a.2.1, a.2.2))

lemma rankedBefore_iff : rankedBefore a b = true ↔ rankKey a < rankKey b := by
  obtain ⟨ra, ta, ida⟩ := a
  obtain ⟨rb, tb, idb⟩ := b
  simp only [rankedBefore, rankKey, Prod.Lex.toLex_lt_toLex]
  by_cases hr : ra = rb
  · by_cases ht : ta = tb
    · simp [hr, ht]
    · simp [hr, ht]
  · simp [hr]

/-- What is not ranked before another one comes after it or is the same. -/
lemma rankedBefore_eq_false : rankedBefore b a = false ↔ rankKey a ≤ rankKey b := by
  rw [← Bool.not_eq_true, rankedBefore_iff, not_lt]

omit [LinearOrder ρ] in
lemma rankKey_injective : Function.Injective (rankKey : ρ × Int64 × Str → _) := by
  rintro ⟨ra, ta, ida⟩ ⟨rb, tb, idb⟩ h
  simpa [rankKey] using h

end Ranks

/-! ### The power ordering -/

section PowerSort

variable (byId : Map Str StateEventReference) (powers : Map Str Int64)

lemma powerRank_injective : Function.Injective (powerRank byId powers) := fun _ _ h =>
  (Prod.mk.inj (Prod.mk.inj h).2).2

lemma insertReady_comm (x y : Str) (ready : List Str) :
    insertReady byId powers x (insertReady byId powers y ready) =
      insertReady byId powers y (insertReady byId powers x ready) := by
  let r := fun x y => precedes byId powers y x = false
  have hr : ∀ {x y}, r x y ↔ rankKey (powerRank byId powers x) ≤ rankKey (powerRank byId powers y) :=
    rankedBefore_eq_false
  have : Std.Total r := ⟨fun x y => by rw [hr, hr]; exact le_total _ _⟩
  have : IsTrans Str r := ⟨fun x y z hxy hyz => hr.mpr ((hr.mp hxy).trans (hr.mp hyz))⟩
  have : Std.Antisymm r := ⟨fun x y hxy hyx => powerRank_injective byId powers
    (rankKey_injective (le_antisymm (hr.mp hxy) (hr.mp hyx)))⟩
  exact Kahn.orderedInsert_comm (r := r) x y ready

/-- The power ordering does not depend on the order of its input. -/
lemma powerOrder_perm {conflicted conflicted' : List StateEventReference}
    (h : conflicted.Perm conflicted') :
    powerOrder byId powers conflicted = powerOrder byId powers conflicted' := by
  have hready : ∀ ready, conflicted.foldl (fun ready event =>
      if unmetAuthEvents byId event.eventId = 0 then insertReady byId powers event.eventId ready
      else ready) ready = conflicted'.foldl (fun ready event =>
      if unmetAuthEvents byId event.eventId = 0 then insertReady byId powers event.eventId ready
      else ready) ready := by
    refine h.foldl_eq' fun event _ event' _ ready => ?_
    split <;> split <;> simp [insertReady_comm byId powers]
  rw [powerOrder, hready, h.length_eq]
  refine Kahn.kahn_congr (insertReady_comm byId powers) (fun id => ?_) _ _
  exact h.flatMap_right _

end PowerSort

lemma emplaceAll_byId_perm {events events' : List StateEventReference}
    (hids : ∀ e ∈ events, ∀ e' ∈ events, e.eventId = e'.eventId → e = e')
    (h : events.Perm events') :
    emplaceAll (∅ : Map Str StateEventReference) (events.map fun event => (event.eventId, event)) =
      emplaceAll ∅ (events'.map fun event => (event.eventId, event)) := by
  refine emplaceAll_congr ∅ (fun p hp q hq hpq => ?_) fun p => (h.map _).mem_iff
  obtain ⟨e, he, rfl⟩ := mem_map.mp hp
  obtain ⟨e', he', rfl⟩ := mem_map.mp hq
  exact hids e he e' he' hpq

/-- The reverse topological power sort does not depend on the order of its input. -/
lemma reverseTopologicalPowerSort_perm {conflicted conflicted' : List StateEventReference}
    (h : conflicted.Perm conflicted') (knownEvents : EventJsonIndex) (eventLookup : EventLookupFn)
    (policy : RoomVersionPolicy) (limits : StateResolutionLimits) :
    reverseTopologicalPowerSort conflicted knownEvents eventLookup policy limits =
      reverseTopologicalPowerSort conflicted' knownEvents eventLookup policy limits := by
  have hids := h.map eventId
  rw [reverseTopologicalPowerSort, reverseTopologicalPowerSort, h.length_eq]
  by_cases hnodup : (conflicted.map eventId).Nodup
  · have hkey : ∀ e ∈ conflicted, ∀ e' ∈ conflicted, e.eventId = e'.eventId → e = e' :=
      fun e he e' he' => inj_on_of_nodup_map hnodup he he'
    have hpowers : ∀ V : Str → Option SourceEvent,
        eval V (powersById conflicted policy) = eval V (powersById conflicted' policy) :=
      fun V => eval_gather_perm hkey h
    simp [run_congr hpowers, if_pos hnodup, if_pos (hids.nodup_iff.mp hnodup),
      emplaceAll_byId_perm hkey h, powerOrder_perm _ _ h]
  · -- a repeated event id fails the sort, whatever the powers are
    have hnodup' : ¬(conflicted'.map eventId).Nodup := fun hn =>
      hnodup (hids.nodup_iff.mpr hn)
    simp only [if_neg hnodup']
    split
    · rfl
    · split <;> split <;> rfl

/-! ### The mainline ordering -/

/-- The mainline ordering does not depend on the order of its input. -/
lemma eval_mainlineOrderWithSource_perm {events events' : List StateEventReference}
    (hids : ∀ e ∈ events, ∀ e' ∈ events, e.eventId = e'.eventId → e = e')
    (h : events.Perm events') (resolved : StateMap) (limits : StateResolutionLimits) :
    eval V (mainlineOrderWithSource events resolved limits) =
      eval V (mainlineOrderWithSource events' resolved limits) := by
  refine eval_bind_congr rfl fun mainline => ?_
  refine eval_bind_congr (eval_gather_perm hids h) fun positions => ?_
  congr 2
  let r := fun a b => rankedBefore (mainlineRank positions b) (mainlineRank positions a) = false
  have hr : ∀ {a b}, r a b ↔
      rankKey (mainlineRank positions a) ≤ rankKey (mainlineRank positions b) :=
    rankedBefore_eq_false
  have : Std.Total r := ⟨fun a b => by rw [hr, hr]; exact le_total _ _⟩
  have : IsTrans StateEventReference r := ⟨fun a b c hab hbc =>
    hr.mpr ((hr.mp hab).trans (hr.mp hbc))⟩
  refine ((perm_insertionSort r events).trans
    (h.trans (perm_insertionSort r events').symm)).eq_of_pairwise (fun a b ha hb hab hba => ?_)
    (pairwise_insertionSort r events) (pairwise_insertionSort r events')
  have hrank := rankKey_injective (le_antisymm (hr.mp hab) (hr.mp hba))
  refine hids a ((perm_insertionSort r events).mem_iff.mp ha) b
    (h.mem_iff.mpr ((perm_insertionSort r events').mem_iff.mp hb)) ?_
  exact (Prod.mk.inj (Prod.mk.inj hrank).2).2

/-! ### The full conflicted set -/

/-- Events are filed under their own ids. -/
def FiledById (full : Map Str StateEventReference) : Prop :=
  ∀ id event, full.lookup id = some event → event.eventId = id

section Materialize

variable {full full' : Map Str StateEventReference} {id id' : Str} {keys : Finset Str}

lemma materializeInto_of_mem (h : id ∈ full) : materializeInto full id = pure full := if_pos h

lemma materializeInto_of_notMem (h : id ∉ full) : materializeInto full id =
    materializeRef id >>= fun event => pure (emplace full id event) := if_neg h

lemma eval_materializeInto_of_mem (h : id ∈ full) :
    eval V (materializeInto full id >>= fun full => materializeInto full id') =
      eval V (materializeInto full id' >>= fun full => materializeInto full id) := by
  rw [materializeInto_of_mem h, pure_bind]
  by_cases h' : id' ∈ full
  · rw [materializeInto_of_mem h', pure_bind, materializeInto_of_mem h]
  · rw [materializeInto_of_notMem h', bind_assoc]
    refine eval_bind_congr rfl fun event => ?_
    rw [pure_bind, materializeInto_of_mem (mem_emplace.mpr (.inl h))]

lemma eval_materializeInto_comm (full : Map Str StateEventReference) (id id' : Str) :
    eval V (materializeInto full id >>= fun full => materializeInto full id') =
      eval V (materializeInto full id' >>= fun full => materializeInto full id) := by
  by_cases heq : id = id'
  · rw [heq]
  by_cases h : id ∈ full
  · exact eval_materializeInto_of_mem h
  by_cases h' : id' ∈ full
  · exact (eval_materializeInto_of_mem h').symm
  have hnot : ∀ {j k : Str} (event), j ≠ k → j ∉ full → j ∉ emplace full k event := by
    intro j k event hne hj hmem
    rcases mem_emplace.mp hmem with hmem | hmem
    · exact hj hmem
    · exact hne hmem
  rw [materializeInto_of_notMem h, materializeInto_of_notMem h', bind_assoc, bind_assoc]
  simp only [pure_bind, materializeInto_of_notMem (hnot _ (Ne.symm heq) h'),
    materializeInto_of_notMem (hnot _ heq h)]
  rw [eval_swap]
  refine eval_bind_congr rfl fun event' => eval_bind_congr rfl fun event => ?_
  rw [emplace_comm full event event' heq]

lemma materializeRef_eventId {event : StateEventReference}
    (h : eval V (materializeRef id) = some (event, keys)) : event.eventId = id := by
  obtain ⟨found, _, _, -, h, -⟩ := eval_bind_eq_some.mp h
  obtain ⟨obj, _, _, -, h, -⟩ := eval_bind_eq_some.mp h
  obtain ⟨eventType, _, _, -, h, -⟩ := eval_bind_eq_some.mp h
  obtain ⟨stateKey, _, _, -, h, -⟩ := eval_bind_eq_some.mp h
  cases h
  rfl

lemma FiledById.materializeInto (hfiled : FiledById full)
    (h : eval V (materializeInto full id) = some (full', keys)) : FiledById full' := by
  by_cases hid : id ∈ full
  · rw [materializeInto_of_mem hid] at h
    cases h
    exact hfiled
  · rw [materializeInto_of_notMem hid] at h
    obtain ⟨event, _, _, hevent, h, -⟩ := eval_bind_eq_some.mp h
    cases h
    intro j event' hlookup
    rw [lookup_emplace] at hlookup
    rcases Option.or_eq_some_iff.mp hlookup with hlookup | ⟨-, hlookup⟩
    · exact hfiled j event' hlookup
    · split at hlookup
      · rename_i hj
        rw [← Option.some.inj hlookup, hj]
        exact materializeRef_eventId hevent
      · cases hlookup

lemma FiledById.materializeAll {ids : List Str}
    (hfiled : FiledById full) (h : eval V (materializeAll ids full) = some (full', keys)) :
    FiledById full' :=
  eval_fold_invariant (fun _ _ _ _ hfull hstep => FiledById.materializeInto hfull hstep) hfiled h

lemma filedById_emplaceAll (events : List StateEventReference) :
    FiledById (emplaceAll ∅ (events.map fun event => (event.eventId, event))) := by
  intro id event hlookup
  rcases lookup_emplaceAll_eq_some hlookup with h | h
  · cases h
  · obtain ⟨event', -, heq⟩ := mem_map.mp h
    cases heq
    rfl

end Materialize

/-! ### Computations over the shared cache -/

section Resolving

variable {α β : Type} {source : Walk.Source Str SourceEvent} {reason : Str} {m : Resolving α}

lemma resolving_bind_ok {f : α → Resolving β} {cache cache' : FetchCache} {b : β}
    (h : (m >>= f) cache = .ok (b, cache')) :
    ∃ a cache₁, m cache = .ok (a, cache₁) ∧ f a cache₁ = .ok (b, cache') := by
  replace h : (m cache >>= fun r => f r.1 r.2) = .ok (b, cache') := h
  cases hm : m cache with
  | error reason =>
    rw [hm] at h
    cases h
  | ok r =>
    rw [hm] at h
    exact ⟨r.1, r.2, rfl, h⟩

lemma resolving_bind_congr {f f' : α → Resolving β}
    (hf : ∀ cache a cache', m cache = .ok (a, cache') → f a cache' = f' a cache') :
    m >>= f = m >>= f' := by
  funext cache
  show (m cache >>= fun r => f r.1 r.2) = m cache >>= fun r => f' r.1 r.2
  cases h : m cache with
  | error reason => rfl
  | ok r => exact hf cache r.1 r.2 h

lemma attempt_congr {w w' : AuthWalk α} (h : ∀ V, eval V w = eval V w') :
    attempt source reason w = attempt source reason w' := by
  funext cache
  rw [attempt, attempt, run_congr h]

lemma eval_of_attempt {w : AuthWalk α} {cache cache' : FetchCache} {a : α}
    (h : attempt source reason w cache = .ok (a, cache')) :
    ∃ asked, eval (source.view cache) w = some (a, asked) := by
  rw [attempt] at h
  cases hrun : Walk.run source w cache with
  | none =>
    rw [hrun] at h
    cases h
  | some r =>
    rw [hrun] at h
    obtain rfl : r = (a, cache') := Except.ok.inj h
    exact eval_of_run hrun

lemma attempt_bind_related {r : α → α → Prop} {w w' : AuthWalk α} {f f' : α → Resolving β}
    (h : ∀ V, Related V r w w') (hf : ∀ a a', r a a' → f a = f' a') :
    attempt source reason w >>= f = attempt source reason w' >>= f' := by
  funext cache
  show (attempt source reason w cache >>= fun p => f p.1 p.2) =
    attempt source reason w' cache >>= fun p => f' p.1 p.2
  rw [attempt, attempt]
  rcases optionRel_iff.mp (Related.run h cache) with ⟨hw, hw'⟩ | ⟨p, q, hw, hw', hr, hcache⟩
  · rw [hw, hw']
    rfl
  · rw [hw, hw']
    show f p.1 p.2 = f' q.1 q.2
    rw [hf p.1 q.1 hr, hcache]

end Resolving

section Phases

variable (ω ω' : IterationOrder) {source : Walk.Source Str SourceEvent}
  {request : StateResolutionRequest} {groups' : List StateGroup} {policy : RoomVersionPolicy}
  {allConflicted allConflicted' : List StateEventReference} {full : Map Str StateEventReference}

lemma filedById_fullConflictedSet {cache cache' : FetchCache}
    (h : fullConflictedSet ω source request policy allConflicted cache = .ok (full, cache')) :
    FiledById full := by
  obtain ⟨difference, _, -, h⟩ := resolving_bind_ok h
  obtain ⟨withDifference, _, hdifference, h⟩ := resolving_bind_ok h
  obtain ⟨_, heval⟩ := eval_of_attempt hdifference
  have hfiled := (filedById_emplaceAll allConflicted).materializeAll heval
  split at h
  · obtain ⟨subgraph, _, -, h⟩ := resolving_bind_ok h
    obtain ⟨_, heval⟩ := eval_of_attempt h
    exact hfiled.materializeAll heval
  · obtain ⟨rfl, -⟩ := Prod.mk.inj (Except.ok.inj h)
    exact hfiled

/-- The selected power events do not depend on any order but for their own. -/
lemma selectPowerEvents_related (cap : ℕ) :
    Related V Perm (selectPowerEvents ω full cap) (selectPowerEvents ω' full cap) := by
  have hnodup : ∀ ω : IterationOrder, (((ω.ids.items .powerEvents full).filter fun item =>
      isPowerEvent item.2).map Prod.fst).Nodup := fun ω =>
    (ω.ids.nodup_map_fst_items .powerEvents full).sublist (filter_sublist.map Prod.fst)
  have hqueue : ∀ (ω : IterationOrder) (ids : List Str), ids.Nodup →
      (ω.ids.order .selected ids.toFinset).reverse.Perm ids := by
    intro ω ids hids
    refine (reverse_perm _).trans ?_
    refine (perm_ext_iff_of_nodup (ω.ids.nodup _ _) hids).mpr fun id => ?_
    rw [ω.ids.mem, mem_toFinset]
  have hpush : ∀ new queue : List Str, (new.reverse ++ queue).Perm (new ++ queue) :=
    fun new queue => (reverse_perm new).append_right queue
  refine close_related hpush hpush (fun id => ?_) _ (hnodup ω) (hqueue ω _ (hnodup ω))
    (hqueue ω' _ (hnodup ω')) (((ω.ids.perm_items ω'.ids _ _ full).filter _).map _)
  refine (Related.of_eq (r := Eq) (fun _ => rfl) rfl).bind fun event _ hevent => ?_
  subst hevent
  refine (Related.of_eq (r := Eq) (fun _ => rfl) rfl).bind fun chain _ hchain => ?_
  subst hchain
  refine .pure fun ancestorId => ?_
  simp [Listing.mem]

/-- The resolution of the full conflicted set does not depend on any order. -/
lemma resolveConflicts_congr (sodium : Sodium) (initial : StateMap) (hfiled : FiledById full)
    (hindex : buildEventJsonIndex request.stateGroups = buildEventJsonIndex groups') :
    resolveConflicts sodium ω source request policy initial full =
      resolveConflicts sodium ω' source { request with stateGroups := groups' } policy initial
        full := by
  refine attempt_bind_related (fun V => selectPowerEvents_related ω ω' _)
    fun powerIds powerIds' hpower => ?_
  have hremaining : (((ω.ids.items .remaining full).filter fun item => item.1 ∉ powerIds).map
      Prod.snd).Perm (((ω'.ids.items .remaining full).filter fun item => item.1 ∉ powerIds').map
        Prod.snd) := by
    simp only [hpower.mem_iff]
    exact ((ω.ids.perm_items ω'.ids _ _ full).filter _).map _
  have hids : ∀ e ∈ ((ω.ids.items .remaining full).filter fun item => item.1 ∉ powerIds).map
      Prod.snd, ∀ e' ∈ ((ω.ids.items .remaining full).filter fun item => item.1 ∉ powerIds).map
        Prod.snd, e.eventId = e'.eventId → e = e' := by
    intro e he e' he' heq
    obtain ⟨⟨id, _⟩, hmem, rfl⟩ := mem_map.mp he
    obtain ⟨⟨id', _⟩, hmem', rfl⟩ := mem_map.mp he'
    have hlookup := ω.ids.mem_items.mp (mem_filter.mp hmem).1
    have hlookup' := ω.ids.mem_items.mp (mem_filter.mp hmem').1
    have hid : id = id' := (hfiled _ _ hlookup).symm.trans (heq.trans (hfiled _ _ hlookup'))
    subst hid
    exact Option.some.inj (hlookup.symm.trans hlookup')
  simp only [reverseTopologicalPowerSort_perm (hpower.filterMap _), hindex,
    attempt_congr fun V => eval_mainlineOrderWithSource_perm (V := V) hids hremaining _ _]

variable (h : PermutedGroups request.stateGroups groups')
  (hids : ∀ e ∈ allConflicted, ∀ e' ∈ allConflicted, e.eventId = e'.eventId → e = e')
  (hperm : allConflicted.Perm allConflicted')

include h hids hperm

/-- The full conflicted set does not depend on any order. -/
lemma fullConflictedSet_congr :
    fullConflictedSet ω source request policy allConflicted =
      fullConflictedSet ω' source { request with stateGroups := groups' } policy allConflicted' := by
  have hmaterialize : ∀ (reason : Str) (site : IterationSite) (ids : Finset Str)
      (full : Map Str StateEventReference),
      attempt source reason (materializeAll (ω.ids.order site ids) full) =
        attempt source reason (materializeAll (ω'.ids.order site ids) full) :=
    fun reason site ids full => attempt_congr fun V =>
      eval_fold_perm (ω.ids.perm_order ω'.ids site site ids)
        (fun full id _ id' _ => eval_materializeInto_comm full id id') full
  have hconflicted := toFinset_eq_of_perm _ _ (hperm.map eventId)
  simp [fullConflictedSet, emplaceAll_byId_perm hids hperm, hmaterialize, hconflicted,
    attempt_congr fun V => eval_computeAuthDifference_congr (V := V) h _,
    attempt_congr fun V => eval_computeConflictedStateSubgraph_congr (V := V) ω ω' _ _]

/-- The resolution of conflicted state does not depend on any order. -/
lemma resolveConflicted_congr (sodium : Sodium) (hunique : UniqueIds request.stateGroups)
    (unconflicted : StateMap) :
    resolveConflicted sodium ω request policy unconflicted allConflicted =
      resolveConflicted sodium ω' { request with stateGroups := groups' } policy unconflicted
        allConflicted' := by
  have hindex := buildEventJsonIndex_congr hunique h
  simp only [resolveConflicted, fullConflictedSet_congr ω ω' h hids hperm, ← hindex,
    ← rejectedEventIds_congr h, assignAll_items]
  refine resolving_bind_congr fun cache full cache' hfull => ?_
  refine congrFun (congrArg (initialState _ policy request.roomId unconflicted >>= ·) ?_) cache'
  funext initial
  rw [resolveConflicts_congr ω ω' sodium initial (filedById_fullConflictedSet ω' hfull) hindex]

end Phases

/-! ### Order independence -/

variable {request : StateResolutionRequest} {groups' : List StateGroup}

lemma validateStateResolutionRequest_congr (h : PermutedGroups request.stateGroups groups') :
    validateStateResolutionRequest request = none ↔
      validateStateResolutionRequest { request with stateGroups := groups' } = none := by
  simp only [validateStateResolutionRequest, h.length_eq]
  split
  · rfl
  · exact validateGroups_congr h

/-- State resolution does not depend on the order of the state groups, on the order of the events
in them, or on the order in which any hash container is gone through: the same requests are
resolved, and to the same references.  Nothing is asked of the lookup function, which need not
agree with the groups. -/
theorem resolveStateV2_order_independent (sodium : Sodium) (policy : RoomVersionPolicy)
    (ω ω' : IterationOrder) (hunique : UniqueIds request.stateGroups)
    (h : PermutedGroups request.stateGroups groups') :
    (resolveStateV2 sodium ω request policy).resolved =
        (resolveStateV2 sodium ω' { request with stateGroups := groups' } policy).resolved ∧
      (resolveStateV2 sodium ω request policy).resolvedState.Perm
        (resolveStateV2 sodium ω' { request with stateGroups := groups' } policy).resolvedState := by
  have hvalid := validateStateResolutionRequest_congr h
  obtain ⟨hunconflicted, hconflicted⟩ :=
    partitionConflictedState_congr request.limits ω ω' hunique h
  rw [resolveStateV2, resolveStateV2]
  cases hv : validateStateResolutionRequest request with
  | some error =>
    obtain ⟨error', hv'⟩ := Option.ne_none_iff_exists'.mp fun hnone =>
      Option.some_ne_none error (hv.symm.trans (hvalid.mpr hnone))
    rw [hv']
    exact ⟨rfl, List.Perm.refl _⟩
  | none =>
    rw [hvalid.mp hv]
    have hcollected := collectConflicted_perm hunique h hconflicted
    have hids : ∀ e ∈ collectConflicted request.stateGroups
        (partitionConflictedState ω request.stateGroups request.limits).2,
        ∀ e' ∈ collectConflicted request.stateGroups
        (partitionConflictedState ω request.stateGroups request.limits).2,
        e.eventId = e'.eventId → e = e' := fun e he e' he' =>
      hunique e (mem_filter.mp (mem_of_mem_firstBy he).1).1 e'
        (mem_filter.mp (mem_of_mem_firstBy he').1).1
    have hnil : request.stateGroups = [] ↔ groups' = [] := by
      rw [← length_eq_zero_iff, h.length_eq, length_eq_zero_iff]
    simp only [hnil, hunconflicted, hconflicted, hcollected.length_eq,
      ← length_eq_zero_iff (l := collectConflicted _ _),
      resolveConflicted_congr ω ω' h hids hcollected sodium hunique]
    -- the same branch is taken on both sides
    split
    · exact ⟨rfl, List.Perm.refl _⟩
    · split
      · exact ⟨rfl, List.Perm.refl _⟩
      · split
        · exact ⟨rfl, List.Perm.refl _⟩
        · split
          · exact ⟨rfl, (ω.keys.perm_items ω'.keys _ _ _).map _⟩
          · split
            · exact ⟨rfl, List.Perm.refl _⟩
            · exact ⟨rfl, (ω.keys.perm_items ω'.keys _ _ _).map _⟩

/-! ### A fork with two topics -/

/-- A state event of the room, as it is submitted. -/
def roomEvent (eventId eventType stateKey : Str) (ts : Int64) (authEvents : List Str)
    (content : Object) : StateEventReference where
  key := ⟨eventType, stateKey⟩
  eventId := eventId
  sender := "@a:x"
  originServerTs := ts
  eventJson := .obj [("type", .str eventType), ("sender", .str "@a:x"),
    ("state_key", .str stateKey), ("room_id", .str "!r:x"),
    ("auth_events", .arr (authEvents.map Value.str)), ("prev_events", .arr [.str "$p"]),
    ("content", .obj content)]

/-- The create event of the room. -/
def roomCreate : StateEventReference :=
  roomEvent "$create" "m.room.create" [] 1 [] [("room_version", .str "11")]

/-- The membership of its creator. -/
def roomMember : StateEventReference :=
  roomEvent "$member" "m.room.member" "@a:x" 2 ["$create"] [("membership", .str "join")]

/-- One of two topics that are set on two branches. -/
def roomTopic (eventId : Str) (ts : Int64) : StateEventReference :=
  roomEvent eventId "m.room.topic" [] ts ["$create", "$member"] []

/-- The two branches. -/
def forkRequest : StateResolutionRequest where
  stateGroups := [⟨"1", [roomCreate, roomMember, roomTopic "$one" 3]⟩,
    ⟨"2", [roomCreate, roomMember, roomTopic "$two" 4]⟩]

/-- The two branches the other way round. -/
def swappedFork : List StateGroup :=
  [⟨"2", [roomTopic "$two" 4, roomCreate, roomMember]⟩,
    ⟨"1", [roomMember, roomCreate, roomTopic "$one" 3]⟩]

/-- The room version of the fork. -/
def forkPolicy : RoomVersionPolicy := (findRoomVersionPolicy "11").getD {}

instance : LinearOrder StateKey :=
  LinearOrder.lift' (fun key => toLex (key.eventType, key.stateKey)) fun
    | ⟨_, _⟩, ⟨_, _⟩, h => by simpa using h

/-- Containers that are gone through in increasing order. -/
def increasingOrder : IterationOrder := ⟨.sorted, .sorted⟩

lemma uniqueIds_forkRequest : UniqueIds forkRequest.stateGroups := by
  intro a ha b hb hab
  simp only [forkRequest, flatMap_cons, flatMap_nil, cons_append, nil_append, mem_cons, not_mem_nil,
    or_false] at ha hb
  rcases ha with rfl | rfl | rfl | rfl | rfl | rfl <;>
    rcases hb with rfl | rfl | rfl | rfl | rfl | rfl <;>
    first
    | rfl
    | exact absurd hab (by decide)

lemma permutedGroups_swappedFork : PermutedGroups forkRequest.stateGroups swappedFork := by
  refine ⟨_, Perm.swap _ _ _, .cons ⟨rfl, ?_⟩ (.cons ⟨rfl, ?_⟩ .nil)⟩
  · exact ((Perm.swap _ _ _).cons _).trans (Perm.swap _ _ _)
  · exact Perm.swap _ _ _

/-- The later of the two topics wins in both orders, since both may be set. -/
theorem resolveStateV2_order_independent_fork :
    UniqueIds forkRequest.stateGroups ∧ PermutedGroups forkRequest.stateGroups swappedFork ∧
      (resolveStateV2 inviteSodium increasingOrder forkRequest forkPolicy).resolved = true ∧
      ((resolveStateV2 inviteSodium increasingOrder forkRequest forkPolicy).resolvedState.map
        StateEventReference.eventId) = [lit "$create", lit "$member", lit "$two"] ∧
      (resolveStateV2 inviteSodium increasingOrder
        { forkRequest with stateGroups := swappedFork } forkPolicy).resolved = true := by
  have hresolved :
      (resolveStateV2 inviteSodium increasingOrder forkRequest forkPolicy).resolved = true := by
    decide
  refine ⟨uniqueIds_forkRequest, permutedGroups_swappedFork, hresolved, by decide, ?_⟩
  rw [← hresolved]
  exact (resolveStateV2_order_independent inviteSodium forkPolicy increasingOrder
    increasingOrder uniqueIds_forkRequest permutedGroups_swappedFork).1.symm

end Merovingian
