import Merovingian.Events.AuthChainOrder
import Merovingian.Events.StateResolution

/-!
# Unconflicted and conflicted state

The tally of `partition_conflicted_state` counts, for every state key, the groups that hold it and
the distinct events it has there.  This file says what the counts amount to: a key is unconflicted
exactly when all groups hold it with one event (`Agreement`).
-/

namespace Merovingian

open List StateGroup Finmap KeyTally

/-! ### Groups in another order -/

/-- Two references with one event id are identical. -/
def UniqueIds (groups : List StateGroup) : Prop :=
  ∀ a ∈ groups.flatMap StateGroup.state, ∀ b ∈ groups.flatMap StateGroup.state,
    a.eventId = b.eventId → a = b

namespace PermutedGroups

variable {groups groups' : List StateGroup}

section

variable (h : PermutedGroups groups groups')

include h

lemma flatMap_perm : (groups.flatMap state).Perm (groups'.flatMap state) := by
  obtain ⟨middle, hperm, hstates⟩ := h
  refine (hperm.flatMap_right _).trans ?_
  clear hperm
  induction hstates with
  | nil => exact Perm.refl _
  | cons hg _ ih =>
    exact hg.2.append ih

lemma length_eq : groups.length = groups'.length := by
  obtain ⟨middle, hperm, hstates⟩ := h
  rw [hperm.length_eq, hstates.length_eq]

lemma forall_iff {P : List StateEventReference → Prop} (hP : ∀ {l l'}, l.Perm l' → (P l ↔ P l')) :
    (∀ group ∈ groups, P group.state) ↔ ∀ group ∈ groups', P group.state := by
  obtain ⟨middle, hperm, hstates⟩ := h
  simp only [hperm.mem_iff]
  clear hperm
  induction hstates with
  | nil => simp
  | cons hg _ ih => rw [forall_mem_cons, forall_mem_cons, hP hg.2, ih]

lemma uniqueIds (hids : UniqueIds groups) : UniqueIds groups' := fun a ha b hb =>
  hids a (h.flatMap_perm.mem_iff.mpr ha) b (h.flatMap_perm.mem_iff.mpr hb)

end

end PermutedGroups

/-! ### Validation -/

section Validation

variable {limits : StateResolutionLimits} {groups groups' : List StateGroup}

lemma validateGroups_eq_none {total : ℕ} (htotal : total ≤ limits.maxTotalStateEvents) :
    validateGroups limits total groups = none ↔
      (∀ group ∈ groups, group.state.length ≤ limits.maxEventsPerStateGroup) ∧
        total + (groups.flatMap state).length ≤ limits.maxTotalStateEvents := by
  induction groups generalizing total with
  | nil => simp [validateGroups, htotal]
  | cons group groups ih =>
    rw [validateGroups, flatMap_cons, length_append, forall_mem_cons]
    by_cases hgroup : limits.maxEventsPerStateGroup < group.state.length
    · rw [if_pos hgroup]
      constructor
      · intro h
        cases h
      · rintro ⟨⟨hle, -⟩, -⟩
        omega
    · rw [if_neg hgroup]
      by_cases hsum : limits.maxTotalStateEvents < total ∨
          limits.maxTotalStateEvents - total < group.state.length
      · rw [if_pos hsum]
        constructor
        · intro h
          cases h
        · rintro ⟨-, hle⟩
          omega
      · rw [if_neg hsum, ih (by omega), and_assoc, Nat.add_assoc]
        constructor
        · rintro ⟨hall, hle⟩
          exact ⟨by omega, hall, hle⟩
        · rintro ⟨-, hall, hle⟩
          exact ⟨hall, hle⟩

lemma validateGroups_congr (h : PermutedGroups groups groups') :
    validateGroups limits 0 groups = none ↔ validateGroups limits 0 groups' = none := by
  rw [validateGroups_eq_none (Nat.zero_le _), validateGroups_eq_none (Nat.zero_le _),
    h.flatMap_perm.length_eq]
  refine and_congr_left fun _ => h.forall_iff (P := fun l => l.length ≤ _) fun hp => ?_
  rw [hp.length_eq]

end Validation

/-! ### The tally -/

variable {event : StateEventReference} {tally : KeyTally} {i : ℕ}

section Tally

variable {limits : StateResolutionLimits} {seen rest : List (ℕ × StateEventReference)}
  {tallies : Map StateKey KeyTally} {key : StateKey}

/-- The indices of the groups that hold a key. -/
def groupsHolding (seen : List (ℕ × StateEventReference)) (key : StateKey) : Finset ℕ :=
  ((seen.filter fun p => p.2.key = key).map Prod.fst).toFinset

lemma mem_groupsHolding :
    i ∈ groupsHolding seen key ↔ ∃ event, (i, event) ∈ seen ∧ event.key = key := by
  simp only [groupsHolding, mem_toFinset, mem_map, mem_filter, decide_eq_true_eq]
  constructor
  · rintro ⟨⟨j, event⟩, ⟨hmem, hkey⟩, rfl⟩
    exact ⟨event, hmem, hkey⟩
  · rintro ⟨event, hmem, hkey⟩
    exact ⟨(i, event), ⟨hmem, hkey⟩, rfl⟩

lemma groupsHolding_append (seen : List (ℕ × StateEventReference)) (key : StateKey) (i : ℕ)
    (event : StateEventReference) :
    groupsHolding (seen ++ [(i, event)]) key =
      if event.key = key then insert i (groupsHolding seen key) else groupsHolding seen key := by
  split
  · next hkey => simp [groupsHolding, hkey]
  · next hkey => simp [groupsHolding, hkey]

/-- The tally of a key is right for the events seen so far. -/
structure Tallied (seen : List (ℕ × StateEventReference)) (key : StateKey) (tally : KeyTally) :
    Prop where
  firstEvent : ∃ i, (i, tally.firstEvent) ∈ seen
  firstKey : tally.firstEvent.key = key
  eventIds : ∀ id, id ∈ tally.eventIds ↔ ∃ p ∈ seen, p.2.key = key ∧ p.2.eventId = id
  groups : tally.groupsContaining = (groupsHolding seen key).card
  last_mem : tally.lastGroupCounted ∈ groupsHolding seen key
  last_max : ∀ i ∈ groupsHolding seen key, i ≤ tally.lastGroupCounted

/-- All tallies are right. -/
structure TalliesOf (seen : List (ℕ × StateEventReference)) (tallies : Map StateKey KeyTally) :
    Prop where
  mem : ∀ key, key ∈ tallies ↔ ∃ p ∈ seen, p.2.key = key
  tallied : ∀ key tally, tallies.lookup key = some tally → Tallied seen key tally

lemma Tallied.of_ne (h : Tallied seen key tally) (i : ℕ) (hne : event.key ≠ key) :
    Tallied (seen ++ [(i, event)]) key tally := by
  have hholding := groupsHolding_append seen key i event
  rw [if_neg hne] at hholding
  obtain ⟨j, hfirst⟩ := h.firstEvent
  refine ⟨⟨j, mem_append_left _ hfirst⟩, h.firstKey, fun id => ?_, hholding ▸ h.groups,
    hholding ▸ h.last_mem, hholding ▸ h.last_max⟩
  rw [h.eventIds, exists_mem_concat, or_iff_left]
  exact fun hnew => hne hnew.1

lemma Tallied.first (i : ℕ) (event : StateEventReference) (hnone : ∀ p ∈ seen, p.2.key ≠ event.key) :
    Tallied (seen ++ [(i, event)]) event.key (count { firstEvent := event } true i event) := by
  have hempty : groupsHolding seen event.key = ∅ := by
    refine Finset.eq_empty_of_forall_notMem fun j hj => ?_
    obtain ⟨event', hmem, hkey⟩ := mem_groupsHolding.mp hj
    exact hnone _ hmem hkey
  have hholding := groupsHolding_append seen event.key i event
  rw [hempty] at hholding
  refine ⟨⟨i, by simp [KeyTally.count]⟩, rfl, fun id => ?_, ?_, ?_, ?_⟩
  · rw [exists_mem_concat, or_iff_right fun ⟨p, hp, hkey, _⟩ => hnone p hp hkey]
    simp [KeyTally.count, eq_comm]
  · rw [hholding]
    simp [KeyTally.count]
  · rw [hholding]
    simp [KeyTally.count]
  · rw [hholding]
    simp [KeyTally.count]

/-- Another event of a key.  Its group is counted unless it was the last one counted; the
groups come in order, so that no earlier group can turn up again. -/
lemma Tallied.next (h : Tallied seen event.key tally) (hle : ∀ p ∈ seen, p.1 ≤ i) :
    Tallied (seen ++ [(i, event)]) event.key (tally.count false i event) := by
  have hholding := groupsHolding_append seen event.key i event
  rw [if_pos rfl] at hholding
  have hbound : ∀ j ∈ groupsHolding seen event.key, j ≤ i := by
    intro j hj
    obtain ⟨event', hmem, -⟩ := mem_groupsHolding.mp hj
    exact hle _ hmem
  obtain ⟨j, hfirst⟩ := h.firstEvent
  have hids : ∀ id, id ∈ (tally.count false i event).eventIds ↔
      ∃ p ∈ seen ++ [(i, event)], p.2.key = event.key ∧ p.2.eventId = id := by
    intro id
    rw [exists_mem_concat, ← h.eventIds, or_comm, eq_self, true_and, eq_comm]
    exact Finset.mem_insert
  by_cases hlast : tally.lastGroupCounted = i
  · have hmem : i ∈ groupsHolding seen event.key := hlast ▸ h.last_mem
    rw [Finset.insert_eq_of_mem hmem] at hholding
    refine ⟨⟨j, mem_append_left _ hfirst⟩, h.firstKey, hids, ?_, ?_, ?_⟩
    · rw [hholding]
      simpa [KeyTally.count, hlast] using h.groups
    · rw [hholding]
      simpa [KeyTally.count, hlast] using hmem
    · rw [hholding]
      simpa [KeyTally.count, hlast] using hbound
  · have hnot : i ∉ groupsHolding seen event.key := fun hmem =>
      hlast (le_antisymm (hbound _ h.last_mem) (h.last_max i hmem))
    refine ⟨⟨j, mem_append_left _ hfirst⟩, h.firstKey, hids, ?_, ?_, ?_⟩
    · rw [hholding, Finset.card_insert_of_notMem hnot, ← h.groups]
      simp [KeyTally.count, hlast]
    · rw [hholding]
      simp [KeyTally.count]
    · rw [hholding]
      simpa [KeyTally.count, hlast] using hbound

lemma TalliesOf.step (h : TalliesOf seen tallies) (event : StateEventReference)
    (hle : ∀ p ∈ seen, p.1 ≤ i) :
    TalliesOf (seen ++ [(i, event)]) (tallies.insert event.key
      (((tallies.lookup event.key).getD { firstEvent := event }).count
        (event.key ∉ tallies) i event)) := by
  constructor
  · intro key
    rw [mem_insert, h.mem, exists_mem_concat, or_comm, eq_comm]
  · intro key tally hlookup
    by_cases hkey : key = event.key
    · subst hkey
      rw [lookup_insert] at hlookup
      cases hlookup
      cases hold : tallies.lookup event.key with
      | none =>
        have hnot : event.key ∉ tallies := lookup_eq_none.mp hold
        rw [decide_eq_true hnot]
        exact Tallied.first i event fun p hp hkey => hnot ((h.mem _).mpr ⟨p, hp, hkey⟩)
      | some tally =>
        have hin : ¬event.key ∉ tallies := not_not.mpr (mem_of_lookup_eq_some hold)
        rw [decide_eq_false hin]
        exact (h.tallied _ _ hold).next hle
    · rw [lookup_insert_of_ne _ hkey] at hlookup
      exact (h.tallied _ _ hlookup).of_ne i (Ne.symm hkey)

lemma TalliesOf.run (h : TalliesOf seen tallies)
    (hsorted : (seen ++ rest).Pairwise fun p q => p.1 ≤ q.1) {result : Map StateKey KeyTally}
    (hresult : tallyEvents limits tallies rest = some result) : TalliesOf (seen ++ rest) result := by
  induction rest generalizing seen tallies with
  | nil =>
    cases hresult
    rw [append_nil]
    exact h
  | cons p rest ih =>
    obtain ⟨i, event⟩ := p
    rw [tallyEvents] at hresult
    split at hresult
    · cases hresult
    · rw [append_cons] at hsorted ⊢
      have hle : ∀ p ∈ seen, p.1 ≤ i := fun p hp =>
        (pairwise_append.mp (pairwise_append.mp hsorted).1).2.2 p hp (i, event) (by simp)
      exact ih (h.step event hle) hsorted hresult

/-- The tally gives up exactly when there are too many distinct keys. -/
lemma tallyEvents_eq_none (hcard : tallies.keys.card ≤ limits.maxConflictedStateKeys) :
    tallyEvents limits tallies rest = none ↔ limits.maxConflictedStateKeys <
      (tallies.keys ∪ (rest.map fun p => p.2.key).toFinset).card := by
  induction rest generalizing tallies with
  | nil => simp [tallyEvents, hcard]
  | cons p rest ih =>
    obtain ⟨i, event⟩ := p
    have hunion : tallies.keys ∪ ((i, event) :: rest |>.map fun p => p.2.key).toFinset =
        insert event.key tallies.keys ∪ (rest.map fun p => p.2.key).toFinset := by
      rw [map_cons, toFinset_cons, Finset.union_insert, Finset.insert_union]
    rw [tallyEvents, hunion]
    split
    · rename_i hlt
      have hle : (insert event.key tallies.keys).card ≤
          (insert event.key tallies.keys ∪ (rest.map fun p => p.2.key).toFinset).card :=
        Finset.card_le_card Finset.subset_union_left
      simp only [true_iff]
      exact lt_of_lt_of_le hlt hle
    · rename_i hle
      have hkeys : ∀ tally, (tallies.insert event.key tally).keys = insert event.key tallies.keys := by
        intro tally
        ext key
        rw [Finmap.mem_keys, Finmap.mem_insert, Finset.mem_insert, Finmap.mem_keys]
      rw [ih (by rw [hkeys]; omega), hkeys]

end Tally

/-! ### The partition -/

section Partition

variable {limits : StateResolutionLimits} {groups groups' : List StateGroup} {key : StateKey}
  (ω : IterationOrder)

lemma mem_indexedEvents :
    (i, event) ∈ indexedEvents groups ↔ ∃ group, groups[i]? = some group ∧ event ∈ group.state := by
  simp only [indexedEvents, mem_flatMap, mem_map, Prod.mk.injEq, Prod.exists,
    mem_zipIdx_iff_getElem?]
  constructor
  · rintro ⟨group, j, hgroup, event', hevent, rfl, rfl⟩
    exact ⟨group, hgroup, hevent⟩
  · rintro ⟨group, hgroup, hevent⟩
    exact ⟨group, i, hgroup, event, hevent, rfl, rfl⟩

lemma pairwise_indexedEvents (groups : List StateGroup) :
    (indexedEvents groups).Pairwise fun p q => p.1 ≤ q.1 := by
  have hidx : groups.zipIdx.Pairwise fun p q => p.2 ≤ q.2 := by
    rw [← pairwise_map (f := Prod.snd) (R := fun i j : ℕ => i ≤ j), zipIdx_map_snd]
    exact (pairwise_lt_range' 1).imp le_of_lt
  refine pairwise_flatMap.mpr ⟨fun entry _ => ?_, hidx.imp fun {a b} hab p hp q hq => ?_⟩
  · rw [pairwise_map]
    exact pairwise_of_forall fun _ _ => le_refl _
  · obtain ⟨event, -, rfl⟩ := mem_map.mp hp
    obtain ⟨event', -, rfl⟩ := mem_map.mp hq
    exact hab

lemma map_snd_indexedEvents (groups : List StateGroup) :
    (indexedEvents groups).map Prod.snd = groups.flatMap state := by
  rw [indexedEvents, map_flatMap]
  conv_rhs => rw [← zipIdx_map_fst 0 groups, flatMap_map]
  simp

lemma exists_mem_indexedEvents :
    (∃ i, (i, event) ∈ indexedEvents groups) ↔ event ∈ groups.flatMap state := by
  rw [← map_snd_indexedEvents]
  simp

lemma keys_indexedEvents (groups : List StateGroup) :
    ((indexedEvents groups).map fun p => p.2.key).toFinset =
      ((groups.flatMap state).map StateEventReference.key).toFinset := by
  rw [← map_snd_indexedEvents, map_map]
  rfl

/-- All groups hold the key, and with one event id. -/
@[mk_iff]
structure Agreement (groups : List StateGroup) (key : StateKey) : Prop where
  held : ∀ group ∈ groups, ∃ event ∈ group.state, event.key = key
  same : ∀ event ∈ groups.flatMap StateGroup.state, ∀ event' ∈ groups.flatMap StateGroup.state,
    event.key = key → event'.key = key → event.eventId = event'.eventId

lemma Agreement.congr (h : PermutedGroups groups groups') :
    Agreement groups key ↔ Agreement groups' key := by
  have hheld := h.forall_iff (P := fun l => ∃ event ∈ l, event.key = key) fun hp => by
    simp only [hp.mem_iff]
  rw [agreement_iff, agreement_iff, hheld]
  simp only [h.flatMap_perm.mem_iff]

lemma card_groupsHolding_iff : (groupsHolding (indexedEvents groups) key).card = groups.length ↔
    ∀ group ∈ groups, ∃ event ∈ group.state, event.key = key := by
  have hsub : groupsHolding (indexedEvents groups) key ⊆ Finset.range groups.length := by
    intro i hi
    obtain ⟨event, hmem, -⟩ := mem_groupsHolding.mp hi
    obtain ⟨group, hgroup, -⟩ := mem_indexedEvents.mp hmem
    exact Finset.mem_range.mpr (List.getElem?_eq_some_iff.mp hgroup).1
  constructor
  · intro hcard group hgroup
    have heq := Finset.eq_of_subset_of_card_le hsub (by rw [Finset.card_range, hcard])
    obtain ⟨i, hi⟩ := mem_iff_getElem?.mp hgroup
    have hmem : i ∈ groupsHolding (indexedEvents groups) key := by
      rw [heq, Finset.mem_range]
      exact (List.getElem?_eq_some_iff.mp hi).1
    obtain ⟨event, hevent, hkey⟩ := mem_groupsHolding.mp hmem
    obtain ⟨group', hgroup', hin⟩ := mem_indexedEvents.mp hevent
    obtain rfl : group' = group := Option.some.inj (hgroup'.symm.trans hi)
    exact ⟨event, hin, hkey⟩
  · intro hall
    have hsup : Finset.range groups.length ⊆ groupsHolding (indexedEvents groups) key := by
      intro i hi
      obtain ⟨group, hgroup⟩ : ∃ group, groups[i]? = some group :=
        ⟨_, getElem?_eq_getElem (Finset.mem_range.mp hi)⟩
      obtain ⟨event, hevent, hkey⟩ := hall group (mem_of_getElem? hgroup)
      exact mem_groupsHolding.mpr ⟨event, mem_indexedEvents.mpr ⟨group, hgroup, hevent⟩, hkey⟩
    rw [hsub.antisymm hsup, Finset.card_range]

lemma Tallied.agreed_iff (h : Tallied (indexedEvents groups) key tally) :
    tally.agreed groups.length = true ↔ Agreement groups key := by
  have hids : ∀ id, id ∈ tally.eventIds ↔
      ∃ event ∈ groups.flatMap state, event.key = key ∧ event.eventId = id := by
    intro id
    simp only [h.eventIds, ← map_snd_indexedEvents, mem_map, exists_exists_and_eq_and]
  have hfirst := exists_mem_indexedEvents.mp h.firstEvent
  have hcard : tally.eventIds.card = 1 ↔ ∀ event ∈ groups.flatMap state,
      ∀ event' ∈ groups.flatMap state, event.key = key → event'.key = key →
        event.eventId = event'.eventId := by
    rw [Finset.card_eq_one]
    constructor
    · rintro ⟨id, hid⟩ event hevent event' hevent' hkey hkey'
      have hmem := (hids event.eventId).mpr ⟨event, hevent, hkey, rfl⟩
      have hmem' := (hids event'.eventId).mpr ⟨event', hevent', hkey', rfl⟩
      rw [hid, Finset.mem_singleton] at hmem hmem'
      rw [hmem, hmem']
    · intro hsame
      refine ⟨tally.firstEvent.eventId, Finset.eq_singleton_iff_unique_mem.mpr
        ⟨(hids _).mpr ⟨_, hfirst, h.firstKey, rfl⟩, fun id hid => ?_⟩⟩
      obtain ⟨event, hevent, hkey, rfl⟩ := (hids id).mp hid
      exact hsame event hevent _ hfirst hkey h.firstKey
  rw [agreed, decide_eq_true_iff, h.groups, card_groupsHolding_iff, hcard, agreement_iff]

/-- What the two maps of the partition hold. -/
structure PartitionOf (groups : List StateGroup) (maps : StateMap × StateMap) : Prop where
  unconflicted : ∀ key event, maps.1.lookup key = some event ↔
    Agreement groups key ∧ event.key = key ∧ event ∈ groups.flatMap StateGroup.state
  conflicted : ∀ key, key ∈ maps.2 ↔ ¬Agreement groups key ∧
    ∃ event ∈ groups.flatMap StateGroup.state, event.key = key

/-- The groups are within the limits. -/
def WithinLimits (limits : StateResolutionLimits) (groups : List StateGroup) : Prop :=
  groups.length ≤ limits.maxStateGroups ∧ validateGroups limits 0 groups = none ∧
    ((groups.flatMap StateGroup.state).map StateEventReference.key).toFinset.card ≤
      limits.maxConflictedStateKeys

lemma WithinLimits.congr (h : PermutedGroups groups groups') :
    WithinLimits limits groups ↔ WithinLimits limits groups' := by
  rw [WithinLimits, WithinLimits, h.length_eq, validateGroups_congr h,
    toFinset_eq_of_perm _ _ (h.flatMap_perm.map StateEventReference.key)]

lemma partitionConflictedState_eq_empty (h : ¬WithinLimits limits groups) :
    partitionConflictedState ω groups limits = (∅, ∅) := by
  rw [partitionConflictedState]
  split
  · rfl
  · rename_i hlimits
    have hnone : tallyEvents limits ∅ (indexedEvents groups) = none := by
      rw [tallyEvents_eq_none (by simp), keys_empty, keys_indexedEvents]
      by_contra hle
      push Not at hlimits hle
      refine h ⟨hlimits.1, ?_, hle⟩
      rw [← Option.not_isSome_iff_eq_none]
      exact hlimits.2
    rw [hnone]

lemma partitionConflictedState_spec (hids : UniqueIds groups) (h : WithinLimits limits groups) :
    PartitionOf groups (partitionConflictedState ω groups limits) := by
  obtain ⟨hlength, hvalid, hkeys⟩ := h
  have hsome : ∃ tallies, tallyEvents limits ∅ (indexedEvents groups) = some tallies := by
    refine Option.ne_none_iff_exists'.mp fun hnone => ?_
    rw [tallyEvents_eq_none (by simp), keys_empty, Finset.empty_union,
      keys_indexedEvents] at hnone
    omega
  obtain ⟨tallies, htallies⟩ := hsome
  have hstart : TalliesOf [] (∅ : Map StateKey KeyTally) :=
    ⟨fun key => by simp [notMem_empty], fun key tally h => absurd h (by simp)⟩
  have hof : TalliesOf (indexedEvents groups) tallies :=
    hstart.run (pairwise_indexedEvents groups) htallies
  have hfind : ∀ event ∈ groups.flatMap state, ∃ tally, tallies.lookup event.key = some tally := by
    intro event hmem
    obtain ⟨i, hi⟩ := exists_mem_indexedEvents.mpr hmem
    exact mem_iff.mp ((hof.mem event.key).mpr ⟨_, hi, rfl⟩)
  have hcond : ¬(limits.maxStateGroups < groups.length ∨
      (validateGroups limits 0 groups).isSome) := by
    rw [hvalid]
    simp [hlength]
  have hsplit := foldl_emplace_split (fun item : StateKey × KeyTally => item.2.agreed groups.length)
    (fun item => (item.1, item.2.firstEvent)) (ω.keys.items .tallies tallies) (∅, ∅)
  rw [partitionConflictedState, if_neg hcond, htallies]
  dsimp only
  rw [hsplit]
  have hnodup : ∀ p : StateKey × KeyTally → Bool,
      ((((ω.keys.items .tallies tallies).filter p).map fun item =>
        (item.1, item.2.firstEvent)).map Prod.fst).Nodup := by
    intro p
    rw [map_map]
    exact (ω.keys.nodup_map_fst_items .tallies tallies).sublist (filter_sublist.map Prod.fst)
  constructor
  · intro key event
    rw [lookup_emplaceAll_empty (hnodup _)]
    simp only [mem_map, mem_filter, Listing.mem_items, Prod.mk.injEq, Prod.exists]
    constructor
    · rintro ⟨key', tally, ⟨hlookup, hagreed⟩, rfl, rfl⟩
      have htally := hof.tallied _ _ hlookup
      exact ⟨htally.agreed_iff.mp hagreed, htally.firstKey,
        exists_mem_indexedEvents.mp htally.firstEvent⟩
    · rintro ⟨hagreement, rfl, hmem⟩
      obtain ⟨tally, hlookup⟩ := hfind event hmem
      have htally := hof.tallied _ _ hlookup
      have hfirst := exists_mem_indexedEvents.mp htally.firstEvent
      refine ⟨event.key, tally, ⟨hlookup, htally.agreed_iff.mpr hagreement⟩, rfl, ?_⟩
      exact hids _ hfirst _ hmem (hagreement.same _ hfirst _ hmem htally.firstKey rfl)
  · intro key
    rw [mem_iff]
    simp only [lookup_emplaceAll_empty (hnodup _), mem_map, mem_filter,
      Listing.mem_items, Prod.mk.injEq, Prod.exists, Bool.not_eq_true']
    constructor
    · rintro ⟨event, key', tally, ⟨hlookup, hagreed⟩, rfl, rfl⟩
      have htally := hof.tallied _ _ hlookup
      refine ⟨fun hagreement => ?_, _, exists_mem_indexedEvents.mp htally.firstEvent, htally.firstKey⟩
      rw [htally.agreed_iff.mpr hagreement] at hagreed
      cases hagreed
    · rintro ⟨hnot, event, hmem, rfl⟩
      obtain ⟨tally, hlookup⟩ := hfind event hmem
      have htally := hof.tallied _ _ hlookup
      refine ⟨tally.firstEvent, event.key, tally, ⟨hlookup, ?_⟩, rfl, rfl⟩
      rw [← Bool.not_eq_true]
      exact fun hagreed => hnot (htally.agreed_iff.mp hagreed)

/-- The partition does not depend on any order, except for the representatives of the
conflicted keys. -/
theorem partitionConflictedState_congr (limits : StateResolutionLimits) (ω ω' : IterationOrder)
    (hids : UniqueIds groups) (h : PermutedGroups groups groups') :
    (partitionConflictedState ω groups limits).1 = (partitionConflictedState ω' groups' limits).1 ∧
      (partitionConflictedState ω groups limits).2.keys =
        (partitionConflictedState ω' groups' limits).2.keys := by
  by_cases hlimits : WithinLimits limits groups
  · have hspec := partitionConflictedState_spec ω hids hlimits
    have hspec' := partitionConflictedState_spec ω' (h.uniqueIds hids)
      ((WithinLimits.congr h).mp hlimits)
    constructor
    · refine ext_lookup fun key => Option.ext fun event => ?_
      rw [hspec.unconflicted, hspec'.unconflicted, Agreement.congr h, h.flatMap_perm.mem_iff]
    · ext key
      rw [Finmap.mem_keys, Finmap.mem_keys, hspec.conflicted, hspec'.conflicted, Agreement.congr h]
      simp only [h.flatMap_perm.mem_iff]
  · rw [partitionConflictedState_eq_empty ω hlimits,
      partitionConflictedState_eq_empty ω' fun hl => hlimits ((WithinLimits.congr h).mpr hl)]
    exact ⟨rfl, rfl⟩

lemma collectConflicted_perm (hids : UniqueIds groups) (h : PermutedGroups groups groups')
    {conflicted conflicted' : StateMap} (hkeys : conflicted.keys = conflicted'.keys) :
    (collectConflicted groups conflicted).Perm (collectConflicted groups' conflicted') := by
  refine firstBy_perm (fun a ha b hb hab => ?_) fun event => ?_
  · rw [mem_filter] at ha hb
    exact hids a ha.1 b hb.1 (Prod.mk.inj hab).2
  · simp only [mem_filter, h.flatMap_perm.mem_iff, ← Finmap.mem_keys, hkeys]

lemma buildEventJsonIndex_congr (hids : UniqueIds groups) (h : PermutedGroups groups groups') :
    buildEventJsonIndex groups = buildEventJsonIndex groups' := by
  refine emplaceAll_congr ∅ (fun p hp q hq hpq => ?_) fun p => ?_
  · obtain ⟨a, ha, rfl⟩ := mem_map.mp hp
    obtain ⟨b, hb, rfl⟩ := mem_map.mp hq
    rw [hids a (mem_filter.mp ha).1 b (mem_filter.mp hb).1 hpq]
  · simp only [mem_map, mem_filter, h.flatMap_perm.mem_iff]

lemma rejectedEventIds_congr (h : PermutedGroups groups groups') :
    rejectedEventIds groups = rejectedEventIds groups' :=
  toFinset_eq_of_perm _ _ ((h.flatMap_perm.filter _).map _)

end Partition

end Merovingian
