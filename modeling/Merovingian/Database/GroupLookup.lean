import Merovingian.Database.StateGroupChains

/-!
# Looking one entry up in a state group

`lookup_state_in_group` of `sync/state_group_lookup.cpp` reads a single slot of a group's state
without rebuilding the state: it follows the chain of parents and stops at the first group that has
an entry for the slot.  `ServerEventFilter::lookup_in_group` is the same function.

Where `read_state_group_full_state` can rebuild the state, the lookup gives what the state holds
(`lookupStateInGroup_of_read`).
-/

namespace Merovingian

open List Option StateGroupEntry

/-- `GroupLookupResult`. -/
inductive GroupLookup
  | found (eventId : Str)
  | absent
  | broken
deriving DecidableEq, Repr

/-- The loop of `lookup_state_in_group`.  `remaining` is what `max_state_group_delta_depth` leaves
for further parents. -/
def lookupFrom (store : StateGroupStore) (slot : Str × Str) : (remaining : ℕ) →
    (visited : List Str) → (current : Str) → GroupLookup
  | remaining, visited, current =>
    if current ∈ visited then .broken
    else match store.stateGroups.find current with
      | none => .broken
      | some group =>
        match lookupBy StateGroupEntry.slot (store.stateGroupState.entriesOf current) slot with
        | some entry => .found entry.eventId
        | none =>
          match group.parentStateGroupId, remaining with
          | none, _ => .absent
          | some _, 0 => .broken
          | some parent, remaining + 1 => lookupFrom store slot remaining (current :: visited) parent

def lookupStateInGroup (store : StateGroupStore) (groupId : Str) (slot : Str × Str) : GroupLookup :=
  lookupFrom store slot maxStateGroupDeltaDepth [] groupId

/-! ### Compared with the full state -/

/-- The outcome of a lookup in a state that is known. -/
def GroupLookup.ofOption : Option Str → GroupLookup
  | some eventId => .found eventId
  | none => .absent

variable {store : StateGroupStore} {chain : List PersistentStateGroup} {visited : List Str}
  {remaining : ℕ} {current : Str}

/-- Induction along a chain that can be read. -/
@[elab_as_elim]
lemma readChain_induction {motive : ℕ → List Str → Str → List PersistentStateGroup → Prop}
    (root : ∀ {remaining visited current group}, current ∉ visited →
      store.stateGroups.find current = some group → group.parentStateGroupId = none →
        motive remaining visited current [group])
    (delta : ∀ {remaining visited current group parent chain}, current ∉ visited →
      store.stateGroups.find current = some group → group.parentStateGroupId = some parent →
        motive remaining (current :: visited) parent chain →
          motive (remaining + 1) visited current (group :: chain))
    (h : readChain store remaining visited current = some chain) :
    motive remaining visited current chain := by
  fun_induction readChain store remaining visited current generalizing chain with
  | case1 | case2 | case4 => cases h
  | case3 remaining visited current hvisited group hfind hparent =>
    cases h
    exact root hvisited hfind hparent
  | case5 visited current hvisited group hfind parent remaining hparent ih =>
    obtain ⟨chain', hchain', rfl⟩ := map_eq_some_iff.mp h
    exact delta hvisited hfind hparent (ih hchain')

lemma lookupFrom_of_readChain (slot : Str × Str)
    (h : readChain store remaining visited current = some chain) :
    lookupFrom store slot remaining visited current = .ofOption
      ((lookupBy StateGroupEntry.slot (chainEntries store chain) slot).map eventId) := by
  refine readChain_induction ?_ ?_ h
  · intro remaining visited current group hvisited hfind hparent
    rw [lookupFrom, if_neg hvisited, hfind, chainEntries_cons hfind, lookupBy_append]
    cases lookupBy StateGroupEntry.slot (store.stateGroupState.entriesOf current) slot with
    | some entry => rfl
    | none =>
      simp only [hparent]
      rfl
  · intro remaining visited current group parent chain hvisited hfind hparent ih
    rw [lookupFrom, if_neg hvisited, hfind, chainEntries_cons hfind, lookupBy_append]
    cases lookupBy StateGroupEntry.slot (store.stateGroupState.entriesOf current) slot with
    | some entry => rfl
    | none =>
      simp only [hparent]
      exact ih

/-- Where the state of a group can be rebuilt, a lookup gives what the state holds, provided that
the joined keys by which it is rebuilt tell slots apart. -/
theorem lookupStateInGroup_of_read {groupId : Str}
    (h : readChain store maxStateGroupDeltaDepth [] groupId = some chain)
    (hnul : ∀ entry ∈ chainEntries store chain, 0 ∉ entry.eventType) {eventType : Str}
    (htype : 0 ∉ eventType) (stateKey : Str) :
    lookupStateInGroup store groupId (eventType, stateKey) = .ofOption
      (stateOf (firstBy stateGroupEntryKey [] (chainEntries store chain)) (eventType, stateKey)) := by
  have hfull : ∀ entry ∈ firstBy stateGroupEntryKey [] (chainEntries store chain),
      0 ∉ entry.eventType := fun entry hentry => hnul entry (mem_of_mem_firstBy hentry).1
  rw [lookupStateInGroup, lookupFrom_of_readChain _ h, stateOf_eq hfull htype,
    toStateGroupMap_firstBy, ← stateOf_eq hnul htype]
  rfl

/-! ### The two readers agree -/

/-- The joined key of a slot without NULs is the key of no other slot. -/
lemma stateGroupEntryKey_eq_iff {eventType stateKey : Str} (htype : 0 ∉ eventType)
    (hkey : 0 ∉ stateKey) (entry : StateGroupEntry) :
    stateGroupEntryKey entry = eventType ++ 0 :: stateKey ↔ entry.slot = (eventType, stateKey) := by
  constructor
  · intro h
    -- a NUL in the entry's type would be a second one in its key
    have hcount := congrArg (List.count 0) h
    simp only [stateGroupEntryKey, count_append, count_cons_self,
      count_eq_zero.mpr htype, count_eq_zero.mpr hkey] at hcount
    have hentry : 0 ∉ entry.eventType := count_eq_zero.mp (by omega)
    obtain ⟨rfl, rfl⟩ := append_nul_inj hentry htype h
    rfl
  · intro h
    cases h
    rfl

lemma readChain_of_absent {slot : Str × Str}
    (h : lookupFrom store slot remaining visited current = .absent) :
    (readChain store remaining visited current).isSome := by
  fun_induction lookupFrom store slot remaining visited current with
  | case1 | case2 | case3 | case5 => cases h
  | case4 remaining visited current hvisited group hfind hentry hparent =>
    rw [readChain, if_neg hvisited, hfind]
    simp [hparent]
  | case6 visited current hvisited group hfind hentry parent remaining hparent ih =>
    rw [readChain, if_neg hvisited, hfind]
    simp only [hparent, isSome_map]
    exact ih h

/-- The point lookup and the full reconstruction agree on every store, on cyclic parents too:
both follow at most `max_state_group_delta_depth` parents.  Where the state can be rebuilt, the
lookup finds what it holds; where the lookup reports that there is nothing, it can be rebuilt. -/
theorem pointLookup_agrees (store : StateGroupStore) (groupId eventType stateKey : Str)
    (htype : 0 ∉ eventType) (hkey : 0 ∉ stateKey) :
    (∀ full, readStateGroupFullState store groupId = some full →
      (∀ eventId, lookupStateInGroup store groupId (eventType, stateKey) = .found eventId ↔
        ∃ entry ∈ full, entry.slot = (eventType, stateKey) ∧ entry.eventId = eventId) ∧
      (lookupStateInGroup store groupId (eventType, stateKey) = .absent ↔
        ∀ entry ∈ full, entry.slot ≠ (eventType, stateKey))) ∧
    (lookupStateInGroup store groupId (eventType, stateKey) = .absent →
      (readStateGroupFullState store groupId).isSome) := by
  have hslot := stateGroupEntryKey_eq_iff htype hkey
  have hjoined : ∀ l, lookupBy slot l (eventType, stateKey) =
      lookupBy stateGroupEntryKey l (eventType ++ 0 :: stateKey) := by
    simp [lookupBy, hslot]
  refine ⟨fun full hfull => ?_, fun h => ?_⟩
  · obtain ⟨chain, hchain, rfl⟩ := map_eq_some_iff.mp hfull
    rw [lookupStateInGroup, lookupFrom_of_readChain _ hchain, hjoined,
      ← lookupBy_firstBy not_mem_nil]
    have hnodup : ((firstBy stateGroupEntryKey [] (chainEntries store chain)).map
        stateGroupEntryKey).Nodup := nodup_firstBy _ _
    cases hfound : lookupBy stateGroupEntryKey _ (eventType ++ 0 :: stateKey) with
    | none =>
      simp only [lookupBy_eq_none, ne_eq, hslot] at hfound
      refine ⟨fun eventId => ⟨by rintro ⟨⟩, ?_⟩, ⟨fun _ => hfound, fun _ => rfl⟩⟩
      rintro ⟨entry, hentry, heq, -⟩
      exact absurd heq (hfound entry hentry)
    | some held =>
      obtain ⟨hmem, hheld⟩ := (lookupBy_eq_some hnodup).mp hfound
      refine ⟨fun eventId => ⟨fun h => ?_, ?_⟩, ⟨by rintro ⟨⟩, fun h => ?_⟩⟩
      · exact ⟨held, hmem, (hslot held).mp hheld, GroupLookup.found.inj h⟩
      · rintro ⟨entry, hentry, heq, rfl⟩
        have hentry' := (lookupBy_eq_some hnodup).mpr ⟨hentry, (hslot entry).mpr heq⟩
        rw [Option.some.inj (hfound.symm.trans hentry')]
        rfl
      · exact absurd ((hslot held).mp hheld) (h held hmem)
  · rw [readStateGroupFullState, isSome_map]
    exact readChain_of_absent h

/-- A snapshot with a topic, and a second group that adds a name to it. -/
def deltaStore : StateGroupStore :=
  ((createOrReuseStateGroup exampleStore (exampleCall "g2" (some "g1")
    [("m.room.topic", "$topic"), ("m.room.name", "$name")])).map Prod.snd).getD .empty

/-- The topic is no entry of the second group; it is found in the parent. -/
theorem pointLookup_agrees_snapshot :
    (deltaStore.stateGroupState.entriesOf "g2").map StateGroupEntry.eventType =
        [lit "m.room.name"] ∧
      lookupStateInGroup deltaStore "g2" ("m.room.topic", "") = .found "$topic" ∧
      ∃ full, readStateGroupFullState deltaStore "g2" = some full ∧
        ∃ entry ∈ full, entry.slot = (lit "m.room.topic", lit "") ∧ entry.eventId = "$topic" := by
  have hfound : lookupStateInGroup deltaStore "g2" ("m.room.topic", "") = .found "$topic" := by
    decide
  obtain ⟨full, hfull⟩ := isSome_iff_exists.mp
    (show (readStateGroupFullState deltaStore "g2").isSome by decide)
  have hagree := (pointLookup_agrees deltaStore "g2" "m.room.topic" "" (by decide)
    (by decide)).1 full hfull
  exact ⟨by decide, hfound, full, hfull, (hagree.1 "$topic").mp hfound⟩

end Merovingian
