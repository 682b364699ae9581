import Merovingian.Database.StateGroupChains
import Merovingian.Homeserver.StateBookkeeping
import Merovingian.Lib.Overlay

/-!
# Current state as a cache of the resolution

The current state of a room is meant to be the resolution of its forward extremities.  Both
functions that keep it compare the resolved entries with the rows and write what differs, and
neither removes a row.  So what they leave is the old state with the differing entries written
over it: `recomputeCurrentState_overlay`, `storeEventWithBookkeeping_overlay`.

The comparison goes by a key that joins type and state key with a NUL, so it overlooks nothing
unless a type holds a NUL (`accounted_differing`, `accounted_changed`).
-/

namespace Merovingian

open List Function EventStateGroupTable Finmap

/-- The entries as pairs of slot and event. -/
def entryPairs (entries : List StateGroupEntry) : List ((Str × Str) × Str) :=
  entries.map fun entry => (entry.slot, entry.eventId)

/-- The rows of the room are, as a map, the entries. -/
def IsResolution (table : StateTable) (roomId : Str) (entries : List StateGroupEntry) : Prop :=
  ∀ slot eventId, table.currentState roomId slot = some eventId ↔
    (slot, eventId) ∈ entryPairs entries

/-- The entries name one event for each slot. -/
def OneEventPerSlot (entries : List StateGroupEntry) : Prop :=
  ∀ slot a b, (slot, a) ∈ entryPairs entries → (slot, b) ∈ entryPairs entries → a = b

/-- Every slot of a state is a slot of the entries. -/
def Covers (entries : List StateGroupEntry) (state : Str × Str → Option Str) : Prop :=
  ∀ slot, state slot ≠ none → ∃ eventId, (slot, eventId) ∈ entryPairs entries

/-- Every entry is written or was current before. -/
def Accounted (entries written : List StateGroupEntry) (state : Str × Str → Option Str) : Prop :=
  ∀ slot eventId, (slot, eventId) ∈ entryPairs entries →
    (slot, eventId) ∈ entryPairs written ∨ state slot = some eventId

/-- The entries that `recompute_current_state` finds to differ. -/
def differing (current : Map Str Str) (entries : List StateGroupEntry) : List StateGroupEntry :=
  entries.filter fun entry =>
    current.lookup (stateEntryKey entry.eventType entry.stateKey) ≠ some entry.eventId

/-- The entries that `store_event_with_bookkeeping` finds to differ; each is compared with what
the ones before it left. -/
def changed : (current : Map Str Str) → List StateGroupEntry → List StateGroupEntry
  | _, [] => []
  | current, entry :: entries =>
    if current.lookup (stateEntryKey entry.eventType entry.stateKey) = some entry.eventId then
      changed current entries
    else
      entry :: changed
        (current.insert (stateEntryKey entry.eventType entry.stateKey) entry.eventId) entries

/-- No type of an entry holds a NUL. -/
def NulFreeTypes (entries : List StateGroupEntry) : Prop := ∀ entry ∈ entries, 0 ∉ entry.eventType

/-- The current state of a room as it is once the row of an event is written. -/
def stateWithOwnRow (table : StateTable) (roomId : Str) (state : Option PersistentStateEvent) :
    Str × Str → Option Str :=
  match state with
  | none => table.currentState roomId
  | some row => Function.update (table.currentState roomId) (row.eventType, row.stateKey)
      (some row.eventId)

@[simp] lemma entryPairs_cons (entry : StateGroupEntry) (entries : List StateGroupEntry) :
    entryPairs (entry :: entries) = (entry.slot, entry.eventId) :: entryPairs entries := rfl

variable {before : Str × Str → Option Str} {current : Map Str Str} {entries : List StateGroupEntry}
  {entry : StateGroupEntry}

lemma isResolution_iff {table : StateTable} {roomId : Str} {written : List StateGroupEntry}
    (hsub : ∀ entry ∈ written, entry ∈ entries)
    (h : table.currentState roomId = overlay before (entryPairs written)) :
    IsResolution table roomId entries ↔
      OneEventPerSlot entries ∧ Covers entries before ∧ Accounted entries written before := by
  rw [IsResolution, h]
  refine overlay_graph_iff fun pair hpair => ?_
  obtain ⟨entry, hentry, rfl⟩ := mem_map.mp hpair
  exact mem_map_of_mem (hsub entry hentry)

lemma mem_of_mem_changed (h : entry ∈ changed current entries) : entry ∈ entries := by
  induction entries generalizing current with
  | nil => exact h
  | cons head entries ih =>
    rw [changed] at h
    split at h
    · exact mem_cons_of_mem _ (ih h)
    · rcases mem_cons.mp h with rfl | h
      · exact mem_cons_self
      · exact mem_cons_of_mem _ (ih h)

/-! ### The map of the diff -/

section Diff

variable {table : StateTable} {roomId eventType : Str} {entry : StateGroupEntry}
  {entries : List StateGroupEntry}

lemma nodup_stateEntryKeys (hrows : ∀ row ∈ table.rows, 0 ∉ row.eventType) (roomId : Str) :
    (((table.forEachRoomStateRow roomId).map fun row =>
      (stateEntryKey row.eventType row.stateKey, row.eventId)).map Prod.fst).Nodup := by
  rw [table.forEachRoomStateRow_eq, map_map]
  refine (nodup_map_iff_inj_on (table.slots_nodup.of_map.filter _)).mpr fun a ha b hb hab => ?_
  obtain ⟨ha, hroomA⟩ := mem_filter.mp ha
  obtain ⟨hb, hroomB⟩ := mem_filter.mp hb
  obtain ⟨htype, hkey⟩ := append_nul_inj (hrows a ha) (hrows b hb) hab
  refine inj_on_of_nodup_map table.slots_nodup ha hb ?_
  rw [PersistentStateEvent.slot, PersistentStateEvent.slot, htype, hkey, of_decide_eq_true hroomA,
    of_decide_eq_true hroomB]

lemma lookup_currentEntries (hrows : ∀ row ∈ table.rows, 0 ∉ row.eventType)
    (htype : 0 ∉ eventType) (stateKey : Str) :
    (currentEntries table roomId).lookup (stateEntryKey eventType stateKey) =
      table.currentState roomId (eventType, stateKey) := by
  have hnodup := nodup_stateEntryKeys hrows roomId
  rw [currentEntries, lookup_assignAll _ hnodup, lookup_empty, Option.or_none]
  ext eventId
  rw [table.currentState_eq_some, map_find?_eq_some (snd_eq_of_nodup hnodup), mem_map]
  simp only [table.forEachRoomStateRow_eq, mem_filter, Prod.mk.injEq]
  constructor
  · rintro ⟨row, ⟨hrow, hroom⟩, hkey, rfl⟩
    obtain ⟨htypes, hkeys⟩ := append_nul_inj (hrows row hrow) htype hkey
    obtain rfl := of_decide_eq_true hroom
    subst htypes hkeys
    exact hrow
  · intro hrow
    exact ⟨⟨roomId, eventType, stateKey, eventId⟩, ⟨hrow, decide_eq_true rfl⟩, rfl, rfl⟩

lemma lookup_insert_stateEntryKey (htype : 0 ∉ eventType) (stateKey eventId : Str)
    (hentry : 0 ∉ entry.eventType)
    (hcurrent : current.lookup (stateEntryKey entry.eventType entry.stateKey) = before entry.slot) :
    (current.insert (stateEntryKey eventType stateKey) eventId).lookup
        (stateEntryKey entry.eventType entry.stateKey) =
      update before (eventType, stateKey) (some eventId) entry.slot := by
  by_cases hslot : entry.slot = (eventType, stateKey)
  · obtain ⟨rfl, rfl⟩ := Prod.mk.inj hslot
    rw [hslot, update_self, lookup_insert]
  · have hne : stateEntryKey entry.eventType entry.stateKey ≠ stateEntryKey eventType stateKey :=
      fun h => hslot (Prod.ext_iff.mpr (append_nul_inj hentry htype h))
    rw [update_of_ne hslot, lookup_insert_of_ne _ hne, hcurrent]

lemma currentState_assign_row (table : StateTable) (roomId : Str) (entry : StateGroupEntry) :
    (table.assign (entry.row roomId)).currentState roomId =
      update (table.currentState roomId) entry.slot (some entry.eventId) := by
  funext slot
  rw [table.currentState_assign, update_apply]
  have hiff : (roomId, slot) = (entry.row roomId).slot ↔ slot = entry.slot := by
    simp [PersistentStateEvent.slot, StateGroupEntry.row, StateGroupEntry.slot]
  simp only [hiff]
  rfl

lemma accounted_differing
    (hcurrent : ∀ entry ∈ entries, current.lookup (stateEntryKey entry.eventType entry.stateKey) =
      before entry.slot) :
    Accounted entries (differing current entries) before := by
  intro slot eventId hpair
  obtain ⟨entry, hentry, heq⟩ := mem_map.mp hpair
  cases heq
  by_cases hheld : before entry.slot = some entry.eventId
  · exact .inr hheld
  · refine .inl (mem_map_of_mem (mem_filter.mpr ⟨hentry, decide_eq_true ?_⟩))
    rwa [hcurrent entry hentry]

/-- The same for a map that is kept up to date, when no two slots have one key. -/
lemma accounted_changed (hnul : NulFreeTypes entries)
    (hcurrent : ∀ entry ∈ entries, current.lookup (stateEntryKey entry.eventType entry.stateKey) =
      before entry.slot) :
    Accounted entries (changed current entries) before := by
  induction entries generalizing current before with
  | nil => exact fun _ _ h => absurd h not_mem_nil
  | cons head entries ih =>
    have hnul' : NulFreeTypes entries := fun e he => hnul e (mem_cons_of_mem _ he)
    have hhead := hcurrent head mem_cons_self
    intro slot eventId hpair
    rw [changed]
    split
    · next hskip =>
      rcases mem_cons.mp hpair with heq | hpair
      · cases heq
        exact .inr (hhead.symm.trans hskip)
      · exact ih hnul' (fun e he => hcurrent e (mem_cons_of_mem _ he)) slot eventId hpair
    · rcases mem_cons.mp hpair with heq | hpair
      · exact .inl (heq ▸ mem_cons_self)
      · have hnext := fun e he => lookup_insert_stateEntryKey (hnul head mem_cons_self)
          head.stateKey head.eventId (hnul' e he) (hcurrent e (mem_cons_of_mem _ he))
        rcases ih hnul' hnext slot eventId hpair with hwritten | hheld
        · exact .inl (mem_cons_of_mem _ hwritten)
        · by_cases hslot : slot = (head.eventType, head.stateKey)
          · subst hslot
            rw [update_self] at hheld
            cases hheld
            exact .inl mem_cons_self
          · rw [update_of_ne hslot] at hheld
            exact .inr hheld

end Diff

/-! ### `recompute_current_state` -/

section Recompute

variable {parseLossless : Str → Option Value} {store store' : PersistentStore} {roomId : Str}

/-- What `store_state` does when it succeeds: nothing but the state and its transitions change,
and the row is current. -/
lemma storeState_spec {committed : Bool}
    (h : storeState parseLossless store (entry.row roomId) committed = (true, store')) :
    store'.state.currentState roomId =
        update (store.state.currentState roomId) entry.slot (some entry.eventId) ∧
      ∃ state transitions,
        store' = { store with state := state, stateTransitions := transitions } := by
  rw [storeState] at h
  split at h
  · exact absurd (Prod.mk.inj h).1 Bool.false_ne_true
  dsimp only at h
  split at h
  · next hheld =>
    -- the row is already current
    obtain ⟨row, hrow, heq⟩ := Option.any_eq_true _ _ |>.mp hheld
    obtain rfl := (Prod.mk.inj h).2
    refine ⟨(update_of_held ?_).symm, _, _, rfl⟩
    have hread : store.state.currentState roomId entry.slot = some row.eventId := by
      show (lookupBy PersistentStateEvent.slot store.state.rows (entry.row roomId).slot).map _ = _
      rw [hrow]
      rfl
    rw [hread, of_decide_eq_true heq]
    rfl
  · split at h
    · exact absurd (Prod.mk.inj h).1 Bool.false_ne_true
    · obtain rfl := (Prod.mk.inj h).2
      exact ⟨currentState_assign_row store.state roomId entry, _, _, rfl⟩

/-- The loop of `recompute_current_state` writes the entries that differ, and changes the state
and its transitions only. -/
lemma writeEntries_spec {committed : ℕ → Bool} {result : CurrentStateRecompute}
    (h : writeEntries parseLossless roomId current committed store entries = (result, store'))
    (hresolved : result.status = .resolved) :
    store'.state.currentState roomId =
        overlay (store.state.currentState roomId) (entryPairs (differing current entries)) ∧
      ∃ state transitions,
        store' = { store with state := state, stateTransitions := transitions } := by
  induction entries generalizing store committed with
  | nil =>
    obtain rfl := (Prod.mk.inj h).2
    exact ⟨rfl, _, _, rfl⟩
  | cons entry entries ih =>
    rw [writeEntries] at h
    rw [differing, filter_cons]
    split at h
    · next hskip =>
      rw [if_neg (by simp [hskip])]
      exact ih h
    · next hdiffers =>
      rw [if_pos (by simpa using hdiffers), entryPairs_cons, overlay_cons]
      split at h
      · rw [← (Prod.mk.inj h).1] at hresolved
        cases hresolved
      · next hstored =>
        obtain ⟨hcurrent, state, transitions, rfl⟩ := storeState_spec hstored
        obtain ⟨hrest, state', transitions', rfl⟩ := ih h
        rw [← hcurrent]
        exact ⟨hrest, _, _, rfl⟩

variable {sodium : Sodium} {ω : IterationOrder} {policy : RoomVersionPolicy}
  {limits : StateResolutionLimits} {committed : ℕ → Bool} {result : CurrentStateRecompute}

section

variable (h : recomputeCurrentState parseLossless sodium ω store roomId policy limits committed =
    (result, store'))

include h

/-- A recomputation that succeeds wrote all entries of a resolution, which is still the
resolution of the extremities. -/
lemma recomputeCurrentState_eq (hresolved : result.status = .resolved) :
    ∃ entries, roomResolution parseLossless sodium ω store' roomId policy limits = ⟨entries, none⟩ ∧
      writeEntries parseLossless roomId (currentEntries store.state roomId) committed store entries =
        (result, store') := by
  rw [recomputeCurrentState] at h
  split at h
  · rw [← (Prod.mk.inj h).1] at hresolved
    cases hresolved
  · next hnone =>
    -- the resolution does not read what the loop writes
    have hsame : roomResolution parseLossless sodium ω store' roomId policy limits =
        roomResolution parseLossless sodium ω store roomId policy limits := by
      obtain ⟨state, transitions, rfl⟩ := (writeEntries_spec h hresolved).2
      rfl
    refine ⟨_, ?_, h⟩
    rw [hsame, ← hnone]

/-- A recomputation that succeeds leaves the old state with the differing entries over it. -/
theorem recomputeCurrentState_overlay (hresolved : result.status = .resolved) :
    ∃ entries, roomResolution parseLossless sodium ω store' roomId policy limits = ⟨entries, none⟩ ∧
      store'.state.currentState roomId = overlay (store.state.currentState roomId)
        (entryPairs (differing (currentEntries store.state roomId) entries)) := by
  obtain ⟨entries, hentries, hwrite⟩ := recomputeCurrentState_eq h hresolved
  exact ⟨entries, hentries, (writeEntries_spec hwrite hresolved).1⟩

end

end Recompute

/-! ### `store_event_with_bookkeeping` -/

section Bookkeeping

variable {parseLossless : Str → Option Value} {formatDouble : Double → Str}
  {store store' : PersistentStore} {event : PersistentEvent}
  {state : Option PersistentStateEvent} {membership : Option MembershipProjection}

lemma prepareStoreEventWithState_spec {update : PreparedStateUpdate}
    (h : prepareStoreEventWithState parseLossless formatDouble store event state membership =
      some update) :
    update.event = event ∧ update.state = state ∧ store.events.find event.eventId = none ∧
      ∀ row ∈ state, stateMatchesEvent parseLossless event row = true := by
  rw [prepareStoreEventWithState] at h
  split_ifs at h with hreserve hprojection hrefused hwritable
  cases h
  rw [not_or, not_not, Option.not_isSome_iff_eq_none, Option.all_eq_true] at hrefused
  exact ⟨rfl, rfl, hrefused.1, fun row hrow => hrefused.2 row hrow⟩

lemma ids_of_stateMatchesEvent {row : PersistentStateEvent}
    (h : stateMatchesEvent parseLossless event row = true) :
    row.roomId = event.roomId ∧ row.eventId = event.eventId := by
  rw [stateMatchesEvent, Bool.and_eq_true, Bool.and_eq_true, Bool.and_eq_true, decide_eq_true_iff,
    decide_eq_true_iff] at h
  exact ⟨h.1.1.2.symm, h.1.1.1.symm⟩

/-- The event's own row, when it has one. -/
def ownRowWritten (table : StateTable) (state : Option PersistentStateEvent) : StateTable :=
  state.elim table table.assign

lemma currentState_ownRowWritten (table : StateTable)
    (hstate : ∀ row ∈ state, row.roomId = event.roomId) :
    (ownRowWritten table state).currentState event.roomId =
      stateWithOwnRow table event.roomId state := by
  cases state with
  | none => rfl
  | some row =>
    have hrow := currentState_assign_row table event.roomId
      ⟨[], row.eventType, row.stateKey, row.eventId⟩
    have heq : StateGroupEntry.row event.roomId ⟨[], row.eventType, row.stateKey, row.eventId⟩ =
        row := by
      rw [StateGroupEntry.row, ← hstate row rfl]
    rw [heq] at hrow
    exact hrow

lemma lookup_currentWithOwnRow (hrows : ∀ row ∈ store.state.rows, 0 ∉ row.eventType)
    (hstate : ∀ row ∈ state, 0 ∉ row.eventType ∧ row.eventId = event.eventId)
    (hentry : 0 ∉ entry.eventType) :
    (currentWithOwnRow store event state).lookup (stateEntryKey entry.eventType entry.stateKey) =
      stateWithOwnRow store.state event.roomId state entry.slot := by
  cases state with
  | none => exact lookup_currentEntries hrows hentry _
  | some row =>
    obtain ⟨hnul, hid⟩ := hstate row rfl
    rw [stateWithOwnRow, hid]
    exact lookup_insert_stateEntryKey hnul _ _ hentry (lookup_currentEntries hrows hentry _)

lemma currentStateChanges_overlay {roomId eventId : Str}
    {changes : List PreparedCurrentState} (table : StateTable)
    (h : currentStateChanges parseLossless store roomId eventId current entries = .ok changes) :
    (changes.foldl (fun table change => table.assign change.state) table).currentState roomId =
      overlay (table.currentState roomId) (entryPairs (changed current entries)) := by
  induction entries generalizing current changes table with
  | nil =>
    obtain rfl := Except.ok.inj h
    rfl
  | cons entry entries ih =>
    rw [currentStateChanges] at h
    rw [changed]
    split at h
    · next hskip =>
      rw [if_pos hskip]
      exact ih table h
    · next hdiffers =>
      rw [if_neg hdiffers, entryPairs_cons, overlay_cons]
      split at h
      · cases h
      · cases hrest : currentStateChanges parseLossless store roomId eventId
            (current.insert (stateEntryKey entry.eventType entry.stateKey) entry.eventId)
            entries with
        | error reason =>
          rw [hrest] at h
          exact absurd h (by simp [Except.map])
        | ok rest =>
          rw [hrest] at h
          obtain rfl := Except.ok.inj h
          rw [← currentState_assign_row]
          exact ih _ hrest

/-! What the other tables hold afterwards. -/

lemma foldl_applyCurrentState (changes : List PreparedCurrentState) (store : PersistentStore) :
    (changes.foldl applyCurrentState store).state =
        changes.foldl (fun table change => table.assign change.state) store.state ∧
      (changes.foldl applyCurrentState store).forwardExtremities = store.forwardExtremities ∧
      (changes.foldl applyCurrentState store).eventStateGroups = store.eventStateGroups := by
  induction changes generalizing store with
  | nil => exact ⟨rfl, rfl, rfl⟩
  | cons change changes ih => exact ih (applyCurrentState store change)

lemma findForwardExtremities_update (store : PersistentStore) (roomId eventId : Str)
    (replaced : List Str) :
    findForwardExtremities (applyForwardExtremitiesUpdate store roomId eventId replaced) roomId =
      extremitiesAfter store roomId eventId replaced := by
  have hkept : ∀ extremities : List PersistentForwardExtremity,
      ((replaced.foldl (fun extremities replaced => extremities.filter fun extremity =>
        ¬ (extremity.roomId = roomId ∧ extremity.eventId = replaced)) extremities).filter
          fun extremity => extremity.roomId = roomId).map PersistentForwardExtremity.eventId =
      ((extremities.filter fun extremity => extremity.roomId = roomId).map
        PersistentForwardExtremity.eventId).filter (· ∉ replaced) := by
    induction replaced with
    | nil => simp
    | cons id replaced ih =>
      intro extremities
      rw [foldl_cons, ih, filter_map, filter_map, filter_filter, filter_filter, filter_filter]
      congr 1
      refine filter_congr fun extremity _ => ?_
      simp only [comp_apply, mem_cons, ← Bool.decide_and, decide_eq_decide]
      tauto
  rw [findForwardExtremities, applyForwardExtremitiesUpdate, extremitiesAfter,
    findForwardExtremities]
  rw [← hkept]
  generalize replaced.foldl _ store.forwardExtremities = kept
  have hany : (kept.any fun extremity => extremity.roomId = roomId ∧ extremity.eventId = eventId) =
      true ↔ eventId ∈ (kept.filter fun extremity => extremity.roomId = roomId).map
        PersistentForwardExtremity.eventId := by
    simp [and_assoc]
  by_cases hmem : eventId ∈ (kept.filter fun extremity => extremity.roomId = roomId).map
      PersistentForwardExtremity.eventId
  · rw [if_pos (hany.mpr hmem), if_pos hmem]
  · rw [if_neg (mt hany.mp hmem), if_neg hmem]
    simp

lemma EventStateGroupTable.stateGroupOf_assign_self (table : EventStateGroupTable)
    (eventId stateGroupId : Str) :
    (table.assign eventId stateGroupId).stateGroupOf eventId = some stateGroupId := by
  unfold assign
  split
  · next position h =>
    have hlt : position < table.rows.length := by
      rw [table.byEvent_eq] at h
      simpa using (findIdx?_eq_some_iff_getElem.mp h).1
    simp [stateGroupOf, h, hlt, PersistentEventStateGroup.withGroup]
  · simp [stateGroupOf]

section Applied

variable {update : PreparedStateUpdate} {group : PreparedStateGroup} {replaced : List Str}
  {changes : List PreparedCurrentState}

lemma state_applyBookkeeping (hnew : store.events.find update.event.eventId = none) :
    (applyBookkeeping parseLossless store update group replaced changes).state =
      changes.foldl (fun table change => table.assign change.state)
        (ownRowWritten store.state update.state) := by
  rw [applyBookkeeping, (foldl_applyCurrentState changes _).1, applyStoreEventWithState, hnew]
  cases update.state <;> rfl

lemma findForwardExtremities_applyBookkeeping :
    findForwardExtremities (applyBookkeeping parseLossless store update group replaced changes)
      update.event.roomId =
    extremitiesAfter store update.event.roomId update.event.eventId replaced := by
  have hsame : ∀ a b : PersistentStore, a.forwardExtremities = b.forwardExtremities →
      extremitiesAfter a update.event.roomId update.event.eventId replaced =
        extremitiesAfter b update.event.roomId update.event.eventId replaced := by
    intro a b h
    rw [extremitiesAfter, extremitiesAfter, findForwardExtremities, findForwardExtremities, h]
  rw [applyBookkeeping, findForwardExtremities, (foldl_applyCurrentState changes _).2.1]
  refine (findForwardExtremities_update _ _ _ _).trans (hsame _ _ ?_)
  rw [applyStoreEventWithState]
  split
  · rfl
  · cases update.state <;> rfl

lemma findEventStateGroup_applyBookkeeping :
    findEventStateGroup (applyBookkeeping parseLossless store update group replaced changes)
      update.event.eventId = some group.stateGroupId := by
  rw [applyBookkeeping, findEventStateGroup, (foldl_applyCurrentState changes _).2.2]
  exact stateGroupOf_assign_self _ _ _

end Applied

variable {sodium : Sodium} {ω : IterationOrder} {policy : RoomVersionPolicy}
  {bookkeeping : EventBookkeeping} {limits : StateResolutionLimits} {committed : Bool}
  {result : StoredWithBookkeeping}

section

variable (h : storeEventWithBookkeeping parseLossless formatDouble sodium ω store policy event state
    membership bookkeeping limits committed = (result, store'))

include h

lemma storeEventWithBookkeeping_ok (hok : result.ok = true) :
    ∃ update group changes resolution,
      prepareStoreEventWithState parseLossless formatDouble store event state membership =
        some update ∧
      pendingResolution parseLossless sodium ω store policy update.event group.stateGroupId
        bookkeeping.stateAfter limits (extremitiesAfter store event.roomId event.eventId
          bookkeeping.replacedExtremities) = resolution ∧
      currentStateChanges parseLossless store event.roomId event.eventId
        (currentWithOwnRow store event update.state) resolution.entries = .ok changes ∧
      result.resolutionRefused = resolution.refusal.isSome ∧
      store' = applyBookkeeping parseLossless store update group bookkeeping.replacedExtremities
        changes := by
  have hrefused : ∀ {step reason : Str}, (notStored step reason, store) = (result, store') →
      False := by
    intro step reason heq
    rw [← (Prod.mk.inj heq).1] at hok
    exact Bool.false_ne_true hok
  rw [storeEventWithBookkeeping] at h
  split at h
  · exact (hrefused h).elim
  · next update hupdate =>
    split at h
    · exact (hrefused h).elim
    · next group hgroup =>
      split at h
      · exact (hrefused h).elim
      · dsimp only at h
        split at h
        · exact (hrefused h).elim
        · next changes hchanges =>
          split at h
          · exact (hrefused h).elim
          · cases h
            exact ⟨update, group, changes, _, hupdate, rfl, hchanges, rfl, rfl⟩

/-- An event that is stored leaves the old state, with its own row, with the entries of the
resolution that differ over it.  The row is the event's, and the extremities and the group of the
event are those of the new store. -/
theorem storeEventWithBookkeeping_overlay (hok : result.ok = true) :
    (∀ row ∈ state, row.eventId = event.eventId) ∧
    ∃ groupId resolution, findEventStateGroup store' event.eventId = some groupId ∧
      pendingResolution parseLossless sodium ω store policy event groupId bookkeeping.stateAfter
        limits (findForwardExtremities store' event.roomId) = resolution ∧
      result.resolutionRefused = resolution.refusal.isSome ∧
      store'.state.currentState event.roomId =
        overlay (stateWithOwnRow store.state event.roomId state)
          (entryPairs (changed (currentWithOwnRow store event state) resolution.entries)) := by
  obtain ⟨update, group, changes, _, hupdate, rfl, hchanges, hrefused, rfl⟩ :=
    storeEventWithBookkeeping_ok h hok
  obtain ⟨rfl, rfl, hnew, hmatches⟩ := prepareStoreEventWithState_spec hupdate
  have hids := fun row hrow => ids_of_stateMatchesEvent (hmatches row hrow)
  refine ⟨fun row hrow => (hids row hrow).2, group.stateGroupId, _,
    findEventStateGroup_applyBookkeeping, by rw [findForwardExtremities_applyBookkeeping],
    hrefused, ?_⟩
  have hroom : ∀ row ∈ update.state, row.roomId = update.event.roomId := fun row hrow =>
    (hids row hrow).1
  rw [state_applyBookkeeping hnew, ← currentState_ownRowWritten store.state hroom]
  exact currentStateChanges_overlay _ hchanges

end

end Bookkeeping

end Merovingian
