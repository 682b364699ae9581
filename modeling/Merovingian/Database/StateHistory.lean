import Merovingian.Database.PersistentStore
import Merovingian.Database.StateGroupChains
import Merovingian.Lib.Chains

/-!
# The history of a slot

Every event that becomes current in a slot has a transition, which names the event it replaced.
Following the transitions back from the current event gives the history of the slot.

An event has one transition.  When a resolution makes an event current again, its transition is
rewritten to name the event it replaces now, and if that event came after it the history runs in a
circle.  This is the only way: no history runs in a circle as long as no event is made current over
an event whose own history it is part of (`stateHistory_acyclic`).
-/

namespace Merovingian

open PersistentStateEvent Option List Function

/-- The parts of a slot hold no NUL, so that the joined keys of the index are not ambiguous. -/
def NulFreeSlot (slot : Str × Str × Str) : Prop :=
  0 ∉ slot.1 ∧ 0 ∉ slot.2.1 ∧ 0 ∉ slot.2.2

lemma stateTransitionIndexKey_inj {slot slot' : Str × Str × Str} {id id' : Str}
    (h : NulFreeSlot slot) (h' : NulFreeSlot slot')
    (heq : stateTransitionIndexKey slot id = stateTransitionIndexKey slot' id') :
    slot = slot' ∧ id = id' := by
  obtain ⟨room', eventType', stateKey'⟩ := slot'
  obtain ⟨rfl, heq⟩ := append_nul_inj h.1 h'.1 heq
  obtain ⟨rfl, heq⟩ := append_nul_inj h.2.1 h'.2.1 heq
  obtain ⟨rfl, rfl⟩ := append_nul_inj h.2.2 h'.2.2 heq
  exact ⟨rfl, rfl⟩

/-- A key has as many NULs as it joins parts, so that those of a key that is joined from parts
without NULs have none. -/
lemma stateTransitionIndexKey_inj_left {slot slot' : Str × Str × Str} {id id' : Str}
    (h' : NulFreeSlot slot') (hid : 0 ∉ id')
    (heq : stateTransitionIndexKey slot id = stateTransitionIndexKey slot' id') :
    slot' = slot ∧ id' = id := by
  have hcount := congrArg (count 0) heq
  obtain ⟨h1, h2, h3⟩ := h'
  simp only [stateTransitionIndexKey, count_append, count_cons_self, count_eq_zero.mpr h1,
    count_eq_zero.mpr h2, count_eq_zero.mpr h3, count_eq_zero.mpr hid] at hcount
  refine (stateTransitionIndexKey_inj ⟨?_, ?_, ?_⟩ ⟨h1, h2, h3⟩ heq).imp Eq.symm Eq.symm
  all_goals exact count_eq_zero.mp (by omega)

/-- The slot of a transition. -/
def PersistentStateTransition.slot (transition : PersistentStateTransition) : Str × Str × Str :=
  (transition.roomId, transition.eventType, transition.stateKey)

/-- The event that a transition names, unless it is the first. -/
def PersistentStateTransition.previous (transition : PersistentStateTransition) : Option Str :=
  if transition.previousEventId = [] then none else some transition.previousEventId

namespace StateTransitionTable

/-- The index has every row under its key. -/
def Keyed (table : StateTransitionTable) : Prop :=
  ∀ key position, table.index key = some position → ∃ row, table.rows[position]? = some row ∧
    key = stateTransitionIndexKey row.slot row.eventId

lemma Keyed.of_find {table : StateTransitionTable} (h : table.Keyed) {slot : Str × Str × Str}
    {eventId : Str} {row : PersistentStateTransition} (hfind : table.find slot eventId = some row) :
    row ∈ table.rows ∧
      stateTransitionIndexKey slot eventId = stateTransitionIndexKey row.slot row.eventId := by
  obtain ⟨position, hindex, hrow⟩ := bind_eq_some_iff.mp hfind
  obtain ⟨row', hrow', hkey⟩ := h _ _ hindex
  obtain rfl := Option.some.inj (hrow.symm.trans hrow')
  exact ⟨mem_of_getElem? hrow, hkey⟩

lemma Keyed.push {table : StateTransitionTable} (h : table.Keyed) (state : PersistentStateEvent)
    (previous : Str) : (table.push state previous).Keyed := by
  intro key position hindex
  have hold : table.index key = some position → ∃ row, (table.push state previous).rows[position]? =
      some row ∧ key = stateTransitionIndexKey row.slot row.eventId := by
    intro hindex
    obtain ⟨row, hrow, hkey⟩ := h key position hindex
    exact ⟨row, (getElem?_append_left (List.getElem?_eq_some_iff.mp hrow).1).trans hrow, hkey⟩
  by_cases hkey : key = stateTransitionIndexKey state.slot state.eventId
  · simp only [StateTransitionTable.push, ← hkey, update_self] at hindex
    rcases or_eq_some_iff.mp hindex with hindex | ⟨-, hlast⟩
    · exact hold hindex
    · obtain rfl := Option.some.inj hlast
      exact ⟨_, getElem?_concat_length, hkey⟩
  · simp only [StateTransitionTable.push, update_of_ne hkey] at hindex
    exact hold hindex

/-- One step back in the history of a slot. -/
def previousOf (table : StateTransitionTable) (slot : Str × Str × Str) (eventId : Str) :
    Option Str :=
  (table.find slot eventId).bind PersistentStateTransition.previous

/-- An event that has a transition in a slot. -/
def Recorded (table : StateTransitionTable) (slot : Str × Str × Str) (eventId : Str) : Prop :=
  (table.find slot eventId).isSome = true

/-- What every write keeps: the index points at rows, at different ones for different keys, and
an event that a transition names has a transition itself. -/
structure Consistent (table : StateTransitionTable) : Prop where
  inRange : ∀ key position, table.index key = some position → position < table.rows.length
  injective : ∀ key key' position, table.index key = some position →
    table.index key' = some position → key = key'
  closed : ∀ slot, NulFreeSlot slot → ∀ eventId previous,
    table.previousOf slot eventId = some previous → table.Recorded slot previous

variable {table : StateTransitionTable} {state : PersistentStateEvent} {previous : Str}
  {slot : Str × Str × Str} {eventId : Str}

lemma consistent_empty : Consistent {} where
  inRange _ _ h := absurd h.symm (some_ne_none _)
  injective _ _ _ h := absurd h.symm (some_ne_none _)
  closed _ _ _ _ h := absurd h.symm (some_ne_none _)

/-- The transition a write leaves. -/
def transitionOf (state : PersistentStateEvent) (previous : Str) : PersistentStateTransition :=
  ⟨state.roomId, state.eventType, state.stateKey, state.eventId, previous⟩

section

variable (h : table.Consistent)

include h

lemma Consistent.recorded_iff :
    table.Recorded slot eventId ↔ table.index (stateTransitionIndexKey slot eventId) ≠ none := by
  rw [Recorded, find]
  cases hindex : table.index (stateTransitionIndexKey slot eventId) with
  | none => simp
  | some position => simpa using h.inRange _ _ hindex

lemma Consistent.assign_of_new (hnew : ¬ table.Recorded state.slot state.eventId) :
    table.assign state previous = table.push state previous := by
  rw [h.recorded_iff, not_not] at hnew
  rw [assign, hnew]

lemma Consistent.index_push_of_recorded (hold : table.Recorded state.slot state.eventId) :
    (table.push state previous).index = table.index := by
  obtain ⟨position, hindex⟩ := ne_none_iff_exists'.mp (h.recorded_iff.mp hold)
  rw [push, hindex, some_or, ← hindex]
  exact update_eq_self _ _

/-- A second transition that is pushed for an event is not found. -/
lemma Consistent.find_push_of_recorded
    (hold : table.Recorded state.slot state.eventId) (previous : Str) (slot : Str × Str × Str)
    (eventId : Str) : (table.push state previous).find slot eventId = table.find slot eventId := by
  rw [find, find, h.index_push_of_recorded hold]
  cases hother : table.index (stateTransitionIndexKey slot eventId) with
  | none => rfl
  | some other => exact getElem?_append_left (h.inRange _ _ hother)

lemma Consistent.find_assign (hslot : NulFreeSlot slot)
    (hstate : NulFreeSlot state.slot) (eventId : Str) :
    ((table.assign state previous).find slot eventId).map PersistentStateTransition.previous =
      if slot = state.slot ∧ eventId = state.eventId then
        some (transitionOf state previous).previous
      else (table.find slot eventId).map PersistentStateTransition.previous := by
  by_cases hkey : stateTransitionIndexKey slot eventId =
      stateTransitionIndexKey state.slot state.eventId
  · obtain ⟨rfl, rfl⟩ := stateTransitionIndexKey_inj hslot hstate hkey
    rw [assign]
    cases hindex : table.index (stateTransitionIndexKey state.slot state.eventId) with
    | none => simp [push, find, hindex, transitionOf]
    | some position =>
      have hlt := h.inRange _ _ hindex
      simp [find, hindex, hlt]
      rfl
  · have hne : ¬ (slot = state.slot ∧ eventId = state.eventId) := fun ⟨hs, he⟩ =>
      hkey (by rw [hs, he])
    rw [if_neg hne, assign]
    cases hindex : table.index (stateTransitionIndexKey state.slot state.eventId) with
    | none =>
      simp only [find, push, update_of_ne hkey]
      cases hother : table.index (stateTransitionIndexKey slot eventId) with
      | none => rfl
      | some other =>
        rw [bind_some, bind_some, getElem?_append_left (h.inRange _ _ hother)]
    | some position =>
      simp only [h.inRange _ _ hindex, if_true, find]
      cases hother : table.index (stateTransitionIndexKey slot eventId) with
      | none => rfl
      | some other =>
        -- another key has another row
        have hrow : position ≠ other := fun heq =>
          hkey (h.injective _ _ position (heq ▸ hother) hindex)
        simp [hrow]

end

lemma recorded_iff_map : table.Recorded slot eventId ↔
    ((table.find slot eventId).map PersistentStateTransition.previous).isSome = true := by
  rw [isSome_map, Recorded]

lemma previousOf_eq_map : table.previousOf slot eventId =
    ((table.find slot eventId).map PersistentStateTransition.previous).join := by
  rw [previousOf]
  cases table.find slot eventId <;> rfl

lemma Consistent.recorded_assign (h : table.Consistent) (hslot : NulFreeSlot slot)
    (hstate : NulFreeSlot state.slot) :
    (table.assign state previous).Recorded slot eventId ↔
      slot = state.slot ∧ eventId = state.eventId ∨ table.Recorded slot eventId := by
  rw [recorded_iff_map, h.find_assign hslot hstate, recorded_iff_map]
  split
  · next hboth => simp [hboth]
  · next hboth => simp [hboth]

/-- The history of the slot gets one step; the other slots keep theirs. -/
lemma Consistent.previousOf_assign (h : table.Consistent) (hslot : NulFreeSlot slot)
    (hstate : NulFreeSlot state.slot) :
    (table.assign state previous).previousOf slot = if slot = state.slot then
        Function.update (table.previousOf slot) state.eventId (transitionOf state previous).previous
      else table.previousOf slot := by
  funext eventId
  rw [previousOf_eq_map, h.find_assign hslot hstate]
  by_cases heq : slot = state.slot
  · by_cases hid : eventId = state.eventId
    · simp [heq, hid]
    · simp [heq, hid, previousOf_eq_map]
  · simp [heq, previousOf_eq_map]

lemma transitionOf_previous_eq_some {id : Str}
    (h : (transitionOf state previous).previous = some id) : previous = id ∧ previous ≠ [] := by
  rw [PersistentStateTransition.previous] at h
  split at h
  · exact absurd h.symm (some_ne_none id)
  · next hne => exact ⟨some.inj h, hne⟩

lemma Consistent.assign (h : table.Consistent) (hstate : NulFreeSlot state.slot)
    (hprevious : previous ≠ [] → table.Recorded state.slot previous) :
    (table.assign state previous).Consistent where
  inRange := by
    rw [StateTransitionTable.assign]
    cases hindex : table.index (stateTransitionIndexKey state.slot state.eventId) with
    | none =>
      intro key position hposition
      have hrange := h.inRange key position
      simp only [push, update_apply, hindex, length_append,
        length_singleton] at hposition ⊢
      split at hposition
      · obtain rfl : table.rows.length = position := by simpa using hposition
        omega
      · have := hrange hposition
        omega
    | some position => simpa [h.inRange _ _ hindex] using h.inRange
  injective := by
    rw [StateTransitionTable.assign]
    cases hindex : table.index (stateTransitionIndexKey state.slot state.eventId) with
    | none =>
      -- the new position is past every old one
      intro key key' position hkey hkey'
      have hrange := h.inRange key position
      have hrange' := h.inRange key' position
      simp only [push, update_apply, hindex] at hkey hkey'
      split at hkey <;> split at hkey'
      · next heq heq' => rw [heq, heq']
      · have := hrange' hkey'
        have := some.inj hkey
        omega
      · have := hrange hkey
        have := some.inj hkey'
        omega
      · exact h.injective _ _ _ hkey hkey'
    | some position => simpa [h.inRange _ _ hindex] using h.injective
  closed := by
    intro slot hslot eventId id hid
    rw [h.recorded_assign hslot hstate]
    rw [h.previousOf_assign hslot hstate] at hid
    split at hid
    · next heq =>
      subst heq
      rw [update_apply] at hid
      split at hid
      · obtain ⟨rfl, hne⟩ := transitionOf_previous_eq_some hid
        exact .inr (hprevious hne)
      · exact .inr (h.closed _ hslot eventId id hid)
    · exact .inr (h.closed _ hslot eventId id hid)

lemma Consistent.push (h : table.Consistent) (hstate : NulFreeSlot state.slot)
    (hprevious : previous ≠ [] → table.Recorded state.slot previous) :
    (table.push state previous).Consistent := by
  by_cases hold : table.Recorded state.slot state.eventId
  · have hfind := h.find_push_of_recorded hold previous
    have hsame : (table.push state previous).index = table.index := h.index_push_of_recorded hold
    refine ⟨fun key position hkey => ?_, fun key key' position hkey hkey' => ?_,
      fun slot hslot eventId id hid => ?_⟩
    · rw [hsame] at hkey
      have := h.inRange key position hkey
      simp only [StateTransitionTable.push, length_append]
      omega
    · rw [hsame] at hkey hkey'
      exact h.injective _ _ _ hkey hkey'
    · rw [Recorded, hfind]
      rw [previousOf, hfind] at hid
      exact h.closed slot hslot eventId id hid
  · rw [← h.assign_of_new hold]
    exact h.assign hstate hprevious

lemma Consistent.finite_previousOf (h : table.Consistent) (slot : Str × Str × Str) :
    {eventId | table.previousOf slot eventId ≠ none}.Finite := by
  have hindex : ∀ eventId ∈ {eventId | table.previousOf slot eventId ≠ none},
      ∃ position, table.index (stateTransitionIndexKey slot eventId) = some position := by
    intro eventId hprevious
    refine ne_none_iff_exists'.mp fun hnone => hprevious ?_
    rw [previousOf, find, hnone]
    rfl
  refine Set.Finite.of_injOn (f := fun eventId =>
    (table.index (stateTransitionIndexKey slot eventId)).getD 0) (t := Set.Iio table.rows.length)
    ?_ ?_ (Set.finite_Iio _)
  · intro eventId hevent
    obtain ⟨position, hposition⟩ := hindex eventId hevent
    simpa [hposition] using h.inRange _ _ hposition
  · intro eventId hevent eventId' hevent' heq
    obtain ⟨position, hposition⟩ := hindex eventId hevent
    obtain ⟨position', hposition'⟩ := hindex eventId' hevent'
    obtain rfl : position = position' := by simpa [hposition, hposition'] using heq
    have hkey := h.injective _ _ _ hposition hposition'
    simpa [stateTransitionIndexKey] using hkey

end StateTransitionTable

open StateTransitionTable

/-! ### Runs -/

/-- A call of `apply_store_event_with_state` or of `apply_current_state`. -/
inductive HistoryCall where
  | storeEvent (update : PreparedStateUpdate)
  | currentState (prepared : PreparedCurrentState)

/-- What the call does. -/
def applyHistoryCall (parseLossless : Str → Option Value) (store : PersistentStore) :
    HistoryCall → PersistentStore
  | .storeEvent update => applyStoreEventWithState parseLossless store update
  | .currentState prepared => applyCurrentState store prepared

/-- The event that a write names as replaced has a transition, if there is one. -/
def ReplacesRecorded (store : PersistentStore) (state : PersistentStateEvent) (previous : Str) :
    Prop :=
  NulFreeSlot state.slot ∧
    (previous ≠ [] → store.stateTransitions.Recorded state.slot previous)

/-- The event is part of the history of the event it is to replace. -/
def PartOfReplaced (store : PersistentStore) (prepared : PreparedCurrentState) : Prop :=
  prepared.previousEventId ≠ [] ∧
    Reaches (store.stateTransitions.previousOf prepared.state.slot) prepared.previousEventId
      prepared.state.eventId

/-- Calls under which no history runs in a circle. -/
def Admissible (store : PersistentStore) : HistoryCall → Prop
  | .storeEvent update => ∀ row ∈ update.state, ReplacesRecorded store row update.previousEventId
  | .currentState prepared =>
    ReplacesRecorded store prepared.state prepared.previousEventId ∧
      ¬ PartOfReplaced store prepared

/-- A call that may be made. -/
def HistoryStep (parseLossless : Str → Option Value) (store : PersistentStore) (call : HistoryCall)
    (store' : PersistentStore) : Prop :=
  Admissible store call ∧ store' = applyHistoryCall parseLossless store call

section Predecessor

variable {store : PersistentStore} {slot : Str × Str × Str} {prevEventIds authEventIds : List Str}

lemma predecessorLevel_recorded {level visited next : List Str} {id : Str}
    (h : predecessorLevel store slot level visited next = .inl id) :
    store.stateTransitions.Recorded slot id := by
  induction level generalizing visited next with
  | nil => cases h
  | cons head level ih =>
    rw [predecessorLevel] at h
    split at h
    · next hfound =>
      cases h
      exact hfound
    · exact ih h

lemma predecessorFrom_recorded {remaining : ℕ} {visited queue : List Str}
    (h : predecessorFrom store slot remaining visited queue ≠ []) :
    store.stateTransitions.Recorded slot (predecessorFrom store slot remaining visited queue) := by
  induction remaining generalizing visited queue with
  | zero => exact absurd rfl h
  | succ remaining ih =>
    rw [predecessorFrom] at h ⊢
    split at h
    · next hlevel => exact predecessorLevel_recorded hlevel
    · exact ih h

/-- `find_predecessor_state_event_id` names only events that have a transition in the slot. -/
lemma findPredecessorStateEventId_recorded
    (h : findPredecessorStateEventId store slot prevEventIds authEventIds ≠ []) :
    store.stateTransitions.Recorded slot
      (findPredecessorStateEventId store slot prevEventIds authEventIds) := by
  rw [findPredecessorStateEventId] at h ⊢
  split at h
  · next hfound =>
    have hrecorded := find?_some hfound
    exact hrecorded
  · exact predecessorFrom_recorded h

lemma admissible_prepareStoreEventWithState {parseLossless : Str → Option Value}
    {formatDouble : Double → Str} {event : PersistentEvent} {state : Option PersistentStateEvent}
    {membership : Option MembershipProjection} {update : PreparedStateUpdate}
    (h : prepareStoreEventWithState parseLossless formatDouble store event state membership =
      some update) (hnul : ∀ row ∈ state, NulFreeSlot row.slot) :
    Admissible store (.storeEvent update) := by
  rw [prepareStoreEventWithState] at h
  split_ifs at h
  cases h
  rintro row ⟨⟩
  exact ⟨hnul row rfl, findPredecessorStateEventId_recorded⟩

end Predecessor

/-- What holds in every store that is reached. -/
structure HistoryInvariant (store : PersistentStore) : Prop where
  consistent : store.stateTransitions.Consistent
  nulFree : ∀ row ∈ store.state.rows, NulFreeSlot row.slot
  recorded : ∀ row ∈ store.state.rows, store.stateTransitions.Recorded row.slot row.eventId
  acyclic : ∀ slot, NulFreeSlot slot → Acyclic (store.stateTransitions.previousOf slot)

lemma historyInvariant_empty : HistoryInvariant .empty where
  consistent := consistent_empty
  nulFree _ h := absurd h not_mem_nil
  recorded _ h := absurd h not_mem_nil
  acyclic _ _ := acyclic_none

lemma StateTable.mem_rows_assign {table : StateTable} {state row : PersistentStateEvent}
    (h : row ∈ (table.assign state).rows) : row = state ∨ row ∈ table.rows := by
  have hread := lookupBy_of_mem (table.assign state).slots_nodup h
  rw [table.lookupBy_assign] at hread
  split at hread
  · exact .inl (some.inj hread).symm
  · exact .inr (mem_of_lookupBy hread)

section Steps

variable {store : PersistentStore} {state : PersistentStateEvent} {previous : Str}

/-- An event without a transition is in no history of an event that has one. -/
lemma HistoryInvariant.not_reaches_new (h : HistoryInvariant store)
    (hreplaces : ReplacesRecorded store state previous) (hne : previous ≠ [])
    (hnew : ¬ store.stateTransitions.Recorded state.slot state.eventId) :
    ¬ Reaches (store.stateTransitions.previousOf state.slot) previous state.eventId := by
  intro hreach
  refine hnew (hreach.invariant (fun x y _ hxy => ?_) (hreplaces.2 hne))
  exact h.consistent.closed _ hreplaces.1 x y hxy

lemma HistoryInvariant.write (h : HistoryInvariant store)
    (hreplaces : ReplacesRecorded store state previous) (hpart : previous ≠ [] →
      ¬ Reaches (store.stateTransitions.previousOf state.slot) previous state.eventId)
    (events : EventTable) :
    HistoryInvariant { store with
        events := events
        state := store.state.assign state
        stateTransitions := store.stateTransitions.assign state previous } where
  consistent := h.consistent.assign hreplaces.1 hreplaces.2
  nulFree row hrow := by
    rcases StateTable.mem_rows_assign hrow with rfl | hrow
    · exact hreplaces.1
    · exact h.nulFree row hrow
  recorded row hrow := by
    rcases StateTable.mem_rows_assign hrow with rfl | hrow
    · exact (h.consistent.recorded_assign hreplaces.1 hreplaces.1).mpr (.inl ⟨rfl, rfl⟩)
    · exact (h.consistent.recorded_assign (h.nulFree row hrow) hreplaces.1).mpr
        (.inr (h.recorded row hrow))
  acyclic slot hslot := by
    rw [h.consistent.previousOf_assign hslot hreplaces.1]
    split
    · next heq =>
      subst heq
      rw [PersistentStateTransition.previous]
      split
      · exact (h.acyclic _ hslot).update_none _
      · next hne => exact (acyclic_update_iff (h.acyclic _ hslot)).mpr (hpart hne)
    · exact h.acyclic slot hslot

lemma HistoryInvariant.write_recorded (h : HistoryInvariant store)
    (hreplaces : ReplacesRecorded store state previous)
    (hold : store.stateTransitions.Recorded state.slot state.eventId) (events : EventTable) :
    HistoryInvariant { store with
        events := events
        state := store.state.assign state
        stateTransitions := store.stateTransitions.push state previous } := by
  have hfind := h.consistent.find_push_of_recorded hold previous
  refine ⟨h.consistent.push hreplaces.1 hreplaces.2, fun row hrow => ?_, fun row hrow => ?_,
    fun slot hslot => ?_⟩
  · rcases StateTable.mem_rows_assign hrow with rfl | hrow
    · exact hreplaces.1
    · exact h.nulFree row hrow
  · rw [Recorded, hfind]
    rcases StateTable.mem_rows_assign hrow with rfl | hrow
    · exact hold
    · exact h.recorded row hrow
  · have hsame : (store.stateTransitions.push state previous).previousOf slot =
        store.stateTransitions.previousOf slot := by
      funext eventId
      rw [previousOf, previousOf, hfind]
    rw [hsame]
    exact h.acyclic slot hslot

/-- The invariant is kept by every call that may be made. -/
lemma HistoryInvariant.step {parseLossless : Str → Option Value} {call : HistoryCall}
    {store' : PersistentStore} (hstep : HistoryStep parseLossless store call store')
    (h : HistoryInvariant store) : HistoryInvariant store' := by
  obtain ⟨hadmissible, rfl⟩ := hstep
  cases call with
  | storeEvent update =>
    rw [applyHistoryCall, applyStoreEventWithState]
    split
    · exact h
    · cases hstate : update.state with
      | none => exact { h with }
      | some row =>
        have hreplaces := hadmissible row hstate
        by_cases hold : store.stateTransitions.Recorded row.slot row.eventId
        · exact h.write_recorded hreplaces hold _
        · dsimp only
          rw [← h.consistent.assign_of_new hold]
          exact h.write hreplaces (fun hne => h.not_reaches_new hreplaces hne hold) _
  | currentState prepared =>
    exact h.write hadmissible.1 (fun hne hreach => hadmissible.2 ⟨hne, hreach⟩) store.events

end Steps

/-- The history of a current-state row comes to an event twice. -/
def RunsInCircle (store : PersistentStore) (row : PersistentStateEvent) : Prop :=
  ∃ eventId, Reaches (store.stateTransitions.previousOf row.slot) row.eventId eventId ∧
    Follows (store.stateTransitions.previousOf row.slot) eventId eventId

/-- From the empty store, calls that make no event current over an event whose history it is part
of leave no history that runs in a circle; each comes to an end.  And in every store so reached a
call that does make such an event current leaves a history that runs in a circle. -/
theorem stateHistory_acyclic {parseLossless : Str → Option Value} {calls : List HistoryCall}
    {store : PersistentStore} (hrun : Run (HistoryStep parseLossless) .empty calls store) :
    (∀ row ∈ store.state.rows, ¬ RunsInCircle store row ∧
      ∃ first, Reaches (store.stateTransitions.previousOf row.slot) row.eventId first ∧
        store.stateTransitions.previousOf row.slot first = none) ∧
    ∀ prepared, ReplacesRecorded store prepared.state prepared.previousEventId →
      PartOfReplaced store prepared → ∃ row ∈ (applyCurrentState store prepared).state.rows,
        RunsInCircle (applyCurrentState store prepared) row := by
  have h : HistoryInvariant store :=
    hrun.invariant HistoryInvariant (fun _ => True) (fun _ hstep h => h.step hstep)
      (fun _ _ => trivial) historyInvariant_empty
  refine ⟨fun row hrow => ⟨?_, ?_⟩, fun prepared hreplaces hpart => ?_⟩
  · rintro ⟨eventId, -, hcircle⟩
    exact h.acyclic _ (h.nulFree row hrow) eventId hcircle
  · exact (h.acyclic _ (h.nulFree row hrow)).exists_end (h.consistent.finite_previousOf _) _
  · obtain ⟨hne, hreach⟩ := hpart
    have hmem : prepared.state ∈ (store.state.assign prepared.state).rows := by
      have hread := store.state.lookupBy_assign prepared.state prepared.state.slot
      rw [if_pos rfl] at hread
      exact mem_of_lookupBy hread
    refine ⟨prepared.state, hmem, prepared.state.eventId, .refl, ?_⟩
    show Follows ((store.stateTransitions.assign prepared.state
      prepared.previousEventId).previousOf prepared.state.slot) _ _
    rw [h.consistent.previousOf_assign hreplaces.1 hreplaces.1, if_pos rfl,
      PersistentStateTransition.previous]
    exact .head' (by simp [transitionOf, hne]) (hreach.update _)

/-! ### A membership that is restored -/

namespace RestoredJoin

/-- A member event of a user. -/
def memberValue (membership : Str) : Value :=
  .obj [("content", .obj [("membership", .str membership)]), ("state_key", .str "@u:x"),
    ("type", .str "m.room.member")]

/-- Its text. -/
def memberJson (membership : Str) : Str :=
  (serializeCanonicalStrict (memberValue membership)).toOption.getD []

/-- What the parser reads back from the two texts. -/
def parse (json : Str) : Option Value :=
  if json = memberJson "join" then some (memberValue "join")
  else if json = memberJson "leave" then some (memberValue "leave")
  else none

/-- The join. -/
def join : PersistentEvent :=
  { eventId := "$join", roomId := "!r:x", senderUserId := "@u:x", json := memberJson "join" }

/-- A leave that replaces it. -/
def leave : PersistentEvent :=
  { eventId := "$leave", roomId := "!r:x", senderUserId := "@u:x", json := memberJson "leave"
    prevEventIds := ["$join"], authEventIds := ["$join"] }

/-- The row of an event of the user. -/
def row (event : PersistentEvent) : PersistentStateEvent :=
  ⟨"!r:x", "m.room.member", "@u:x", event.eventId⟩

/-- The join and the leave are stored. -/
def calls : List HistoryCall :=
  [.storeEvent ⟨join, some (row join), []⟩, .storeEvent ⟨leave, some (row leave), "$join"⟩]

/-- The store after them. -/
def leftStore : PersistentStore := calls.foldl (applyHistoryCall parse) .empty

/-- A resolution makes the join current again. -/
def restore : PreparedCurrentState := ⟨row join, "$leave"⟩

/-- The calls are the ones the program prepares. -/
example :
    (prepareStoreEventWithState parse (fun _ => []) .empty join (some (row join)) none).map
        (fun update => (update.event, update.state, update.previousEventId)) =
      some (join, some (row join), []) ∧
    (prepareStoreEventWithState parse (fun _ => [])
        (applyStoreEventWithState parse .empty ⟨join, some (row join), []⟩) leave
        (some (row leave)) none).map
        (fun update => (update.event, update.state, update.previousEventId)) =
      some (leave, some (row leave), lit "$join") ∧
    (storeState parse leftStore (row join) true).1 = true ∧
    (storeState parse leftStore (row join) true).2.stateTransitions.rows =
      (applyCurrentState leftStore restore).stateTransitions.rows := by
  decide

end RestoredJoin

open RestoredJoin

/-- After a join, a leave and a resolution that makes the join current again, the history of the
user's membership goes from the join to the leave and back to the join. -/
theorem stateHistory_circular :
    Run (fun store call store' => store' = applyHistoryCall parse store call) .empty
        (calls ++ [.currentState restore]) (applyCurrentState leftStore restore) ∧
      row join ∈ (applyCurrentState leftStore restore).state.rows ∧
      RunsInCircle (applyCurrentState leftStore restore) (row join) := by
  have hjoin : (applyCurrentState leftStore restore).stateTransitions.previousOf (row join).slot
      "$join" = some (lit "$leave") := by decide
  have hleave : (applyCurrentState leftStore restore).stateTransitions.previousOf (row join).slot
      (lit "$leave") = some (lit "$join") := by decide
  refine ⟨.cons rfl (.cons rfl (.cons rfl (.nil _))), by decide, "$join", .refl, ?_⟩
  exact .tail (.single hjoin) hleave

/-- The run of the join and the leave is one of those of the theorem. -/
theorem stateHistory_acyclic_leave :
    Run (HistoryStep parse) .empty calls leftStore ∧ PartOfReplaced leftStore restore ∧
      (∀ row ∈ leftStore.state.rows, ¬ RunsInCircle leftStore row) ∧
      ∃ row ∈ (applyCurrentState leftStore restore).state.rows,
        RunsInCircle (applyCurrentState leftStore restore) row := by
  have hjoin : NulFreeSlot (row join).slot := by unfold NulFreeSlot; decide
  have hleave : NulFreeSlot (row leave).slot := hjoin
  have hrun : Run (HistoryStep parse) .empty calls leftStore := by
    refine .cons ⟨?_, rfl⟩ (.cons ⟨?_, rfl⟩ (.nil _))
    · intro _ hrow
      cases hrow
      exact ⟨hjoin, fun hne => absurd rfl hne⟩
    · intro _ hrow
      cases hrow
      refine ⟨hleave, fun _ => ?_⟩
      unfold Recorded
      decide
  have hback : leftStore.stateTransitions.previousOf (row join).slot (lit "$leave") =
      some (lit "$join") := by decide
  have hpart : PartOfReplaced leftStore restore := ⟨by decide, .single hback⟩
  have hrecorded : ReplacesRecorded leftStore restore.state restore.previousEventId := by
    refine ⟨hjoin, fun _ => ?_⟩
    unfold Recorded
    decide
  obtain ⟨hacyclic, hcircle⟩ := stateHistory_acyclic hrun
  exact ⟨hrun, hpart, fun row hrow => (hacyclic row hrow).1, hcircle restore hrecorded hpart⟩

end Merovingian
