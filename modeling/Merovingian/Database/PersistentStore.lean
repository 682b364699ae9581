import Merovingian.Database.CurrentState
import Merovingian.Database.EventTable
import Merovingian.Database.StateGroups
import Merovingian.Json.Serializer

/-!
# Storing events and current state

The model of the part of `database/PersistentStore.cpp` that stores an event with its state row and
changes the current state: `prepare_store_event_with_state`, `prepare_current_state`,
`prepare_event_state_group` and the functions that apply them, `store_state`, and the forward
extremities.

A write is prepared against the store, committed by the backend, and then applied to the tables in
memory.  The backend's answer is an argument.  Rows that none of these functions reads
(memberships, invites, edges of the event graph, redactions) are left out.
-/

namespace Merovingian

open PersistentStateEvent List

/-! ### State transitions -/

structure PersistentStateTransition where
  roomId : Str
  eventType : Str
  stateKey : Str
  eventId : Str
  previousEventId : Str
deriving DecidableEq, Repr

/-- `state_transition_index_key` of an event that became current in a slot. -/
def stateTransitionIndexKey (slot : Str × Str × Str) (eventId : Str) : Str :=
  slot.1 ++ 0 :: (slot.2.1 ++ 0 :: (slot.2.2 ++ 0 :: eventId))

/-- `store.state_transitions` with `store.state_transition_index`. -/
structure StateTransitionTable where
  rows : List PersistentStateTransition := []
  index : Str → Option ℕ := fun _ => none

namespace StateTransitionTable

/-- `find_state_transition`. -/
def find (table : StateTransitionTable) (slot : Str × Str × Str) (eventId : Str) :
    Option PersistentStateTransition :=
  (table.index (stateTransitionIndexKey slot eventId)).bind fun position => table.rows[position]?

/-- A transition pushed back, and `emplace` of its position: a held key stays. -/
def push (table : StateTransitionTable) (state : PersistentStateEvent) (previousEventId : Str) :
    StateTransitionTable :=
  let key := stateTransitionIndexKey state.slot state.eventId
  { rows := table.rows ++
      [⟨state.roomId, state.eventType, state.stateKey, state.eventId, previousEventId⟩]
    index := Function.update table.index key ((table.index key).or (some table.rows.length)) }

/-- The upsert at the end of `apply_current_state`. -/
def assign (table : StateTransitionTable) (state : PersistentStateEvent) (previousEventId : Str) :
    StateTransitionTable :=
  match table.index (stateTransitionIndexKey state.slot state.eventId) with
  | some position =>
    if position < table.rows.length then
      -- the event becomes current again
      { table with rows := table.rows.modify position fun row =>
          { row with previousEventId := previousEventId } }
    else table.push state previousEventId
  | none => table.push state previousEventId

end StateTransitionTable

/-! ### The groups of events -/

structure PersistentEventStateGroup where
  eventId : Str
  stateGroupId : Str
deriving DecidableEq, Repr

/-- `rows_[position].state_group_id = state_group_id`. -/
def PersistentEventStateGroup.withGroup (stateGroupId : Str) (row : PersistentEventStateGroup) :
    PersistentEventStateGroup :=
  { row with stateGroupId := stateGroupId }

@[simp] lemma PersistentEventStateGroup.eventId_withGroup (stateGroupId : Str)
    (row : PersistentEventStateGroup) : (row.withGroup stateGroupId).eventId = row.eventId := rfl

/-- `EventStateGroupTable`: the rows and the hash index from an event to its row. -/
structure EventStateGroupTable where
  rows : List PersistentEventStateGroup
  byEvent : Str → Option ℕ
  byEvent_eq : ∀ eventId, byEvent eventId =
    (rows.map PersistentEventStateGroup.eventId).findIdx? fun id => id = eventId

namespace EventStateGroupTable

/-- The table without rows. -/
def empty : EventStateGroupTable := ⟨[], fun _ => none, fun _ => rfl⟩

def stateGroupOf (table : EventStateGroupTable) (eventId : Str) : Option Str :=
  (table.byEvent eventId).bind fun position =>
    table.rows[position]?.map PersistentEventStateGroup.stateGroupId

def assign (table : EventStateGroupTable) (eventId stateGroupId : Str) : EventStateGroupTable :=
  match h : table.byEvent eventId with
  | some position =>
    { rows := table.rows.modify position (.withGroup stateGroupId)
      byEvent := table.byEvent
      byEvent_eq := by
        intro id
        rw [map_modify_of_key (PersistentEventStateGroup.eventId_withGroup stateGroupId)]
        exact table.byEvent_eq id }
  | none =>
    { rows := table.rows ++ [⟨eventId, stateGroupId⟩]
      byEvent := Function.update table.byEvent eventId (some table.rows.length)
      byEvent_eq := by
        intro id
        rw [table.byEvent_eq] at h
        rw [map_append, map_singleton, findIdx?_append, ← table.byEvent_eq]
        by_cases hid : id = eventId
        · subst hid
          rw [Function.update_self, table.byEvent_eq, h]
          simp
        · simp [Function.update_of_ne hid, Ne.symm hid] }

end EventStateGroupTable

/-! ### The store -/

structure PersistentForwardExtremity where
  roomId : Str
  eventId : Str
deriving DecidableEq, Repr

/-- `PersistentStore`: the tables these functions read and write. -/
structure PersistentStore where
  events : EventTable
  state : StateTable
  stateTransitions : StateTransitionTable
  groups : StateGroupStore
  eventStateGroups : EventStateGroupTable
  forwardExtremities : List PersistentForwardExtremity
  nextSyncStreamId : ℕ

/-- The store without rows. -/
def PersistentStore.empty : PersistentStore where
  events := .empty
  state := .empty
  stateTransitions := {}
  groups := .empty
  eventStateGroups := .empty
  forwardExtremities := []
  nextSyncStreamId := 0

def maxSyncStreamId : ℕ := 2 ^ 63 - 1

/-- `allocate_sync_stream_id` on the counter `next_sync_stream_id`: it throws at the ceiling.  The
outcome of the watermark's write is ignored. -/
def allocateSyncStreamId (nextSyncStreamId : ℕ) : Option ℕ :=
  if maxSyncStreamId ≤ nextSyncStreamId then none else some (nextSyncStreamId + 1)

def syncStreamWriteReserve : ℕ := 2 ^ 20

def syncStreamHasWriteReserve (store : PersistentStore) : Bool :=
  store.nextSyncStreamId < maxSyncStreamId - syncStreamWriteReserve

/-! ### Memberships that come with an event -/

/-- `PersistentInvite`: the part that can be refused. -/
structure PersistentInvite where
  inviteStateEventsJson : List Str

structure MembershipProjection where
  userId : Str
  membership : Str
  invite : Option PersistentInvite

def membershipRecordsInvite (membership : Str) : Bool :=
  membership = "invite" || membership = "knock"

def membershipProjectionIsValid (projection : MembershipProjection) : Bool :=
  projection.userId ≠ [] && projection.membership ≠ [] &&
    (projection.invite.isNone || membershipRecordsInvite projection.membership)

section Parser

-- `canonicaljson::parse_lossless`, and the printer of numbers of `serialize_canonical`
variable (parseLossless : Str → Option Value) (formatDouble : Double → Str)

/-- `serialize_invite_state_events_json` succeeds. -/
def inviteStateEventsSerialize (eventJson : List Str) : Bool :=
  match eventJson.mapM parseLossless with
  | none => false
  | some events => (serializeValue (some formatDouble) (.arr events)).isOk

/-- `append_membership_projection_statements` succeeds. -/
def membershipProjectionIsWritable (projection : MembershipProjection) : Bool :=
  match projection.invite with
  | none => true
  | some invite =>
    !membershipRecordsInvite projection.membership ||
      inviteStateEventsSerialize parseLossless formatDouble invite.inviteStateEventsJson

/-! ### Current state -/

def topLevelJsonStringField (json fieldName : Str) : Option Str := do
  stringMember (← (← parseLossless json).asObject) fieldName

def stateMatchesEvent (event : PersistentEvent) (state : PersistentStateEvent) : Bool :=
  event.eventId = state.eventId && event.roomId = state.roomId &&
    topLevelJsonStringField parseLossless event.json "type" = some state.eventType &&
    topLevelJsonStringField parseLossless event.json "state_key" = some state.stateKey

/-- `state_matches_persisted_event`, and `state_matches_stored_event`. -/
def stateMatchesPersistedEvent (store : PersistentStore) (state : PersistentStateEvent) : Bool :=
  (store.events.find state.eventId).any fun event => stateMatchesEvent parseLossless event state

end Parser

structure PreparedCurrentState where
  state : PersistentStateEvent
  previousEventId : Str

def applyCurrentState (store : PersistentStore) (prepared : PreparedCurrentState) :
    PersistentStore :=
  { store with
    state := store.state.assign prepared.state
    stateTransitions := store.stateTransitions.assign prepared.state prepared.previousEventId }

/-- `store_state`, with the backend's answer: whether the row is stored, and the store. -/
def storeState (parseLossless : Str → Option Value) (store : PersistentStore)
    (state : PersistentStateEvent) (committed : Bool) : Bool × PersistentStore :=
  if ¬ stateMatchesPersistedEvent parseLossless store state then (false, store)
  else
    let existing := lookupBy slot store.state.rows state.slot
    -- a row that is already current is written by nobody
    if existing.any fun row => row.eventId = state.eventId then (true, store)
    else if ¬ committed then (false, store)
    else
      (true, applyCurrentState store ⟨state, (existing.map PersistentStateEvent.eventId).getD []⟩)

/-! ### Storing an event -/

/-- One level of the walk of `find_predecessor_state_event_id`: the event it stops at, or what
has been visited and the next level. -/
def predecessorLevel (store : PersistentStore) (slot : Str × Str × Str) : (level : List Str) →
    (visited next : List Str) → Str ⊕ List Str × List Str
  | [], visited, next => .inr (visited, next)
  | id :: level, visited, next =>
    if (store.stateTransitions.find slot id).isSome then .inl id
    else
      let parents := ((store.events.find id).map PersistentEvent.prevEventIds).getD []
      let fresh := firstBy (fun parent => parent) visited parents
      predecessorLevel store slot level (fresh.reverse ++ visited) (next ++ fresh)

/-- The levels of the walk of `find_predecessor_state_event_id`. -/
def predecessorFrom (store : PersistentStore) (slot : Str × Str × Str) : (remaining : ℕ) →
    (visited queue : List Str) → Str
  | 0, _, _ => []
  | remaining + 1, visited, queue =>
    match predecessorLevel store slot queue visited [] with
    | .inl id => id
    | .inr (visited, next) => predecessorFrom store slot remaining visited next

def findPredecessorStateEventId (store : PersistentStore) (slot : Str × Str × Str)
    (prevEventIds authEventIds : List Str) : Str :=
  match authEventIds.find? fun id => (store.stateTransitions.find slot id).isSome with
  | some id => id
  | none =>
    let queue := firstBy (fun id => id) [] prevEventIds
    predecessorFrom store slot 50 queue queue

structure PreparedStateUpdate where
  event : PersistentEvent
  state : Option PersistentStateEvent
  previousEventId : Str

/-- A projection belongs to the member event it is stored with. -/
def projectionMatches (state : Option PersistentStateEvent) (projection : MembershipProjection) :
    Bool :=
  (state.any fun row => row.eventType = lit "m.room.member" && row.stateKey = projection.userId) &&
    membershipProjectionIsValid projection

def prepareStoreEventWithState (parseLossless : Str → Option Value) (formatDouble : Double → Str)
    (store : PersistentStore) (event : PersistentEvent) (state : Option PersistentStateEvent)
    (membership : Option MembershipProjection) : Option PreparedStateUpdate :=
  if ¬ syncStreamHasWriteReserve store then none
  else if ¬ membership.all (projectionMatches state) then none
  else if (store.events.find event.eventId).isSome ∨
      ¬ state.all (stateMatchesEvent parseLossless event) then none
  else if ¬ membership.all (membershipProjectionIsWritable parseLossless formatDouble) then none
  else
    some
      { event := event
        state := state
        previousEventId := (state.map fun row => findPredecessorStateEventId store row.slot
          event.prevEventIds event.authEventIds).getD [] }

def applyStoreEventWithState (parseLossless : Str → Option Value) (store : PersistentStore)
    (update : PreparedStateUpdate) : PersistentStore :=
  if (store.events.find update.event.eventId).isSome then store
  else
    let stored := { store with events := (store.events.insert parseLossless update.event).2 }
    match update.state with
    | none => stored
    | some row =>
      { stored with
        state := store.state.assign row
        stateTransitions := store.stateTransitions.push row update.previousEventId }

def findEventStateGroup (store : PersistentStore) (eventId : Str) : Option Str :=
  store.eventStateGroups.stateGroupOf eventId

/-- `prepare_event_state_group` succeeds. -/
def eventStateGroupIsWritable (eventId stateGroupId : Str) : Bool :=
  eventId ≠ [] && stateGroupId ≠ []

def applyEventStateGroup (store : PersistentStore) (eventId stateGroupId : Str) : PersistentStore :=
  { store with eventStateGroups := store.eventStateGroups.assign eventId stateGroupId }

/-! ### Forward extremities -/

def findForwardExtremities (store : PersistentStore) (roomId : Str) : List Str :=
  (store.forwardExtremities.filter fun extremity => extremity.roomId = roomId).map
    PersistentForwardExtremity.eventId

def applyForwardExtremitiesUpdate (store : PersistentStore) (roomId eventId : Str)
    (replacedEventIds : List Str) : PersistentStore :=
  let kept := replacedEventIds.foldl
    (fun extremities replaced => extremities.filter fun extremity =>
      ¬ (extremity.roomId = roomId ∧ extremity.eventId = replaced))
    store.forwardExtremities
  { store with
    forwardExtremities :=
      if kept.any fun extremity => extremity.roomId = roomId ∧ extremity.eventId = eventId then kept
      else kept ++ [⟨roomId, eventId⟩] }

end Merovingian
