import Merovingian.Database.PersistentStore
import Merovingian.Events.StateResolution

/-!
# State bookkeeping

The model of the part of `homeserver/state_bookkeeping.cpp` that keeps a room's current state:
`resolve_extremity_states` resolves the states after the room's forward extremities,
`recompute_current_state` writes the resolved entries that differ from the current state,
`record_event_state` records the after-state of an event, and `store_event_with_bookkeeping` stores
an event, its after-state group and its place among the extremities together with the entries the
new resolution changes.  An event stands in for itself before it is stored.
-/

namespace Merovingian

section Parser

variable (parseLossless : Str → Option Value)

def parseStateEventReference (eventId json : Str) (depth : ℕ) : Option StateEventReference := do
  let parsed ← parseLossless json
  let object ← parsed.asObject
  let eventType ← stringMember object "type"
  let stateKey ← stringMember object "state_key"
  some
    { key := ⟨eventType, stateKey⟩
      eventId := eventId
      sender := (stringMember object "sender").getD []
      originServerTs := ((objectMember object "origin_server_ts").bind Value.asInt).getD 0
      depth := depth
      eventJson := parsed }

def makeStoreEventLookup (events : EventTable) : EventLookupFn := fun eventId =>
  (events.find eventId).bind fun found =>
    (parseStateEventReference parseLossless found.eventId found.json found.depth).map fun ref =>
      { ref with rejected := found.status = "rejected" }

/-- The lookup of `store_event_with_bookkeeping`, which finds the event that is being stored. -/
def makePendingEventLookup (events : EventTable) (pending : PersistentEvent) : EventLookupFn :=
  fun eventId =>
    if eventId = pending.eventId then
      parseStateEventReference parseLossless pending.eventId pending.json pending.depth
    else makeStoreEventLookup parseLossless events eventId

end Parser

/-! ### The resolution of the extremities -/

def toStateEventReferences (entries : List StateGroupEntry) (lookup : EventLookupFn) :
    Option (List StateEventReference) :=
  entries.mapM fun entry => lookup entry.eventId

def toStateGroupEntries (refs : List StateEventReference) : List StateGroupEntry :=
  refs.map fun ref => ⟨[], ref.key.eventType, ref.key.stateKey, ref.eventId⟩

/-- `add_state_group_budget`: the new total, if there is room. -/
def addStateGroupBudget (stateSize : ℕ) (limits : StateResolutionLimits) (totalStateEvents : ℕ) :
    Option ℕ :=
  if limits.maxEventsPerStateGroup < stateSize ∨ limits.maxTotalStateEvents < totalStateEvents ∨
      limits.maxTotalStateEvents - totalStateEvents < stateSize then none
  else some (totalStateEvents + stateSize)

/-- `ExtremityState`: the state after an extremity and the group that holds it. -/
structure ExtremityState where
  stateGroupId : Str
  entries : List StateGroupEntry

def recordedExtremityState (store : PersistentStore) (extremity : Str) : Option ExtremityState := do
  let groupId ← findEventStateGroup store extremity
  let entries ← readStateGroupFullState store.groups groupId
  some ⟨groupId, entries⟩

structure ExtremityResolution where
  entries : List StateGroupEntry := []
  refusal : Option Str := none

def refusedResolution (reason : Str) : ExtremityResolution := { refusal := some reason }

/-- The refusal of an extremity whose state cannot be read. -/
def noReadableState (extremity : Str) : Str :=
  lit "extremity " ++ extremity ++ lit " has no readable state"

section Extremities

variable (groupOf : Str → Option Str) (stateOf : Str → Option ExtremityState)

/-- The first loop of `resolve_extremity_states`: an extremity for each group. -/
def distinctExtremities : (seenGroups : List Str) → List Str → Except Str (List Str)
  | _, [] => .ok []
  | seenGroups, extremity :: extremities =>
    match groupOf extremity with
    | none => .error (noReadableState extremity)
    | some groupId =>
      if groupId ∈ seenGroups then distinctExtremities seenGroups extremities
      else (distinctExtremities (groupId :: seenGroups) extremities).map (extremity :: ·)

/-- The second loop of `resolve_extremity_states`: the groups to resolve. -/
def extremityGroups (limits : StateResolutionLimits) (lookup : EventLookupFn) :
    (totalStateEvents : ℕ) → List Str → Except Str (List StateGroup)
  | _, [] => .ok []
  | totalStateEvents, extremity :: extremities =>
    match stateOf extremity with
    | none => .error (noReadableState extremity)
    | some state =>
      match addStateGroupBudget state.entries.length limits totalStateEvents with
      | none => .error "the extremities' states exceed the state-resolution budget"
      | some total =>
        match toStateEventReferences state.entries lookup with
        | none => .error
            (lit "the state of extremity " ++ extremity ++
              lit " names an event missing from the store")
        | some refs =>
          (extremityGroups limits lookup total extremities).map (⟨state.stateGroupId, refs⟩ :: ·)

def resolveExtremityStates (sodium : Sodium) (ω : IterationOrder) (roomId : Str)
    (policy : RoomVersionPolicy) (limits : StateResolutionLimits) (extremities : List Str)
    (lookup : EventLookupFn) : ExtremityResolution :=
  match distinctExtremities groupOf [] extremities with
  | .error reason => refusedResolution reason
  | .ok [] => {}
  | .ok [extremity] =>
    -- one state is its own resolution
    match stateOf extremity with
    | none => refusedResolution (noReadableState extremity)
    | some state => { entries := state.entries }
  | .ok distinct =>
    if limits.maxStateGroups < distinct.length then
      refusedResolution (decimalNat distinct.length ++
        lit " distinct extremity states, more than the " ++ decimalNat limits.maxStateGroups ++
        lit " that can be resolved")
    else
      match extremityGroups stateOf limits lookup 0 distinct with
      | .error reason => refusedResolution reason
      | .ok groups =>
        let result := resolveStateV2 sodium ω
          { roomVersion := policy.id
            stateGroups := groups
            eventLookup := lookup
            roomId := roomId
            limits := limits } policy
        if result.resolved then { entries := toStateGroupEntries result.resolvedState }
        else refusedResolution (lit "state resolution failed: " ++ result.reason)

end Extremities

/-! ### The current state as the diff sees it -/

def stateEntryKey (eventType stateKey : Str) : Str := eventType ++ 0 :: stateKey

/-- The map `current` of both functions: the room's rows by `state_entry_key`. -/
def currentEntries (table : StateTable) (roomId : Str) : Map Str Str :=
  assignAll ∅ ((table.forEachRoomStateRow roomId).map fun row =>
    (stateEntryKey row.eventType row.stateKey, row.eventId))

/-- The row an entry stands for. -/
def StateGroupEntry.row (roomId : Str) (entry : StateGroupEntry) : PersistentStateEvent :=
  ⟨roomId, entry.eventType, entry.stateKey, entry.eventId⟩

/-! ### `recompute_current_state` -/

inductive CurrentStateRecomputeStatus where
  | resolved
  | refused
  | writeFailed
deriving DecidableEq, Repr

structure CurrentStateRecompute where
  status : CurrentStateRecomputeStatus := .resolved
  reason : Str := []
deriving DecidableEq, Repr

section Recompute

variable (parseLossless : Str → Option Value) (roomId : Str) (current : Map Str Str)

/-- The loop of `recompute_current_state`.  `committed` is what the backend answers at each
entry that is written. -/
def writeEntries : (committed : ℕ → Bool) → PersistentStore → List StateGroupEntry →
    CurrentStateRecompute × PersistentStore
  | _, store, [] => ({}, store)
  | committed, store, entry :: entries =>
    if current.lookup (stateEntryKey entry.eventType entry.stateKey) = some entry.eventId then
      -- unchanged
      writeEntries (fun n => committed (n + 1)) store entries
    else
      match storeState parseLossless store (entry.row roomId) (committed 0) with
      | (false, store) => ({ status := .writeFailed }, store)
      | (true, store) => writeEntries (fun n => committed (n + 1)) store entries

end Recompute

/-- The resolution `recompute_current_state` asks for. -/
def roomResolution (parseLossless : Str → Option Value) (sodium : Sodium) (ω : IterationOrder)
    (store : PersistentStore) (roomId : Str) (policy : RoomVersionPolicy)
    (limits : StateResolutionLimits) : ExtremityResolution :=
  resolveExtremityStates (findEventStateGroup store) (recordedExtremityState store) sodium ω roomId
    policy limits (findForwardExtremities store roomId)
    (makeStoreEventLookup parseLossless store.events)

def recomputeCurrentState (parseLossless : Str → Option Value) (sodium : Sodium)
    (ω : IterationOrder) (store : PersistentStore) (roomId : Str) (policy : RoomVersionPolicy)
    (limits : StateResolutionLimits) (committed : ℕ → Bool) :
    CurrentStateRecompute × PersistentStore :=
  let resolution := roomResolution parseLossless sodium ω store roomId policy limits
  match resolution.refusal with
  | some reason => (⟨.refused, reason⟩, store)
  | none =>
    writeEntries parseLossless roomId (currentEntries store.state roomId) committed store
      resolution.entries

/-! ### `record_event_state` -/

/-- The id of the group of an event, `"sg:" + event_id`. -/
def eventGroupId (eventId : Str) : Str := lit "sg:" ++ eventId

/-- `set_event_state_group`, with the backend's answer. -/
def setEventStateGroup (store : PersistentStore) (eventId stateGroupId : Str) (committed : Bool) :
    Option PersistentStore :=
  if eventStateGroupIsWritable eventId stateGroupId && committed then
    some (applyEventStateGroup store eventId stateGroupId)
  else none

/-- `update_forward_extremities`, with the backend's answer. -/
def updateForwardExtremities (store : PersistentStore) (roomId eventId : Str)
    (prevEventIds : List Str) (accepted committed : Bool) : Option PersistentStore :=
  if ¬ accepted then some store
  else if roomId = [] ∨ eventId = [] ∨ ¬ committed then none
  else some (applyForwardExtremitiesUpdate store roomId eventId prevEventIds)

/-- `record_event_state`: the group of the event and the store, with the backend's answers to
its three writes.  What was written before one that fails stays. -/
def recordEventState (store : PersistentStore) (roomId eventId : Str) (prevEventIds : List Str)
    (stateAfter : List StateGroupEntry) (accepted : Bool) (committed : ℕ → Bool) :
    Option Str × PersistentStore :=
  match createOrReuseStateGroup store.groups ⟨roomId, eventGroupId eventId,
      prevEventIds.head?.bind (findEventStateGroup store), stateAfter, committed 0⟩ with
  | none => (none, store)
  | some (groupId, groups) =>
    let grouped := { store with groups := groups }
    match setEventStateGroup grouped eventId groupId (committed 1) with
    | none => (none, grouped)
    | some mapped =>
      match updateForwardExtremities mapped roomId eventId prevEventIds accepted (committed 2) with
      | none => (none, mapped)
      | some placed => (some groupId, placed)

/-! ### `store_event_with_bookkeeping` -/

structure EventBookkeeping where
  stateAfter : List StateGroupEntry
  parentStateGroupId : Option Str
  replacedExtremities : List Str

structure StoredWithBookkeeping where
  ok : Bool := false
  step : Str := []
  reason : Str := []
  resolutionRefused : Bool := false
  resolutionRefusal : Str := []
deriving DecidableEq, Repr

/-- `extremities_after`: the extremities of the room once the event is stored. -/
def extremitiesAfter (store : PersistentStore) (roomId eventId : Str)
    (replacedExtremities : List Str) : List Str :=
  let kept := (findForwardExtremities store roomId).filter (· ∉ replacedExtremities)
  if eventId ∈ kept then kept else kept ++ [eventId]

/-- The resolution `store_event_with_bookkeeping` asks for: the event, which is not stored yet,
stands in for itself, with its after-state in the group prepared for it. -/
def pendingResolution (parseLossless : Str → Option Value) (sodium : Sodium) (ω : IterationOrder)
    (store : PersistentStore) (policy : RoomVersionPolicy) (pending : PersistentEvent)
    (stateGroupId : Str) (stateAfter : List StateGroupEntry) (limits : StateResolutionLimits)
    (extremities : List Str) : ExtremityResolution :=
  resolveExtremityStates
    (fun extremity => if extremity = pending.eventId then some stateGroupId
      else findEventStateGroup store extremity)
    (fun extremity => if extremity = pending.eventId then some ⟨stateGroupId, stateAfter⟩
      else recordedExtremityState store extremity)
    sodium ω pending.roomId policy limits extremities
    (makePendingEventLookup parseLossless store.events pending)

/-- The loop that prepares the changes of the current state beyond the event's own row, or the
reason why there is none. -/
def currentStateChanges (parseLossless : Str → Option Value) (store : PersistentStore)
    (roomId eventId : Str) : (current : Map Str Str) → List StateGroupEntry →
    Except Str (List PreparedCurrentState)
  | _, [] => .ok []
  | current, entry :: entries =>
    let key := stateEntryKey entry.eventType entry.stateKey
    if current.lookup key = some entry.eventId then
      currentStateChanges parseLossless store roomId eventId current entries
    else if entry.eventId ≠ eventId ∧
        ¬ stateMatchesPersistedEvent parseLossless store (entry.row roomId) then
      .error (lit "the resolved state names " ++ entry.eventId ++ lit ", which is not stored")
    else
      (currentStateChanges parseLossless store roomId eventId (current.insert key entry.eventId)
        entries).map (⟨entry.row roomId, (current.lookup key).getD []⟩ :: ·)

/-- The current state once the event's own row is written, by `state_entry_key`. -/
def currentWithOwnRow (store : PersistentStore) (event : PersistentEvent)
    (state : Option PersistentStateEvent) : Map Str Str :=
  match state with
  | none => currentEntries store.state event.roomId
  | some row =>
    (currentEntries store.state event.roomId).insert (stateEntryKey row.eventType row.stateKey)
      event.eventId

/-- What is applied to the store after the commit. -/
def applyBookkeeping (parseLossless : Str → Option Value) (store : PersistentStore)
    (update : PreparedStateUpdate) (group : PreparedStateGroup) (replacedExtremities : List Str)
    (changes : List PreparedCurrentState) : PersistentStore :=
  let stored := applyStoreEventWithState parseLossless store update
  let grouped := { stored with groups := applyStateGroup stored.groups group }
  let mapped := applyEventStateGroup grouped update.event.eventId group.stateGroupId
  let placed := applyForwardExtremitiesUpdate mapped update.event.roomId update.event.eventId
    replacedExtremities
  changes.foldl applyCurrentState placed

/-- A refusal of `store_event_with_bookkeeping`. -/
def notStored (step reason : Str) : StoredWithBookkeeping := { step := step, reason := reason }

/-- `store_event_with_bookkeeping`, with the backend's answer to its one transaction. -/
def storeEventWithBookkeeping (parseLossless : Str → Option Value) (formatDouble : Double → Str)
    (sodium : Sodium) (ω : IterationOrder) (store : PersistentStore) (policy : RoomVersionPolicy)
    (event : PersistentEvent) (state : Option PersistentStateEvent)
    (membership : Option MembershipProjection) (bookkeeping : EventBookkeeping)
    (limits : StateResolutionLimits) (committed : Bool) :
    StoredWithBookkeeping × PersistentStore :=
  match prepareStoreEventWithState parseLossless formatDouble store event state membership with
  | none =>
    (notStored "event" "the event, its state row or its membership was refused", store)
  | some update =>
    match prepareStateGroup store.groups event.roomId (eventGroupId event.eventId)
        bookkeeping.parentStateGroupId bookkeeping.stateAfter with
    | none =>
      (notStored "state_group" "the parent of the event's after-state group could not be read",
        store)
    | some group =>
      if ¬ eventStateGroupIsWritable event.eventId group.stateGroupId then
        (notStored "state_group" "the event could not be mapped to its after-state group", store)
      else
        let resolution := pendingResolution parseLossless sodium ω store policy update.event
          group.stateGroupId bookkeeping.stateAfter limits
          (extremitiesAfter store event.roomId event.eventId bookkeeping.replacedExtremities)
        match currentStateChanges parseLossless store event.roomId event.eventId
            (currentWithOwnRow store event update.state) resolution.entries with
        | .error reason => (notStored "current_state" reason, store)
        | .ok changes =>
          if ¬ committed then
            (notStored "commit" "the event and its bookkeeping were not committed", store)
          else
            ({ ok := true
               resolutionRefused := resolution.refusal.isSome
               resolutionRefusal := resolution.refusal.getD [] },
              applyBookkeeping parseLossless store update group bookkeeping.replacedExtremities
                changes)

end Merovingian
