import Merovingian.Events.AuthChains

/-!
# State resolution

The model of `resolve_state_v2` (`events/state_resolution.cpp`) for both algorithms, version 2
and version 2.1: partition into unconflicted and conflicted state, the full conflicted set, the
reverse topological power ordering, the iterative auth checks, the mainline ordering, and the
overlay of the unconflicted state.

Every loop over an unordered container takes its order from an `IterationOrder`.  The lookups
go through one source with one cache, budget and `missing` flag, except for the power sort,
which has a source of its own.
-/

namespace Merovingian

open StateEventReference

structure StateResolutionRequest where
  roomVersion : Str := []
  stateGroups : List StateGroup := []
  eventLookup : EventLookupFn := fun _ => none
  roomId : Str := []
  limits : StateResolutionLimits := {}

structure StateResolutionResult where
  resolved : Bool := false
  resolvedState : List StateEventReference := []
  reason : Str := []

/-! ### Validation -/

/-- `validate_state_resolution_request`, the loop over the groups. -/
def validateGroups (limits : StateResolutionLimits) : (totalEvents : ℕ) → List StateGroup → Option Str
  | _, [] => none
  | totalEvents, group :: groups =>
    if limits.maxEventsPerStateGroup < group.state.length then
      some "too many events in state group"
    else if limits.maxTotalStateEvents < totalEvents ∨
        limits.maxTotalStateEvents - totalEvents < group.state.length then
      some "too many total state events"
    else validateGroups limits (totalEvents + group.state.length) groups

def validateStateResolutionRequest (request : StateResolutionRequest) : Option Str :=
  if request.limits.maxStateGroups < request.stateGroups.length then some "too many state groups"
  else validateGroups request.limits 0 request.stateGroups

/-! ### Unconflicted and conflicted state -/

structure KeyTally where
  firstEvent : StateEventReference
  eventIds : Finset Str := ∅
  groupsContaining : ℕ := 0
  lastGroupCounted : ℕ := 0

/-- The events of the groups in turn, each with the index of its group. -/
def indexedEvents (groups : List StateGroup) : List (ℕ × StateEventReference) :=
  groups.zipIdx.flatMap fun entry => entry.1.state.map fun event => (entry.2, event)

/-- An event counts for its key, and its group counts once. -/
def KeyTally.count (tally : KeyTally) (inserted : Bool) (groupIndex : ℕ)
    (event : StateEventReference) : KeyTally :=
  let counted := inserted || tally.lastGroupCounted ≠ groupIndex
  { firstEvent := tally.firstEvent
    eventIds := insert event.eventId tally.eventIds
    groupsContaining := if counted then tally.groupsContaining + 1 else tally.groupsContaining
    lastGroupCounted := if counted then groupIndex else tally.lastGroupCounted }

/-- The tallies of the keys, unless there are too many distinct keys. -/
def tallyEvents (limits : StateResolutionLimits) : (tallies : Map StateKey KeyTally) →
    List (ℕ × StateEventReference) → Option (Map StateKey KeyTally)
  | tallies, [] => some tallies
  | tallies, (groupIndex, event) :: rest =>
    let tally := (tallies.lookup event.key).getD { firstEvent := event }
    let counted := tally.count (event.key ∉ tallies) groupIndex event
    if limits.maxConflictedStateKeys < (insert event.key tallies.keys).card then none
    else tallyEvents limits (tallies.insert event.key counted) rest

/-- Every group holds the key, with the same event. -/
def KeyTally.agreed (tally : KeyTally) (groupCount : ℕ) : Bool :=
  tally.groupsContaining = groupCount ∧ tally.eventIds.card = 1

def partitionConflictedState (ω : IterationOrder) (groups : List StateGroup)
    (limits : StateResolutionLimits) : StateMap × StateMap :=
  if limits.maxStateGroups < groups.length ∨ (validateGroups limits 0 groups).isSome then (∅, ∅)
  else
    match tallyEvents limits ∅ (indexedEvents groups) with
    | none => (∅, ∅)
    | some tallies =>
      (ω.keys.items .tallies tallies).foldl (fun maps item =>
        if item.2.agreed groups.length then (emplace maps.1 item.1 item.2.firstEvent, maps.2)
        else (maps.1, emplace maps.2 item.1 item.2.firstEvent)) (∅, ∅)

/-- The distinct events of the conflicted keys, in the order of the groups. -/
def collectConflicted (groups : List StateGroup) (conflicted : StateMap) :
    List StateEventReference :=
  firstBy (fun event => (event.key, event.eventId)) []
    ((groups.flatMap StateGroup.state).filter fun event => event.key ∈ conflicted)

def buildEventJsonIndex (groups : List StateGroup) : EventJsonIndex :=
  emplaceAll ∅ (((groups.flatMap StateGroup.state).filter fun event =>
    event.eventId ≠ [] ∧ event.eventJson.hasContent).map fun event =>
      (event.eventId, event.eventJson))

/-- The ids of the submitted references that are rejected. -/
def rejectedEventIds (groups : List StateGroup) : Finset Str :=
  (((groups.flatMap StateGroup.state).filter fun event => event.rejected).map
    eventId).toFinset

/-! ### The two orderings -/

/-- The comparison both orderings make: rank descending, then timestamp and event id
ascending. -/
def rankedBefore {ρ : Type} [LinearOrder ρ] (a b : ρ × Int64 × Str) : Bool :=
  if a.1 ≠ b.1 then b.1 < a.1
  else if a.2.1 ≠ b.2.1 then a.2.1 < b.2.1
  else a.2.2 < b.2.2

/-- The powers of the events, by event id. -/
def powersById (conflicted : List StateEventReference) (policy : RoomVersionPolicy) :
    AuthWalk (Map Str Int64) :=
  Walk.gather eventId (fun event => powerLevelFromEvent event policy) conflicted

section PowerSort

variable (byId : Map Str StateEventReference) (powers : Map Str Int64)

/-- What an event is ordered by. -/
def powerRank (id : Str) : Int64 × Int64 × Str :=
  ((powers.lookup id).getD 0, ((byId.lookup id).map originServerTs).getD 0, id)

def precedes (x y : Str) : Bool := rankedBefore (powerRank byId powers x) (powerRank byId powers y)

/-- Insertion into the ordered set of ready events. -/
def insertReady (id : Str) (ready : List Str) : List Str :=
  ready.orderedInsert (fun x y => precedes byId powers y x = false) id

/-- The auth events of an event that are to be ordered too. -/
def citedAmong (event : StateEventReference) : List Str :=
  (authEventIds event.eventJson).filter fun id => id ∈ byId

/-- `dependants`: an entry for each citation. -/
def dependantsOf (conflicted : List StateEventReference) (id : Str) : List Str :=
  conflicted.flatMap fun event =>
    ((citedAmong byId event).filter fun authId => authId = id).map fun _ => event.eventId

def unmetAuthEvents (id : Str) : ℕ :=
  ((byId.lookup id).map fun event => (citedAmong byId event).length).getD 0

/-- The loop that takes the smallest ready event at each step. -/
def powerOrder (conflicted : List StateEventReference) : List Str :=
  let ready := conflicted.foldl (fun ready event =>
    if unmetAuthEvents byId event.eventId = 0 then insertReady byId powers event.eventId ready
    else ready) []
  Kahn.kahn (dependantsOf byId conflicted) (insertReady byId powers) conflicted.length
    ⟨unmetAuthEvents byId, ready⟩

end PowerSort

/-- `reverse_topological_power_sort`.  Indices into the vector are event ids here, which are
distinct once the duplicate check has passed. -/
def reverseTopologicalPowerSort (conflicted : List StateEventReference)
    (knownEvents : EventJsonIndex) (eventLookup : EventLookupFn) (policy : RoomVersionPolicy)
    (limits : StateResolutionLimits) : Option (List StateEventReference) :=
  if limits.maxConflictedStateKeys < conflicted.length then none
  else
    let source := authChainEventSource knownEvents eventLookup limits.maxAuthChainWalkEvents ∅
    match Walk.run source (powersById conflicted policy) {} with
    | none => none
    | some (powers, _) =>
      if (conflicted.map eventId).Nodup then
        let byId := emplaceAll ∅ (conflicted.map fun event => (event.eventId, event))
        let sorted := powerOrder byId powers conflicted
        if sorted.length = conflicted.length then some (sorted.filterMap fun id => byId.lookup id)
        else none
      else none

/-- `std::numeric_limits<std::size_t>::max()`. -/
def infinitePosition : ℕ := 2 ^ 64 - 1

/-- The walk from an event to its first power-levels ancestor on the mainline. -/
def mainlinePositionFrom (mainline : List Str) : (hops : ℕ) → (visited : List Str) →
    (current : Object) → AuthWalk ℕ
  | 0, _, _ => .fail
  | hops + 1, visited, current => do
    match ← powerLevelsAuthAncestor current with
    | none => return infinitePosition
    | some ancestorId =>
      match mainline.idxOf? ancestorId with
      | some position => return position
      | none => do
        Walk.require (ancestorId ∉ visited)
        let ancestor ← powerLevelsObject ancestorId
        mainlinePositionFrom mainline hops (ancestorId :: visited) ancestor

/-- The mainline position of an event. -/
def mainlinePosition (mainline : List Str) (limits : StateResolutionLimits)
    (event : StateEventReference) : AuthWalk ℕ :=
  if mainline = [] then return infinitePosition
  else do
    let current ← Walk.ofOption event.eventJson.asObject
    mainlinePositionFrom mainline limits.maxMainlineAuthChainDepth [] current

/-- What the mainline ordering compares. -/
def mainlineRank (positions : Map Str ℕ) (event : StateEventReference) : ℕ × Int64 × Str :=
  ((positions.lookup event.eventId).getD 0, event.originServerTs, event.eventId)

/-- The mainline of the power levels in the partially resolved state. -/
def mainlineOf (resolved : StateMap) (limits : StateResolutionLimits) : AuthWalk (List Str) :=
  match resolved.lookup ⟨"m.room.power_levels", []⟩ with
  | some event =>
    if event.eventJson.hasContent then
      collectMainlinePowerEvents event.eventId event.eventJson limits.maxMainlineAuthChainDepth
    else return []
  | none => return []

def mainlineOrderWithSource (events : List StateEventReference) (resolved : StateMap)
    (limits : StateResolutionLimits) : AuthWalk (List StateEventReference) := do
  let mainline ← mainlineOf resolved limits
  let positions ← Walk.gather eventId (mainlinePosition mainline limits) events
  return events.insertionSort fun a b =>
    rankedBefore (mainlineRank positions b) (mainlineRank positions a) = false

/-! ### Iterative auth checks -/

section AuthChecks

variable (source : Walk.Source Str SourceEvent)

/-- `find_own_auth_event`, the loop over the entries: the first that can be fetched, is not
rejected and has the wanted type and state key. -/
def findOwnAuthEvent (wanted : StateKey) : List Str → StateM FetchCache (Option (Str × Value))
  | [] => pure none
  | id :: ids => do
    match ← source.fetch id with
    | none => findOwnAuthEvent wanted ids
    | some candidate =>
      match (if candidate.rejected then none else candidate.json.asObject) with
      | none => findOwnAuthEvent wanted ids
      | some obj =>
        if (stringMember obj "type").getD [] = wanted.eventType ∧
            (stringMember obj "state_key").getD [] = wanted.stateKey then
          return some (id, candidate.json)
        else findOwnAuthEvent wanted ids

/-- One slot of the auth map: from the running state, or else from the event's own auth
events. -/
def authSlot (event : Value) (currentState : StateMap) (eventType stateKey : Str) :
    StateM FetchCache (Option (Str × Value)) :=
  match currentState.lookup ⟨eventType, stateKey⟩ with
  | some held => return some (held.eventId, held.eventJson)
  | none => findOwnAuthEvent source ⟨eventType, stateKey⟩ (authEventIds event)

/-- A slot whose state key may not be there to look for. -/
def authSlotValue (event : Value) (currentState : StateMap) (eventType : Str)
    (stateKey : Option Str) : StateM FetchCache Value :=
  match stateKey with
  | some stateKey => do
    return ((← authSlot source event currentState eventType stateKey).map Prod.snd).getD .null
  | none => return .null

def buildAuthEventMapFromState (event : Value) (currentState : StateMap) :
    StateM FetchCache AuthEventMap :=
  match event.asObject with
  | none => return {}
  | some obj => do
    let create ← authSlot source event currentState "m.room.create" []
    let powerLevels ← authSlotValue source event currentState "m.room.power_levels" (some [])
    let joinRules ← authSlotValue source event currentState "m.room.join_rules" (some [])
    let senderMember ← authSlotValue source event currentState "m.room.member"
      (stringMember obj "sender")
    let member := if stringMember obj "type" = some (lit "m.room.member") then
      stringMember obj "state_key" else none
    let targetMember ← authSlotValue source event currentState "m.room.member" member
    let content := objectMemberAsObject obj "content"
    let token := (((content.bind (objectMemberAsObject · "third_party_invite")).bind
      (objectMemberAsObject · "signed")).bind (stringMember · "token"))
    let thirdPartyInvite ← authSlotValue source event currentState "m.room.third_party_invite"
      (if member.isSome then token else none)
    let joining := content.bind (stringMember · "membership") = some (lit "join")
    let authorisingUser := (content.bind (stringMember · "join_authorised_via_users_server")).filter
      fun userId => userId ≠ []
    let authorisingUserMember ← authSlotValue source event currentState "m.room.member"
      (if member.isSome ∧ joining then authorisingUser else none)
    return { create := (create.map Prod.snd).getD .null
             createEventId := (create.map Prod.fst).getD []
             powerLevels := powerLevels
             joinRules := joinRules
             senderMember := senderMember
             targetMember := targetMember
             thirdPartyInvite := thirdPartyInvite
             authorisingUserMember := authorisingUserMember }

def applyIterativeAuthChecks (sodium : Sodium) (policy : RoomVersionPolicy) : StateMap →
    List StateEventReference → StateM FetchCache StateMap
  | resolved, [] => return resolved
  | resolved, event :: events =>
    if event.eventJson.hasContent then do
      let authMap ← buildAuthEventMapFromState source event.eventJson resolved
      if (authorizeEventAgainstAuthEvents sodium event.eventJson policy authMap).allowed then
        applyIterativeAuthChecks sodium policy (resolved.insert event.key event) events
      else applyIterativeAuthChecks sodium policy resolved events
    else applyIterativeAuthChecks sodium policy resolved events

end AuthChecks

/-! ### Power events -/

def isPowerEvent (event : StateEventReference) : Bool :=
  if event.key.eventType = "m.room.power_levels" ∨ event.key.eventType = "m.room.join_rules" then
    event.key.stateKey.isEmpty
  else if event.key.eventType ≠ "m.room.member" then false
  else
    match ((event.eventJson.asObject.bind (objectMemberAsObject · "content")).bind
        (stringMember · "membership")) with
    | none => false
    | some membership =>
      (membership = "leave" ∨ membership = "ban") ∧ event.sender ≠ event.key.stateKey

/-- The ids of the power events and of the events of the full conflicted set in their auth
chains, in the order in which they are selected.  There are at most as many steps as events. -/
def selectPowerEvents (ω : IterationOrder) (full : Map Str StateEventReference) (cap : ℕ) :
    AuthWalk (List Str) :=
  let powerIds := ((ω.ids.items .powerEvents full).filter fun item => isPowerEvent item.2).map
    Prod.fst
  Walk.close (fun id => do
      let event ← Walk.ofOption (full.lookup id)
      let chain ← walkAuthChain event.eventJson cap
      return (ω.ids.order (.chain id) chain).filter fun ancestorId => ancestorId ∈ full)
    (fun new queue => new.reverse ++ queue) full.keys.card powerIds
    (ω.ids.order .selected powerIds.toFinset).reverse

/-! ### Resolution -/

/-- Adds the event with this id unless it is in the map already. -/
def materializeInto (full : Map Str StateEventReference) (id : Str) :
    AuthWalk (Map Str StateEventReference) :=
  if id ∈ full then pure full
  else do return emplace full id (← materializeRef id)

/-- Adds the events with these ids. -/
def materializeAll (ids : List Str) (full : Map Str StateEventReference) :
    AuthWalk (Map Str StateEventReference) :=
  Walk.fold materializeInto full ids

/-- A computation over the shared cache that may fail with a reason. -/
abbrev Resolving := StateT FetchCache (Except Str)

/-- A walk that must succeed. -/
def attempt {α : Type} (source : Walk.Source Str SourceEvent) (reason : Str) (w : AuthWalk α) :
    Resolving α := fun cache =>
  match Walk.run source w cache with
  | none => .error reason
  | some result => .ok result

/-- A result that must be there. -/
def orReason {α : Type} (reason : Str) : Option α → Resolving α
  | none => fun _ => .error reason
  | some a => pure a

/-- The state that the iterative auth checks start from. -/
def initialState (source : Walk.Source Str SourceEvent) (policy : RoomVersionPolicy) (roomId : Str)
    (unconflicted : StateMap) : Resolving StateMap :=
  if policy.stateResolution ≠ .v2_1 then return unconflicted
  else if 2 ≤ roomId.length ∧ roomId.head? = some (charByte '!') then do
    let create ← attempt source
      "state-res v2: room v12 create event (derived from room_id) could not be fetched" do
        let create ← materializeRef (charByte '$' :: roomId.drop 1)
        Walk.require (create.key = ⟨"m.room.create", []⟩)
        return create
    return (∅ : StateMap).insert create.key create
  else
    match unconflicted.lookup ⟨"m.room.create", []⟩ with
    | some create => return (∅ : StateMap).insert ⟨"m.room.create", []⟩ create
    | none => return ∅

/-- The full conflicted set, by event id. -/
def fullConflictedSet (ω : IterationOrder) (source : Walk.Source Str SourceEvent)
    (request : StateResolutionRequest) (policy : RoomVersionPolicy)
    (allConflicted : List StateEventReference) : Resolving (Map Str StateEventReference) := do
  let cap := request.limits.maxAuthChainWalkEvents
  let authDifference ← attempt source
    "state-res v2: missing or unreachable event during auth-chain walk"
    (computeAuthDifference request.stateGroups cap)
  let full ← attempt source "state-res v2: auth difference event could not be read"
    (materializeAll (ω.ids.order .authDifference authDifference)
      (emplaceAll ∅ (allConflicted.map fun event => (event.eventId, event))))
  if policy.stateResolution = .v2_1 then do
    let conflictedIds := (allConflicted.map eventId).toFinset
    let subgraph ← attempt source "state-res v2: conflicted state subgraph walk failed"
      (computeConflictedStateSubgraph ω conflictedIds cap)
    attempt source "state-res v2: conflicted subgraph event could not be read"
      (materializeAll (ω.ids.order .subgraph subgraph) full)
  else return full

/-- Steps 1 to 4 of the algorithm, from the full conflicted set. -/
def resolveConflicts (sodium : Sodium) (ω : IterationOrder) (source : Walk.Source Str SourceEvent)
    (request : StateResolutionRequest) (policy : RoomVersionPolicy) (initial : StateMap)
    (full : Map Str StateEventReference) : Resolving StateMap := do
  let powerIds ← attempt source "state-res v2: enlarge-X auth chain walk failed"
    (selectPowerEvents ω full request.limits.maxAuthChainWalkEvents)
  let powerEvents := powerIds.filterMap fun id => full.lookup id
  let remainingEvents := ((ω.ids.items .remaining full).filter fun item => item.1 ∉ powerIds).map
    Prod.snd
  let sortedPower ← orReason "state-res v2: reverse topological power sort failed closed"
    (reverseTopologicalPowerSort powerEvents (buildEventJsonIndex request.stateGroups)
      request.eventLookup policy request.limits)
  let partiallyResolved ←
    modifyGet (applyIterativeAuthChecks source sodium policy initial sortedPower)
  let ordered ← attempt source "state-res v2: mainline ordering auth-chain walk failed"
    (mainlineOrderWithSource remainingEvents partiallyResolved request.limits)
  modifyGet (applyIterativeAuthChecks source sodium policy partiallyResolved ordered)

/-- The resolution of state that is in conflict. -/
def resolveConflicted (sodium : Sodium) (ω : IterationOrder) (request : StateResolutionRequest)
    (policy : RoomVersionPolicy) (unconflicted : StateMap)
    (allConflicted : List StateEventReference) : Resolving StateMap := do
  let source := authChainEventSource (buildEventJsonIndex request.stateGroups) request.eventLookup
    request.limits.maxAuthChainWalkEvents (rejectedEventIds request.stateGroups)
  let full ← fullConflictedSet ω source request policy allConflicted
  let initial ← initialState source policy request.roomId unconflicted
  let resolved ← resolveConflicts sodium ω source request policy initial full
  return assignAll resolved (ω.keys.items .unconflicted unconflicted)

def resolveStateV2 (sodium : Sodium) (ω : IterationOrder) (request : StateResolutionRequest)
    (policy : RoomVersionPolicy) : StateResolutionResult :=
  match validateStateResolutionRequest request with
  | some error => { reason := error }
  | none =>
    if request.stateGroups = [] then { resolved := true }
    else
      let maps := partitionConflictedState ω request.stateGroups request.limits
      if maps.1.keys = ∅ ∧ maps.2.keys = ∅ then { reason := "too many state keys" }
      else
        let allConflicted := collectConflicted request.stateGroups maps.2
        if request.limits.maxConflictedStateKeys < allConflicted.length then
          { reason := "too many conflicted events" }
        else if allConflicted = [] then
          { resolved := true
            resolvedState := (ω.keys.items .agreed maps.1).map Prod.snd }
        else
          match (resolveConflicted sodium ω request policy maps.1 allConflicted).run {} with
          | .error reason => { reason := reason }
          | .ok (resolved, _) =>
            { resolved := true
              resolvedState := (ω.keys.items .resolved resolved).map Prod.snd }

end Merovingian
