import Merovingian.Events.Authorization
import Merovingian.Lib.Kahn
import Merovingian.Lib.Worklist

/-!
# Auth chains

The walks over `auth_events` that state resolution makes (`events/state_resolution.cpp`): the
auth chain of an event and of a state group, the auth difference, the conflicted state
subgraph, and the power-levels ancestors behind the two orderings.

A walk that needs an event asks for it (`find_required`) and gives up when it is missing.  The
source it asks (`AuthChainEventSource`) knows the events of the submitted state groups, looks
up the others within a budget and caches what it found.
-/

namespace Merovingian

open Walk

/-! ### References, groups and requests -/

structure StateKey where
  eventType : Str := []
  stateKey : Str := []
deriving DecidableEq, Repr

structure StateEventReference where
  key : StateKey := {}
  eventId : Str := []
  sender : Str := []
  originServerTs : Int64 := 0
  depth : ℕ := 0
  eventJson : Value := .null
  rejected : Bool := false

structure StateGroup where
  groupId : Str := []
  state : List StateEventReference := []

structure StateResolutionLimits where
  maxStateGroups : ℕ := 1000
  maxEventsPerStateGroup : ℕ := 65536
  maxConflictedStateKeys : ℕ := 65536
  maxMainlineAuthChainDepth : ℕ := 10000
  maxAuthChainWalkEvents : ℕ := 131072
  maxTotalStateEvents : ℕ := 131072

def maxAuthEventsPerEvent : ℕ := 10

/-- `EventLookupFn`.  A request without a lookup function finds nothing. -/
abbrev EventLookupFn := Str → Option StateEventReference

abbrev StateMap := Map StateKey StateEventReference

abbrev EventJsonIndex := Map Str Value

/-- The loops over unordered sets and maps.  The loop over an auth chain is one for each event
whose chain it is. -/
inductive IterationSite where
  | tallies
  | agreed
  | authDifference
  | pending
  | graph
  | indegree
  | endpoints
  | subgraph
  | powerEvents
  | selected
  | chain (eventId : Str)
  | remaining
  | unconflicted
  | resolved

/-- The order in which each of these loops visits its elements. -/
structure IterationOrder where
  ids : Listing IterationSite Str
  keys : Listing IterationSite StateKey

/-! ### The event source -/

/-- An event as the source returns it, with what `is_rejected` says of it. -/
structure SourceEvent where
  json : Value
  rejected : Bool

/-- A walk that asks for events by id. -/
abbrev AuthWalk := Walk Str SourceEvent

/-- What has been fetched. -/
abbrev FetchCache := Walk.Cache Str SourceEvent

/-- `AuthChainEventSource`: an event is rejected when a submitted reference or the fetched copy
says so. -/
def authChainEventSource (knownEvents : EventJsonIndex) (eventLookup : EventLookupFn) (budget : ℕ)
    (rejectedEvents : Finset Str) : Walk.Source Str SourceEvent where
  known id := (knownEvents.lookup id).map fun json => ⟨json, id ∈ rejectedEvents⟩
  lookup id := (eventLookup id).map fun fetched =>
    ⟨fetched.eventJson, fetched.rejected || id ∈ rejectedEvents⟩
  budget := budget

def findRequired (eventId : Str) : AuthWalk SourceEvent := find eventId

/-- `auth_entry_event_id`: an event id, or the first of an `[event_id, hash]` pair. -/
def authEntryEventId (entry : Value) : Option Str :=
  match entry.asString with
  | some id => some id
  | none => (entry.asArray.bind List.head?).bind Value.asString

/-- The event ids among the `auth_events` of an event; entries of another form are skipped. -/
def authEventIds (eventJson : Value) : List Str :=
  ((eventJson.asObject.bind (arrayMember · "auth_events")).getD []).filterMap authEntryEventId

/-! ### Auth chains and the auth difference -/

/-- Ids go on the stack in turn, without those that were visited. -/
def pushUnvisited (visited : Map Str (List Str)) (ids frontier : List Str) : List Str :=
  (ids.filter fun id => id ∉ visited).reverse ++ frontier

/-- `walk_auth_chain`: the chain is the set of nodes that the walk visits. -/
def walkAuthChain (startJson : Value) (cap : ℕ) : AuthWalk (Finset Str) := do
  let visited ← explore (fun id => do return authEventIds (← findRequired id).json)
    pushUnvisited cap ∅ (authEventIds startJson).reverse
  return visited.keys

/-- One step of `full_auth_chain_of_group`: the chain of an event is added. -/
def addAuthChain (cap : ℕ) (result : Finset Str) (event : StateEventReference) :
    AuthWalk (Finset Str) :=
  if event.eventJson.hasContent then do
    let chain ← walkAuthChain event.eventJson cap
    require ((result ∪ chain).card ≤ cap)
    return result ∪ chain
  else return result

def fullAuthChainOfGroup (group : StateGroup) (cap : ℕ) : AuthWalk (Finset Str) :=
  fold (addAuthChain cap) ∅ group.state

/-- The union of the chains without their intersection. -/
def chainDifference : List (Finset Str) → Finset Str
  | [] => ∅
  | chain :: chains => (chain :: chains).foldl (· ∪ ·) ∅ \ chains.foldl (· ∩ ·) chain

def computeAuthDifference (groups : List StateGroup) (cap : ℕ) : AuthWalk (Finset Str) := do
  let chains ← Walk.traverse (fun group => fullAuthChainOfGroup group cap) groups
  return chainDifference chains

/-! ### The conflicted state subgraph -/

/-- The ancestors of an event, which must be distinct event ids. -/
def distinctAuthEvents (eventId : Str) : AuthWalk (List Str) := do
  let object ← ofOption (← findRequired eventId).json.asObject
  let auth ← ofOption (arrayMember object "auth_events")
  require (auth.length ≤ maxAuthEventsPerEvent)
  let ancestors ← ofOption (auth.mapM authEntryEventId)
  require ([] ∉ ancestors ∧ ancestors.Nodup)
  return ancestors

/-- `graph[id]`: the ancestors of a node. -/
def ancestorsIn (graph : Map Str (List Str)) (id : Str) : List Str := Kahn.edgesOf graph id

/-- The events that cite an event, by `reverse`: one entry for each citation, as they are met
in the loop over the graph. -/
def citersOf (items : List (Str × List Str)) (id : Str) : List Str :=
  items.flatMap fun node => (node.2.filter fun ancestor => ancestor = id).map fun _ => node.1

/-- The number of events that Kahn's algorithm processes. -/
def processedCount (ω : IterationOrder) (graph : Map Str (List Str)) : ℕ :=
  let indegree := Kahn.degrees (ω.ids.items .graph graph)
  let ready := (ω.ids.order .indegree graph.keys).filter fun id => indegree id = 0
  (Kahn.kahn (ancestorsIn graph) (fun id ready => ready ++ [id]) graph.keys.card
    ⟨indegree, ready⟩).length

/-- The events of the graph from which an endpoint can be reached. -/
def reachingEndpoint (ω : IterationOrder) (conflictedIds : Finset Str)
    (graph : Map Str (List Str)) : AuthWalk (Finset Str) := do
  let endpoints := ω.ids.order .endpoints conflictedIds
  let reaching ← close (fun id => pure (citersOf (ω.ids.items .graph graph) id))
    (fun new queue => queue ++ new) graph.keys.card endpoints endpoints
  return reaching.toFinset

def computeConflictedStateSubgraph (ω : IterationOrder) (conflictedIds : Finset Str) (cap : ℕ) :
    AuthWalk (Finset Str) := do
  require ([] ∉ conflictedIds)
  let graph ← explore distinctAuthEvents (fun _ ancestors pending => pending ++ ancestors)
    cap ∅ (ω.ids.order .pending conflictedIds)
  require (∀ id ∈ graph.keys, ∀ ancestor ∈ ancestorsIn graph id, ancestor ∈ graph)
  require (processedCount ω graph = graph.keys.card)
  reachingEndpoint ω conflictedIds graph

def materializeRef (eventId : Str) : AuthWalk StateEventReference := do
  let event ← findRequired eventId
  let obj ← ofOption event.json.asObject
  let eventType ← ofOption (stringMember obj "type")
  let stateKey ← ofOption (stringMember obj "state_key")
  return { key := ⟨eventType, stateKey⟩
           eventId := eventId
           sender := (stringMember obj "sender").getD []
           originServerTs := ((objectMember obj "origin_server_ts").bind Value.asInt).getD 0
           depth := 0
           eventJson := event.json
           rejected := event.rejected }

/-! ### Power-levels ancestors -/

/-- `power_levels_auth_ancestor`: the one power-levels event that an event cites, if any. -/
def powerLevelsAuthAncestor (eventJson : Object) : AuthWalk (Option Str) := do
  let auth ← ofOption (arrayMember eventJson "auth_events")
  require (auth.length ≤ maxAuthEventsPerEvent)
  fold (fun found entry => do
    let id ← ofOption (authEntryEventId entry)
    require (id ≠ [])
    let object ← ofOption (← findRequired id).json.asObject
    let eventType ← ofOption (stringMember object "type")
    let stateKey ← ofOption (stringMember object "state_key")
    if eventType = "m.room.power_levels" then do
      require (stateKey = [] ∧ found = none)
      return some id
    else return found) none auth

/-- A power-levels event that is met on the way. -/
def powerLevelsObject (eventId : Str) : AuthWalk Object := do
  let object ← ofOption (← findRequired eventId).json.asObject
  require (stringMember object "type" = some (lit "m.room.power_levels") ∧
    stringMember object "state_key" = some [])
  return object

/-- The loop of `collect_mainline_power_events`; `remaining` is what `max_depth` leaves. -/
def collectMainlineFrom : (remaining : ℕ) → (result : List Str) → (currentId : Str) →
    (current : Object) → AuthWalk (List Str)
  | 0, _, _, _ => .fail
  | remaining + 1, result, currentId, current => do
    require (currentId ∉ result)
    match ← powerLevelsAuthAncestor current with
    | none => return result ++ [currentId]
    | some ancestorId => do
      require (remaining ≠ 0)
      let ancestor ← powerLevelsObject ancestorId
      collectMainlineFrom remaining (result ++ [currentId]) ancestorId ancestor

def collectMainlinePowerEvents (headEventId : Str) (powerLevelsEvent : Value) (maxDepth : ℕ) :
    AuthWalk (List Str) := do
  let current ← ofOption powerLevelsEvent.asObject
  require (headEventId ≠ [])
  collectMainlineFrom maxDepth [] headEventId current

structure AuthAncestorContext where
  powerLevels : Value := .null
  create : Value := .null

/-- The create event that a room id of version 12 names. -/
def createOfRoomId (roomId : Str) : AuthWalk Value := do
  require (2 ≤ roomId.length ∧ roomId.head? = some (charByte '!'))
  let create ← findRequired (charByte '$' :: roomId.drop 1)
  let createObj ← ofOption create.json.asObject
  require (stringMember createObj "type" = some (lit "m.room.create") ∧
    stringMember createObj "state_key" = some [])
  return create.json

/-- One entry of the scan for the power-levels and create ancestors: the first of each is
kept. -/
def noteAncestor (context : AuthAncestorContext) (fetched : Value) : AuthAncestorContext :=
  match fetched.asObject.bind (stringMember · "type") with
  | none => context
  | some eventType =>
    if eventType = "m.room.power_levels" ∧ context.powerLevels.hasContent = false then
      { context with powerLevels := fetched }
    else if eventType = "m.room.create" ∧ context.create.hasContent = false then
      { context with create := fetched }
    else context

def findAuthAncestorContext (eventJson : Value) (policy : RoomVersionPolicy) :
    AuthWalk AuthAncestorContext :=
  match eventJson.asObject with
  | none => return {}
  | some obj => do
    let create ←
      match (if policy.createEventIsRoomId then stringMember obj "room_id" else none) with
      | some roomId => createOfRoomId roomId
      | none => pure .null
    fold (fun context id => do return noteAncestor context (← findRequired id).json)
      { create := create } (authEventIds eventJson)

def powerLevelFromEvent (event : StateEventReference) (policy : RoomVersionPolicy) :
    AuthWalk Int64 := do
  let context ← findAuthAncestorContext event.eventJson policy
  return effectiveSenderPower context.powerLevels event.sender context.create policy

end Merovingian
