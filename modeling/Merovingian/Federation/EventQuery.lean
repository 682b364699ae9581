import Merovingian.Federation.ServerEventFilter

/-!
# Reading history over federation

The model of the answers of `federation/event_query.cpp` that return history: `/event`,
`/backfill` and `/get_missing_events`.  Each asks whether the requesting server may read the room
at all, walks the event graph, and passes every event it found through a `ServerEventFilter`.
-/

namespace Merovingian

inductive RoomReadStatus
  | ok
  | forbidden
  | malformed
  | tooLarge
  | notFound
deriving DecidableEq, Repr

structure RoomReadResult where
  status : RoomReadStatus
  body : Str
deriving DecidableEq, Repr

def forbiddenResult : RoomReadResult := ⟨.forbidden, []⟩

def notFoundResult : RoomReadResult := ⟨.notFound, []⟩

def malformedResult : RoomReadResult := ⟨.malformed, []⟩

structure FederationQueryPolicy where
  maxBackfillPdus : ℕ := 500
  maxMissingEventsPdus : ℕ := 100
  maxMissingEventsLatest : ℕ := 100
  maxMissingEventsTraversal : ℕ := 4096

def defaultMissingEventsLimit : Int64 := 10

def stringListMember (object : Object) (key : Str) : Option (List Str) :=
  (arrayMember object key).bind fun items => items.mapM Value.asString

def optionalIntegerMember (object : Object) (key : Str) (fallback : Int64) : Option Int64 :=
  match objectMember object key with
  | none => some fallback
  | some value => value.asInt

/-- The store that is queried, and the environment: the parser, the printer of numbers of
`serialize_canonical`, and `room_server_acl_allows` for a room and a server. -/
structure EventQuery where
  store : PersistentStore
  parseLossless : Str → Option Value
  formatDouble : Double → Str
  roomServerAclAllows : Str → Str → Bool

namespace EventQuery

variable (query : EventQuery)

/-- `ServerEventFilter{store, origin}`. -/
def filterFor (origin : Str) : ServerEventFilter where
  store := query.store
  origin := origin
  parseLossless := query.parseLossless
  formatDouble := query.formatDouble

/-- `serialize`: an object that cannot be serialized gives an empty text. -/
def serialize (object : Object) : Str :=
  match serializeValue (some query.formatDouble) (.obj object) with
  | .ok text => text
  | .error _ => []

/-! ### May the server read the room -/

def originHasJoinedUser (roomId origin : Str) : Bool :=
  (query.store.state.forEachRoomStateRow roomId).any fun row =>
    row.eventType = memberType && userIdServerName row.stateKey = origin &&
      (query.store.events.find row.eventId).any fun event => event.roomId = roomId &&
        contentStringOf query.parseLossless event.json "membership" = some "join"

def roomIsWorldReadable (roomId : Str) : Bool :=
  match query.store.state.findCurrentStateEventId (roomId, historyVisibilityType, []) with
  | none => false
  | some visibilityId => (query.store.events.find visibilityId).any fun event =>
      contentStringOf query.parseLossless event.json "history_visibility" = some "world_readable"

def originMayReadRoom (roomId origin : Str) : Bool :=
  if origin = [] ∨ roomId = [] then false
  else query.originHasJoinedUser roomId origin || query.roomIsWorldReadable roomId

/-! ### One event -/

/-- The answer of `/event`, around its one event. -/
def eventFrame (localServerName : Str) (now : Int64) (pdus : List Value) : Object :=
  [("origin", .str localServerName), ("origin_server_ts", .int now), ("pdus", .arr pdus)]

/-- `build_event_response`, at the time `now`. -/
def buildEventResponse (eventId localServerName origin : Str) (now : Int64) : RoomReadResult :=
  match query.store.events.find eventId with
  | none => notFoundResult
  | some event =>
    if event.json = [] then notFoundResult
    else if ¬ query.roomServerAclAllows event.roomId origin ∨
        ¬ query.originMayReadRoom event.roomId origin then forbiddenResult
    else
      match (((query.filterFor origin).valueFor event).run {}).1 with
      | none => notFoundResult
      | some value =>
        let body := query.serialize (eventFrame localServerName now [value])
        if body = [] then notFoundResult else ⟨.ok, body⟩

/-! ### Backfill -/

section Backfill

variable (roomId : Str) (limit : ℕ) (origin : Str)

/-- The events that `prev_event_ids` adds to a queue: those that were not seen. -/
def unseen (seen ids : List Str) : List Str := firstBy (fun id => id) seen ids

/-- The loop of `build_backfill_pdus`.  It has no bound of its own; with too little fuel there is
no result. -/
def backfillFrom : (fuel : ℕ) → (queue seen pdus : List Str) →
    StateM ServerEventFilter.Caches (Option (List Str))
  | fuel, queue, seen, pdus =>
    match queue with
    | [] => pure (some pdus)
    | eventId :: queue =>
      if limit ≤ pdus.length then pure (some pdus)
      else
        match fuel with
        | 0 => pure none
        | fuel + 1 =>
          match query.store.events.find eventId with
          | none => backfillFrom fuel queue seen pdus
          | some event =>
            if event.roomId ≠ roomId ∨ event.json = [] then backfillFrom fuel queue seen pdus
            else do
              let pdu ← (query.filterFor origin).jsonFor event
              let fresh := unseen seen event.prevEventIds
              -- an event that cannot be shown is walked through all the same
              backfillFrom fuel (queue ++ fresh) (fresh ++ seen) (pdus ++ pdu.toList)

/-- Every event that the walk can come to. -/
def backfillIds (eventIds : List Str) : List Str :=
  eventIds ++ query.store.events.rows.flatMap PersistentEvent.prevEventIds

def buildBackfillPdus (eventIds : List Str) : List Str :=
  if limit = 0 then []
  else
    let queue := unseen [] eventIds
    ((query.backfillFrom roomId limit origin (query.backfillIds eventIds).length queue queue []).run
      {}).1.getD []

end Backfill

/-! ### Missing events -/

/-- A request for missing events, as read from its body. -/
structure MissingEventsRequest where
  latestEvents : List Str
  earliestEvents : List Str
  limit : ℕ
  minDepth : Int64
deriving DecidableEq, Repr

/-- What `build_get_missing_events_response` reads from the request body. -/
def readMissingEventsRequest (requestBody : Str) (policy : FederationQueryPolicy) :
    Option MissingEventsRequest := do
  let root ← (← query.parseLossless requestBody).asObject
  let latestEvents ← stringListMember root "latest_events"
  let earliestEvents ← stringListMember root "earliest_events"
  let requestedLimit ← optionalIntegerMember root "limit" defaultMissingEventsLimit
  let minDepth ← optionalIntegerMember root "min_depth" 0
  if policy.maxMissingEventsLatest < latestEvents.length then none
  else
    some
      { latestEvents := latestEvents
        earliestEvents := earliestEvents
        limit := (max 0 (min requestedLimit.toInt policy.maxMissingEventsPdus)).toNat
        minDepth := minDepth }

/-- The walk of `build_get_missing_events_response`.  `remaining` is what
`max_missing_events_traversal` leaves for further lookups. -/
def collectMissing (roomId : Str) (request : MissingEventsRequest) (roots : List Str) :
    (remaining : ℕ) → (queue seen : List Str) → (collected : List PersistentEvent) →
      List PersistentEvent
  | remaining, queue, seen, collected =>
    match queue with
    | [] => collected
    | id :: queue =>
      if request.limit ≤ collected.length then collected
      else
        match remaining with
        | 0 => collected
        | remaining + 1 =>
          match query.store.events.find id with
          | none => collectMissing roomId request roots remaining queue seen collected
          | some event =>
            if event.roomId ≠ roomId ∨ event.json = [] ∨
                Int64.ofNat event.depth < request.minDepth then
              collectMissing roomId request roots remaining queue seen collected
            else
              let fresh := unseen seen event.prevEventIds
              collectMissing roomId request roots remaining (queue ++ fresh) (fresh ++ seen)
                (if id ∈ roots then collected else collected ++ [event])

/-- The events that are handed over, newest first. -/
def missingEvents (roomId : Str) (request : MissingEventsRequest) (policy : FederationQueryPolicy) :
    List PersistentEvent :=
  -- what the requester has, and the latest events themselves, are never returned
  let roots := request.latestEvents.filter fun id => id ∉ request.earliestEvents
  query.collectMissing roomId request roots policy.maxMissingEventsTraversal roots
    (request.earliestEvents ++ roots) []

/-- The last loop of `build_get_missing_events_response`. -/
def showAll (filter : ServerEventFilter) (events : List PersistentEvent) :
    StateM ServerEventFilter.Caches (List Value) :=
  events.foldlM (fun values event => do
    let value ← filter.valueFor event
    pure (values ++ value.toList)) []

/-- The answer of `/get_missing_events`, around its events. -/
def missingEventsFrame (events : List Value) : Object := [("events", .arr events)]

def buildGetMissingEventsResponse (roomId requestBody origin : Str)
    (policy : FederationQueryPolicy) : RoomReadResult :=
  if ¬ query.originMayReadRoom roomId origin then forbiddenResult
  else
    match query.readMissingEventsRequest requestBody policy with
    | none => malformedResult
    | some request =>
      -- the oldest come first
      let collected := (query.missingEvents roomId request policy).reverse
      let events := ((showAll (query.filterFor origin) collected).run {}).1
      let body := query.serialize (missingEventsFrame events)
      if body = [] then malformedResult else ⟨.ok, body⟩

end EventQuery

end Merovingian
