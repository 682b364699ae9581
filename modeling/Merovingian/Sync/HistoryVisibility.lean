import Merovingian.Database.GroupLookup
import Merovingian.Database.PersistentStore
import Merovingian.Lib.Memo
import Merovingian.Lib.Search
import Merovingian.Lib.Unordered

/-!
# History visibility

The model of `sync/HistoryVisibility.cpp`: which events of a room a user may see.  The decision is
taken from the state that was recorded for the event, from the depth of the user's newest join,
and, for a user who has left, from a walk back through the event graph.

An object of the class serves one request.  It holds the store, which does not change while it is
in use, and tables of what it has computed so far; its methods are computations over these tables.
The order in which a hash set is visited is part of the object.
-/

namespace Merovingian

/-! ### The rows that are read -/

/-- `PersistentStore` with the rows that only its readers need: `memberships` and
`redactions.withheld`. -/
structure ReadStore extends PersistentStore where
  memberships : List PersistentMembership
  withheldRedactions : Finset Str

def ReadStore.redactionIsWithheld (store : ReadStore) (eventId : Str) : Bool :=
  eventId ∈ store.withheldRedactions

def historyVisibilityType : Str := "m.room.history_visibility"

def memberType : Str := "m.room.member"

def eventIsWithheld (event : PersistentEvent) : Bool :=
  event.status = "rejected" || event.status = "soft_failed"

section Parser

-- `canonicaljson::parse_lossless`
variable (parseLossless : Str → Option Value)

/-- `is_membership_of`: of several members of one key the last counts. -/
def isMembershipOf (eventJson userId : Str) : Bool :=
  match (parseLossless eventJson).bind Value.asObject with
  | none => false
  | some event => stringMember event.reverse "type" = some memberType &&
      stringMember event.reverse "state_key" = some userId

def contentStringOf (eventJson key : Str) : Option Str := do
  let event ← (← parseLossless eventJson).asObject
  let content ← objectMemberAsObject event "content"
  stringMember content key

end Parser

inductive HistoryVisibilityValue
  | worldReadable
  | shared
  | invited
  | joined
deriving DecidableEq, Repr

/-- `parse_history_visibility`: what is not understood is `shared`. -/
def parseHistoryVisibility (value : Str) : HistoryVisibilityValue :=
  if value = "world_readable" then .worldReadable
  else if value = "invited" then .invited
  else if value = "joined" then .joined
  else .shared

/-! ### The object and its tables -/

/-- What a `HistoryVisibility` is made for, with the environment it runs in. -/
structure HistoryVisibility where
  store : ReadStore
  userId : Str
  parseLossless : Str → Option Value
  order : Listing Unit Str

namespace HistoryVisibility

structure GroupView where
  valid : Bool := false
  visibility : HistoryVisibilityValue := .shared
  membership : Str := []
deriving DecidableEq, Repr

structure Departure where
  ordering : ℕ
  eventId : Option Str := none
deriving DecidableEq, Repr

structure MembershipStep where
  ordering : ℕ
  membership : Str
deriving DecidableEq, Repr

/-- The tables of the object.  `join_depths_` and `newest_join_ids_` are filled together and are
one table here. -/
structure Caches where
  groupViews : Str → Option GroupView := fun _ => none
  contentCache : Str → Option (Option Str) := fun _ => none
  joins : Str → Option (Option ℕ × List Str) := fun _ => none
  joinAncestors : Str → Option (List Str) := fun _ => none
  departures : Str → Option (Option Departure) := fun _ => none
  membershipTimelines : Str → Option (Option (List MembershipStep)) := fun _ => none

namespace Caches

/-- `group_views_`. -/
def groupViewsTable : TableIn Caches Str GroupView :=
  ⟨groupViews, fun caches entries => { caches with groupViews := entries }⟩

/-- `content_cache_`. -/
def contentTable : TableIn Caches Str (Option Str) :=
  ⟨contentCache, fun caches entries => { caches with contentCache := entries }⟩

/-- `join_depths_` and `newest_join_ids_`. -/
def joinsTable : TableIn Caches Str (Option ℕ × List Str) :=
  ⟨joins, fun caches entries => { caches with joins := entries }⟩

/-- `join_ancestors_`. -/
def joinAncestorsTable : TableIn Caches Str (List Str) :=
  ⟨joinAncestors, fun caches entries => { caches with joinAncestors := entries }⟩

/-- `departures_`. -/
def departuresTable : TableIn Caches Str (Option Departure) :=
  ⟨departures, fun caches entries => { caches with departures := entries }⟩

/-- `membership_timelines_`. -/
def timelinesTable : TableIn Caches Str (Option (List MembershipStep)) :=
  ⟨membershipTimelines, fun caches entries => { caches with membershipTimelines := entries }⟩

end Caches

open Caches

variable (viewer : HistoryVisibility)

def findEvent (eventId : Str) : Option PersistentEvent := viewer.store.events.find eventId

def stateGroupOf (eventId : Str) : Option Str := viewer.store.eventStateGroups.stateGroupOf eventId

def lookupInGroup (groupId eventType stateKey : Str) : GroupLookup :=
  lookupStateInGroup viewer.store.groups groupId (eventType, stateKey)

/-- The transition that is found for an event in a slot of its room. -/
def transitionOf (event : PersistentEvent) (eventType stateKey : Str) :
    Option PersistentStateTransition :=
  viewer.store.stateTransitions.find (event.roomId, eventType, stateKey) event.eventId

/-- The user's current member row of a room. -/
def memberRow (roomId : Str) : Option PersistentStateEvent :=
  lookupBy PersistentStateEvent.slot viewer.store.state.rows (roomId, memberType, viewer.userId)

/-- The key of `content_cache_`. -/
def contentCacheKey (eventId key : Str) : Str := eventId ++ 0 :: key

def contentString (eventId key : Str) : StateM Caches (Option Str) :=
  memo contentTable (contentCacheKey eventId key) <| pure <|
    (viewer.findEvent eventId).bind fun event => contentStringOf viewer.parseLossless event.json key

/-! ### The state at an event -/

/-- The first half of `view_of_group`: the visibility. -/
def visibilityView : GroupLookup → StateM Caches GroupView
  | .found eventId =>
    -- the group may name an event this store does not hold
    if (viewer.findEvent eventId).isNone then pure { valid := false }
    else do
      let value ← viewer.contentString eventId "history_visibility"
      pure { valid := true, visibility := (value.map parseHistoryVisibility).getD .shared }
  | _ => pure { valid := true }

/-- The second half of `view_of_group`: the membership. -/
def membershipView (view : GroupView) : GroupLookup → StateM Caches GroupView
  | .found eventId =>
    if !view.valid then pure view
    else if (viewer.findEvent eventId).isNone then pure { view with valid := false }
    else do
      let value ← viewer.contentString eventId "membership"
      pure { view with membership := value.getD [] }
  | _ => pure view

def viewOfGroup (groupId : Str) : StateM Caches GroupView :=
  memo groupViewsTable groupId <|
    let visibilityEvent := viewer.lookupInGroup groupId historyVisibilityType []
    let memberEvent := viewer.lookupInGroup groupId memberType viewer.userId
    if visibilityEvent ≠ .broken ∧ memberEvent ≠ .broken then do
      let view ← viewer.visibilityView visibilityEvent
      viewer.membershipView view memberEvent
    else pure {}

/-! ### The user's joins -/

/-- The candidates of `max_join_depth`: what any group's state and the room's current state name
as a member event of the user. -/
def joinCandidates (roomId : Str) : Finset Str :=
  ((viewer.store.groups.stateGroupState.rows.filter fun entry =>
      entry.eventType = memberType && entry.stateKey = viewer.userId).map
        StateGroupEntry.eventId).toFinset ∪
  ((viewer.store.state.rows.filter fun row =>
      row.slot = (roomId, memberType, viewer.userId)).map PersistentStateEvent.eventId).toFinset

/-- The newest joins with one more. -/
def newestJoin (newest : Option ℕ × List Str) (depth : ℕ) (eventId : Str) : Option ℕ × List Str :=
  match newest with
  | (none, _) => (some depth, [eventId])
  | (some deepest, ids) =>
    if deepest < depth then (some depth, [eventId])
    else if depth = deepest then (some deepest, ids ++ [eventId])
    else (some deepest, ids)

/-- The body of the last loop of `max_join_depth`. -/
def joinStep (roomId : Str) (newest : Option ℕ × List Str) (candidate : Str) :
    StateM Caches (Option ℕ × List Str) :=
  match viewer.findEvent candidate with
  | none => pure newest
  | some event =>
    if event.roomId ≠ roomId ∨ eventIsWithheld event then pure newest
    else do
      let membership ← viewer.contentString candidate "membership"
      pure (if membership = some "join" then newestJoin newest event.depth candidate else newest)

/-- `HistoryVisibility::max_join_depth`, with `newest_join_ids_`. -/
def newestJoins (roomId : Str) : StateM Caches (Option ℕ × List Str) :=
  memo joinsTable roomId <|
    (viewer.order.order () (viewer.joinCandidates roomId)).foldlM (viewer.joinStep roomId) (none, [])

def maxJoinAncestorWalk : ℕ := 500

/-- The first pending event that the walk from the joins goes through, and what is pending below
it. -/
def nextAncestor (roomId : Str) (joinDepth : ℕ) (ancestors : List Str) :
    (pending : List Str) → Option (PersistentEvent × List Str)
  | [] => none
  | id :: pending =>
    match viewer.findEvent id with
    | none => nextAncestor roomId joinDepth ancestors pending
    | some ancestor =>
      -- below the join's depth the comparison of depths decides
      if ancestor.roomId ≠ roomId ∨ ancestor.depth < joinDepth ∨ ancestor.eventId ∈ ancestors then
        nextAncestor roomId joinDepth ancestors pending
      else some (ancestor, pending)

/-- The loop of `ancestors_of_newest_joins`. -/
def ancestorsFrom (roomId : Str) (joinDepth : ℕ) : (remaining : ℕ) →
    (pending ancestors : List Str) → List Str
  | 0, _, ancestors => ancestors
  | remaining + 1, pending, ancestors =>
    match viewer.nextAncestor roomId joinDepth ancestors pending with
    | none => ancestors
    | some (ancestor, pending) => ancestorsFrom roomId joinDepth remaining
        (ancestor.prevEventIds.reverse ++ pending) (ancestor.eventId :: ancestors)

/-- What is pending when the walk from the joins starts; the last is next. -/
def joinPredecessors (joinIds : List Str) : List Str :=
  (joinIds.flatMap fun id =>
    ((viewer.findEvent id).map PersistentEvent.prevEventIds).getD []).reverse

def ancestorsOfNewestJoins (roomId : Str) : StateM Caches (List Str) :=
  memo joinAncestorsTable roomId do
    let newest ← viewer.newestJoins roomId
    pure (viewer.ancestorsFrom roomId (newest.1.getD 0) maxJoinAncestorWalk
      (viewer.joinPredecessors newest.2) [])

/-! ### The user's departure -/

/-- Whether a membership is `leave` or `ban`. -/
def isDeparture (membership : Str) : Bool := membership = "leave" || membership = "ban"

/-- The membership row of the user in a room. -/
def membershipRow (roomId : Str) : Option PersistentMembership :=
  viewer.store.memberships.find? fun row => row.roomId = roomId && row.userId = viewer.userId

def departureOf (roomId : Str) : StateM Caches (Option Departure) :=
  memo departuresTable roomId <|
    match viewer.membershipRow roomId with
    | none => pure none
    | some row =>
      if !isDeparture row.membership then pure none
      else
        match viewer.memberRow roomId with
        | none => pure (some { ordering := row.streamOrdering })
        | some state => do
          let membership ← viewer.contentString state.eventId "membership"
          pure (some
            { ordering := row.streamOrdering
              eventId := if membership.any isDeparture then some state.eventId else none })

def maxDepartureWalk : ℕ := 500

/-- The predecessors through which the departure walk goes on from an event. -/
def departureEdges (roomId : Str) (ordering : ℕ) (id : Str) : Option (List Str) :=
  match viewer.findEvent id with
  | none => none
  | some prev =>
    if prev.roomId ≠ roomId ∨ prev.streamOrdering < ordering then none else some prev.prevEventIds

def mayDescendFromDeparture (event : PersistentEvent) (departure : Departure) : Bool :=
  -- nothing built on the leave can have been stored before it
  if event.streamOrdering < departure.ordering then false
  else
    match departure.eventId with
    | none => true
    | some leave =>
      if event.eventId = leave then false
      else
        -- reaching the leave and giving up both hide the event
        Search.search (fun id => id = leave) (viewer.departureEdges event.roomId departure.ordering)
          maxDepartureWalk event.prevEventIds.reverse [] ≠ .exhausted

/-! ### The user's membership over time -/

/-- `max_chain` of `membership_timeline`. -/
def maxChain : ℕ := 4096

/-- The step of a member event: none for one that is withheld, and none can be told for one
without a membership. -/
def timelineStep (event : PersistentEvent) (eventId : Str) :
    StateM Caches (Option (List MembershipStep)) :=
  if eventIsWithheld event then pure (some [])
  else do
    let membership ← viewer.contentString eventId "membership"
    pure (membership.map fun membership => [⟨event.streamOrdering, membership⟩])

/-- The loop of `membership_timeline`. -/
def timelineFrom (roomId : Str) : (remaining : ℕ) → (current : Str) →
    (timeline : List MembershipStep) → StateM Caches (Option (List MembershipStep))
  | remaining, current, timeline =>
    if current = [] then pure (some timeline)
    else
      match viewer.findEvent current with
      | none => pure none
      | some event =>
        match remaining with
        | 0 => pure none
        | remaining + 1 =>
          if event.roomId ≠ roomId then pure none
          else do
            match ← viewer.timelineStep event current with
            | none => pure none
            | some steps =>
              match viewer.store.stateTransitions.find (roomId, memberType, viewer.userId)
                current with
              | none => pure (some (timeline ++ steps))
              | some transition =>
                timelineFrom roomId remaining transition.previousEventId (timeline ++ steps)

/-- `std::ranges::sort` by the stream ordering. -/
def sortSteps (steps : List MembershipStep) : List MembershipStep :=
  steps.insertionSort fun a b => a.ordering ≤ b.ordering

def membershipTimeline (roomId : Str) : StateM Caches (Option (List MembershipStep)) :=
  memo timelinesTable roomId do
    let current := ((viewer.memberRow roomId).map PersistentStateEvent.eventId).getD []
    let timeline ← viewer.timelineFrom roomId maxChain current []
    pure (timeline.map sortSteps)

/-- The membership of the last step that is not after an event. -/
def latestMembership (timeline : List MembershipStep) (ordering : ℕ) (fallback : Str) : Str :=
  ((timeline.takeWhile fun step => step.ordering ≤ ordering).getLast?.map
    MembershipStep.membership).getD fallback

def joinedWhenSent (event : PersistentEvent) : StateM Caches Bool := do
  match ← viewer.membershipTimeline event.roomId with
  | none => pure false
  | some timeline => pure (latestMembership timeline event.streamOrdering [] = lit "join")

def membershipAt (event : PersistentEvent) : StateM Caches (Option Str) :=
  match viewer.stateGroupOf event.eventId with
  | some groupId => do
    let view ← viewer.viewOfGroup groupId
    pure (if !view.valid then none
      else if view.membership = [] then some "leave" else some view.membership)
  | none => do
    let timeline ← viewer.membershipTimeline event.roomId
    pure (timeline.map fun timeline => latestMembership timeline event.streamOrdering "leave")

/-! ### The decision -/

/-- The end of rule 3: depths are claimed by whoever creates an event, so a user who left sees
nothing that may descend from the leave. -/
def precedesDeparture (event : PersistentEvent) : StateM Caches Bool := do
  match ← viewer.departureOf event.roomId with
  | none => pure true
  | some departure => pure (!viewer.mayDescendFromDeparture event departure)

def allows (visibility : HistoryVisibilityValue) (membership : Str) (event : PersistentEvent) :
    StateM Caches Bool :=
  if visibility = .worldReadable then pure true
  else if membership = "join" then pure true
  else if visibility = .shared then do
    -- the user joined at some later point of the room's history
    match (← viewer.newestJoins event.roomId).1 with
    | none => pure false
    | some joined =>
      if joined < event.depth then pure false
      else if joined = event.depth then do
        let ancestors ← viewer.ancestorsOfNewestJoins event.roomId
        if event.eventId ∉ ancestors then pure false else viewer.precedesDeparture event
      else viewer.precedesDeparture event
  else pure (membership = lit "invite" && visibility = .invited)

/-- Whether the visibility before a `m.room.history_visibility` event allows it. -/
def allowedByVisibilityBefore (view : GroupView) (event : PersistentEvent) : StateM Caches Bool :=
  match viewer.transitionOf event historyVisibilityType [] with
  | none => pure false
  | some transition =>
    -- no earlier event: the default
    if transition.previousEventId = [] then viewer.allows .shared view.membership event
    else if (viewer.findEvent transition.previousEventId).isNone then pure false
    else do
      let value ← viewer.contentString transition.previousEventId "history_visibility"
      viewer.allows ((value.map parseHistoryVisibility).getD .shared) view.membership event

/-- Whether the membership before a member event of the user allows it. -/
def allowedByMembershipBefore (view : GroupView) (event : PersistentEvent) : StateM Caches Bool :=
  match viewer.transitionOf event memberType viewer.userId with
  | none => pure false
  | some transition =>
    if transition.previousEventId = [] then viewer.allows view.visibility [] event
    else if (viewer.findEvent transition.previousEventId).isNone then pure false
    else do
      let value ← viewer.contentString transition.previousEventId "membership"
      viewer.allows view.visibility (value.getD []) event

def canSee (event : PersistentEvent) : StateM Caches Bool :=
  if eventIsWithheld event then pure false
  else if viewer.store.redactionIsWithheld event.eventId then pure false
  else
    match viewer.stateGroupOf event.eventId with
    | none =>
      if event.status = "outlier" ∧ isMembershipOf viewer.parseLossless event.json viewer.userId then
        pure true
      else if event.status = "outlier" then pure false
      else viewer.joinedWhenSent event
    | some groupId => do
      let view ← viewer.viewOfGroup groupId
      if !view.valid then pure false
      else do
        let after ← viewer.allows view.visibility view.membership event
        if after then pure true
        else do
          let visibilityBefore ← viewer.allowedByVisibilityBefore view event
          if visibilityBefore then pure true
          else viewer.allowedByMembershipBefore view event

def canSeeEventId (eventId : Str) : StateM Caches Bool :=
  match viewer.findEvent eventId with
  | none => pure false
  | some event => viewer.canSee event

/-! ### A request -/

/-- A question to the object. -/
inductive Question
  | canSee (event : PersistentEvent)
  | membershipAt (event : PersistentEvent)
  | canSeeEventId (eventId : Str)

/-- The tables after a question. -/
def ask (caches : Caches) : Question → Caches
  | .canSee event => ((viewer.canSee event).run caches).2
  | .membershipAt event => ((viewer.membershipAt event).run caches).2
  | .canSeeEventId eventId => ((viewer.canSeeEventId eventId).run caches).2

/-- The answer of `can_see` after other questions of the same request. -/
def canSeeAfter (questions : List Question) (event : PersistentEvent) : Bool :=
  ((viewer.canSee event).run (questions.foldl viewer.ask {})).1

end HistoryVisibility

end Merovingian
