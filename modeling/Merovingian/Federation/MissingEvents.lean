import Merovingian.Database.EventTableRuns
import Merovingian.Federation.EventDisclosure

/-!
# The gap that `/get_missing_events` closes

`build_get_missing_events_response` walks `prev_events` back from the latest events of a server
that asks, up to the earliest events it has, and returns what lies between, the newest of the walk
last.

What is collected is exactly the gap (`missing_events_exact`).  The reverse of a breadth-first walk
is a topological order exactly where the paths from the latest events come to every event of the
gap before they come to its ancestors (`missing_events_oldest_first`).
-/

namespace Merovingian

open List Relation Breadth EventTable Option

namespace EventQuery

variable (query : EventQuery) (roomId : Str) (request : MissingEventsRequest)
  (policy : FederationQueryPolicy)

/-- The latest events that the requester does not have. -/
def roots : List Str := request.latestEvents.filter fun id => id ∉ request.earliestEvents

/-- The walk of `build_get_missing_events_response`: the ids it goes through, and the queue when
`max_missing_events_traversal` ends it. -/
def missingWalk : List Str × List Str :=
  query.prevWalk (inReach roomId request) policy.maxMissingEventsTraversal (roots request)
    (request.earliestEvents ++ roots request)

/-- The id of an event of the room that is held, has a body and is deep enough. -/
def Held (id : Str) (event : PersistentEvent) : Prop :=
  query.store.events.find id = some event ∧ event.roomId = roomId ∧ event.json ≠ [] ∧
    request.minDepth ≤ Int64.ofNat event.depth

/-- From an event to one that it cites, both of the room and the second not one of those the
requester has. -/
def LeadsBack (id prev : Str) : Prop :=
  ∃ event prevEvent, query.Held roomId request id event ∧ prev ∈ event.prevEventIds ∧
    prev ∉ request.earliestEvents ∧ query.Held roomId request prev prevEvent

/-- The id of an event between the latest and the earliest events. -/
def InGap (id : Str) : Prop :=
  id ∉ request.latestEvents ∧ id ∉ request.earliestEvents ∧
    ∃ root ∈ request.latestEvents, root ∉ request.earliestEvents ∧
      (∃ event, query.Held roomId request root event) ∧
      ReflTransGen (query.LeadsBack roomId request) root id

/-- What the walk goes on to from an id. -/
def goesTo (id : Str) : Option (List Str) :=
  (query.walked (inReach roomId request) id).map PersistentEvent.prevEventIds

/-- The ids of the events that are collected. -/
def missingIds : List Str :=
  taken (query.goesTo roomId request) (roots request) request.earliestEvents
    policy.maxMissingEventsTraversal request.limit

variable {roomId request policy} {id : Str}

lemma walked_inReach {event : PersistentEvent} :
    query.walked (inReach roomId request) id = some event ↔ query.Held roomId request id event := by
  simp [walked, Held, inReach]

lemma isSome_goesTo : (query.goesTo roomId request id).isSome ↔
    ∃ event, query.Held roomId request id event := by
  simp [goesTo, isSome_iff_exists, walked_inReach]

lemma step_eq_leadsBack : Step (query.goesTo roomId request) request.earliestEvents =
    query.LeadsBack roomId request := by
  ext id prev
  constructor
  · rintro ⟨found, hfound, hprev, hout, hsome⟩
    obtain ⟨event, hevent, rfl⟩ := map_eq_some_iff.mp hfound
    obtain ⟨prevEvent, hheld⟩ := query.isSome_goesTo.mp hsome
    exact ⟨event, prevEvent, query.walked_inReach.mp hevent, hprev, hout, hheld⟩
  · rintro ⟨event, prevEvent, hevent, hprev, hout, hheld⟩
    exact ⟨event.prevEventIds, map_eq_some_iff.mpr
      ⟨event, query.walked_inReach.mpr hevent, rfl⟩, hprev, hout,
      query.isSome_goesTo.mpr ⟨prevEvent, hheld⟩⟩

lemma missingIds_eq : query.missingIds roomId request policy =
    ((query.missingWalk roomId request policy).1.filter fun id => id ∉ roots request).take
      request.limit :=
  congrArg (take _) (filter_congr fun _ _ => decide_eq_decide.mpr Iff.rfl)

lemma map_find_missingIds : (query.missingIds roomId request policy).map query.store.events.find =
    (query.missingEvents roomId request policy).map some := by
  have hmap : ∀ ids : List Str, (∀ id ∈ ids, ∃ event, query.Held roomId request id event) →
      ids.map query.store.events.find =
        (ids.filterMap (query.walked (inReach roomId request))).map some := by
    intro ids hids
    induction ids with
    | nil => rfl
    | cons id ids ih =>
      obtain ⟨event, hevent⟩ := hids id mem_cons_self
      rw [filterMap_cons_some (query.walked_inReach.mpr hevent), map_cons, map_cons, hevent.1,
        ih fun other hother => hids other (mem_cons_of_mem _ hother)]
  rw [missingEvents, collectMissing_eq, missingIds_eq, nil_append, map_take, map_take]
  refine congrArg (take request.limit) (hmap _ fun id hid => ?_)
  exact query.isSome_goesTo.mp (isSome_of_mem_walk (mem_of_mem_filter hid))

/-! ### Exactly the gap -/

lemma found_iff_inGap : Found (query.goesTo roomId request) (roots request) request.earliestEvents id
    ↔ query.InGap roomId request id := by
  rw [Found, step_eq_leadsBack]
  constructor
  · rintro ⟨hroot, root, hin, hheld, hpath⟩
    have hearly : id ∉ request.earliestEvents := by
      cases hpath with
      | refl => exact absurd hin hroot
      | tail _ hstep =>
        obtain ⟨_, _, _, _, hout, _⟩ := hstep
        exact hout
    obtain ⟨hlast, hout⟩ := mem_filter.mp hin
    exact ⟨fun h => hroot (mem_filter.mpr ⟨h, decide_eq_true hearly⟩), hearly, root, hlast,
      of_decide_eq_true hout, query.isSome_goesTo.mp hheld, hpath⟩
  · rintro ⟨hlatest, -, root, hin, hearly, hheld, hpath⟩
    exact ⟨fun h => hlatest (mem_of_mem_filter h), root,
      mem_filter.mpr ⟨hin, decide_eq_true hearly⟩, query.isSome_goesTo.mpr hheld, hpath⟩

/-- `get_missing_events` returns the gap, each event once, where neither its limit nor its bound on
lookups is reached.  Depths are below `2 ^ 63`, as those of all accepted events are, so that the
signed comparison of the code is that of the numbers. -/
theorem missing_events_exact (hdepth : ∀ event ∈ query.store.events.rows, event.depth < 2 ^ 63)
    (hlimit : (query.missingEvents roomId request policy).length < request.limit)
    (hbound : (query.missingWalk roomId request policy).2 = []) :
    (∃ ids : List Str, ids.Nodup ∧ ids.map query.store.events.find =
        (query.missingEvents roomId request policy).map some ∧
      ∀ id, id ∈ ids ↔ query.InGap roomId request id) ∧
    ∀ id event, query.Held roomId request id event ↔
      query.store.events.find id = some event ∧ event.roomId = roomId ∧ event.json ≠ [] ∧
        request.minDepth.toInt ≤ event.depth := by
  refine ⟨⟨query.missingIds roomId request policy, nodup_taken, query.map_find_missingIds,
    fun id => ?_⟩, fun id event => and_congr_right fun hfind => ?_⟩
  · have hlength : (query.missingIds roomId request policy).length =
        (query.missingEvents roomId request policy).length := by
      simpa using congrArg length query.map_find_missingIds
    rw [missingIds_eq, length_take] at hlength
    rw [missingIds_eq, take_of_length_le (by omega), mem_filter, decide_eq_true_iff, and_comm,
      missingWalk, mem_walk_iff hbound]
    exact query.found_iff_inGap
  · rw [Int64.le_iff_toInt_le, Int64.toInt_ofNat_of_lt (hdepth event (mem_rows_of_find hfind))]

/-- Whatever ends the walk, what is returned is of the gap: at most `limit` events, each once. -/
theorem missing_events_sound : ∃ ids : List Str, ids.Nodup ∧ ids.length ≤ request.limit ∧
    ids.map query.store.events.find = (query.missingEvents roomId request policy).map some ∧
    ∀ id ∈ ids, query.InGap roomId request id := by
  exact ⟨query.missingIds roomId request policy, nodup_taken, length_take_le _ _,
    query.map_find_missingIds, fun id hid => query.found_iff_inGap.mp (found_of_mem_taken hid)⟩

open HistoryVisibility in
/-- The messages `$a`, `$b` that cites it, and `$l` that cites the given ones. -/
def threeMessages (cited : List Str) : List PersistentEvent :=
  let json := eventText "m.room.message" none "body" "hello"
  [{ eventId := "$a", roomId := "!r", depth := 1, json := json },
    { eventId := "$b", roomId := "!r", depth := 2, json := json, prevEventIds := ["$a"] },
    { eventId := "$l", roomId := "!r", depth := 3, json := json, prevEventIds := cited }]

/-- Queries against a room of three messages. -/
def threeQuery (cited : List Str) : EventQuery :=
  queryOf (HistoryVisibility.roomStore (threeMessages cited) [] [] [])

/-- What lies before `$l`. -/
def beforeLast : MissingEventsRequest := ⟨["$l"], [], 10, 0⟩

/-- The two messages before the last. -/
theorem missing_events_exact_chain :
    ∃ ids : List Str, ids.Nodup ∧ ids.map (threeQuery ["$b"]).store.events.find =
        ((threeQuery ["$b"]).missingEvents "!r" beforeLast {}).map some ∧
      ∀ id, id ∈ ids ↔ (threeQuery ["$b"]).InGap "!r" beforeLast id :=
  (missing_events_exact (threeQuery ["$b"]) (by decide) (by decide) (by decide)).1

/-! ### The oldest first -/

/-- One held event cites another in its `prev_events`. -/
def Cites (id prev : Str) : Prop :=
  ∃ event, query.store.events.find id = some event ∧ prev ∈ event.prevEventIds ∧
    (query.store.events.find prev).isSome

variable (roomId request policy) in
/-- Every path from the latest events to an ancestor comes after one to the event: it is longer, or
of the same length and later in the lists of `latest_events` and `prev_events`.  Events that come
too late for the limit or the bound on lookups are left out. -/
def DescendantsFirst : Prop :=
  ∀ id ancestor, query.InGap roomId request id → query.InGap roomId request ancestor →
    id ≠ ancestor → TransGen query.Cites id ancestor →
      Nearer (query.goesTo roomId request) (roots request) request.earliestEvents id ancestor ∨
      Late (query.goesTo roomId request) (roots request) request.earliestEvents
        policy.maxMissingEventsTraversal request.limit id

/-- The events are handed over oldest first, none before one of its ancestors, exactly where paths
come to descendants first. -/
theorem missing_events_oldest_first (roomId : Str) (request : MissingEventsRequest)
    (policy : FederationQueryPolicy) :
    ∃ ids : List Str, ids.map query.store.events.find =
        (query.missingEvents roomId request policy).reverse.map some ∧
      ((ids.Pairwise fun earlier later => ¬ TransGen query.Cites earlier later) ↔
        query.DescendantsFirst roomId request policy) ∧
      ∀ requestBody origin, query.readMissingEventsRequest requestBody policy = some request →
        (query.buildGetMissingEventsResponse roomId requestBody origin policy).status = .ok →
        query.buildGetMissingEventsResponse roomId requestBody origin policy =
          ⟨.ok, query.serialize (missingEventsFrame
            ((query.missingEvents roomId request policy).reverse.filterMap
              (query.filterFor origin).shown))⟩ := by
  refine ⟨(query.missingIds roomId request policy).reverse, ?_, ?_, fun requestBody origin hread
    hok => ?_⟩
  · rw [map_reverse, map_reverse, query.map_find_missingIds]
  · rw [pairwise_reverse, missingIds, taken_pairwise_iff]
    simp only [found_iff_inGap]
    rfl
  · rw [buildGetMissingEventsResponse, hread] at hok ⊢
    simp only [(yields_showAll (query.filterFor origin) _ _ .initial).1] at hok ⊢
    split_ifs at hok ⊢
    · cases hok
    · rfl
    · cases hok

/-- In a chain paths come to descendants first. -/
theorem missing_events_oldest_first_chain :
    (threeQuery ["$b"]).DescendantsFirst "!r" beforeLast {} := by
  obtain ⟨ids, hids, horder, -⟩ := missing_events_oldest_first (threeQuery ["$b"]) "!r" beforeLast {}
  have hevents : ((threeQuery ["$b"]).missingEvents "!r" beforeLast {}).reverse =
      [(threeMessages ["$b"])[0], (threeMessages ["$b"])[1]] := by
    decide
  rw [hevents] at hids
  obtain ⟨id, others, rfl, hid, hothers⟩ := map_eq_cons_iff.mp hids
  obtain ⟨other, none, rfl, -, hnone⟩ := map_eq_cons_iff.mp hothers
  obtain rfl := map_eq_nil_iff.mp hnone
  rw [← horder, pairwise_pair]
  intro h
  obtain ⟨_, ⟨event, hevent, hprev, -⟩, -⟩ := TransGen.head'_iff.mp h
  cases hid.symm.trans hevent
  cases hprev

/-- `$l` cites `$a` and `$b`, and `$b` cites `$a`: the answer has `$b` before its ancestor `$a`.
No event of the store cites itself or a later one. -/
theorem ancestor_after_its_descendant :
    (∀ event ∈ (threeQuery ["$a", "$b"]).store.events.rows, ∀ id ∈ event.prevEventIds,
      id < event.eventId) ∧
    ∃ earlier later, ((threeQuery ["$a", "$b"]).missingEvents "!r" beforeLast {}).reverse =
      [earlier, later] ∧ later.eventId ∈ earlier.prevEventIds := by
  exact ⟨by decide, (threeMessages ["$a", "$b"])[1], (threeMessages ["$a", "$b"])[0], by decide,
    by decide⟩

end EventQuery

end Merovingian
