import Merovingian.Federation.EventQuery
import Merovingian.Federation.ServerVisibility
import Merovingian.Lib.Breadth
import Merovingian.Sync.StrangerVisibility

/-!
# What history leaves the server

The answers of `/event`, `/backfill` and `/get_missing_events` pass every event they found through
one `ServerEventFilter`, whose tables are shared by the events of a page.  Each thing that an
answer carries is the event itself where the requesting server may see it and its redaction where
it may not (`Releases`, `ReleasesText`), and the verdict is the one a fresh filter gives.  What the
walks collect is what `Breadth.walk` comes to, up to their limit (`buildBackfillPdus_eq`,
`collectMissing_eq`).
-/

namespace Merovingian

open List Option

variable {event : PersistentEvent}

namespace ServerEventFilter

variable (filter : ServerEventFilter)

/-- What may leave the server for an event: the event where it is seen, its redaction under the
rules of its room where it is not. -/
def Releases (event : PersistentEvent) (value : Value) : Prop :=
  ∃ parsed, filter.parseLossless event.json = some parsed ∧
    (filter.canSeeAfter [] event = true → value = parsed) ∧
    (filter.canSeeAfter [] event = false →
      ∃ policy, storedRoomVersionPolicy filter.parseLossless filter.store event.roomId =
        some policy ∧ redactEvent parsed policy = .ok value)

/-- What may leave the server for an event, as text. -/
def ReleasesText (event : PersistentEvent) (text : Str) : Prop :=
  (filter.canSeeAfter [] event = true → text = event.json) ∧
    (filter.canSeeAfter [] event = false →
      ∃ value, filter.Releases event value ∧ filter.serializeCanonical value = .ok text)

variable {filter}

lemma ok_of_toOption {ε α : Type} {result : Except ε α} {a : α}
    (h : result.toOption = some a) : result = .ok a := by
  cases result with
  | error _ => exact absurd h (by simp [Except.toOption])
  | ok b => rw [Option.some.inj h]

lemma releases_of_shown {value : Value}
    (h : filter.shown event = some value) : filter.Releases event value := by
  obtain ⟨parsed, hparsed, hvalue⟩ := bind_eq_some_iff.mp h
  refine ⟨parsed, hparsed, fun hsees => ?_, fun hsees => ?_⟩ <;> rw [canSeeAfter_eq] at hsees
  · rw [if_pos hsees] at hvalue
    exact (Option.some.inj hvalue).symm
  · rw [hsees] at hvalue
    obtain ⟨policy, hpolicy, hredacted⟩ := bind_eq_some_iff.mp hvalue
    exact ⟨policy, hpolicy, ok_of_toOption hredacted⟩

lemma releasesText_of_shownText {text : Str}
    (h : filter.shownText event = some text) : filter.ReleasesText event text := by
  refine ⟨fun hsees => ?_, fun hsees => ?_⟩ <;> rw [canSeeAfter_eq] at hsees
  · rw [shownText, if_pos hsees] at h
    exact (Option.some.inj h).symm
  · rw [shownText, hsees] at h
    obtain ⟨value, hvalue, htext⟩ := bind_eq_some_iff.mp h
    exact ⟨value, releases_of_shown hvalue, ok_of_toOption htext⟩

end ServerEventFilter

open ServerEventFilter Breadth

namespace EventQuery

variable (query : EventQuery)

/-- The text was released for an event of the room that is held. -/
def ReleasedText (roomId origin text : Str) : Prop :=
  ∃ eventId event, query.store.events.find eventId = some event ∧ event.roomId = roomId ∧
    (query.filterFor origin).ReleasesText event text

/-- The value was released for an event of the room that is held. -/
def Released (roomId origin : Str) (value : Value) : Prop :=
  ∃ eventId event, query.store.events.find eventId = some event ∧ event.roomId = roomId ∧
    (query.filterFor origin).Releases event value

/-! ### One event -/

/-- What `/event` answers. -/
lemma buildEventResponse_cases (eventId localServerName origin : Str) (now : Int64) :
    (query.buildEventResponse eventId localServerName origin now).status ≠ .ok ∧
        (query.buildEventResponse eventId localServerName origin now).body = [] ∨
      ∃ event value, query.store.events.find eventId = some event ∧
        (query.filterFor origin).Releases event value ∧
        query.buildEventResponse eventId localServerName origin now =
          ⟨.ok, query.serialize (eventFrame localServerName now [value])⟩ := by
  rw [buildEventResponse]
  cases hfind : query.store.events.find eventId with
  | none => exact .inl ⟨nofun, rfl⟩
  | some event =>
    have hshown : (((query.filterFor origin).valueFor event).run {}).1 =
        (query.filterFor origin).shown event :=
      (yields_valueFor event _ .initial).1
    simp only [hshown]
    split_ifs
    · exact .inl ⟨nofun, rfl⟩
    · exact .inl ⟨nofun, rfl⟩
    · cases hvalue : (query.filterFor origin).shown event with
      | none => exact .inl ⟨nofun, rfl⟩
      | some value =>
        simp only
        split_ifs
        · exact .inl ⟨nofun, rfl⟩
        · exact .inr ⟨event, value, rfl, releases_of_shown hvalue, rfl⟩

/-! ### Backfill -/

section Backfill

variable (roomId : Str) (limit : ℕ) (origin : Str)

/-- The walk of `build_backfill_pdus` without the tables of the filter. -/
def shownFrom : (fuel : ℕ) → (queue seen pdus : List Str) → Option (List Str)
  | fuel, queue, seen, pdus =>
    match queue with
    | [] => some pdus
    | eventId :: queue =>
      if limit ≤ pdus.length then some pdus
      else
        match fuel with
        | 0 => none
        | fuel + 1 =>
          match query.store.events.find eventId with
          | none => shownFrom fuel queue seen pdus
          | some event =>
            if event.roomId ≠ roomId ∨ event.json = [] then shownFrom fuel queue seen pdus
            else
              let fresh := unseen seen event.prevEventIds
              shownFrom fuel (queue ++ fresh) (fresh ++ seen)
                (pdus ++ ((query.filterFor origin).shownText event).toList)

lemma yields_backfillFrom (fuel : ℕ) (queue seen pdus : List Str) :
    Yields (query.filterFor origin).Coherent
      (query.backfillFrom roomId limit origin fuel queue seen pdus)
      (query.shownFrom roomId limit origin fuel queue seen pdus) := by
  induction fuel generalizing queue seen pdus with
  | zero =>
    cases queue with
    | nil => exact .pure _
    | cons eventId queue => exact .ite (fun _ => .pure _) fun _ => .pure _
  | succ fuel ih =>
    cases queue with
    | nil => exact .pure _
    | cons eventId queue =>
      refine .ite (fun _ => .pure _) fun _ => ?_
      cases query.store.events.find eventId with
      | none => exact ih _ _ _
      | some event =>
        exact .ite (fun _ => ih _ _ _) fun _ =>
          (yields_jsonFor event).bind (ih _ _ _)

variable {roomId limit origin}

/-- The event under an id, where a walk goes through it. -/
def walked (keep : PersistentEvent → Bool) (eventId : Str) : Option PersistentEvent :=
  (query.store.events.find eventId).filter keep

/-- The walk over `prev_events` through the events that are kept. -/
abbrev prevWalk (keep : PersistentEvent → Bool) : (fuel : ℕ) → (queue seen : List Str) →
    List Str × List Str :=
  walk fun id => (query.walked keep id).map PersistentEvent.prevEventIds

/-- An event of the room with a body. -/
def hasBodyIn (roomId : Str) (event : PersistentEvent) : Bool :=
  ¬ (event.roomId ≠ roomId ∨ event.json = [])

lemma shownFrom_cons (fuel : ℕ) (eventId : Str) (queue seen pdus : List Str) :
    query.shownFrom roomId limit origin (fuel + 1) (eventId :: queue) seen pdus =
      if limit ≤ pdus.length then some pdus else match query.walked (hasBodyIn roomId) eventId with
        | none => query.shownFrom roomId limit origin fuel queue seen pdus
        | some event =>
          query.shownFrom roomId limit origin fuel (queue ++ unseen seen event.prevEventIds)
            (unseen seen event.prevEventIds ++ seen)
            (pdus ++ ((query.filterFor origin).shownText event).toList) := by
  rw [shownFrom, walked]
  cases query.store.events.find eventId with
  | none => rfl
  | some event =>
    by_cases hskip : event.roomId ≠ roomId ∨ event.json = [] <;>
      simp [Option.filter, hasBodyIn, hskip]

lemma shownFrom_eq {fuel : ℕ} {queue seen : List Str} (pdus : List Str)
    (hend : (query.prevWalk (hasBodyIn roomId) fuel queue seen).2 = []) :
    query.shownFrom roomId limit origin fuel queue seen pdus = some (pdus ++
      ((query.prevWalk (hasBodyIn roomId) fuel queue seen).1.filterMap fun id =>
        (query.walked (hasBodyIn roomId) id).bind (query.filterFor origin).shownText).take
          (limit - pdus.length)) := by
  induction fuel generalizing queue seen pdus with
  | zero =>
    cases queue with
    | nil => simp [shownFrom, walk]
    | cons _ _ => cases hend
  | succ fuel ih =>
    cases queue with
    | nil => simp [shownFrom, walk]
    | cons eventId queue =>
      rw [shownFrom_cons]
      by_cases hfull : limit ≤ pdus.length
      · rw [if_pos hfull, Nat.sub_eq_zero_of_le hfull, take_zero, append_nil]
      · rw [if_neg hfull]
        cases hwalked : query.walked (hasBodyIn roomId) eventId with
        | none =>
          rw [prevWalk, walk_cons_none (by rw [hwalked, map_none])] at hend ⊢
          exact ih pdus hend
        | some event =>
          rw [prevWalk, walk_cons_some (by rw [hwalked, map_some]) rfl] at hend ⊢
          simp only [filterMap_cons, hwalked, bind_some]
          cases (query.filterFor origin).shownText event with
          | none =>
            rw [toList_none, append_nil]
            exact ih pdus hend
          | some text =>
            rw [append_take_cons (not_le.mp hfull)]
            exact ih (pdus ++ [text]) hend

/-- `build_backfill_pdus` returns what its walk shows: the walk comes to no id twice, so that the
fuel is enough. -/
lemma buildBackfillPdus_eq (hlimit : limit ≠ 0) (eventIds : List Str) :
    query.buildBackfillPdus roomId limit origin eventIds =
      ((query.prevWalk (hasBodyIn roomId) (query.backfillIds eventIds).length (unseen [] eventIds)
        (unseen [] eventIds)).1.filterMap fun id => (query.walked (hasBodyIn roomId) id).bind
          (query.filterFor origin).shownText).take limit := by
  have hnodup : (unseen [] eventIds).Nodup := (nodup_firstBy [] eventIds).of_map
  have hids : unseen [] eventIds ⊆ query.backfillIds eventIds := fun id hid =>
    mem_append_left _ (mem_of_mem_firstBy hid).1
  have hnodes : ∀ id found, ((query.walked (hasBodyIn roomId) id).map
      PersistentEvent.prevEventIds) = some found → found ⊆ query.backfillIds eventIds := by
    intro id found hfound prev hprev
    obtain ⟨event, hevent, rfl⟩ := map_eq_some_iff.mp hfound
    have hrow := EventTable.mem_rows_of_find (filter_eq_some_iff.mp hevent).1
    exact mem_append_right _ (mem_flatMap.mpr ⟨event, hrow, hprev⟩)
  have hend := walk_ends hnodes hnodup hids (Nat.add_comm _ _).le
  rw [buildBackfillPdus, if_neg hlimit]
  simp [(query.yields_backfillFrom roomId limit origin _ _ _ _ _ .initial).1,
    query.shownFrom_eq [] hend]

lemma released_of_mem_buildBackfillPdus {eventIds : List Str} {text : Str}
    (htext : text ∈ query.buildBackfillPdus roomId limit origin eventIds) :
    query.ReleasedText roomId origin text := by
  by_cases hlimit : limit = 0
  · rw [buildBackfillPdus, if_pos hlimit] at htext
    cases htext
  · rw [query.buildBackfillPdus_eq hlimit] at htext
    obtain ⟨id, -, hshown⟩ := mem_filterMap.mp (mem_of_mem_take htext)
    obtain ⟨event, hwalked, hshown⟩ := bind_eq_some_iff.mp hshown
    obtain ⟨hfind, hkeep⟩ := filter_eq_some_iff.mp hwalked
    exact ⟨id, event, hfind, by simp_all [hasBodyIn], releasesText_of_shownText hshown⟩

end Backfill

/-! ### Missing events -/

/-- An event that the walk of `build_get_missing_events_response` does not drop. -/
def inReach (roomId : Str) (request : MissingEventsRequest) (event : PersistentEvent) : Bool :=
  ¬ (event.roomId ≠ roomId ∨ event.json = [] ∨ Int64.ofNat event.depth < request.minDepth)

section

variable {roomId : Str} {request : MissingEventsRequest} {roots : List Str}

lemma collectMissing_cons (remaining : ℕ) (id : Str) (queue seen : List Str)
    (collected : List PersistentEvent) :
    query.collectMissing roomId request roots (remaining + 1) (id :: queue) seen collected =
      if request.limit ≤ collected.length then collected else
        match query.walked (inReach roomId request) id with
        | none => query.collectMissing roomId request roots remaining queue seen collected
        | some event => query.collectMissing roomId request roots remaining
            (queue ++ unseen seen event.prevEventIds) (unseen seen event.prevEventIds ++ seen)
            (if id ∈ roots then collected else collected ++ [event]) := by
  rw [collectMissing, walked]
  cases query.store.events.find id with
  | none => rfl
  | some event =>
    by_cases hskip : event.roomId ≠ roomId ∨ event.json = [] ∨
      Int64.ofNat event.depth < request.minDepth <;> simp [Option.filter, inReach, hskip]

lemma collectMissing_eq (remaining : ℕ) (queue seen : List Str) (collected : List PersistentEvent) :
    query.collectMissing roomId request roots remaining queue seen collected = collected ++
      (((query.prevWalk (inReach roomId request) remaining queue seen).1.filter
        fun id => id ∉ roots).filterMap (query.walked (inReach roomId request))).take
          (request.limit - collected.length) := by
  induction remaining generalizing queue seen collected with
  | zero => cases queue <;> simp [collectMissing, walk]
  | succ remaining ih =>
    cases queue with
    | nil => simp [collectMissing, walk]
    | cons id queue =>
      rw [collectMissing_cons]
      by_cases hfull : request.limit ≤ collected.length
      · rw [if_pos hfull, Nat.sub_eq_zero_of_le hfull, take_zero, append_nil]
      · rw [if_neg hfull]
        cases hwalked : query.walked (inReach roomId request) id with
        | none =>
          rw [prevWalk, walk_cons_none (by rw [hwalked, map_none])]
          exact ih queue seen collected
        | some event =>
          rw [prevWalk, walk_cons_some (by rw [hwalked, map_some]) rfl]
          simp only
          by_cases hroot : id ∈ roots
          · rw [if_pos hroot, filter_cons_of_neg (by simpa using hroot)]
            exact ih _ _ collected
          · rw [if_neg hroot, filter_cons_of_pos (by simpa using hroot), filterMap_cons_some hwalked,
              append_take_cons (not_le.mp hfull)]
            exact ih _ _ (collected ++ [event])

end

lemma held_of_mem_missingEvents {roomId : Str} {request : MissingEventsRequest}
    {policy : FederationQueryPolicy} (hevent : event ∈ query.missingEvents roomId request policy) :
    ∃ eventId, query.store.events.find eventId = some event ∧ event.roomId = roomId := by
  rw [missingEvents, collectMissing_eq] at hevent
  obtain ⟨id, -, hwalked⟩ := mem_filterMap.mp (mem_of_mem_take hevent)
  obtain ⟨hfind, hkeep⟩ := filter_eq_some_iff.mp hwalked
  exact ⟨id, hfind, by simp_all [inReach]⟩

lemma yields_showAll (filter : ServerEventFilter) (events : List PersistentEvent) :
    Yields filter.Coherent (showAll filter events) (events.filterMap filter.shown) := by
  have hfold : ∀ values, events.foldl (fun values event =>
      values ++ (filter.shown event).toList) values = values ++ events.filterMap filter.shown := by
    induction events with
    | nil => simp
    | cons event events ih => cases hshown : filter.shown event <;> simp [ih, hshown]
  rw [← nil_append (events.filterMap _), ← hfold]
  refine .foldlM (fun values event => ?_) events []
  exact (yields_valueFor event).bind (.pure _)

/-- What `/get_missing_events` answers. -/
lemma buildGetMissingEventsResponse_cases (roomId requestBody origin : Str)
    (policy : FederationQueryPolicy) :
    (query.buildGetMissingEventsResponse roomId requestBody origin policy).status ≠ .ok ∧
        (query.buildGetMissingEventsResponse roomId requestBody origin policy).body = [] ∨
      ∃ values, (∀ value ∈ values, query.Released roomId origin value) ∧
        query.buildGetMissingEventsResponse roomId requestBody origin policy =
          ⟨.ok, query.serialize (missingEventsFrame values)⟩ := by
  rw [buildGetMissingEventsResponse]
  by_cases hforbidden : ¬ query.originMayReadRoom roomId origin
  · rw [if_pos hforbidden]
    exact .inl ⟨nofun, rfl⟩
  · rw [if_neg hforbidden]
    cases query.readMissingEventsRequest requestBody policy with
    | none => exact .inl ⟨nofun, rfl⟩
    | some request =>
      simp only [(yields_showAll (query.filterFor origin) _ _ .initial).1]
      split_ifs
      · exact .inl ⟨nofun, rfl⟩
      · refine .inr ⟨_, fun value hvalue => ?_, rfl⟩
        obtain ⟨event, hevent, hshown⟩ := mem_filterMap.mp hvalue
        obtain ⟨eventId, hfind, hroom⟩ := query.held_of_mem_missingEvents (mem_reverse.mp hevent)
        exact ⟨eventId, event, hfind, hroom, releases_of_shown hshown⟩

/-! ### The main result -/

/-- A server sees an event when the state recorded for it allows it, whatever was judged before
in the same request, and what the three answers carry of an event that is not seen is its
redaction. -/
theorem history_disclosure (origin : Str) :
    (origin ≠ [] → (∀ entry ∈ query.store.groups.stateGroupState.rows, 0 ∉ entry.eventType) →
      ∀ event groupId state,
        query.store.eventStateGroups.stateGroupOf event.eventId = some groupId →
        readStateGroupFullState query.store.groups groupId = some state →
        (∀ entry ∈ state, (query.store.events.find entry.eventId).isSome) →
        ∀ questions, (query.filterFor origin).canSeeAfter questions event = true ↔
          (query.filterFor origin).AllowedIn state) ∧
    (∀ questions event, (query.filterFor origin).canSeeAfter questions event =
      (query.filterFor origin).canSeeAfter [] event) ∧
    (∀ eventId localServerName now,
      (query.buildEventResponse eventId localServerName origin now).status ≠ .ok ∧
          (query.buildEventResponse eventId localServerName origin now).body = [] ∨
        ∃ event value, query.store.events.find eventId = some event ∧
          (query.filterFor origin).Releases event value ∧
          query.buildEventResponse eventId localServerName origin now =
            ⟨.ok, query.serialize (eventFrame localServerName now [value])⟩) ∧
    (∀ roomId limit eventIds, ∀ text ∈ query.buildBackfillPdus roomId limit origin eventIds,
      query.ReleasedText roomId origin text) ∧
    ∀ roomId requestBody policy,
      (query.buildGetMissingEventsResponse roomId requestBody origin policy).status ≠ .ok ∧
          (query.buildGetMissingEventsResponse roomId requestBody origin policy).body = [] ∨
        ∃ values, (∀ value ∈ values, query.Released roomId origin value) ∧
          query.buildGetMissingEventsResponse roomId requestBody origin policy =
            ⟨.ok, query.serialize (missingEventsFrame values)⟩ := by
  refine ⟨fun horigin hnul event groupId state hgroup hread hheld questions => ?_,
    fun questions event => ?_, fun eventId localServerName now =>
      query.buildEventResponse_cases eventId localServerName origin now,
    fun roomId limit eventIds text htext => query.released_of_mem_buildBackfillPdus htext,
    fun roomId requestBody policy =>
      query.buildGetMissingEventsResponse_cases roomId requestBody origin policy⟩
  · rw [ServerEventFilter.canSeeAfter_eq]
    have hgroupOf : (query.filterFor origin).groupOf event.eventId = some groupId := hgroup
    exact ServerEventFilter.sees_iff_allowed horigin hgroupOf hread hnul hheld
  · rw [ServerEventFilter.canSeeAfter_eq, ServerEventFilter.canSeeAfter_eq]

/-! ### A room whose history is for the invited -/

open HistoryVisibility in
/-- Queries against the store of a room. -/
def queryOf (store : ReadStore) : EventQuery where
  store := store.toPersistentStore
  parseLossless := parseStored
  formatDouble _ := []
  roomServerAclAllows _ _ := true

open HistoryVisibility in
/-- A room of the given visibility, with the member event of a user and a message. -/
def memberRoom (visibility user membership : Str) : ReadStore :=
  roomStore
    [{ eventId := "$v", roomId := "!r", streamOrdering := 1
       json := eventText historyVisibilityType (some []) "history_visibility" visibility },
     { eventId := "$u", roomId := "!r", streamOrdering := 2
       json := eventText memberType (some user) "membership" membership },
     { eventId := "$m", roomId := "!r", depth := 1, streamOrdering := 3, prevEventIds := ["$u"]
       json := eventText "m.room.message" none "body" "hello" }]
    [⟨"g", historyVisibilityType, [], "$v"⟩, ⟨"g", memberType, user, "$u"⟩] [] ["$m"]

open HistoryVisibility in
/-- The message of `memberRoom`. -/
def memberMessage : PersistentEvent :=
  { eventId := "$m", roomId := "!r", depth := 1, streamOrdering := 3, prevEventIds := ["$u"]
    json := eventText "m.room.message" none "body" "hello" }

/-- A room that shows its history to the invited, with an invited user of `o`. -/
def invitedQuery : EventQuery := queryOf (memberRoom "invited" "@u:o" "invite")

/-- The invited server sees the message. -/
theorem history_disclosure_invited :
    (invitedQuery.filterFor "o").canSeeAfter [.jsonFor memberMessage] memberMessage = true := by
  refine ((history_disclosure invitedQuery "o").1 (by decide) (by decide) memberMessage "g"
    [⟨"g", historyVisibilityType, [], "$v"⟩, ⟨"g", memberType, "@u:o", "$u"⟩]
    (by decide) (by decide) (by decide) _).mpr ?_
  have hvisibility : (invitedQuery.filterFor "o").visibilityIn
      [⟨"g", historyVisibilityType, [], "$v"⟩, ⟨"g", memberType, "@u:o", "$u"⟩] = .invited := by
    decide
  exact .inl ⟨⟨"g", memberType, "@u:o", "$u"⟩, by simp, by decide, by decide⟩

end EventQuery

end Merovingian
