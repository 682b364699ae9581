import Merovingian.Database.StateHistory
import Merovingian.Json.ParserRoundTrip
import Merovingian.Sync.VisibilityRule

/-!
# What a stranger sees

A user whom a room has never seen sees the events of the room that are world readable, and no
others (`canSee_stranger`).  Whether they have a member event of their own is decided by
`find_state_transition`, whose index joins room, type, state key and event with NULs.  No backend
stores a NUL and a transition is written only for an event that it matches, so that the row which
is found is about the event and the slot that were asked for (`TransitionsMatch.isStateEvent`).
-/

namespace Merovingian

open List

namespace HistoryVisibility

variable {viewer : HistoryVisibility} {roomId : Str}

/-- An event is a state event of a type and a state key. -/
abbrev IsStateEvent (viewer : HistoryVisibility) (event : PersistentEvent)
    (eventType stateKey : Str) : Prop :=
  topLevelJsonStringField viewer.parseLossless event.json "type" = some eventType ∧
    topLevelJsonStringField viewer.parseLossless event.json "state_key" = some stateKey

/-- What the writes of transitions leave: every row stands under its own key, holds no NUL
(`PreparedStatement` refuses them) and is of a held event that it matches (`state_matches_event`). -/
structure TransitionsMatch (viewer : HistoryVisibility) : Prop where
  keyed : viewer.store.stateTransitions.Keyed
  nulFree : ∀ row ∈ viewer.store.stateTransitions.rows, NulFreeSlot row.slot ∧ 0 ∉ row.eventId
  held : ∀ row ∈ viewer.store.stateTransitions.rows, (viewer.findEvent row.eventId).any fun event =>
    viewer.IsStateEvent event row.eventType row.stateKey

lemma TransitionsMatch.isStateEvent (h : TransitionsMatch viewer) {event : PersistentEvent}
    (hheld : viewer.findEvent event.eventId = some event) {eventType stateKey : Str}
    (hfound : viewer.transitionOf event eventType stateKey ≠ none) :
    viewer.IsStateEvent event eventType stateKey := by
  obtain ⟨row, hrow⟩ := Option.ne_none_iff_exists'.mp hfound
  obtain ⟨hmem, hkey⟩ := h.keyed.of_find hrow
  obtain ⟨hslot, hid⟩ := h.nulFree row hmem
  obtain ⟨hsame, hevent⟩ := stateTransitionIndexKey_inj_left hslot hid hkey
  obtain ⟨other, hother, hstate⟩ := (Option.any_eq_true _ _).mp (h.held row hmem)
  obtain rfl : event = other := Option.some.inj (hheld.symm.trans (hevent ▸ hother))
  obtain ⟨-, rfl, rfl⟩ : _ ∧ row.eventType = eventType ∧ row.stateKey = stateKey := by
    simpa [PersistentStateTransition.slot] using hsame
  exact of_decide_eq_true hstate

/-- The room has no member event of the user. -/
structure Stranger (viewer : HistoryVisibility) (roomId : Str) : Prop where
  /-- No held event of the room is one. -/
  event : ∀ id event, viewer.findEvent id = some event → event.roomId = roomId →
    isMembershipOf viewer.parseLossless event.json viewer.userId = false ∧
      ¬ viewer.IsStateEvent event memberType viewer.userId
  /-- No entry of a state group names an event of the room as one. -/
  named : ∀ entry ∈ viewer.store.groups.stateGroupState.rows,
    entry.slot = (memberType, viewer.userId) →
      ∀ event, viewer.findEvent entry.eventId = some event → event.roomId ≠ roomId
  /-- No state that is recorded for an event of the room has one. -/
  recorded : ∀ id event groupId, viewer.findEvent id = some event → event.roomId = roomId →
    viewer.stateGroupOf id = some groupId →
      ∀ eventId, viewer.lookupInGroup groupId memberType viewer.userId ≠ .found eventId
  /-- No row of the current state is one. -/
  current : ∀ row ∈ viewer.store.state.rows, row.slot ≠ (roomId, memberType, viewer.userId)

namespace Stranger

section

variable (h : Stranger viewer roomId) {event : PersistentEvent}

include h

lemma memberRow : viewer.memberRow roomId = none :=
  lookupBy_eq_none.mpr h.current

/-- No candidate for a join is an event of the room. -/
lemma candidate {candidate : Str} (hmem : candidate ∈ viewer.joinCandidates roomId)
    (hfind : viewer.findEvent candidate = some event) : event.roomId ≠ roomId := by
  simp only [joinCandidates, Finset.mem_union, mem_toFinset, mem_map, mem_filter,
    Bool.and_eq_true, decide_eq_true_eq] at hmem
  rcases hmem with ⟨entry, ⟨hrow, htype, hkey⟩, rfl⟩ | ⟨row, ⟨hrow, hslot⟩, -⟩
  · exact h.named entry hrow (by rw [StateGroupEntry.slot, htype, hkey]) event hfind
  · exact absurd hslot (h.current row hrow)

/-- The user has no join in the room. -/
lemma joinsIn : viewer.joinsIn roomId = (none, []) := by
  have hfold : ∀ candidates : List Str, (∀ c ∈ candidates, c ∈ viewer.joinCandidates roomId) →
      candidates.foldl (viewer.addJoin roomId) (none, []) = (none, []) := by
    intro candidates hmem
    induction candidates with
    | nil => rfl
    | cons c candidates ih =>
      have hstep : viewer.addJoin roomId (none, []) c = (none, []) := by
        rw [addJoin]
        cases hfind : viewer.findEvent c with
        | none => rfl
        | some event => exact if_pos (.inl (h.candidate (hmem c mem_cons_self) hfind))
      rw [foldl_cons, hstep]
      exact ih fun c' hc' => hmem c' (mem_cons_of_mem _ hc')
  exact hfold _ fun c hc => (viewer.order.mem _ _ _).mp hc

/-- The user's timeline is empty, so no event was stored while they were in the room. -/
lemma wasJoined (hroom : event.roomId = roomId) : viewer.wasJoined event = false := by
  have hsteps : viewer.stepsFrom roomId maxChain [] [] = some [] := by
    rw [stepsFrom, if_pos rfl]
  have hline : viewer.timelineOf roomId = some [] := by
    rw [timelineOf, h.memberRow, Option.map_none, Option.getD_none, hsteps]
    rfl
  have hnone : latestMembership [] event.streamOrdering [] ≠ lit "join" :=
    show ([] : Str) ≠ lit "join" by decide
  rw [HistoryVisibility.wasJoined, hroom, hline]
  simpa using hnone

lemma permits (hroom : event.roomId = roomId) (visibility : HistoryVisibilityValue) :
    viewer.permits visibility [] event = true ↔ visibility = .worldReadable := by
  have hjoined : viewer.joinedAfter event = false := by
    rw [joinedAfter, hroom, h.joinsIn]
  have hjoin : ([] : Str) ≠ lit "join" := by decide
  have hinvite : ([] : Str) ≠ lit "invite" := by decide
  cases visibility <;> simp [HistoryVisibility.permits, hjoined, hjoin, hinvite]

lemma recordedMembership (hheld : viewer.findEvent event.eventId = some event)
    (hroom : event.roomId = roomId) {groupId : Str}
    (hgroup : viewer.stateGroupOf event.eventId = some groupId) :
    viewer.recordedMembership groupId = [] := by
  rw [HistoryVisibility.recordedMembership]
  cases hlookup : viewer.lookupInGroup groupId memberType viewer.userId with
  | found eventId => exact absurd hlookup (h.recorded _ _ _ hheld hroom hgroup eventId)
  | absent => rfl
  | broken => rfl

end

end Stranger

/-- An event was world readable before it, being a visibility event. -/
def WorldReadableBefore (viewer : HistoryVisibility) (event : PersistentEvent) : Prop :=
  ∃ transition previous, viewer.transitionOf event historyVisibilityType [] = some transition ∧
    transition.previous = some previous ∧ (viewer.findEvent previous).isSome ∧
    viewer.visibilitySetBy previous = .worldReadable

lemma Stranger.permitsByVisibilityBefore (h : Stranger viewer roomId) {event : PersistentEvent}
    (hroom : event.roomId = roomId) (view : GroupView) (hview : view.membership = []) :
    viewer.permitsByVisibilityBefore view event = true ↔ WorldReadableBefore viewer event := by
  rw [HistoryVisibility.permitsByVisibilityBefore, WorldReadableBefore, hview]
  cases viewer.transitionOf event historyVisibilityType [] with
  | none => simp
  | some transition =>
    by_cases hfirst : transition.previousEventId = []
    · have hshared := (h.permits hroom .shared).not.mpr (by simp)
      simp [hfirst, hshared, PersistentStateTransition.previous]
    · have hprevious : transition.previous = some transition.previousEventId := if_neg hfirst
      cases hfind : viewer.findEvent transition.previousEventId with
      | none => simp [hfirst, hfind, hprevious]
      | some event' => simp [hfirst, hfind, hprevious, h.permits hroom]

/-- What an event must satisfy for someone the room has never seen. -/
structure SeenByAnyone (viewer : HistoryVisibility) (event : PersistentEvent) : Prop where
  notWithheld : eventIsWithheld event = false
  notWithheldRedaction : viewer.store.redactionIsWithheld event.eventId = false
  worldReadable : ∃ groupId, viewer.stateGroupOf event.eventId = some groupId ∧
    viewer.GroupReadable groupId ∧
    (viewer.recordedVisibility groupId = .worldReadable ∨ WorldReadableBefore viewer event)

/-- A stranger sees exactly the world-readable history, whatever was asked before. -/
theorem canSee_stranger (hmatch : TransitionsMatch viewer) (h : Stranger viewer roomId)
    {event : PersistentEvent} (hheld : viewer.findEvent event.eventId = some event)
    (hroom : event.roomId = roomId) (questions : List Question) :
    viewer.canSeeAfter questions event = true ↔ SeenByAnyone viewer event := by
  have htransition : viewer.transitionOf event memberType viewer.userId = none := by
    by_contra hfound
    exact (h.event _ _ hheld hroom).2 (hmatch.isStateEvent hheld hfound)
  rw [canSeeAfter_eq]
  cases hgroup : viewer.stateGroupOf event.eventId with
  | none =>
    -- without a recorded state there is only the user's own history
    have hmember := (h.event _ _ hheld hroom).1
    have hsees : viewer.sees event = false := by
      rw [sees, hgroup]
      simp [hmember, h.wasJoined hroom]
    constructor
    · intro hsaw
      rw [hsees] at hsaw
      cases hsaw
    · rintro ⟨-, -, groupId, hsome, -⟩
      rw [hgroup] at hsome
      cases hsome
  | some groupId =>
    have hmembership := h.recordedMembership hheld hroom hgroup
    have hbefore : ∀ view, viewer.permitsByMembershipBefore view event = false := by
      intro view
      rw [permitsByMembershipBefore, htransition]
    have hpermits : viewer.permitsAt ⟨true, viewer.recordedVisibility groupId, []⟩ event = true ↔
        viewer.recordedVisibility groupId = .worldReadable ∨ WorldReadableBefore viewer event := by
      have hvisibility := h.permitsByVisibilityBefore hroom
        ⟨true, viewer.recordedVisibility groupId, []⟩ rfl
      rw [permitsAt, ← h.permits hroom, ← hvisibility, hbefore]
      simp
    rw [sees_of_group hgroup, hmembership, hpermits]
    constructor
    · rintro ⟨hstatus, hredaction, hreadable, hwhich⟩
      exact ⟨hstatus, hredaction, groupId, hgroup, hreadable, hwhich⟩
    · rintro ⟨hstatus, hredaction, groupId', hgroup', hreadable, hwhich⟩
      obtain rfl : groupId = groupId' := Option.some.inj (hgroup.symm.trans hgroup')
      exact ⟨hstatus, hredaction, hreadable, hwhich⟩

/-! ### A world-readable room -/

lemma mem_rows_of_stateGroupOf {id groupId : Str} (h : viewer.stateGroupOf id = some groupId) :
    groupId ∈ viewer.store.eventStateGroups.rows.map PersistentEventStateGroup.stateGroupId := by
  obtain ⟨position, -, hrow⟩ := Option.bind_eq_some_iff.mp h
  obtain ⟨row, hsome, rfl⟩ := Option.map_eq_some_iff.mp hrow
  exact mem_map_of_mem (mem_of_getElem? hsome)

/-- Conditions on the rows under which the user is in no event, entry or row at all. -/
lemma Stranger.of_rows (hevent : ∀ event ∈ viewer.store.events.rows,
      isMembershipOf viewer.parseLossless event.json viewer.userId = false ∧
        ¬ viewer.IsStateEvent event memberType viewer.userId)
    (hentry : ∀ entry ∈ viewer.store.groups.stateGroupState.rows,
      entry.slot ≠ (memberType, viewer.userId)) (hgroup : ∀ groupId ∈
      viewer.store.eventStateGroups.rows.map PersistentEventStateGroup.stateGroupId,
        viewer.lookupInGroup groupId memberType viewer.userId = .absent)
    (hrow : ∀ row ∈ viewer.store.state.rows, row.slot ≠ (roomId, memberType, viewer.userId)) :
    Stranger viewer roomId where
  event _ _ hfind _ := hevent _ (EventTable.mem_rows_of_find hfind)
  named entry hmem hslot := absurd hslot (hentry entry hmem)
  recorded _ _ _ _ _ hsome eventId hfound := by
    rw [hgroup _ (mem_rows_of_stateGroupOf hsome)] at hfound
    cases hfound
  current := hrow

/-- A parser of stored events. -/
def parseStored (text : Str) : Option Value := (Merovingian.parseLossless grammarYyjson text).toOption

/-- The text of an event of a type, with one string in its content. -/
def eventText (eventType : Str) (stateKey : Option Str) (key value : Str) : Str :=
  let state : Object := (stateKey.map fun stateKey => (lit "state_key", .str stateKey)).toList
  let event : Object := ("content", .obj [(key, .str value)]) :: ("type", .str eventType) :: state
  match serializeCanonicalStrict (.obj event) with
  | .ok text => text
  | .error _ => []

/-- A store with events, state groups of events and transitions, and one group whose entries are
given. -/
def roomStore (events : List PersistentEvent) (entries : List StateGroupEntry)
    (transitions : List (PersistentStateEvent × Str)) (grouped : List Str) : ReadStore where
  events := events.foldl (fun table event => (table.insert parseStored event).2) .empty
  state := .empty
  stateTransitions := transitions.foldl (fun table row => table.push row.1 row.2) {}
  groups :=
    { stateGroups := StateGroupTable.empty.insert ⟨"g", "!r", none, 0⟩
      stateGroupState := StateGroupEntryTable.empty.insertAll entries }
  eventStateGroups := grouped.foldl (fun table id => table.assign id "g") .empty
  forwardExtremities := []
  nextSyncStreamId := 0
  memberships := []
  withheldRedactions := ∅

/-- A user's requests against a store. -/
def requestsOf (userId : Str) (store : ReadStore) : HistoryVisibility where
  store := store
  userId := userId
  parseLossless := parseStored
  order := .sorted

/-- A visibility event, and a message after it. -/
def openRoom : ReadStore :=
  roomStore
    [{ eventId := "$v", roomId := "!r", streamOrdering := 1
       json := eventText historyVisibilityType (some []) "history_visibility" "world_readable" },
     { eventId := "$m", roomId := "!r", depth := 1, streamOrdering := 2, prevEventIds := ["$v"]
       json := eventText "m.room.message" none "body" "hello" }]
    [⟨"g", historyVisibilityType, [], "$v"⟩] [(⟨"!r", historyVisibilityType, [], "$v"⟩, [])] ["$m"]

/-- The message of `openRoom`. -/
def openMessage : PersistentEvent :=
  { eventId := "$m", roomId := "!r", depth := 1, streamOrdering := 2, prevEventIds := ["$v"]
    json := eventText "m.room.message" none "body" "hello" }

/-- A stranger reads a room that is world readable. -/
theorem canSee_stranger_openRoom :
    (requestsOf "@s:x" openRoom).canSeeAfter [.canSeeEventId "$v"] openMessage = true ∧
      SeenByAnyone (requestsOf "@s:x" openRoom) openMessage := by
  have hmatch : TransitionsMatch (requestsOf "@s:x" openRoom) :=
    ⟨StateTransitionTable.Keyed.push (fun _ _ h => absurd h (by simp)) _ _,
      by unfold NulFreeSlot; decide, by decide⟩
  have hstranger : Stranger (requestsOf "@s:x" openRoom) "!r" :=
    .of_rows (by decide) (by decide) (by decide) (by decide)
  have hsaw : (requestsOf "@s:x" openRoom).canSeeAfter [.canSeeEventId "$v"] openMessage = true := by
    decide
  exact ⟨hsaw, (canSee_stranger hmatch hstranger (by decide) rfl _).mp hsaw⟩

end HistoryVisibility

end Merovingian
