import Merovingian.Sync.StrangerVisibility

/-!
# What a departed user sees

A user who has left a room does not see the events that follow their leave (`canSee_departed`).
Rule 3 compares depths, which whoever creates an event chooses, so a deep join could make later
events look earlier.  The walk from an event back to the leave corrects this: it is cut where an
event was stored before the leave, and stream orderings increase along the graph, so no event on a
path to the leave is cut off.
-/

namespace Merovingian

open List

namespace HistoryVisibility

variable {viewer : HistoryVisibility} {roomId : Str} {leave event : PersistentEvent}

/-- Stream orderings increase along the edges between held events of a room. -/
def OrderingIncreases (viewer : HistoryVisibility) : Prop :=
  ∀ id event prevId prev, viewer.findEvent id = some event → prevId ∈ event.prevEventIds →
    viewer.findEvent prevId = some prev → prev.roomId = event.roomId →
      prev.streamOrdering < event.streamOrdering

/-- The user's current member event in a room is a held leave or ban, and the membership row
agrees with it. -/
structure Departed (viewer : HistoryVisibility) (roomId : Str) (leave : PersistentEvent) : Prop where
  held : viewer.findEvent leave.eventId = some leave
  room : leave.roomId = roomId
  current : (viewer.memberRow roomId).map PersistentStateEvent.eventId = some leave.eventId
  departed : ∃ row, viewer.membershipRow roomId = some row ∧ isDeparture row.membership ∧
    viewer.content leave.eventId "membership" = some row.membership ∧
    row.streamOrdering = leave.streamOrdering

/-- An event descends from another through held events of a room. -/
inductive Descends (viewer : HistoryVisibility) (roomId ancestorId : Str) : PersistentEvent → Prop
  | parent {event : PersistentEvent} : ancestorId ∈ event.prevEventIds →
      Descends viewer roomId ancestorId event
  | ancestor {event prev : PersistentEvent} {id : Str} : id ∈ event.prevEventIds →
      viewer.findEvent id = some prev → prev.roomId = roomId →
      Descends viewer roomId ancestorId prev → Descends viewer roomId ancestorId event

lemma Departed.departureFrom (h : Departed viewer roomId leave) :
    viewer.departureFrom roomId = some ⟨leave.streamOrdering, some leave.eventId⟩ := by
  obtain ⟨row, hrow, hdeparture, hcontent, hordering⟩ := h.departed
  obtain ⟨state, hstate, hid⟩ := Option.map_eq_some_iff.mp h.current
  rw [HistoryVisibility.departureFrom, hrow]
  simp [hdeparture, hordering, hstate, hid, hcontent]

section

variable (hincreases : OrderingIncreases viewer)

include hincreases

/-- A path to the leave is not cut: every event on it was stored after the leave. -/
lemma Descends.path (hleave : viewer.findEvent leave.eventId = some leave)
    (hroomLeave : leave.roomId = roomId) {id : Str}
    (hdescends : Descends viewer roomId leave.eventId event)
    (hheld : viewer.findEvent id = some event) (hroom : event.roomId = roomId) :
    leave.streamOrdering < event.streamOrdering ∧ ∃ first ∈ event.prevEventIds,
      Relation.ReflTransGen
        (Search.Leads (viewer.departureEdges roomId leave.streamOrdering)) first leave.eventId := by
  induction hdescends generalizing id with
  | parent hmem =>
    exact ⟨hincreases _ _ _ _ hheld hmem hleave (hroomLeave.trans hroom.symm), _, hmem, .refl⟩
  | @ancestor event prev prevId hmem hfind hroomPrev _ ih =>
    obtain ⟨hafter, first, hfirst, hpath⟩ := ih hfind hroomPrev
    have hlater := hincreases _ _ _ _ hheld hmem hfind (hroomPrev.trans hroom.symm)
    refine ⟨hafter.trans hlater, prevId, hmem, .head ⟨prev.prevEventIds, ?_, hfirst⟩ hpath⟩
    rw [departureEdges, hfind]
    have hkept : ¬ (prev.roomId ≠ roomId ∨ prev.streamOrdering < leave.streamOrdering) := by
      rintro (hother | hearlier)
      · exact hother hroomPrev
      · omega
    exact if_neg hkept

lemma Departed.mayDescend (h : Departed viewer roomId leave)
    (hheld : viewer.findEvent event.eventId = some event) (hroom : event.roomId = roomId)
    (hdescends : Descends viewer roomId leave.eventId event) :
    viewer.mayDescendFromDeparture event ⟨leave.streamOrdering, some leave.eventId⟩ = true := by
  obtain ⟨hafter, first, hfirst, hpath⟩ := hdescends.path hincreases h.held h.room hheld hroom
  have hother : event.eventId ≠ leave.eventId := by
    intro hsame
    have hevent : leave = event := Option.some.inj (h.held.symm.trans (hsame ▸ hheld))
    rw [hevent] at hafter
    exact lt_irrefl _ hafter
  have hsearch : Search.search (fun id => id = leave.eventId)
      (viewer.departureEdges event.roomId leave.streamOrdering) maxDepartureWalk
      event.prevEventIds.reverse [] ≠ .exhausted := by
    intro hexhausted
    rw [hroom] at hexhausted
    have hgoal := Search.search_exhausted hexhausted (mem_reverse.mpr hfirst) hpath
    exact absurd hgoal (by simp)
  rw [mayDescendFromDeparture, if_neg (Nat.not_lt.mpr hafter.le)]
  simp [if_neg hother, hsearch]

/-- No rule permits such an event to a user who is neither joined nor invited. -/
lemma Departed.permits (h : Departed viewer roomId leave)
    (hheld : viewer.findEvent event.eventId = some event) (hroom : event.roomId = roomId)
    (hdescends : Descends viewer roomId leave.eventId event) {visibility : HistoryVisibilityValue}
    (hvisibility : visibility ≠ .worldReadable) {membership : Str} (hjoin : membership ≠ "join")
    (hinvite : membership ≠ "invite") : viewer.permits visibility membership event = false := by
  have hbefore : viewer.beforeDeparture event = false := by
    rw [beforeDeparture, hroom, h.departureFrom]
    simp [h.mayDescend hincreases hheld hroom hdescends]
  have hjoined : viewer.joinedAfter event = false := by
    rw [joinedAfter]
    cases (viewer.joinsIn event.roomId).1 with
    | none => rfl
    | some joined => simp [hbefore]
  simp [HistoryVisibility.permits, hvisibility, hjoin, hinvite, hjoined]

end

/-- A departed user sees no event that descends from their departure, whatever its depth, however
long the chain, and whatever was asked before. -/
theorem canSee_departed (hincreases : OrderingIncreases viewer)
    (hmatch : TransitionsMatch viewer) (h : Departed viewer roomId leave)
    (hheld : viewer.findEvent event.eventId = some event) (hroom : event.roomId = roomId)
    (hdescends : Descends viewer roomId leave.eventId event) {groupId : Str}
    (hgroup : viewer.stateGroupOf event.eventId = some groupId)
    (hjoin : viewer.recordedMembership groupId ≠ "join")
    (hinvite : viewer.recordedMembership groupId ≠ "invite")
    (hvisibility : viewer.recordedVisibility groupId ≠ .worldReadable)
    (hchange : ¬ viewer.IsStateEvent event historyVisibilityType [])
    (hmember : ¬ viewer.IsStateEvent event memberType viewer.userId)
    (questions : List Question) :
    viewer.canSeeAfter questions event = false := by
  rw [canSeeAfter_eq]
  have hnone : ∀ {eventType stateKey}, ¬ viewer.IsStateEvent event eventType stateKey →
      viewer.transitionOf event eventType stateKey = none := fun hstate =>
    by_contra fun hfound => hstate (hmatch.isStateEvent hheld hfound)
  have hpermits : viewer.permitsAt
      ⟨true, viewer.recordedVisibility groupId, viewer.recordedMembership groupId⟩ event = false := by
    rw [permitsAt, permitsByVisibilityBefore, permitsByMembershipBefore, hnone hchange, hnone hmember,
      h.permits hincreases hheld hroom hdescends hvisibility hjoin hinvite]
    rfl
  by_contra hsaw
  have hallowed := ((sees_of_group hgroup).mp (by simpa using hsaw)).2.2.2
  rw [hpermits] at hallowed
  cases hallowed

/-! ### A departure -/

lemma OrderingIncreases.of_rows (h : ∀ event ∈ viewer.store.events.rows,
    ∀ prevId ∈ event.prevEventIds, ∀ prev ∈ viewer.store.events.rows,
      viewer.findEvent prevId = some prev → prev.roomId = event.roomId →
        prev.streamOrdering < event.streamOrdering) : OrderingIncreases viewer :=
  fun _ _ _ _ hevent hmem hprev => h _ (EventTable.mem_rows_of_find hevent) _ hmem _
    (EventTable.mem_rows_of_find hprev) hprev

/-- A message that is sent after the join. -/
def laterMessage (eventId : Str) (prevEventIds : List Str) (streamOrdering : ℕ) :
    PersistentEvent :=
  { eventId := eventId, roomId := "!r", depth := 3, streamOrdering := streamOrdering
    prevEventIds := prevEventIds, json := eventText "m.room.message" none "body" "hello" }

/-- The leave of `@s:x`. -/
def leaveEvent : PersistentEvent :=
  { eventId := "$l", roomId := "!r", depth := 1, streamOrdering := 2, prevEventIds := ["$j"]
    json := eventText memberType (some "@s:x") "membership" "leave" }

/-- After a join that claims to be deep, two messages follow the leave, and one does not. -/
def leftRequests : HistoryVisibility :=
  requestsOf "@s:x" { roomStore
      [{ eventId := "$j", roomId := "!r", depth := 100, streamOrdering := 1
         json := eventText memberType (some "@s:x") "membership" "join" }, leaveEvent,
        laterMessage "$m" ["$l"] 3, laterMessage "$n" ["$m"] 4, laterMessage "$c" ["$j"] 5]
      [⟨"g", memberType, "@s:x", "$l"⟩, ⟨"h", memberType, "@s:x", "$j"⟩]
      [(⟨"!r", memberType, "@s:x", "$j"⟩, []), (⟨"!r", memberType, "@s:x", "$l"⟩, "$j")]
      ["$m", "$n", "$c"] with
    state := StateTable.empty.assign ⟨"!r", memberType, "@s:x", "$l"⟩
    memberships := [⟨"!r", "@s:x", "leave", 2⟩] }

/-- The join makes the message beside the leave visible, and those after the leave stay hidden. -/
theorem canSee_departed_leftRoom :
    leftRequests.canSeeAfter [] (laterMessage "$c" ["$j"] 5) = true ∧
      leftRequests.canSeeAfter [.canSee (laterMessage "$c" ["$j"] 5)]
        (laterMessage "$n" ["$m"] 4) = false := by
  have hincreases : OrderingIncreases leftRequests := .of_rows (by decide)
  have hmatch : TransitionsMatch leftRequests :=
    ⟨((StateTransitionTable.Keyed.push (fun _ _ h => absurd h (by simp)) _ _).push _ _),
      by unfold NulFreeSlot; decide, by decide⟩
  have hdeparted : Departed leftRequests "!r" leaveEvent :=
    ⟨by decide, rfl, by decide, ⟨"!r", "@s:x", "leave", 2⟩, by decide,
      by decide, by decide, rfl⟩
  have hparent : leftRequests.findEvent "$m" = some (laterMessage "$m" ["$l"] 3) := by
    decide
  have hdescends : Descends leftRequests "!r" leaveEvent.eventId (laterMessage "$n" ["$m"] 4) :=
    .ancestor mem_cons_self hparent rfl (.parent mem_cons_self)
  have hgroup : leftRequests.stateGroupOf (laterMessage "$n" ["$m"] 4).eventId = some (lit "g") := by
    decide
  exact ⟨by decide, canSee_departed hincreases hmatch hdeparted (by decide) rfl hdescends
    hgroup (by decide) (by decide) (by decide) (by decide)
    (by decide) _⟩

end HistoryVisibility

end Merovingian
