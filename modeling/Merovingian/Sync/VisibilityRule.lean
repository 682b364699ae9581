import Merovingian.Sync.HistoryVisibility

/-!
# The visibility rule

What `HistoryVisibility` decides, without the tables it keeps: each method as a function of the
store and the user alone.  The tables are transparent.  `Coherent` says that they hold nothing but
values of these functions, every method keeps it, and so the answer to a question does not depend
on what was asked before (`canSeeAfter_eq`).
-/

namespace Merovingian

namespace HistoryVisibility

open Caches List

variable (viewer : HistoryVisibility)

/-! ### The rule -/

/-- The string at a key of the content of a held event. -/
def content (eventId key : Str) : Option Str :=
  (viewer.findEvent eventId).bind fun event => contentStringOf viewer.parseLossless event.json key

/-- The visibility that an event sets. -/
def visibilitySetBy (eventId : Str) : HistoryVisibilityValue :=
  ((viewer.content eventId "history_visibility").map parseHistoryVisibility).getD .shared

/-- The membership that an event sets. -/
def membershipSetBy (eventId : Str) : Str := (viewer.content eventId "membership").getD []

/-- A view of a group's state with the visibility only. -/
def visibilityPart : GroupLookup → GroupView
  | .found eventId =>
    if (viewer.findEvent eventId).isNone then { valid := false }
    else { valid := true, visibility := viewer.visibilitySetBy eventId }
  | _ => { valid := true }

/-- A view of a group's state with the membership added. -/
def membershipPart (view : GroupView) : GroupLookup → GroupView
  | .found eventId =>
    if !view.valid then view
    else if (viewer.findEvent eventId).isNone then { view with valid := false }
    else { view with membership := viewer.membershipSetBy eventId }
  | _ => view

/-- What a group's state says about the visibility and about the user. -/
def groupView (groupId : Str) : GroupView :=
  if viewer.lookupInGroup groupId historyVisibilityType [] ≠ .broken ∧
      viewer.lookupInGroup groupId memberType viewer.userId ≠ .broken then
    viewer.membershipPart
      (viewer.visibilityPart (viewer.lookupInGroup groupId historyVisibilityType []))
      (viewer.lookupInGroup groupId memberType viewer.userId)
  else {}

/-- The newest joins with one more candidate. -/
def addJoin (roomId : Str) (newest : Option ℕ × List Str) (candidate : Str) :
    Option ℕ × List Str :=
  match viewer.findEvent candidate with
  | none => newest
  | some event =>
    if event.roomId ≠ roomId ∨ eventIsWithheld event then newest
    else if viewer.content candidate "membership" = some "join" then
      newestJoin newest event.depth candidate
    else newest

/-- The depth of the user's newest joins, and the joins. -/
def joinsIn (roomId : Str) : Option ℕ × List Str :=
  (viewer.order.order () (viewer.joinCandidates roomId)).foldl (viewer.addJoin roomId) (none, [])

/-- The events of the joins' own depth that the joins descend from, as far as the walk goes. -/
def joinAncestorsIn (roomId : Str) : List Str :=
  viewer.ancestorsFrom roomId ((viewer.joinsIn roomId).1.getD 0) maxJoinAncestorWalk
    (viewer.joinPredecessors (viewer.joinsIn roomId).2) []

/-- The user's departure from a room. -/
def departureFrom (roomId : Str) : Option Departure :=
  match viewer.membershipRow roomId with
  | none => none
  | some row =>
    if !isDeparture row.membership then none
    else some
      { ordering := row.streamOrdering
        eventId := (viewer.memberRow roomId).bind fun state =>
          if (viewer.content state.eventId "membership").any isDeparture then some state.eventId
          else none }

/-- The steps of a member event. -/
def stepsOf (event : PersistentEvent) (eventId : Str) : Option (List MembershipStep) :=
  if eventIsWithheld event then some []
  else (viewer.content eventId "membership").map fun membership =>
    [⟨event.streamOrdering, membership⟩]

/-- The user's member events of a room, from one of them back. -/
def stepsFrom (roomId : Str) : (remaining : ℕ) → (current : Str) →
    (timeline : List MembershipStep) → Option (List MembershipStep)
  | remaining, current, timeline =>
    if current = [] then some timeline
    else
      match viewer.findEvent current with
      | none => none
      | some event =>
        match remaining with
        | 0 => none
        | remaining + 1 =>
          if event.roomId ≠ roomId then none
          else
            match viewer.stepsOf event current with
            | none => none
            | some steps =>
              match viewer.store.stateTransitions.find (roomId, memberType, viewer.userId)
                current with
              | none => some (timeline ++ steps)
              | some transition =>
                stepsFrom roomId remaining transition.previousEventId (timeline ++ steps)

/-- The user's membership over time. -/
def timelineOf (roomId : Str) : Option (List MembershipStep) :=
  (viewer.stepsFrom roomId maxChain
    (((viewer.memberRow roomId).map PersistentStateEvent.eventId).getD []) []).map sortSteps

/-- The user had joined when an event was stored. -/
def wasJoined (event : PersistentEvent) : Bool :=
  (viewer.timelineOf event.roomId).any fun timeline =>
    latestMembership timeline event.streamOrdering [] = lit "join"

/-- An event cannot descend from the user's departure. -/
def beforeDeparture (event : PersistentEvent) : Bool :=
  match viewer.departureFrom event.roomId with
  | none => true
  | some departure => !viewer.mayDescendFromDeparture event departure

/-- The user joined the room after an event, and the event does not follow their departure. -/
def joinedAfter (event : PersistentEvent) : Bool :=
  match (viewer.joinsIn event.roomId).1 with
  | none => false
  | some joined =>
    if joined < event.depth then false
    else if joined = event.depth then
      if event.eventId ∉ viewer.joinAncestorsIn event.roomId then false
      else viewer.beforeDeparture event
    else viewer.beforeDeparture event

/-- The five rules. -/
def permits (visibility : HistoryVisibilityValue) (membership : Str) (event : PersistentEvent) :
    Bool :=
  if visibility = .worldReadable then true
  else if membership = "join" then true
  else if visibility = .shared then viewer.joinedAfter event
  else membership = lit "invite" && visibility = .invited

/-- The visibility before an event that changed it permits the event. -/
def permitsByVisibilityBefore (view : GroupView) (event : PersistentEvent) : Bool :=
  match viewer.transitionOf event historyVisibilityType [] with
  | none => false
  | some transition =>
    if transition.previousEventId = [] then viewer.permits .shared view.membership event
    else if (viewer.findEvent transition.previousEventId).isNone then false
    else viewer.permits (viewer.visibilitySetBy transition.previousEventId) view.membership event

/-- The membership before a member event of the user permits the event. -/
def permitsByMembershipBefore (view : GroupView) (event : PersistentEvent) : Bool :=
  match viewer.transitionOf event memberType viewer.userId with
  | none => false
  | some transition =>
    if transition.previousEventId = [] then viewer.permits view.visibility [] event
    else if (viewer.findEvent transition.previousEventId).isNone then false
    else viewer.permits view.visibility (viewer.membershipSetBy transition.previousEventId) event

/-- The state recorded for an event permits it. -/
def permitsAt (view : GroupView) (event : PersistentEvent) : Bool :=
  if viewer.permits view.visibility view.membership event then true
  else if viewer.permitsByVisibilityBefore view event then true
  else viewer.permitsByMembershipBefore view event

/-- The user may see an event. -/
def sees (event : PersistentEvent) : Bool :=
  if eventIsWithheld event then false
  else if viewer.store.redactionIsWithheld event.eventId then false
  else
    match viewer.stateGroupOf event.eventId with
    | none =>
      if event.status = "outlier" ∧ isMembershipOf viewer.parseLossless event.json viewer.userId then
        true
      else if event.status = "outlier" then false
      else viewer.wasJoined event
    | some groupId =>
      if !(viewer.groupView groupId).valid then false
      else viewer.permitsAt (viewer.groupView groupId) event

/-! ### Coherent tables -/

/-- The tables hold values of the rule's functions. -/
structure Coherent (caches : Caches) : Prop where
  groupViews : ∀ groupId view, caches.groupViews groupId = some view →
    view = viewer.groupView groupId
  contentCache : ∀ eventId key value, 0 ∉ key →
    caches.contentCache (contentCacheKey eventId key) = some value → value = viewer.content eventId key
  joins : ∀ roomId newest, caches.joins roomId = some newest → newest = viewer.joinsIn roomId
  joinAncestors : ∀ roomId ancestors, caches.joinAncestors roomId = some ancestors →
    ancestors = viewer.joinAncestorsIn roomId
  departures : ∀ roomId departure, caches.departures roomId = some departure →
    departure = viewer.departureFrom roomId
  membershipTimelines : ∀ roomId timeline, caches.membershipTimelines roomId = some timeline →
    timeline = viewer.timelineOf roomId

variable {viewer} (roomId : Str) (view : GroupView) (event : PersistentEvent)
  (result : GroupLookup)

lemma Coherent.initial : viewer.Coherent {} := by
  constructor <;> · intros; contradiction

lemma contentCacheKey_inj {eventId eventId' key key' : Str} (hkey : 0 ∉ key) (hkey' : 0 ∉ key')
    (h : contentCacheKey eventId key = contentCacheKey eventId' key') :
    eventId = eventId' ∧ key = key' := by
  -- the last NUL is the first of the reversed text
  have hrev := congrArg List.reverse h
  simp only [contentCacheKey, reverse_append, reverse_cons, append_assoc] at hrev
  obtain ⟨h1, h2⟩ := append_nul_inj (by simpa using hkey) (by simpa using hkey') hrev
  exact ⟨reverse_injective h2, reverse_injective h1⟩

/-! ### Every method keeps the tables coherent -/

lemma yields_contentString (eventId key : Str) (hkey : 0 ∉ key) :
    Yields viewer.Coherent (viewer.contentString eventId key) (viewer.content eventId key) := by
  refine .memo (.pure _) (fun caches value h hheld => h.contentCache _ _ _ hkey hheld)
    fun caches h => { h with contentCache := fun eventId' key' value hkey' hheld => ?_ }
  rcases emplaceIn_eq_some hheld with hheld | ⟨hsame, rfl⟩
  · exact h.contentCache _ _ _ hkey' hheld
  · obtain ⟨rfl, rfl⟩ := contentCacheKey_inj hkey' hkey hsame
    rfl

lemma yields_visibilityView :
    Yields viewer.Coherent (viewer.visibilityView result) (viewer.visibilityPart result) := by
  cases result with
  | absent | broken => exact .pure _
  | found eventId =>
    refine .ite (fun _ => .pure _) fun _ => ?_
    exact (yields_contentString eventId "history_visibility" (by decide)).bind (.pure _)

lemma yields_membershipView :
    Yields viewer.Coherent (viewer.membershipView view result) (viewer.membershipPart view result) := by
  cases result with
  | absent | broken => exact .pure _
  | found eventId =>
    refine .ite (fun _ => .pure _) fun _ => .ite (fun _ => .pure _) fun _ => ?_
    exact (yields_contentString eventId "membership" (by decide)).bind (.pure _)

lemma yields_viewOfGroup (groupId : Str) :
    Yields viewer.Coherent (viewer.viewOfGroup groupId) (viewer.groupView groupId) := by
  refine .memo (.ite (fun _ => ?_) fun _ => .pure _)
    (fun caches view h hheld => h.groupViews _ _ hheld)
    fun caches h => { h with groupViews := forall_emplaceIn h.groupViews }
  exact (yields_visibilityView _).bind (yields_membershipView _ _)

lemma yields_joinStep (newest : Option ℕ × List Str) (candidate : Str) :
    Yields viewer.Coherent (viewer.joinStep roomId newest candidate)
      (viewer.addJoin roomId newest candidate) := by
  rw [joinStep, addJoin]
  cases viewer.findEvent candidate with
  | none => exact .pure _
  | some event =>
    refine .ite (fun _ => .pure _) fun _ => ?_
    exact (yields_contentString candidate "membership" (by decide)).bind (.pure _)

lemma yields_newestJoins :
    Yields viewer.Coherent (viewer.newestJoins roomId) (viewer.joinsIn roomId) := by
  exact .memo (.foldlM (fun newest candidate => yields_joinStep roomId newest candidate) _ _)
    (fun caches newest h hheld => h.joins _ _ hheld)
    fun caches h => { h with joins := forall_emplaceIn h.joins }

lemma yields_ancestorsOfNewestJoins :
    Yields viewer.Coherent (viewer.ancestorsOfNewestJoins roomId)
      (viewer.joinAncestorsIn roomId) := by
  exact .memo ((yields_newestJoins roomId).bind (.pure _))
    (fun caches ancestors h hheld => h.joinAncestors _ _ hheld)
    fun caches h => { h with joinAncestors := forall_emplaceIn h.joinAncestors }

lemma yields_departureOf :
    Yields viewer.Coherent (viewer.departureOf roomId) (viewer.departureFrom roomId) := by
  refine .memo ?_ (fun caches departure h hheld => h.departures _ _ hheld)
    fun caches h => { h with departures := forall_emplaceIn h.departures }
  rw [departureFrom]
  cases viewer.membershipRow roomId with
  | none => exact .pure _
  | some row =>
    refine .ite (fun _ => .pure _) fun _ => ?_
    cases viewer.memberRow roomId with
    | none => exact .pure _
    | some state =>
      exact (yields_contentString state.eventId "membership" (by decide)).bind (.pure _)

lemma yields_timelineStep (eventId : Str) :
    Yields viewer.Coherent (viewer.timelineStep event eventId) (viewer.stepsOf event eventId) :=
  .ite (fun _ => .pure _) fun _ =>
    (yields_contentString eventId "membership" (by decide)).bind (.pure _)

/-- The induction is on the number of events that may still be visited. -/
lemma yields_timelineFrom (remaining : ℕ) (current : Str) (timeline : List MembershipStep) :
    Yields viewer.Coherent (viewer.timelineFrom roomId remaining current timeline)
      (viewer.stepsFrom roomId remaining current timeline) := by
  induction remaining generalizing current timeline with
  | zero =>
    rw [timelineFrom, stepsFrom]
    refine .ite (fun _ => .pure _) fun _ => ?_
    cases viewer.findEvent current <;> exact .pure _
  | succ remaining ih =>
    rw [timelineFrom, stepsFrom]
    refine .ite (fun _ => .pure _) fun _ => ?_
    cases viewer.findEvent current with
    | none => exact .pure _
    | some event =>
      refine .ite (fun _ => .pure _) fun _ => (yields_timelineStep event current).bind ?_
      cases viewer.stepsOf event current with
      | none => exact .pure _
      | some steps =>
        cases viewer.store.stateTransitions.find (roomId, memberType, viewer.userId) current with
        | none => exact .pure _
        | some transition => exact ih _ _

lemma yields_membershipTimeline :
    Yields viewer.Coherent (viewer.membershipTimeline roomId) (viewer.timelineOf roomId) := by
  exact .memo ((yields_timelineFrom roomId _ _ _).bind (.pure _))
    (fun caches timeline h hheld => h.membershipTimelines _ _ hheld)
    fun caches h => { h with membershipTimelines := forall_emplaceIn h.membershipTimelines }

lemma yields_joinedWhenSent :
    Yields viewer.Coherent (viewer.joinedWhenSent event) (viewer.wasJoined event) := by
  refine (yields_membershipTimeline event.roomId).bind ?_
  rw [wasJoined]
  cases viewer.timelineOf event.roomId <;> exact .pure _

lemma yields_precedesDeparture :
    Yields viewer.Coherent (viewer.precedesDeparture event) (viewer.beforeDeparture event) := by
  refine (yields_departureOf event.roomId).bind ?_
  rw [beforeDeparture]
  cases viewer.departureFrom event.roomId <;> exact .pure _

lemma yields_allows (visibility : HistoryVisibilityValue) (membership : Str)
    (event : PersistentEvent) :
    Yields viewer.Coherent (viewer.allows visibility membership event)
      (viewer.permits visibility membership event) := by
  refine .ite (fun _ => .pure _) fun _ => .ite (fun _ => .pure _) fun _ =>
    .ite (fun _ => ?_) fun _ => .pure _
  refine (yields_newestJoins event.roomId).bind ?_
  rw [joinedAfter]
  cases (viewer.joinsIn event.roomId).1 with
  | none => exact .pure _
  | some joined =>
    refine .ite (fun _ => .pure _) fun _ =>
      .ite (fun _ => ?_) fun _ => yields_precedesDeparture event
    exact (yields_ancestorsOfNewestJoins event.roomId).bind
      (.ite (fun _ => .pure _) fun _ => yields_precedesDeparture event)

lemma yields_allowedByVisibilityBefore :
    Yields viewer.Coherent (viewer.allowedByVisibilityBefore view event)
      (viewer.permitsByVisibilityBefore view event) := by
  rw [allowedByVisibilityBefore, permitsByVisibilityBefore]
  cases viewer.transitionOf event historyVisibilityType [] with
  | none => exact .pure _
  | some transition =>
    refine .ite (fun _ => yields_allows _ _ _) fun _ => .ite (fun _ => .pure _) fun _ => ?_
    exact (yields_contentString transition.previousEventId "history_visibility"
      (by decide)).bind (yields_allows _ _ _)

lemma yields_allowedByMembershipBefore :
    Yields viewer.Coherent (viewer.allowedByMembershipBefore view event)
      (viewer.permitsByMembershipBefore view event) := by
  rw [allowedByMembershipBefore, permitsByMembershipBefore]
  cases viewer.transitionOf event memberType viewer.userId with
  | none => exact .pure _
  | some transition =>
    refine .ite (fun _ => yields_allows _ _ _) fun _ => .ite (fun _ => .pure _) fun _ => ?_
    exact (yields_contentString transition.previousEventId "membership" (by decide)).bind
      (yields_allows _ _ _)

lemma yields_canSee :
    Yields viewer.Coherent (viewer.canSee event) (viewer.sees event) := by
  refine .ite (fun _ => .pure _) fun _ => .ite (fun _ => .pure _) fun _ => ?_
  cases viewer.stateGroupOf event.eventId with
  | none =>
    exact .ite (fun _ => .pure _) fun _ => .ite (fun _ => .pure _) fun _ =>
      yields_joinedWhenSent event
  | some groupId =>
    refine (yields_viewOfGroup groupId).bind (.ite (fun _ => .pure _) fun _ => ?_)
    refine (yields_allows _ _ event).bind (.ite (fun _ => .pure _) fun _ => ?_)
    exact (yields_allowedByVisibilityBefore _ event).bind
      (.ite (fun _ => .pure _) fun _ => yields_allowedByMembershipBefore _ event)

/-! ### A whole request -/

lemma Coherent.ask {caches : Caches} (h : viewer.Coherent caches) (question : Question) :
    viewer.Coherent (viewer.ask caches question) := by
  cases question with
  | canSee event => exact (yields_canSee event caches h).2
  | membershipAt event =>
    rw [HistoryVisibility.ask, membershipAt]
    cases viewer.stateGroupOf event.eventId with
    | none => exact ((yields_membershipTimeline event.roomId).bind (.pure _) caches h).2
    | some groupId => exact ((yields_viewOfGroup groupId).bind (.pure _) caches h).2
  | canSeeEventId eventId =>
    rw [HistoryVisibility.ask, canSeeEventId]
    cases viewer.findEvent eventId with
    | none => exact h
    | some event => exact (yields_canSee event caches h).2

/-- Whatever was asked before, the answer is the rule's. -/
theorem canSeeAfter_eq (viewer : HistoryVisibility) (questions : List Question)
    (event : PersistentEvent) : viewer.canSeeAfter questions event = viewer.sees event := by
  have hcoherent := foldlRecOn questions viewer.ask Coherent.initial
    fun _ h question _ => h.ask question
  exact (yields_canSee event _ hcoherent).1

/-! ### What a group records -/

variable (viewer) in
/-- A lookup that is not broken, and names a held event if it names one. -/
def Readable (result : GroupLookup) : Prop :=
  result ≠ .broken ∧ ∀ eventId, result = .found eventId → (viewer.findEvent eventId).isSome

variable (viewer) in
/-- The lookups of a group's visibility and of the user's membership can be read. -/
structure GroupReadable (groupId : Str) : Prop where
  visibility : viewer.Readable (viewer.lookupInGroup groupId historyVisibilityType [])
  membership : viewer.Readable (viewer.lookupInGroup groupId memberType viewer.userId)

variable (viewer) in
/-- The visibility that a group's state records. -/
def recordedVisibility (groupId : Str) : HistoryVisibilityValue :=
  match viewer.lookupInGroup groupId historyVisibilityType [] with
  | .found eventId => viewer.visibilitySetBy eventId
  | _ => .shared

variable (viewer) in
/-- The membership of the user that a group's state records. -/
def recordedMembership (groupId : Str) : Str :=
  match viewer.lookupInGroup groupId memberType viewer.userId with
  | .found eventId => viewer.membershipSetBy eventId
  | _ => []

lemma visibilityPart_valid {result : GroupLookup} (hresult : result ≠ .broken) :
    (viewer.visibilityPart result).valid = true ↔ viewer.Readable result := by
  cases result with
  | broken => exact absurd rfl hresult
  | absent => simp [visibilityPart, Readable]
  | found eventId => cases hfind : viewer.findEvent eventId <;> simp [visibilityPart, Readable, hfind]

lemma membershipPart_valid {view : GroupView} {result : GroupLookup} (hresult : result ≠ .broken) :
    (viewer.membershipPart view result).valid = true ↔
      view.valid = true ∧ viewer.Readable result := by
  cases result with
  | broken => exact absurd rfl hresult
  | absent => simp [membershipPart, Readable]
  | found eventId =>
    cases hfind : viewer.findEvent eventId <;> cases hvalid : view.valid <;>
      simp [membershipPart, Readable, hfind, hvalid]

lemma groupView_valid {groupId : Str} :
    (viewer.groupView groupId).valid = true ↔ viewer.GroupReadable groupId := by
  rw [groupView]
  by_cases hbroken : viewer.lookupInGroup groupId historyVisibilityType [] ≠ .broken ∧
      viewer.lookupInGroup groupId memberType viewer.userId ≠ .broken
  · rw [if_pos hbroken, membershipPart_valid hbroken.2, visibilityPart_valid hbroken.1]
    exact ⟨fun h => ⟨h.1, h.2⟩, fun h => ⟨h.visibility, h.membership⟩⟩
  · rw [if_neg hbroken]
    exact ⟨fun h => absurd h (by simp), fun h => absurd ⟨h.visibility.1, h.membership.1⟩ hbroken⟩

lemma groupView_of_readable {groupId : Str} (h : viewer.GroupReadable groupId) :
    viewer.groupView groupId =
      ⟨true, viewer.recordedVisibility groupId, viewer.recordedMembership groupId⟩ := by
  rw [groupView, if_pos ⟨h.visibility.1, h.membership.1⟩, recordedMembership]
  obtain ⟨⟨hvisibility, hheldVisibility⟩, ⟨hmembership, hheldMembership⟩⟩ := h
  have hpart : viewer.visibilityPart (viewer.lookupInGroup groupId historyVisibilityType []) =
      ⟨true, viewer.recordedVisibility groupId, []⟩ := by
    rw [recordedVisibility]
    cases hlookup : viewer.lookupInGroup groupId historyVisibilityType [] with
    | broken => exact absurd hlookup hvisibility
    | absent => rfl
    | found eventId =>
      have hsome := hheldVisibility eventId hlookup
      rw [visibilityPart, if_neg (by simpa [Option.isSome_iff_ne_none] using hsome)]
  rw [hpart]
  cases hlookup : viewer.lookupInGroup groupId memberType viewer.userId with
  | broken => exact absurd hlookup hmembership
  | absent => rfl
  | found eventId =>
    have hsome := hheldMembership eventId hlookup
    rw [membershipPart, if_neg (by simp), if_neg (by simpa [Option.isSome_iff_ne_none] using hsome)]

lemma sees_of_group {event : PersistentEvent} {groupId : Str}
    (hgroup : viewer.stateGroupOf event.eventId = some groupId) :
    viewer.sees event = true ↔ eventIsWithheld event = false ∧
      viewer.store.redactionIsWithheld event.eventId = false ∧ viewer.GroupReadable groupId ∧
      viewer.permitsAt
        ⟨true, viewer.recordedVisibility groupId, viewer.recordedMembership groupId⟩ event := by
  simp only [sees, hgroup]
  by_cases hreadable : viewer.GroupReadable groupId
  · rw [groupView_of_readable hreadable]
    cases eventIsWithheld event <;> cases viewer.store.redactionIsWithheld event.eventId <;>
      simp [hreadable]
  · have hvalid : (viewer.groupView groupId).valid = false := by
      simpa using mt groupView_valid.mp hreadable
    simp [hvalid, hreadable]

end HistoryVisibility

end Merovingian
