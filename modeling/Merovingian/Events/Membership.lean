import Merovingian.Events.Authorization
import Merovingian.Lib.Run

/-!
# Membership over runs of a room

A room's state evolves by the events that authorization allows against a map read from it.
Over such runs a ban is lifted only by authority: the next allowed member event of a banned
user is another ban, an unban by a joined user of sufficient power, or the creator's
bootstrap join.  And where creators are privileged, nobody else can make one leave.
-/

namespace Merovingian

/-! ### Room states and their runs -/

/-- A state event of the room: its id and its JSON. -/
structure StateEvent where
  eventId : Str
  event : Value

/-- The current state: at most one event for each type and state key. -/
abbrev RoomState := Str × Str → Option StateEvent

namespace RoomState

variable (state : RoomState)

/-- The event in a slot of the state, null when there is none. -/
def slot (eventType stateKey : Str) : Value :=
  ((state (eventType, stateKey)).map StateEvent.event).getD .null

/-- The slots of an auth map that do not depend on the event. -/
def roomMap : AuthEventMap where
  create := state.slot "m.room.create" []
  createEventId := ((state (lit "m.room.create", [])).map StateEvent.eventId).getD []
  powerLevels := state.slot "m.room.power_levels" []
  joinRules := state.slot "m.room.join_rules" []

/-- A user's current membership. -/
def membershipOf (userId : Str) : MembershipState :=
  currentMembership (state.slot "m.room.member" userId)

/-- The state after an event: a state event takes its slot. -/
def applyEvent (stateEvent : StateEvent) : RoomState :=
  match stateEvent.event.asObject with
  | none => state
  | some obj =>
    match stringMember obj "type", stringMember obj "state_key" with
    | some eventType, some stateKey =>
      Function.update state (eventType, stateKey) (some stateEvent)
    | _, _ => state

end RoomState

open RoomState

/-- An auth map read from the state for an event.  The slots of third-party invites and of
authorising users are not constrained. -/
structure ReadFrom (state : RoomState) (obj : Object) (authEvents : AuthEventMap) : Prop where
  create : authEvents.create = state.roomMap.create
  createEventId : authEvents.createEventId = state.roomMap.createEventId
  powerLevels : authEvents.powerLevels = state.roomMap.powerLevels
  joinRules : authEvents.joinRules = state.roomMap.joinRules
  senderMember : ∀ sender, stringMember obj "sender" = some sender →
    authEvents.senderMember = state.slot "m.room.member" sender
  targetMember : ∀ stateKey, stringMember obj "type" = some (lit "m.room.member") →
    stringMember obj "state_key" = some stateKey →
      authEvents.targetMember = state.slot "m.room.member" stateKey

/-- One step of a room: an allowed event is applied. -/
def RoomStep (sodium : Sodium) (policy : RoomVersionPolicy) (state : RoomState)
    (stateEvent : StateEvent) (next : RoomState) : Prop :=
  ∃ obj authEvents, stateEvent.event = .obj obj ∧ ReadFrom state obj authEvents ∧
    (authorizeEventAgainstAuthEvents sodium (.obj obj) policy authEvents).allowed = true ∧
    next = state.applyEvent stateEvent

/-- The event is an `m.room.member` event with this state key. -/
def IsMemberEvent (userId : Str) (event : Value) : Prop :=
  ∃ obj, event = .obj obj ∧ stringMember obj "type" = some (lit "m.room.member") ∧
    stringMember obj "state_key" = some userId

variable {userId : Str}

lemma IsMemberEvent.obj {obj : Object} (h : IsMemberEvent userId (.obj obj)) :
    stringMember obj "type" = some (lit "m.room.member") ∧
      stringMember obj "state_key" = some userId := by
  obtain ⟨obj', heq, h⟩ := h
  rwa [← Value.obj.inj heq] at h

variable {sodium : Sodium} {policy : RoomVersionPolicy} {state next : RoomState}
  {stateEvent : StateEvent} {authEvents : AuthEventMap}

lemma RoomState.applyEvent_eq {obj : Object} {eventType stateKey : Str}
    (hobj : stateEvent.event = .obj obj)
    (hne : stringMember obj "type" = some eventType → stringMember obj "state_key" ≠ some stateKey) :
    state.applyEvent stateEvent (eventType, stateKey) = state (eventType, stateKey) := by
  simp only [applyEvent, hobj, Value.asObject_obj]
  cases htype : stringMember obj "type" with
  | none => simp only
  | some eventType' =>
    cases hkey : stringMember obj "state_key" with
    | none => simp only
    | some stateKey' =>
      refine Function.update_of_ne (fun heq => ?_) _ _
      cases heq
      exact hne htype hkey

/-- An event that is not a member event of a user leaves the user's member slot. -/
lemma RoomStep.slot_member (h : RoomStep sodium policy state stateEvent next)
    (hne : ¬ IsMemberEvent userId stateEvent.event) :
    next.slot "m.room.member" userId = state.slot "m.room.member" userId := by
  obtain ⟨obj, authEvents, hobj, -, -, rfl⟩ := h
  rw [slot, applyEvent_eq hobj fun htype hkey => hne ⟨obj, hobj, htype, hkey⟩]
  rfl

lemma RoomStep.slot_member_self (h : RoomStep sodium policy state stateEvent next)
    (hmember : IsMemberEvent userId stateEvent.event) :
    next.slot "m.room.member" userId = stateEvent.event := by
  obtain ⟨obj, authEvents, hobj, -, -, rfl⟩ := h
  rw [hobj] at hmember
  obtain ⟨htype, hkey⟩ := hmember.obj
  simp [applyEvent, slot, hobj, htype, hkey]

/-! ### The membership rules, inverted -/

section Inversion

variable {event : Value} {obj : Object} {sender stateKey : Str} {authEvents : AuthEventMap}

lemma authorizeMember_allowed (hkey : stringMember obj "state_key" = some stateKey)
    (h : (authorizeMember event obj sender policy authEvents sodium).allowed = true) :
    ∃ requested, parseMembershipState (extractContentMembership event) = some requested ∧
      match requested with
      | .join => isCreatorBootstrap event stateKey policy authEvents = true ∨
          (authorizeJoin event sender stateKey policy authEvents).allowed = true
      | .knock => (authorizeKnock sender stateKey policy authEvents).allowed = true
      | .invite => (authorizeInvite obj sender stateKey policy authEvents sodium).allowed = true
      | .leave => (authorizeLeave sender stateKey policy authEvents).allowed = true
      | .ban => (authorizeBan sender stateKey policy authEvents).allowed = true := by
  unfold authorizeMember at h
  rw [hkey] at h
  simp only at h
  split at h
  · cases h
  cases hparse : parseMembershipState (extractContentMembership event) with
  | none =>
    rw [hparse] at h
    cases h
  | some requested =>
    rw [hparse] at h
    refine ⟨requested, rfl, ?_⟩
    cases requested with
    | join =>
      simp only at h ⊢
      split at h
      · rename_i hboot
        exact .inl hboot
      · exact .inr h
    | _ => exact h

section

variable (hban : targetMembership sender stateKey authEvents = .ban)

include hban

lemma authorizeJoin_banned :
    (authorizeJoin event sender stateKey policy authEvents).allowed = false := by
  unfold authorizeJoin
  rw [hban]
  split <;> simp

lemma authorizeKnock_banned :
    (authorizeKnock sender stateKey policy authEvents).allowed = false := by
  unfold authorizeKnock
  simp only
  split
  · rfl
  split <;> simp

lemma authorizeInvite_banned :
    (authorizeInvite obj sender stateKey policy authEvents sodium).allowed = false := by
  unfold authorizeInvite
  rw [hban]
  split <;> simp [authorizeThirdPartyInvite]

end

lemma authorizeLeave_other (hne : sender ≠ stateKey)
    (h : (authorizeLeave sender stateKey policy authEvents).allowed = true) :
    currentMembership authEvents.senderMember = .join ∧
      (targetMembership sender stateKey authEvents = .ban →
        scalarLevel authEvents.powerLevels "ban" 50 policy ≤ powerOf policy authEvents sender) ∧
      scalarLevel authEvents.powerLevels "kick" 50 policy ≤ powerOf policy authEvents sender ∧
      powerOf policy authEvents stateKey < powerOf policy authEvents sender := by
  unfold authorizeLeave at h
  rw [if_neg hne] at h
  split at h
  · cases h
  rename_i hjoined
  split at h
  · cases h
  rename_i hunban
  split at h
  · rename_i hkick
    refine ⟨not_not.mp hjoined, fun hban => ?_, hkick⟩
    by_contra hlt
    exact hunban ⟨hban, not_le.mp hlt⟩
  · cases h

/-- A user whose membership is ban cannot leave alone. -/
lemma authorizeLeave_self_banned (hban : targetMembership stateKey stateKey authEvents = .ban) :
    (authorizeLeave stateKey stateKey policy authEvents).allowed = false := by
  unfold authorizeLeave
  rw [hban]
  simp

lemma authorizeBan_allowed (h : (authorizeBan sender stateKey policy authEvents).allowed = true) :
    powerOf policy authEvents stateKey < powerOf policy authEvents sender := by
  unfold authorizeBan at h
  split at h
  · cases h
  split at h
  · rename_i hban
    exact hban.2
  · cases h

end Inversion

/-! ### A step of the room, read off the state -/

lemma ReadFrom.targetMembership {obj : Object} {sender stateKey : Str}
    (h : ReadFrom state obj authEvents) (hsender : stringMember obj "sender" = some sender)
    (htype : stringMember obj "type" = some (lit "m.room.member"))
    (hkey : stringMember obj "state_key" = some stateKey) :
    targetMembership sender stateKey authEvents = state.membershipOf stateKey := by
  unfold Merovingian.targetMembership
  split
  · rename_i heq
    obtain ⟨rfl, -⟩ := heq
    rw [h.senderMember _ hsender]
    rfl
  · rw [h.targetMember _ htype hkey]
    rfl

lemma ReadFrom.powerOf {obj : Object} (h : ReadFrom state obj authEvents) (userId : Str) :
    powerOf policy authEvents userId = powerOf policy state.roomMap userId := by
  rw [Merovingian.powerOf, Merovingian.powerOf, h.powerLevels, h.create]

lemma authorizeMember_of_allowed {obj : Object} (hmember : IsMemberEvent userId (.obj obj))
    (h : (authorizeEventAgainstAuthEvents sodium (.obj obj) policy authEvents).allowed = true) :
    ∃ sender, stringMember obj "sender" = some sender ∧
      (authorizeMember (.obj obj) obj sender policy authEvents sodium).allowed = true := by
  obtain ⟨sender, hsender, hrule⟩ := authorize_allowed hmember.obj.1 h
  refine ⟨sender, hsender, ?_⟩
  rcases hrule with ⟨hcreate, -⟩ | haliases | ⟨-, hallowed⟩ | ⟨-, hother, -⟩
  · exact absurd hcreate (by simp)
  · exact absurd haliases (by simp)
  · exact hallowed
  · exact absurd rfl hother

/-! ### Bans -/

/-- The ways a member event may follow a ban of its user. -/
inductive FollowsBan (policy : RoomVersionPolicy) (state : RoomState) (userId : Str)
    (obj : Object) : Prop
  /-- The user is banned again. -/
  | ban : parseMembershipState (extractContentMembership (.obj obj)) = some .ban →
      FollowsBan policy state userId obj
  /-- Another user, joined and of sufficient power, lifts the ban. -/
  | unban {sender : Str} :
      parseMembershipState (extractContentMembership (.obj obj)) = some .leave →
      stringMember obj "sender" = some sender → sender ≠ userId →
      state.membershipOf sender = .join →
      scalarLevel state.roomMap.powerLevels "ban" 50 policy ≤ powerOf policy state.roomMap sender →
      scalarLevel state.roomMap.powerLevels "kick" 50 policy ≤
        powerOf policy state.roomMap sender →
      powerOf policy state.roomMap userId < powerOf policy state.roomMap sender →
      FollowsBan policy state userId obj
  /-- The creator's first join, right after the create event. -/
  | bootstrap : parseMembershipState (extractContentMembership (.obj obj)) = some .join →
      solePrevEventIsCreate (.obj obj) state.roomMap policy = true →
      userId = roomCreatorUserId state.roomMap.create policy →
      FollowsBan policy state userId obj

lemma RoomStep.followsBan (h : RoomStep sodium policy state stateEvent next)
    (hmember : IsMemberEvent userId stateEvent.event) (hban : state.membershipOf userId = .ban) :
    ∃ obj, stateEvent.event = .obj obj ∧ FollowsBan policy state userId obj := by
  obtain ⟨obj, authEvents, hobj, hread, hallowed, -⟩ := h
  refine ⟨obj, hobj, ?_⟩
  rw [hobj] at hmember
  obtain ⟨htype, hkey⟩ := hmember.obj
  obtain ⟨sender, hsender, hrule⟩ := authorizeMember_of_allowed hmember hallowed
  have htarget := (hread.targetMembership hsender htype hkey).trans hban
  obtain ⟨requested, hparse, hrule⟩ := authorizeMember_allowed hkey hrule
  cases requested with
  | join =>
    rcases hrule with hboot | hjoin
    · simp only [isCreatorBootstrap, Bool.and_eq_true, decide_eq_true_eq] at hboot
      obtain ⟨hprev, -, hcreator⟩ := hboot
      rw [solePrevEventIsCreate, hread.createEventId] at hprev
      exact .bootstrap hparse hprev (hread.create ▸ hcreator)
    · exact absurd hjoin (by simp [authorizeJoin_banned htarget])
  | knock => exact absurd hrule (by simp [authorizeKnock_banned htarget])
  | invite => exact absurd hrule (by simp [authorizeInvite_banned htarget])
  | ban => exact .ban hparse
  | leave =>
    by_cases hself : sender = userId
    · subst hself
      exact absurd hrule (by simp [authorizeLeave_self_banned htarget])
    · obtain ⟨hjoined, hunban, hkick, hpower⟩ := authorizeLeave_other hself hrule
      have hunban := hunban htarget
      rw [hread.powerLevels, hread.powerOf] at hunban hkick
      rw [hread.powerOf, hread.powerOf] at hpower
      rw [hread.senderMember _ hsender] at hjoined
      exact .unban hparse hsender hself hjoined hunban hkick hpower

/-! ### Privileged creators -/

lemma hasContent_of_creator {createEvent : Value}
    (h : userIsRoomCreator createEvent userId policy = true) : createEvent.hasContent = true := by
  cases createEvent with
  | null => simp [userIsRoomCreator] at h
  | _ => rfl

/-- The create event of a room is never replaced. -/
lemma RoomStep.create_eq (h : RoomStep sodium policy state stateEvent next)
    (hcreate : state.roomMap.create.hasContent = true) :
    next.roomMap.create = state.roomMap.create := by
  obtain ⟨obj, authEvents, hobj, hread, hallowed, rfl⟩ := h
  have hslot : state.applyEvent stateEvent (lit "m.room.create", []) =
      state (lit "m.room.create", []) := by
    refine applyEvent_eq hobj fun htype => ?_
    obtain ⟨sender, -, ⟨-, hfirst⟩ | haliases | ⟨hmember, -⟩ | ⟨hother, -⟩⟩ :=
      authorize_allowed htype hallowed
    · rw [authorizeCreate, hread.create, if_pos hcreate] at hfirst
      cases hfirst
    · exact absurd haliases (by simp)
    · exact absurd hmember (by simp)
    · exact absurd rfl hother
  simp [roomMap, slot, hslot]

/-- The event's sender is this user. -/
def SentBy (userId : Str) (event : Value) : Prop :=
  ∃ obj, event = .obj obj ∧ stringMember obj "sender" = some userId

lemma RoomStep.creator_kept (h : RoomStep sodium policy state stateEvent next)
    (hmember : IsMemberEvent userId stateEvent.event)
    (hcreator : userIsRoomCreator state.roomMap.create userId policy = true)
    (hother : ¬ SentBy userId stateEvent.event) :
    parseMembershipState (extractContentMembership stateEvent.event) ≠ some .leave ∧
      parseMembershipState (extractContentMembership stateEvent.event) ≠ some .ban ∧
      next.membershipOf userId ≠ .leave ∧ next.membershipOf userId ≠ .ban := by
  have hslot := h.slot_member_self hmember
  obtain ⟨obj, authEvents, hobj, hread, hallowed, -⟩ := h
  rw [hobj] at hmember hslot hother ⊢
  obtain ⟨htype, hkey⟩ := hmember.obj
  obtain ⟨sender, hsender, hrule⟩ := authorizeMember_of_allowed hmember hallowed
  have hself : sender ≠ userId := fun heq => hother ⟨obj, rfl, heq ▸ hsender⟩
  have hmax : ¬ powerOf policy authEvents userId < powerOf policy authEvents sender := by
    rw [powerOf, effectiveSenderPower, if_pos (hread.create ▸ hcreator)]
    exact not_lt.mpr (Int64.le_maxValue _)
  obtain ⟨requested, hparse, hrule⟩ := authorizeMember_allowed hkey hrule
  have hnext : next.membershipOf userId = requested := by
    simp [membershipOf, currentMembership, hslot, hparse]
  rw [hparse, hnext]
  cases requested with
  | leave => exact absurd (authorizeLeave_other hself hrule).2.2.2 hmax
  | ban => exact absurd (authorizeBan_allowed hrule) hmax
  | _ => simp

lemma Run.roomCreator_eq {start : RoomState} {events : List StateEvent}
    (hrun : Run (RoomStep sodium policy) start events state)
    (hcreator : userIsRoomCreator start.roomMap.create userId policy = true) :
    userIsRoomCreator state.roomMap.create userId policy = true := by
  refine hrun.invariant (fun s => userIsRoomCreator s.roomMap.create userId policy = true)
    (fun _ => True) (fun _ hstep hs => ?_) (fun _ _ => trivial) hcreator
  rwa [hstep.create_eq (hasContent_of_creator hs)]

/-- A ban is lifted only by authority, however long the room runs in between; and where creators
are privileged, no event of another user asks for a creator's leave or ban, so a run in which a
creator sends nothing moves that creator to neither. -/
theorem membership_runs (sodium : Sodium) (policy : RoomVersionPolicy) (userId : Str)
    (start state next : RoomState) (events : List StateEvent) (stateEvent : StateEvent)
    (hrun : Run (RoomStep sodium policy) start events state)
    (hstep : RoomStep sodium policy state stateEvent next)
    (hmember : IsMemberEvent userId stateEvent.event) :
    (start.membershipOf userId = .ban → (∀ e ∈ events, ¬ IsMemberEvent userId e.event) →
      ∃ obj, stateEvent.event = .obj obj ∧ FollowsBan policy state userId obj) ∧
    (userIsRoomCreator start.roomMap.create userId policy = true →
      ¬ SentBy userId stateEvent.event →
        parseMembershipState (extractContentMembership stateEvent.event) ≠ some .leave ∧
        parseMembershipState (extractContentMembership stateEvent.event) ≠ some .ban) ∧
    (userIsRoomCreator start.roomMap.create userId policy = true →
      (∀ e ∈ events, ¬ SentBy userId e.event) →
      start.membershipOf userId ≠ .leave → start.membershipOf userId ≠ .ban →
        state.membershipOf userId ≠ .leave ∧ state.membershipOf userId ≠ .ban) := by
  refine ⟨?_, ?_, ?_⟩
  · intro hban hothers
    -- nothing in between touches the user's member slot
    have hstill : state.membershipOf userId = .ban := by
      refine hrun.invariant (fun s => s.membershipOf userId = .ban) _
        (fun hne hstep hs => ?_) hothers hban
      rw [RoomState.membershipOf, hstep.slot_member hne]
      exact hs
    exact hstep.followsBan hmember hstill
  · intro hcreator hother
    have h := hstep.creator_kept hmember (hrun.roomCreator_eq hcreator) hother
    exact ⟨h.1, h.2.1⟩
  · intro hcreator hothers hleave hban
    have hinv := hrun.invariant
      (fun s => userIsRoomCreator s.roomMap.create userId policy = true ∧
        s.membershipOf userId ≠ .leave ∧ s.membershipOf userId ≠ .ban) _
      (fun hother hstep hs => ?_) hothers ⟨hcreator, hleave, hban⟩
    · exact hinv.2
    · rename_i s e t
      obtain ⟨hcreator, hkept⟩ := hs
      refine ⟨by rwa [hstep.create_eq (hasContent_of_creator hcreator)], ?_⟩
      by_cases hm : IsMemberEvent userId e.event
      · exact (hstep.creator_kept hm hcreator hother).2.2
      · rw [RoomState.membershipOf, hstep.slot_member hm]
        exact hkept

/-- A member event. -/
def memberEvent (sender userId membership : Str) : Object :=
  [("type", .str "m.room.member"), ("sender", .str sender), ("state_key", .str userId),
    ("content", .obj [("membership", .str membership)])]

/-- A room created by `@a:x`, who has joined it and banned `@b:x`. -/
def roomWithBan : RoomState := fun key =>
  if key = (lit "m.room.create", []) then
    some ⟨"$create", .obj [("type", .str "m.room.create"), ("sender", .str "@a:x")]⟩
  else if key = (lit "m.room.member", lit "@a:x") then
    some ⟨"$join", .obj (memberEvent "@a:x" "@a:x" "join")⟩
  else if key = (lit "m.room.member", lit "@b:x") then
    some ⟨"$ban", .obj (memberEvent "@a:x" "@b:x" "ban")⟩
  else none

/-- The creator lifts the ban. -/
def unbanEvent : StateEvent := ⟨"$unban", .obj (memberEvent "@a:x" "@b:x" "leave")⟩

lemma roomStep_unban :
    RoomStep exampleSodium { id := "11" } roomWithBan unbanEvent
      (roomWithBan.applyEvent unbanEvent) := by
  refine ⟨memberEvent "@a:x" "@b:x" "leave",
    { roomWithBan.roomMap with
      senderMember := roomWithBan.slot "m.room.member" "@a:x"
      targetMember := roomWithBan.slot "m.room.member" "@b:x" },
    rfl, ⟨rfl, rfl, rfl, rfl, ?_, ?_⟩, by decide, rfl⟩
  · rintro sender h
    obtain rfl : lit "@a:x" = sender := Option.some.inj h
    rfl
  · rintro stateKey - h
    obtain rfl : lit "@b:x" = stateKey := Option.some.inj h
    rfl

/-- The unban of `@b:x` is one of the ways a ban may end. -/
theorem membership_runs_unban :
    ∃ obj, unbanEvent.event = .obj obj ∧
      FollowsBan { id := "11" } roomWithBan "@b:x" obj :=
  (membership_runs exampleSodium { id := "11" } "@b:x" roomWithBan roomWithBan
    (roomWithBan.applyEvent unbanEvent) [] unbanEvent (.nil _) roomStep_unban
    ⟨_, rfl, by decide, by decide⟩).1 (by decide) (by simp)

end Merovingian
