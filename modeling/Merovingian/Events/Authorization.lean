import Merovingian.Events.PowerLevelContent
import Merovingian.Events.Signing

/-!
# Event authorization

The model of `authorize_event_against_auth_events` (`events/authorization.cpp`) with every
rule it applies.  The long function of the source is cut at its own step comments: one
definition for each requested membership, one for `m.room.power_levels`, one for the rules
about the sender's power, and the decision is assembled from them in the source's order.
-/

namespace Merovingian

/-! ### Inputs and decisions -/

/-- `AuthEventMap`: the state an event is judged against; an absent event is null. -/
structure AuthEventMap where
  create : Value := .null
  createEventId : Str := []
  powerLevels : Value := .null
  joinRules : Value := .null
  senderMember : Value := .null
  targetMember : Value := .null
  authorisingUserMember : Value := .null
  thirdPartyInvite : Value := .null

structure EventAuthorizationDecision where
  allowed : Bool
  ruleStep : Str
  reason : Str
deriving DecidableEq, Repr

def makeDenied (step reason : Str) : EventAuthorizationDecision := ⟨false, step, reason⟩

def makeAllowed (step : Str) : EventAuthorizationDecision := ⟨true, step, []⟩

@[simp] lemma makeDenied_allowed (step reason : Str) : (makeDenied step reason).allowed = false :=
  rfl

@[simp] lemma makeAllowed_allowed (step : Str) : (makeAllowed step).allowed = true := rfl

inductive MembershipState where
  | leave
  | invite
  | join
  | ban
  | knock
deriving DecidableEq, Repr

def parseMembershipState (membership : Str) : Option MembershipState :=
  if membership = "join" then some .join
  else if membership = "invite" then some .invite
  else if membership = "leave" then some .leave
  else if membership = "ban" then some .ban
  else if membership = "knock" then some .knock
  else none

def eventContentString (event : Value) (key : Str) : Option Str :=
  (contentObject event).bind (stringMember · key)

def extractContentMembership (event : Value) : Str :=
  (eventContentString event "membership").getD []

/-- The membership a member event of the map gives, `leave` when there is none. -/
def currentMembership (member : Value) : MembershipState :=
  if member.hasContent then
    (parseMembershipState (extractContentMembership member)).getD .leave
  else .leave

/-- The rule of a join rules event, `invite` when there is none. -/
def currentJoinRule (joinRules : Value) : Str :=
  if joinRules.hasContent then (eventContentString joinRules "join_rule").getD "invite"
  else "invite"

/-! ### Creators and power -/

def arrayContainsString (value : Value) (needle : Str) : Bool :=
  match value.asArray with
  | none => false
  | some array => array.any fun element => element.asString = some needle

def userIsRoomCreator (createEvent : Value) (userId : Str) (policy : RoomVersionPolicy) : Bool :=
  if !policy.privilegeRoomCreators then false
  else match createEvent.asObject with
    | none => false
    | some obj =>
      if stringMember obj "sender" = some userId then true
      else match objectMemberAsObject obj "content" with
        | none => false
        | some content =>
          match objectMember content "additional_creators" with
          | none => false
          | some additional => arrayContainsString additional userId

def creatorPower : Int64 := Int64.maxValue

/-- `room_creator_user_id`: empty when the create event names no creator. -/
def roomCreatorUserId (createEvent : Value) (policy : RoomVersionPolicy) : Str :=
  if policy.redactionRules ≠ .roomV11Plus then
    (eventContentString createEvent "creator").getD []
  else
    (createEvent.asObject.bind (stringMember · "sender")).getD []

def effectiveSenderPower (powerLevels : Value) (sender : Str) (createEvent : Value)
    (policy : RoomVersionPolicy) : Int64 :=
  if userIsRoomCreator createEvent sender policy then creatorPower
  else if powerLevels.hasContent then
    extractUserPowerLevel powerLevels sender (powerLevelEncoding policy)
  else
    let creator := roomCreatorUserId createEvent policy
    if !creator.isEmpty && sender = creator then 100 else 0

/-- A scalar level of the map's power-levels event, or its default without one. -/
def scalarLevel (powerLevels : Value) (key : Str) (defaultValue : Int64)
    (policy : RoomVersionPolicy) : Int64 :=
  if powerLevels.hasContent then
    extractPowerLevelKey powerLevels key defaultValue (powerLevelEncoding policy)
  else defaultValue

def solePrevEventIsCreate (event : Value) (authEvents : AuthEventMap)
    (policy : RoomVersionPolicy) : Bool :=
  match event.asObject with
  | none => false
  | some obj =>
    match arrayMember obj "prev_events" with
    | some [prevEvent] =>
      match prevEvent.asString with
      | none => false
      | some prevEvent =>
        if prevEvent.isEmpty then false
        else if policy.createEventIsRoomId then
          match stringMember obj "room_id" with
          | none => false
          | some roomId =>
            if roomId.length < 2 || roomId.head? ≠ some 33 then false
            else prevEvent.head? = some 36 && prevEvent.drop 1 = roomId.drop 1
        else !authEvents.createEventId.isEmpty && prevEvent = authEvents.createEventId
    | _ => false

/-! ### Third-party invites -/

def eventHasSignatureFromServer (event : Value) (serverName : Str) : Bool :=
  match event.asObject with
  | none => false
  | some obj =>
    if serverName.isEmpty then false
    else match objectMemberAsObject obj "signatures" with
      | none => false
      | some signatures =>
        match objectMemberAsObject signatures serverName with
        | none => false
        | some serverSignatures =>
          serverSignatures.any fun member =>
            match member.2.asString with
            | none => false
            | some signature => !signature.isEmpty

def collectThirdPartyInvitePublicKeys (thirdPartyInviteEvent : Value) : List Str :=
  match contentObject thirdPartyInviteEvent with
  | none => []
  | some content =>
    (stringMember content "public_key").toList ++
      ((arrayMember content "public_keys").getD []).filterMap fun entry =>
        entry.asObject.bind (stringMember · "public_key")

def thirdPartyInviteSignatureIsValid (sodium : Sodium) (signedObj : Object)
    (thirdPartyInviteEvent : Value) : Bool :=
  match objectMemberAsObject signedObj "signatures" with
  | none => false
  | some signatures =>
    let candidateKeys := collectThirdPartyInvitePublicKeys thirdPartyInviteEvent
    if candidateKeys.isEmpty then false
    else match makeSignedJsonPayload (.obj signedObj) with
      | .error _ => false
      | .ok payload =>
        signatures.any fun serverEntry =>
          (serverEntry.2.asObject.getD []).any fun keyEntry =>
            match keyEntry.2.asString with
            | none => false
            | some signatureB64 =>
              let signature := matrixBytesFromBase64 sodium signatureB64
              ed25519SignatureShapeIsValid signature &&
                candidateKeys.any fun publicKeyB64 =>
                  let publicKey := matrixBytesFromBase64 sodium publicKeyB64
                  ed25519PublicKeyShapeIsValid publicKey &&
                    ed25519Verify sodium publicKey payload signature

def authorizeThirdPartyInvite (sodium : Sodium) (thirdPartyInviteContent : Value)
    (stateKey sender : Str) (targetCurrentMembership : MembershipState)
    (thirdPartyInviteEvent : Value) : EventAuthorizationDecision :=
  if targetCurrentMembership = .ban then
    makeDenied "6" "banned user cannot accept a third-party invite"
  else match thirdPartyInviteContent.asObject.bind (objectMemberAsObject · "signed") with
    | none => makeDenied "6" "third_party_invite missing signed property"
    | some signedObj =>
      match stringMember signedObj "mxid", stringMember signedObj "token" with
      | some mxid, some token =>
        if mxid ≠ stateKey then
          makeDenied "6" "third_party_invite signed mxid does not match state_key"
        else match thirdPartyInviteEvent.asObject with
          | none => makeDenied "6" "no matching m.room.third_party_invite event for token"
          | some tpiEventObj =>
            if stringMember tpiEventObj "state_key" ≠ some token then
              makeDenied "6" "no matching m.room.third_party_invite event for token"
            else if stringMember tpiEventObj "sender" ≠ some sender then
              makeDenied "6" "sender does not match m.room.third_party_invite sender"
            else if !thirdPartyInviteSignatureIsValid sodium signedObj thirdPartyInviteEvent then
              makeDenied "6" "third_party_invite signature does not match any public key"
            else makeAllowed "6"
      | _, _ => makeDenied "6" "third_party_invite signed is missing mxid or token"

/-! ### Create events -/

/-- Rule 1.2: the room id of a create event. -/
def createRoomIdProblem (event : Object) (policy : RoomVersionPolicy) : Option Str :=
  let sender := stringMember event "sender"
  let roomId := stringMember event "room_id"
  if policy.createEventIsRoomId then
    if roomId.isSome then some "v12 create event must not carry a room_id" else none
  else match roomId with
    | none => some "create event requires a room_id"
    | some roomId =>
      match sender with
      | none => some "create event room_id domain does not match the sender domain"
      | some sender =>
        if domainOf roomId ≠ domainOf sender then
          some "create event room_id domain does not match the sender domain"
        else none

/-- Rules 1.3 and 1.4: the content of a create event. -/
def createContentProblem (content : Object) (policy : RoomVersionPolicy) : Option Str :=
  let roomVersionProblem : Option Str :=
    match objectMember content "room_version" with
    | none => none
    | some value =>
      if (value.asString.bind findRoomVersionPolicy).isNone then
        some "create event declares an unrecognised room_version"
      else none
  let additionalCreatorsProblem : Option Str :=
    if !policy.createEventIsRoomId then none
    else match objectMember content "additional_creators" with
      | none => none
      | some additional =>
        match additional.asArray with
        | none => some "additional_creators must be an array"
        | some entries =>
          if entries.any fun entry => !(entry.asString.map userIdIsWellFormed).getD false then
            some "additional_creators must contain only valid user IDs"
          else none
  roomVersionProblem.or additionalCreatorsProblem

def createEventRejectionReason (event : Object) (policy : RoomVersionPolicy) : Option Str :=
  if ((arrayMember event "prev_events").map fun entries => !entries.isEmpty).getD false then
    some "create event must not have prev_events"
  else match createRoomIdProblem event policy with
    | some reason => some reason
    | none =>
      let content := objectMemberAsObject event "content"
      let creatorFieldRequired :=
        !policy.createEventIsRoomId && policy.redactionRules ≠ .roomV11Plus
      if creatorFieldRequired && (content.bind (objectMember · "creator")).isNone then
        some "create event content requires a creator"
      else content.bind (createContentProblem · policy)

/-! ### Membership events -/

section Member

variable (event : Value) (obj : Object) (sender stateKey : Str) (policy : RoomVersionPolicy)
  (authEvents : AuthEventMap)

/-- The target's current membership; the sender's own event answers for a target who is the
sender. -/
def targetMembership : MembershipState :=
  if sender = stateKey ∧ authEvents.senderMember.hasContent = true then
    currentMembership authEvents.senderMember
  else currentMembership authEvents.targetMember

/-- The effective power of a user against the map. -/
def powerOf (userId : Str) : Int64 :=
  effectiveSenderPower authEvents.powerLevels userId authEvents.create policy

/-- The creator's bootstrap join. -/
def isCreatorBootstrap : Bool :=
  solePrevEventIsCreate event authEvents policy &&
    (!(roomCreatorUserId authEvents.create policy).isEmpty &&
      stateKey = roomCreatorUserId authEvents.create policy)

/-- A join under a restricted rule by a user who is neither invited nor joined. -/
def authorizeRestrictedJoin : EventAuthorizationDecision :=
  match eventContentString event "join_authorised_via_users_server" with
  | none => makeDenied "5" "restricted join requires join_authorised_via_users_server"
  | some authorisingUser =>
    if authorisingUser.isEmpty then
      makeDenied "5" "restricted join requires join_authorised_via_users_server"
    else if !eventHasSignatureFromServer event (domainOf authorisingUser) then
      makeDenied "5" "restricted join event lacks a signature from the authorising user's server"
    else match authEvents.authorisingUserMember.asObject with
      | none => makeDenied "5" "restricted join missing authorising user membership"
      | some authorisingMemberObj =>
        if stringMember authorisingMemberObj "state_key" ≠ some authorisingUser then
          makeDenied "5" "restricted join authorising user does not match membership event"
        else if parseMembershipState
            (extractContentMembership authEvents.authorisingUserMember) ≠ some .join then
          makeDenied "5" "restricted join authorising user is not joined"
        else if powerOf policy authEvents authorisingUser <
            scalarLevel authEvents.powerLevels "invite" 0 policy then
          makeDenied "5" "restricted join authorising user lacks invite power"
        else makeAllowed "5"

/-- Step 5, a join. -/
def authorizeJoin : EventAuthorizationDecision :=
  let target := targetMembership sender stateKey authEvents
  let joinRule := currentJoinRule authEvents.joinRules
  if sender ≠ stateKey then makeDenied "5" "cannot force another user to join"
  else if target = .ban then makeDenied "5" "banned user cannot join"
  else if joinRule = "public" then makeAllowed "5"
  else if joinRule = "invite" then
    if target = .invite ∨ target = .join then makeAllowed "5"
    else makeDenied "5" "user was not invited to this invite-only room"
  else if joinRule = "knock" ∧ policy.knockJoinRule = true then
    if target = .invite ∨ target = .join then makeAllowed "5"
    else makeDenied "5" "user was not invited to a knock room"
  else if (joinRule = "restricted" ∧ policy.restrictedJoinRule = true) ∨
      (joinRule = "knock_restricted" ∧ policy.knockRestrictedJoinRule = true) then
    if target = .invite ∨ target = .join then makeAllowed "5"
    else authorizeRestrictedJoin event policy authEvents
  else makeDenied "5" "join rule not defined by this room version"

/-- Step 5, a knock. -/
def authorizeKnock : EventAuthorizationDecision :=
  let target := targetMembership sender stateKey authEvents
  let joinRule := currentJoinRule authEvents.joinRules
  if policy.knockJoinRule = false then
    makeDenied "5" "knock membership not defined by this room version"
  else if sender ≠ stateKey then makeDenied "5" "cannot knock on behalf of another user"
  else if target = .ban then makeDenied "5" "banned user cannot knock"
  else if target = .join ∨ target = .invite then
    makeDenied "5" "already joined or invited user cannot knock"
  else if joinRule = "knock" ∨
      (joinRule = "knock_restricted" ∧ policy.knockRestrictedJoinRule = true) then
    makeAllowed "5"
  else makeDenied "5" "join_rule does not permit knocking"

/-- The third-party invite an invite's content carries. -/
def thirdPartyInviteMember : Option Value :=
  (objectMemberAsObject obj "content").bind (objectMember · "third_party_invite")

/-- Step 6, an invite. -/
def authorizeInvite (sodium : Sodium) : EventAuthorizationDecision :=
  let target := targetMembership sender stateKey authEvents
  match thirdPartyInviteMember obj with
  | some thirdPartyInviteValue =>
    authorizeThirdPartyInvite sodium thirdPartyInviteValue stateKey sender target
      authEvents.thirdPartyInvite
  | none =>
    if target = .join then makeDenied "6" "cannot invite already-joined user"
    else if target = .ban then makeDenied "6" "cannot invite banned user"
    else if currentMembership authEvents.senderMember ≠ .join then
      makeDenied "6" "inviter must be joined"
    else if powerOf policy authEvents sender <
        scalarLevel authEvents.powerLevels "invite" 0 policy then
      makeDenied "6" "insufficient power to invite"
    else makeAllowed "6"

/-- Step 7, a leave: by the user, or a kick or an unban. -/
def authorizeLeave : EventAuthorizationDecision :=
  let target := targetMembership sender stateKey authEvents
  if sender = stateKey then
    if target = .invite ∨ target = .join ∨ target = .knock then makeAllowed "7"
    else makeDenied "7" "self-leave requires current membership of invite, join, or knock"
  else if currentMembership authEvents.senderMember ≠ .join then
    makeDenied "7" "kicker must be joined"
  else if target = .ban ∧ powerOf policy authEvents sender <
      scalarLevel authEvents.powerLevels "ban" 50 policy then
    makeDenied "7" "insufficient power to unban"
  else if scalarLevel authEvents.powerLevels "kick" 50 policy ≤ powerOf policy authEvents sender ∧
      powerOf policy authEvents stateKey < powerOf policy authEvents sender then
    makeAllowed "7"
  else makeDenied "7" "insufficient power to kick or unban target"

/-- Step 8, a ban. -/
def authorizeBan : EventAuthorizationDecision :=
  if currentMembership authEvents.senderMember ≠ .join then
    makeDenied "8" "banner must be joined"
  else if scalarLevel authEvents.powerLevels "ban" 50 policy ≤ powerOf policy authEvents sender ∧
      powerOf policy authEvents stateKey < powerOf policy authEvents sender then
    makeAllowed "8"
  else makeDenied "8" "insufficient power to ban"

/-- Steps 4 to 9: `m.room.member`. -/
def authorizeMember (sodium : Sodium) : EventAuthorizationDecision :=
  match stringMember obj "state_key" with
  | none => makeDenied "4" "m.room.member requires a state_key"
  | some stateKey =>
    if stateKey.isEmpty then makeDenied "4" "m.room.member requires a state_key"
    else match parseMembershipState (extractContentMembership event) with
      | none => makeDenied "4" "membership value is unrecognized"
      | some .join =>
        if isCreatorBootstrap event stateKey policy authEvents then makeAllowed "5"
        else authorizeJoin event sender stateKey policy authEvents
      | some .knock => authorizeKnock sender stateKey policy authEvents
      | some .invite => authorizeInvite obj sender stateKey policy authEvents sodium
      | some .leave => authorizeLeave sender stateKey policy authEvents
      | some .ban => authorizeBan sender stateKey policy authEvents

end Member

/-! ### Other events -/

section Power

variable (obj : Object) (sender : Str) (policy : RoomVersionPolicy) (authEvents : AuthEventMap)

/-- `m.room.power_levels`. -/
def authorizePowerLevels : EventAuthorizationDecision :=
  let plSenderPower := powerOf policy authEvents sender
  if plSenderPower <
      requiredStateEventPower authEvents.powerLevels "m.room.power_levels" policy then
    makeDenied "11" "insufficient power to send power_levels event"
  else match objectMemberAsObject obj "content" with
    | none => makeDenied "11" "m.room.power_levels requires a content object"
    | some content =>
      match powerLevelsContentRejectionReason content policy with
      | some reason => makeDenied "11" reason
      | none =>
        if policy.privilegeRoomCreators = true ∧
            (((objectMemberAsObject content "users").getD []).any fun entry =>
              userIsRoomCreator authEvents.create entry.1 policy) = true then
          makeDenied "11" "creator cannot be specified in m.room.power_levels content.users"
        else if authEvents.powerLevels.hasContent = false then makeAllowed "11"
        else match powerLevelsChangeRejectionReason authEvents.powerLevels content sender
            plSenderPower policy with
          | some reason => makeDenied "11" reason
          | none => makeAllowed "11"

/-- The level a message event's type asks for. -/
def requiredMessagePower (powerLevels : Value) (eventType : Str) : Int64 :=
  let eventsDefault := scalarLevel powerLevels "events_default" 0 policy
  if powerLevels.hasContent then
    eventTypeLevel powerLevels eventType eventsDefault (powerLevelEncoding policy)
  else eventsDefault

/-- Steps 10 to 14: every event but `m.room.create`, `m.room.member` and the early aliases
rule. -/
def authorizeBySender (eventType : Str) : EventAuthorizationDecision :=
  let stateKey := stringMember obj "state_key"
  if currentMembership authEvents.senderMember ≠ .join then
    makeDenied "10" "sender is not joined to the room"
  else if eventType = "m.room.third_party_invite" then
    if powerOf policy authEvents sender <
        scalarLevel authEvents.powerLevels "invite" 0 policy then
      makeDenied "6" "insufficient power to create a third-party invite"
    else makeAllowed "6"
  else if stateKey.any fun key => key.head? = some 64 && key ≠ sender then
    makeDenied "8" "state_key belongs to another user"
  else if eventType = "m.room.power_levels" then authorizePowerLevels obj sender policy authEvents
  else if stateKey.isSome then
    if powerOf policy authEvents sender <
        requiredStateEventPower authEvents.powerLevels eventType policy then
      makeDenied "13" "insufficient power for state event"
    else makeAllowed "13"
  else if powerOf policy authEvents sender <
      requiredMessagePower policy authEvents.powerLevels eventType then
    makeDenied "14" "insufficient power for message event"
  else makeAllowed "14"

end Power

/-! ### The decision -/

/-- Step 1: `m.room.create`. -/
def authorizeCreate (obj : Object) (policy : RoomVersionPolicy) (authEvents : AuthEventMap) :
    EventAuthorizationDecision :=
  if authEvents.create.hasContent then makeDenied "1" "room already has a create event"
  else match createEventRejectionReason obj policy with
    | some reason => makeDenied "1" reason
    | none => makeAllowed "1"

/-- Whether the create event disables federation. -/
def isNonFederated (createEvent : Value) : Bool :=
  ((contentObject createEvent).bind (objectMember · "m.federate")).bind Value.asBool = some false

/-- Step 3: a room closed to federation takes senders of its creator's domain only. -/
def federationProblem (sender : Str) (createEvent : Value) : Option Str :=
  if !isNonFederated createEvent then none
  else match createEvent.asObject.bind (stringMember · "sender") with
    | none => some "create event has no identifiable creator"
    | some createSender =>
      if createSender.isEmpty then some "create event has no identifiable creator"
      else if domainOf sender ≠ domainOf createSender then
        some "sender domain does not match creator domain"
      else none

/-- The aliases rule of room versions 3 to 5. -/
def authorizeAliases (obj : Object) (sender : Str) : EventAuthorizationDecision :=
  match stringMember obj "state_key" with
  | none => makeDenied "4" "m.room.aliases requires a state_key"
  | some stateKey =>
    if stateKey ≠ domainOf sender then
      makeDenied "4" "aliases state_key does not match sender domain"
    else makeAllowed "4"

/-- Step 2 on, for an event that is not a create event. -/
def authorizeInRoom (sodium : Sodium) (event : Value) (obj : Object) (eventType sender : Str)
    (policy : RoomVersionPolicy) (authEvents : AuthEventMap) : EventAuthorizationDecision :=
  if authEvents.create.hasContent = false then makeDenied "2" "room has no create event"
  else match federationProblem sender authEvents.create with
    | some reason => makeDenied "3" reason
    | none =>
      if eventType = "m.room.aliases" ∧ policy.authRules = .roomV1 then authorizeAliases obj sender
      else if eventType = "m.room.member" then
        authorizeMember event obj sender policy authEvents sodium
      else authorizeBySender obj sender policy authEvents eventType

def authorizeEventAgainstAuthEvents (sodium : Sodium) (event : Value) (policy : RoomVersionPolicy)
    (authEvents : AuthEventMap) : EventAuthorizationDecision :=
  match event.asObject with
  | none => makeDenied "0" "event must be an object"
  | some obj =>
    match stringMember obj "type" with
    | none => makeDenied "0" "missing event type"
    | some eventType =>
      if eventType.isEmpty then makeDenied "0" "missing event type"
      else match stringMember obj "sender" with
        | none => makeDenied "0" "missing sender"
        | some sender =>
          if sender.isEmpty then makeDenied "0" "missing sender"
          else if eventType = "m.room.create" then authorizeCreate obj policy authEvents
          else authorizeInRoom sodium event obj eventType sender policy authEvents

/-! ### Inversion -/

lemma authorize_allowed {sodium : Sodium} {obj : Object} {eventType : Str}
    {policy : RoomVersionPolicy} {authEvents : AuthEventMap}
    (htype : stringMember obj "type" = some eventType)
    (h : (authorizeEventAgainstAuthEvents sodium (.obj obj) policy authEvents).allowed = true) :
    ∃ sender, stringMember obj "sender" = some sender ∧
      (eventType = "m.room.create" ∧ (authorizeCreate obj policy authEvents).allowed = true ∨
        eventType = "m.room.aliases" ∨
        eventType = "m.room.member" ∧
          (authorizeMember (.obj obj) obj sender policy authEvents sodium).allowed = true ∨
        eventType ≠ "m.room.create" ∧ eventType ≠ "m.room.member" ∧
          (authorizeBySender obj sender policy authEvents eventType).allowed = true) := by
  simp only [authorizeEventAgainstAuthEvents, Value.asObject_obj, htype] at h
  split at h
  · cases h
  split at h
  · cases h
  rename_i sender hsender
  refine ⟨sender, hsender, ?_⟩
  split_ifs at h with _ hcreate
  · cases h
  · exact .inl ⟨hcreate, h⟩
  unfold authorizeInRoom at h
  split at h
  · cases h
  split at h
  · cases h
  split_ifs at h with haliases hmember
  · exact .inr (.inl haliases.1)
  · exact .inr (.inr (.inl ⟨hmember, h⟩))
  · exact .inr (.inr (.inr ⟨hcreate, hmember, h⟩))

end Merovingian
