import Merovingian.Events.AuthSelection

/-!
# Redaction keeps authorization

From room version 11 on, the keys that redaction keeps include every key an authorization
rule reads, so the decision about an event is the same once the event and the state it is
judged against are redacted.

Every rule reads an event through its `sender` and `state_key` and through single keys of
its content, so the comparison goes key by key: `ReadsSame keys` says that two events answer
alike, and each reader of the rules depends on a fixed list of keys.
-/

namespace Merovingian

open Option Value

/-! ### Reading an event key by key -/

/-- A key of an event's content. -/
def contentMember (event : Value) (key : Str) : Option Value :=
  (contentObject event).bind (objectMember · key)

/-- A top-level string of an event. -/
def eventString (event : Value) (key : Str) : Option Str :=
  event.asObject.bind (stringMember · key)

variable (event : Value) (key : Str)

lemma eventContentString_eq :
    eventContentString event key = (contentMember event key).bind asString := by
  rw [eventContentString, contentMember]
  cases contentObject event <;> rfl

lemma extractPowerLevelKey_eq (defaultValue : Int64) (encoding : PowerLevelEncoding) :
    extractPowerLevelKey event key defaultValue encoding =
      ((contentMember event key).bind (decodePowerLevel · encoding)).getD defaultValue := by
  rw [extractPowerLevelKey, contentMember]
  cases contentObject event <;> rfl

lemma extractUserPowerLevel_eq (userId : Str) (encoding : PowerLevelEncoding) :
    extractUserPowerLevel event userId encoding =
      (((contentMember event "users").bind asObject).bind (powerLevelMember · userId encoding)).getD
          (extractPowerLevelKey event "users_default" 0 encoding) := by
  rw [extractUserPowerLevel, contentMember]
  cases hcontent : contentObject event with
  | none => simp [extractPowerLevelKey, hcontent]
  | some content =>
    simp only [bind_some, objectMemberAsObject]
    cases (objectMember content "users").bind asObject <;> rfl

lemma eventTypeLevel_eq (eventType : Str) (defaultValue : Int64) (encoding : PowerLevelEncoding) :
    eventTypeLevel event eventType defaultValue encoding =
      (((contentMember event "events").bind asObject).bind
        (powerLevelMember · eventType encoding)).getD defaultValue := by
  rw [eventTypeLevel, contentMember]
  cases contentObject event with
  | none => rfl
  | some content =>
    simp only [bind_some, objectMemberAsObject]
    cases (objectMember content "events").bind asObject <;> rfl

lemma userIsRoomCreator_eq (userId : Str) (policy : RoomVersionPolicy) :
    userIsRoomCreator event userId policy = if !policy.privilegeRoomCreators then false
      else if eventString event "sender" = some userId then true
      else ((contentMember event "additional_creators").map
        (arrayContainsString · userId)).getD false := by
  rw [userIsRoomCreator, eventString, contentMember, contentObject]
  cases event.asObject with
  | none => simp
  | some obj =>
    simp only [bind_some]
    cases objectMemberAsObject obj "content" with
    | none => rfl
    | some content => cases hm : objectMember content "additional_creators" <;> simp [hm]

/-- `w` reads as `v` does, for content keys in `keys`. -/
structure ReadsSame (keys : List Str) (v w : Value) : Prop where
  hasContent : w.hasContent = v.hasContent
  isObject : w.asObject.isSome = v.asObject.isSome
  sender : eventString w "sender" = eventString v "sender"
  stateKey : eventString w "state_key" = eventString v "state_key"
  contentMember : ∀ key ∈ keys, contentMember w key = contentMember v key

namespace ReadsSame

variable {keys : List Str} {v w : Value} {policy : RoomVersionPolicy}

lemma extractPowerLevelKey (h : ReadsSame keys v w) (key : Str) (hkey : key ∈ keys)
    (defaultValue : Int64) (encoding : PowerLevelEncoding) :
    extractPowerLevelKey w key defaultValue encoding =
      extractPowerLevelKey v key defaultValue encoding := by
  rw [extractPowerLevelKey_eq, extractPowerLevelKey_eq, h.contentMember key hkey]

lemma eventContentString (h : ReadsSame keys v w) (key : Str) (hkey : key ∈ keys) :
    eventContentString w key = eventContentString v key := by
  rw [eventContentString_eq, eventContentString_eq, h.contentMember key hkey]

lemma currentMembership (h : ReadsSame keys v w) (hkey : lit "membership" ∈ keys) :
    currentMembership w = currentMembership v := by
  simp [Merovingian.currentMembership, extractContentMembership, h.hasContent,
    h.eventContentString _ hkey]

end ReadsSame

/-- The content keys of a power-levels event that the rules read, but for `m.room.power_levels`
events themselves. -/
def powerKeys : List Str :=
  ["ban", "events", "events_default", "invite", "kick", "state_default", "users", "users_default"]

/-- The content keys of a create event that the rules read. -/
def createKeys : List Str := ["m.federate", "additional_creators"]

section Readers

variable {policy : RoomVersionPolicy} {pl pl' create create' : Value}

section

variable (h : ReadsSame powerKeys pl pl')

include h

lemma ReadsSame.scalarLevel (hkey : key ∈ powerKeys) (defaultValue : Int64) :
    scalarLevel pl' key defaultValue policy = scalarLevel pl key defaultValue policy := by
  simp [Merovingian.scalarLevel, h.hasContent, h.extractPowerLevelKey key hkey]

lemma ReadsSame.eventTypeLevel (eventType : Str) (defaultValue : Int64)
    (encoding : PowerLevelEncoding) :
    eventTypeLevel pl' eventType defaultValue encoding =
      eventTypeLevel pl eventType defaultValue encoding := by
  rw [eventTypeLevel_eq, eventTypeLevel_eq, h.contentMember _ (by simp [powerKeys])]

lemma ReadsSame.requiredStateEventPower (eventType : Str) :
    requiredStateEventPower pl' eventType policy = requiredStateEventPower pl eventType policy := by
  have hdefault := h.extractPowerLevelKey "state_default" (by simp [powerKeys])
  simp [Merovingian.requiredStateEventPower, h.hasContent, h.eventTypeLevel, hdefault]

lemma ReadsSame.requiredMessagePower (eventType : Str) :
    requiredMessagePower policy pl' eventType = requiredMessagePower policy pl eventType := by
  simp [Merovingian.requiredMessagePower, h.hasContent, h.eventTypeLevel,
    h.scalarLevel "events_default" (by simp [powerKeys])]

end

section

variable (h : ReadsSame createKeys create create')

include h

lemma ReadsSame.userIsRoomCreator (userId : Str) :
    userIsRoomCreator create' userId policy = userIsRoomCreator create userId policy := by
  rw [userIsRoomCreator_eq, userIsRoomCreator_eq, h.sender, h.contentMember _ (by simp [createKeys])]

lemma ReadsSame.bind_sender : create'.asObject.bind (stringMember · "sender") =
    create.asObject.bind (stringMember · "sender") := h.sender

lemma ReadsSame.roomCreatorUserId (hrules : policy.redactionRules = .roomV11Plus) :
    roomCreatorUserId create' policy = roomCreatorUserId create policy := by
  simp [Merovingian.roomCreatorUserId, hrules, h.bind_sender]

lemma ReadsSame.federationProblem (sender : Str) :
    federationProblem sender create' = federationProblem sender create := by
  have hmember : (contentObject create').bind (objectMember · "m.federate") =
      (contentObject create).bind (objectMember · "m.federate") :=
    h.contentMember "m.federate" (by simp [createKeys])
  have hfederate : isNonFederated create' = isNonFederated create := by
    simp [isNonFederated, hmember]
  simp [Merovingian.federationProblem, hfederate, h.bind_sender]

end

lemma ReadsSame.effectiveSenderPower (hpl : ReadsSame powerKeys pl pl')
    (hcreate : ReadsSame createKeys create create') (hrules : policy.redactionRules = .roomV11Plus)
    (userId : Str) :
    effectiveSenderPower pl' userId create' policy =
      effectiveSenderPower pl userId create policy := by
  have hdefault := hpl.extractPowerLevelKey "users_default" (by simp [powerKeys])
  simp [Merovingian.effectiveSenderPower, hcreate.userIsRoomCreator, hpl.hasContent,
    extractUserPowerLevel_eq, hpl.contentMember (lit "users") (by simp [powerKeys]), hdefault,
    hcreate.roomCreatorUserId hrules]

end Readers

/-! ### Redacted slots -/

/-- A slot of the map, redacted; an absent event stays absent. -/
def redactSlot (policy : RoomVersionPolicy) (slot : Value) : Value :=
  match slot.asObject with
  | none => slot
  | some object => .obj (redactObject object policy)

/-- The map with every slot but the third-party invite redacted. -/
def redactMap (policy : RoomVersionPolicy) (authEvents : AuthEventMap) : AuthEventMap :=
  { authEvents with
    create := redactSlot policy authEvents.create
    powerLevels := redactSlot policy authEvents.powerLevels
    joinRules := redactSlot policy authEvents.joinRules
    senderMember := redactSlot policy authEvents.senderMember
    targetMember := redactSlot policy authEvents.targetMember
    authorisingUserMember := redactSlot policy authEvents.authorisingUserMember }

/-- A slot is empty or holds an event of its type. -/
def SlotOf (eventType : Str) (slot : Value) : Prop :=
  slot = .null ∨ ∃ object, slot = .obj object ∧ stringMember object "type" = some eventType

/-- Every slot holds events of its own type. -/
structure SlotTypes (authEvents : AuthEventMap) : Prop where
  create : SlotOf "m.room.create" authEvents.create
  powerLevels : SlotOf "m.room.power_levels" authEvents.powerLevels
  joinRules : SlotOf "m.room.join_rules" authEvents.joinRules
  senderMember : SlotOf "m.room.member" authEvents.senderMember
  targetMember : SlotOf "m.room.member" authEvents.targetMember
  authorisingUserMember : SlotOf "m.room.member" authEvents.authorisingUserMember

variable {policy : RoomVersionPolicy} {eventType : Str} (object : Object)

/-- The content keys kept for a type, apart from `third_party_invite`, read as before. -/
lemma contentMember_redactObject {object : Object} {key : Str}
    (htype : stringMember object "type" = some eventType)
    (hkept : contentKeyAllowed eventType key policy = true) (hkey : key ≠ "third_party_invite") :
    contentMember (.obj (redactObject object policy)) key = contentMember (.obj object) key := by
  simp only [contentMember, contentObject, asObject_obj, bind_some,
    objectMemberAsObject, objectMember_redactObject_content policy object htype]
  cases objectMember object "content" with
  | none => rfl
  | some content =>
    simp only [map_some, bind_some, redactContent]
    cases content.asObject with
    | none => simp
    | some members =>
      simp only [asObject_obj, bind_some, objectMember_keepMembers, hkept, if_true]
      have hvalue : redactContentValue key = id := by
        funext value
        simp [redactContentValue, hkey]
      rw [hvalue, map_id_fun, id]

lemma stringMember_redactObject_base {key : Str}
    (hbase : baseKeyIsAllowed key = true) (hroom : key ≠ "room_id") (hcontent : key ≠ "content") :
    stringMember (redactObject object policy) key = stringMember object key := by
  rw [stringMember, objectMember_redactObject_base policy object hbase hroom hcontent]
  rfl

lemma stateKey_redactObject :
    stringMember (redactObject object policy) "state_key" = stringMember object "state_key" :=
  stringMember_redactObject_base object (by decide) (by simp) (by simp)

lemma sender_redactObject :
    stringMember (redactObject object policy) "sender" = stringMember object "sender" :=
  stringMember_redactObject_base object (by decide) (by simp) (by simp)

lemma SlotOf.readsSame {slot : Value} (h : SlotOf eventType slot) {keys : List Str}
    (hkeys : ∀ key ∈ keys, contentKeyAllowed eventType key policy = true ∧
      key ≠ "third_party_invite") :
    ReadsSame keys slot (redactSlot policy slot) := by
  rcases h with rfl | ⟨object, rfl, htype⟩
  · exact ⟨rfl, rfl, rfl, rfl, fun _ _ => rfl⟩
  · refine ⟨rfl, rfl, sender_redactObject object, stateKey_redactObject object, fun key hkey => ?_⟩
    exact contentMember_redactObject htype (hkeys key hkey).1 (hkeys key hkey).2

section Slots

variable {slot : Value}

lemma SlotOf.readsMember (h : SlotOf "m.room.member" slot) :
    ReadsSame ["membership"] slot (redactSlot policy slot) :=
  h.readsSame (by simp [contentKeyAllowed])

lemma SlotOf.readsJoinRules (h : SlotOf "m.room.join_rules" slot) :
    currentJoinRule (redactSlot policy slot) = currentJoinRule slot := by
  have hreads : ReadsSame ["join_rule"] slot (redactSlot policy slot) :=
    h.readsSame (by simp [contentKeyAllowed])
  simp [currentJoinRule, hreads.hasContent, hreads.eventContentString "join_rule" (by simp)]

end Slots

/-! ### The rules on maps that read the same -/

/-- Maps whose slots answer the rules alike. -/
structure SameReadings (a b : AuthEventMap) : Prop where
  create : ReadsSame createKeys a.create b.create
  createEventId : b.createEventId = a.createEventId
  powerLevels : ReadsSame powerKeys a.powerLevels b.powerLevels
  joinRule : currentJoinRule b.joinRules = currentJoinRule a.joinRules
  senderMember : ReadsSame ["membership"] a.senderMember b.senderMember
  targetMember : ReadsSame ["membership"] a.targetMember b.targetMember
  authorisingUserMember :
    ReadsSame ["membership"] a.authorisingUserMember b.authorisingUserMember

lemma SlotTypes.sameReadings {authEvents : AuthEventMap} (h : SlotTypes authEvents)
    (hrules : policy.redactionRules = .roomV11Plus) :
    SameReadings authEvents (redactMap policy authEvents) where
  create := h.create.readsSame (by simp [createKeys, contentKeyAllowed, hrules])
  createEventId := rfl
  powerLevels := h.powerLevels.readsSame (by simp [powerKeys, contentKeyAllowed, hrules])
  joinRule := h.joinRules.readsJoinRules
  senderMember := h.senderMember.readsMember
  targetMember := h.targetMember.readsMember
  authorisingUserMember := h.authorisingUserMember.readsMember

namespace SameReadings

variable {a b : AuthEventMap} {event event' : Value} {obj obj' : Object}
  {sender stateKey eventType : Str}

section

variable (h : SameReadings a b)

include h

lemma senderMembership : currentMembership b.senderMember = currentMembership a.senderMember :=
  h.senderMember.currentMembership (by simp)

lemma targetMembership :
    targetMembership sender stateKey b = targetMembership sender stateKey a := by
  simp [Merovingian.targetMembership, h.senderMember.hasContent, h.senderMembership,
    h.targetMember.currentMembership (by simp)]

lemma authorizeKnock :
    authorizeKnock sender stateKey policy b = authorizeKnock sender stateKey policy a := by
  simp [Merovingian.authorizeKnock, h.targetMembership, h.joinRule]

variable (hrules : policy.redactionRules = .roomV11Plus)

include hrules

lemma powerOf (userId : Str) : powerOf policy b userId = powerOf policy a userId :=
  h.powerLevels.effectiveSenderPower h.create hrules userId

lemma authorizeLeave :
    authorizeLeave sender stateKey policy b = authorizeLeave sender stateKey policy a := by
  simp [Merovingian.authorizeLeave, h.targetMembership, h.powerOf hrules, h.senderMembership,
    h.powerLevels.scalarLevel "ban" (by simp [powerKeys]),
    h.powerLevels.scalarLevel "kick" (by simp [powerKeys])]

lemma authorizeBan :
    authorizeBan sender stateKey policy b = authorizeBan sender stateKey policy a := by
  simp [Merovingian.authorizeBan, h.powerOf hrules, h.senderMembership,
    h.powerLevels.scalarLevel "ban" (by simp [powerKeys])]

lemma authorizeInvite {sodium : Sodium} (hobj : thirdPartyInviteMember obj = none)
    (hobj' : thirdPartyInviteMember obj' = none) :
    authorizeInvite obj' sender stateKey policy b sodium =
      authorizeInvite obj sender stateKey policy a sodium := by
  simp [Merovingian.authorizeInvite, hobj, hobj', h.targetMembership, h.powerOf hrules,
    h.senderMembership, h.powerLevels.scalarLevel "invite" (by simp [powerKeys])]

lemma authorizeRestrictedJoin
    (huser : eventContentString event' "join_authorised_via_users_server" =
      eventContentString event "join_authorised_via_users_server")
    (hsigned : ∀ server, eventHasSignatureFromServer event' server =
      eventHasSignatureFromServer event server) :
    authorizeRestrictedJoin event' policy b = authorizeRestrictedJoin event policy a := by
  have hmembership : extractContentMembership b.authorisingUserMember =
      extractContentMembership a.authorisingUserMember := by
    rw [extractContentMembership, extractContentMembership,
      h.authorisingUserMember.eventContentString "membership" (by simp)]
  have hobject := h.authorisingUserMember.isObject
  have hkey := h.authorisingUserMember.stateKey
  simp only [Merovingian.authorizeRestrictedJoin, huser, hsigned, hmembership, h.powerOf hrules,
    h.powerLevels.scalarLevel "invite" (by simp [powerKeys])]
  cases hb : b.authorisingUserMember.asObject with
  | none =>
    cases ha : a.authorisingUserMember.asObject with
    | none => rfl
    | some member => simp [ha, hb] at hobject
  | some member' =>
    cases ha : a.authorisingUserMember.asObject with
    | none => simp [ha, hb] at hobject
    | some member =>
      have hstate : stringMember member' "state_key" = stringMember member "state_key" := by
        simpa [eventString, ha, hb] using hkey
      simp [hstate]

lemma authorizeJoin
    (huser : policy.restrictedJoinRule = true ∨ policy.knockRestrictedJoinRule = true →
      eventContentString event' "join_authorised_via_users_server" =
      eventContentString event "join_authorised_via_users_server")
    (hsigned : ∀ server, eventHasSignatureFromServer event' server =
      eventHasSignatureFromServer event server) :
    authorizeJoin event' sender stateKey policy b =
      authorizeJoin event sender stateKey policy a := by
  simp only [Merovingian.authorizeJoin, h.targetMembership, h.joinRule]
  by_cases hrestricted :
      policy.restrictedJoinRule = true ∨ policy.knockRestrictedJoinRule = true
  · rw [h.authorizeRestrictedJoin hrules (huser hrestricted) hsigned]
  · obtain ⟨hr, hk⟩ := not_or.mp hrestricted
    simp [hr, hk]

lemma isCreatorBootstrap (hprev : arrayMember obj' "prev_events" = arrayMember obj "prev_events")
    (hroom : stringMember obj' "room_id" = stringMember obj "room_id") :
    isCreatorBootstrap (.obj obj') stateKey policy b =
      isCreatorBootstrap (.obj obj) stateKey policy a := by
  simp only [Merovingian.isCreatorBootstrap, solePrevEventIsCreate, asObject_obj, hprev,
    hroom, h.createEventId, h.create.roomCreatorUserId hrules]

lemma authorizeBySender (hpl : eventType ≠ "m.room.power_levels")
    (hkey : stringMember obj' "state_key" = stringMember obj "state_key") :
    authorizeBySender obj' sender policy b eventType =
      authorizeBySender obj sender policy a eventType := by
  simp [Merovingian.authorizeBySender, h.senderMembership, h.powerOf hrules, if_neg hpl, hkey,
    h.powerLevels.scalarLevel "invite" (by simp [powerKeys]),
    h.powerLevels.requiredStateEventPower, h.powerLevels.requiredMessagePower]

end

end SameReadings

/-! ### The redacted event -/

lemma arrayMember_redactObject :
    arrayMember (redactObject object policy) "prev_events" = arrayMember object "prev_events" := by
  rw [arrayMember, objectMember_redactObject_base policy object (by decide) (by simp) (by simp)]
  rfl

lemma stringMember_redactObject_roomId {object : Object}
    (htype : stringMember object "type" = some eventType) (hne : eventType ≠ "m.room.create") :
    stringMember (redactObject object policy) "room_id" = stringMember object "room_id" := by
  have hsurvives : memberSurvives (stringMember object "type") policy "room_id" = true := by
    simp [memberSurvives, keyIsAllowed, baseKeyIsAllowed, htype, hne]
  have hkeep : redactMember (stringMember object "type") policy "room_id" = id := by
    funext value
    simp [redactMember, htype]
  rw [stringMember, objectMember_redactObject, if_pos hsurvives, hkeep, map_id_fun]
  rfl

lemma eventHasSignatureFromServer_redactObject (server : Str) :
    eventHasSignatureFromServer (.obj (redactObject object policy)) server =
      eventHasSignatureFromServer (.obj object) server := by
  have hsignatures : objectMemberAsObject (redactObject object policy) "signatures" =
      objectMemberAsObject object "signatures" := by
    rw [objectMemberAsObject,
      objectMember_redactObject_base policy object (by decide) (by simp) (by simp)]
    rfl
  simp [eventHasSignatureFromServer, hsignatures]

section Member

variable {object : Object} (htype : stringMember object "type" = some (lit "m.room.member"))
include htype

lemma extractContentMembership_redactObject :
    extractContentMembership (.obj (redactObject object policy)) =
      extractContentMembership (.obj object) := by
  simp only [extractContentMembership, eventContentString_eq]
  rw [contentMember_redactObject htype (by simp [contentKeyAllowed]) (by simp)]

lemma joinAuthorisation_redactObject (hkeeps : policy.redactionKeepsJoinAuthorisation = true) :
    eventContentString (.obj (redactObject object policy)) "join_authorised_via_users_server" =
      eventContentString (.obj object) "join_authorised_via_users_server" := by
  rw [eventContentString_eq, eventContentString_eq,
    contentMember_redactObject htype (by simp [contentKeyAllowed, hkeeps]) (by simp)]

/-- Redaction adds no third-party invite. -/
lemma thirdPartyInviteMember_redactObject (h : thirdPartyInviteMember object = none) :
    thirdPartyInviteMember (redactObject object policy) = none := by
  simp only [thirdPartyInviteMember, objectMemberAsObject,
    objectMember_redactObject_content policy object htype] at h ⊢
  cases hcontent : objectMember object "content" with
  | none => rfl
  | some content =>
    simp only [hcontent, map_some, redactContent] at h ⊢
    cases hobject : content.asObject with
    | none => rfl
    | some members =>
      simp only [hobject, asObject_obj, bind_some, objectMember_keepMembers] at h ⊢
      simp [h]

end Member

/-- The event carries a third-party invite for its target. -/
def IsThirdPartyInvite (object : Object) : Prop :=
  stringMember object "type" = some (lit "m.room.member") ∧
    extractContentMembership (.obj object) = "invite" ∧ thirdPartyInviteMember object ≠ none

section Decision

variable {object : Object} {authEvents : AuthEventMap} {sodium : Sodium} {sender : Str}

variable (hrules : policy.redactionRules = .roomV11Plus)
  (hkeeps : policy.restrictedJoinRule = true ∨ policy.knockRestrictedJoinRule = true →
    policy.redactionKeepsJoinAuthorisation = true)
  (hslots : SlotTypes authEvents) (hinvite : ¬ IsThirdPartyInvite object)

include hrules hkeeps hslots hinvite

lemma authorizeMember_redact (htype : stringMember object "type" = some (lit "m.room.member")) :
    authorizeMember (.obj (redactObject object policy)) (redactObject object policy) sender policy
        (redactMap policy authEvents) sodium =
      authorizeMember (.obj object) object sender policy authEvents sodium := by
  have h := hslots.sameReadings hrules
  unfold authorizeMember
  rw [stateKey_redactObject, extractContentMembership_redactObject htype]
  cases stringMember object "state_key" with
  | none => rfl
  | some stateKey =>
    cases hparse : parseMembershipState (extractContentMembership (.obj object)) with
    | none => rfl
    | some requested =>
      have hm := parseMembershipState_eq_some hparse
      cases requested with
      | join =>
        simp [h.isCreatorBootstrap hrules (arrayMember_redactObject object)
            (stringMember_redactObject_roomId htype (by simp)),
          h.authorizeJoin hrules (fun hr => joinAuthorisation_redactObject htype (hkeeps hr))
            (eventHasSignatureFromServer_redactObject object)]
      | invite =>
        have hnone : thirdPartyInviteMember object = none := by
          by_contra hsome
          exact hinvite ⟨htype, hm, hsome⟩
        simp [h.authorizeInvite hrules hnone (thirdPartyInviteMember_redactObject htype hnone)]
      | leave => simp only [h.authorizeLeave hrules]
      | ban => simp only [h.authorizeBan hrules]
      | knock => simp [h.authorizeKnock]

lemma authorize_redact (hcreate : stringMember object "type" ≠ some (lit "m.room.create"))
    (hpl : stringMember object "type" ≠ some (lit "m.room.power_levels")) :
    authorizeEventAgainstAuthEvents sodium (.obj (redactObject object policy)) policy
        (redactMap policy authEvents) =
      authorizeEventAgainstAuthEvents sodium (.obj object) policy authEvents := by
  have h := hslots.sameReadings hrules
  simp only [authorizeEventAgainstAuthEvents, asObject_obj, stringMember_redactObject_type,
    sender_redactObject]
  cases htype : stringMember object "type" with
  | none => simp only
  | some eventType =>
    rw [htype, ne_eq, some.injEq] at hcreate hpl
    cases stringMember object "sender" with
    | none => simp only
    | some sender =>
      have hroom : authorizeInRoom sodium (.obj (redactObject object policy))
          (redactObject object policy) eventType sender policy (redactMap policy authEvents) =
            authorizeInRoom sodium (.obj object) object eventType sender policy authEvents := by
        simp only [authorizeInRoom, h.create.hasContent, h.create.federationProblem,
          authorizeAliases, stateKey_redactObject,
          h.authorizeBySender hrules hpl (stateKey_redactObject object)]
        by_cases hmember : eventType = "m.room.member"
        · subst hmember
          rw [authorizeMember_redact hrules hkeeps hslots hinvite htype]
        · simp [if_neg hmember]
      simp [if_neg hcreate, hroom]

end Decision

/-- From room version 11 on, authorization allows an event against a state exactly when it allows
the redacted event against the redacted state. -/
theorem redaction_keeps_authorization (sodium : Sodium) (policy : RoomVersionPolicy)
    (object : Object) (authEvents : AuthEventMap) (hrules : policy.redactionRules = .roomV11Plus)
    -- every version of the table qualifies; so does any policy that keeps what its rules read
    (hpolicy : policy ∈ knownRoomVersions ∨
      (policy.restrictedJoinRule = true ∨ policy.knockRestrictedJoinRule = true →
        policy.redactionKeepsJoinAuthorisation = true)) (hslots : SlotTypes authEvents)
    (hcreate : stringMember object "type" ≠ some (lit "m.room.create"))
    (hpl : stringMember object "type" ≠ some (lit "m.room.power_levels"))
    (hinvite : ¬ IsThirdPartyInvite object) :
    ∃ redacted, redactEvent (.obj object) policy = .ok redacted ∧
      ((authorizeEventAgainstAuthEvents sodium redacted policy
          (redactMap policy authEvents)).allowed = true ↔
        (authorizeEventAgainstAuthEvents sodium (.obj object) policy authEvents).allowed = true) := by
  have hkeeps : policy.restrictedJoinRule = true ∨ policy.knockRestrictedJoinRule = true →
      policy.redactionKeepsJoinAuthorisation = true := by
    rcases hpolicy with hknown | hkeeps
    · exact fun _ => redactionKeepsJoinAuthorisation_of_known hknown hrules
    · exact hkeeps
  refine ⟨_, redactEvent_obj object policy, ?_⟩
  rw [authorize_redact hrules hkeeps hslots hinvite hcreate hpl]

/-- A restricted join of `@b:x`, authorised by `@a:x`, with a display name. -/
def restrictedJoin : Object :=
  [("type", .str "m.room.member"), ("sender", .str "@b:x"), ("state_key", .str "@b:x"),
    ("content", .obj [("membership", .str "join"), ("displayname", .str "B"),
      ("join_authorised_via_users_server", .str "@a:x")]),
    ("signatures", .obj [("x", .obj [("ed25519:1", .str "c2ln")])])]

/-- A restricted room of `@a:x`. -/
def restrictedRoom : AuthEventMap where
  create := .obj [("type", .str "m.room.create"), ("sender", .str "@a:x")]
  createEventId := "$create"
  joinRules := .obj [("type", .str "m.room.join_rules"),
    ("content", .obj [("join_rule", .str "restricted")])]
  authorisingUserMember := .obj [("type", .str "m.room.member"), ("state_key", .str "@a:x"),
    ("content", .obj [("membership", .str "join"), ("displayname", .str "A")])]

/-- Room version 11. -/
def roomVersionEleven : RoomVersionPolicy :=
  { id := "11", powerLevelsRequireIntegers := true, knockJoinRule := true,
    restrictedJoinRule := true, knockRestrictedJoinRule := true,
    redactionKeepsJoinAuthorisation := true }

/-- The restricted join is allowed once everything is redacted, since it was allowed before. -/
theorem redaction_keeps_restricted_join :
    ∃ redacted, redactEvent (.obj restrictedJoin) roomVersionEleven = .ok redacted ∧
      (authorizeEventAgainstAuthEvents exampleSodium redacted roomVersionEleven
        (redactMap roomVersionEleven restrictedRoom)).allowed = true := by
  have hslots : SlotTypes restrictedRoom :=
    ⟨.inr ⟨_, rfl, by decide⟩, .inl rfl, .inr ⟨_, rfl, by decide⟩, .inl rfl, .inl rfl,
      .inr ⟨_, rfl, by decide⟩⟩
  have hinvite : ¬ IsThirdPartyInvite restrictedJoin := by
    rintro ⟨-, h, -⟩
    exact absurd h (by decide)
  obtain ⟨redacted, hredacted, hiff⟩ := redaction_keeps_authorization exampleSodium
    roomVersionEleven restrictedJoin restrictedRoom rfl (.inl (by decide)) hslots (by decide)
    (by decide) hinvite
  exact ⟨redacted, hredacted, hiff.mpr (by decide)⟩

end Merovingian
