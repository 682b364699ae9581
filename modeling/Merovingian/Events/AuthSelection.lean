import Merovingian.Events.Authorization

/-!
# Auth-event selection

`permitted_auth_event_keys` lists the state a sender may cite for an event; the authorization rules
read slots of an `AuthEventMap`.  A decision depends on nothing but the create event and the slots
whose key is permitted, with one exception.  An invite whose third-party token is present but empty
is judged against the third-party invite slot, which is not permitted for it.
-/

namespace Merovingian

open Option

/-! ### The selection rule -/

def joinAuthorisingUser (event : Value) : Str :=
  if extractContentMembership event ≠ "join" then []
  else (eventContentString event "join_authorised_via_users_server").getD []

/-- The `signed` object of an event's third-party invite. -/
def signedInvite (event : Value) : Option Object :=
  ((contentObject event).bind (objectMemberAsObject · "third_party_invite")).bind
    (objectMemberAsObject · "signed")

def thirdPartyInviteToken (event : Value) : Str :=
  ((signedInvite event).bind (stringMember · "token")).getD []

def permittedAuthEventKeys (pdu : Value) (policy : RoomVersionPolicy) (eventType sender : Str)
    (stateKey : Option Str) (token : Str) : List (Str × Str) :=
  if eventType = "m.room.create" then []
  else
    let create := if policy.createEventIsRoomId then [] else [(lit "m.room.create", [])]
    let always := [(lit "m.room.power_levels", []), (lit "m.room.member", sender)]
    let member :=
      match stateKey with
      | some stateKey =>
        if eventType = "m.room.member" then
          let membership := extractContentMembership pdu
          let authorised := joinAuthorisingUser pdu
          [(lit "m.room.member", stateKey)] ++
            (if membership = "join" ∨ membership = "invite" ∨ membership = "knock" then
              [(lit "m.room.join_rules", [])] else []) ++
            (if membership = "invite" ∧ token ≠ [] then
              [(lit "m.room.third_party_invite", token)] else []) ++
            (if membership = "join" ∧ authorised ≠ [] then
              [(lit "m.room.member", authorised)] else [])
        else []
      | none => []
    create ++ always ++ member

/-- The keys permitted for an event, called as its callers do with the event's own fields. -/
def permittedKeys (obj : Object) (policy : RoomVersionPolicy) : List (Str × Str) :=
  permittedAuthEventKeys (.obj obj) policy ((stringMember obj "type").getD [])
    ((stringMember obj "sender").getD []) (stringMember obj "state_key")
    (thirdPartyInviteToken (.obj obj))

/-! ### Slots and their keys -/

/-- The slots of an `AuthEventMap` besides the create event. -/
inductive AuthSlot where
  | powerLevels
  | joinRules
  | senderMember
  | targetMember
  | authorisingUserMember
  | thirdPartyInvite
deriving DecidableEq, Repr

/-- The event in a slot. -/
def AuthEventMap.get (authEvents : AuthEventMap) : AuthSlot → Value
  | .powerLevels => authEvents.powerLevels
  | .joinRules => authEvents.joinRules
  | .senderMember => authEvents.senderMember
  | .targetMember => authEvents.targetMember
  | .authorisingUserMember => authEvents.authorisingUserMember
  | .thirdPartyInvite => authEvents.thirdPartyInvite

/-- The type and state key of the state event that belongs in a slot. -/
def slotKey (obj : Object) : AuthSlot → Str × Str
  | .powerLevels => (lit "m.room.power_levels", [])
  | .joinRules => (lit "m.room.join_rules", [])
  | .senderMember => (lit "m.room.member", (stringMember obj "sender").getD [])
  | .targetMember => (lit "m.room.member", (stringMember obj "state_key").getD [])
  | .authorisingUserMember => (lit "m.room.member", joinAuthorisingUser (.obj obj))
  | .thirdPartyInvite => (lit "m.room.third_party_invite", thirdPartyInviteToken (.obj obj))

/-- Two maps with the same create event and the same events in every slot that the event may
cite. -/
structure AgreeOnPermitted (obj : Object) (policy : RoomVersionPolicy) (a b : AuthEventMap) :
    Prop where
  create : a.create = b.create
  createEventId : a.createEventId = b.createEventId
  slots : ∀ slot, slotKey obj slot ∈ permittedKeys obj policy → a.get slot = b.get slot

/-! ### What each rule reads -/

section Congruence

variable {event : Value} {obj : Object} {sender stateKey eventType : Str}
  {policy : RoomVersionPolicy} {a b : AuthEventMap} {sodium : Sodium}

/-- The slots every rule may read. -/
structure SameBase (a b : AuthEventMap) : Prop where
  create : a.create = b.create
  createEventId : a.createEventId = b.createEventId
  powerLevels : a.powerLevels = b.powerLevels
  senderMember : a.senderMember = b.senderMember

section

variable (h : SameBase a b)

include h

lemma SameBase.powerOf (userId : Str) : powerOf policy a userId = powerOf policy b userId := by
  rw [Merovingian.powerOf, Merovingian.powerOf, h.powerLevels, h.create]

lemma SameBase.authorizeBySender :
    authorizeBySender obj sender policy a eventType =
      authorizeBySender obj sender policy b eventType := by
  simp only [Merovingian.authorizeBySender, authorizePowerLevels, h.powerOf, h.senderMember,
    h.powerLevels, h.create]

lemma SameBase.authorizeBan :
    authorizeBan sender stateKey policy a = authorizeBan sender stateKey policy b := by
  simp [Merovingian.authorizeBan, h.powerOf, h.senderMember, h.powerLevels]

section

variable (htarget : a.targetMember = b.targetMember)

include htarget

lemma SameBase.targetMembership :
    targetMembership sender stateKey a = targetMembership sender stateKey b := by
  simp [Merovingian.targetMembership, h.senderMember, htarget]

lemma SameBase.authorizeLeave :
    authorizeLeave sender stateKey policy a = authorizeLeave sender stateKey policy b := by
  simp [Merovingian.authorizeLeave, h.targetMembership htarget, h.powerOf, h.senderMember,
    h.powerLevels]

lemma SameBase.authorizeKnock (hrules : a.joinRules = b.joinRules) :
    authorizeKnock sender stateKey policy a = authorizeKnock sender stateKey policy b := by
  simp [Merovingian.authorizeKnock, h.targetMembership htarget, hrules]

end

lemma SameBase.authorizeRestrictedJoin
    (huser : ∀ user, eventContentString event "join_authorised_via_users_server" = some user →
      user ≠ [] → a.authorisingUserMember = b.authorisingUserMember) :
    authorizeRestrictedJoin event policy a = authorizeRestrictedJoin event policy b := by
  unfold Merovingian.authorizeRestrictedJoin
  cases hname : eventContentString event "join_authorised_via_users_server" with
  | none => rfl
  | some user =>
    by_cases hempty : user = []
    · simp [hempty]
    · simp [huser user hname hempty, h.powerOf, h.powerLevels]

lemma SameBase.authorizeJoin (htarget : a.targetMember = b.targetMember)
    (hrules : a.joinRules = b.joinRules)
    (huser : ∀ user, eventContentString event "join_authorised_via_users_server" = some user →
      user ≠ [] → a.authorisingUserMember = b.authorisingUserMember) :
    authorizeJoin event sender stateKey policy a =
      authorizeJoin event sender stateKey policy b := by
  simp [Merovingian.authorizeJoin, h.targetMembership htarget, hrules,
    h.authorizeRestrictedJoin huser]

lemma SameBase.isCreatorBootstrap :
    isCreatorBootstrap event stateKey policy a = isCreatorBootstrap event stateKey policy b := by
  simp only [Merovingian.isCreatorBootstrap, solePrevEventIsCreate, h.createEventId, h.create]

end

lemma authorizeThirdPartyInvite_congr {value : Value} {target : MembershipState} {x y : Value}
    (hslot : ∀ signedObj token,
      value.asObject.bind (objectMemberAsObject · "signed") = some signedObj →
      stringMember signedObj "mxid" = some stateKey → stringMember signedObj "token" = some token →
        x = y) :
    authorizeThirdPartyInvite sodium value stateKey sender target x =
      authorizeThirdPartyInvite sodium value stateKey sender target y := by
  unfold authorizeThirdPartyInvite
  split
  · rfl
  split
  · rfl
  rename_i signedObj hsigned
  split
  · rename_i mxid token hmxid htoken
    by_cases hne : mxid = stateKey
    · subst hne
      rw [hslot signedObj token hsigned hmxid htoken]
    · simp [hne]
  · rfl

end Congruence

/-! ### The exception -/

/-- An invite with an empty third-party token: the rules go on to compare it with the
third-party invite slot, but the selection rule does not permit any such event. -/
def EmptyTokenInvite (event : Value) : Prop :=
  ∃ obj sender stateKey signedObj, event = .obj obj ∧
    stringMember obj "type" = some (lit "m.room.member") ∧
    stringMember obj "sender" = some sender ∧ sender ≠ [] ∧
    stringMember obj "state_key" = some stateKey ∧ stateKey ≠ [] ∧
    extractContentMembership event = "invite" ∧ signedInvite event = some signedObj ∧
    stringMember signedObj "mxid" = some stateKey ∧ stringMember signedObj "token" = some []

section Agreement

variable {obj : Object} {sender stateKey eventType : Str} {policy : RoomVersionPolicy}
  {a b : AuthEventMap} {sodium : Sodium}

lemma AgreeOnPermitted.sameBase (h : AgreeOnPermitted obj policy a b)
    (htype : stringMember obj "type" = some eventType) (hcreate : eventType ≠ "m.room.create") :
    SameBase a b where
  create := h.create
  createEventId := h.createEventId
  powerLevels := h.slots .powerLevels (by
    simp [slotKey, permittedKeys, permittedAuthEventKeys, htype, hcreate])
  senderMember := h.slots .senderMember (by
    simp [slotKey, permittedKeys, permittedAuthEventKeys, htype, hcreate])

variable (h : AgreeOnPermitted obj policy a b)
  (htype : stringMember obj "type" = some (lit "m.room.member"))
  (hkey : stringMember obj "state_key" = some stateKey)

include h htype hkey

lemma AgreeOnPermitted.targetMember : a.targetMember = b.targetMember :=
  h.slots .targetMember (by simp [slotKey, permittedKeys, permittedAuthEventKeys, htype, hkey])

lemma AgreeOnPermitted.joinRules (hm : extractContentMembership (.obj obj) = "join" ∨
      extractContentMembership (.obj obj) = "invite" ∨
      extractContentMembership (.obj obj) = "knock") :
    a.joinRules = b.joinRules :=
  h.slots .joinRules (by simp [slotKey, permittedKeys, permittedAuthEventKeys, htype, hkey, hm])

lemma AgreeOnPermitted.authorisingUserMember (hm : extractContentMembership (.obj obj) = "join")
    {user : Str}
    (huser : eventContentString (.obj obj) "join_authorised_via_users_server" = some user)
    (hne : user ≠ []) : a.authorisingUserMember = b.authorisingUserMember := by
  have hname : joinAuthorisingUser (.obj obj) = user := by simp [joinAuthorisingUser, hm, huser]
  refine h.slots .authorisingUserMember ?_
  simp [slotKey, permittedKeys, permittedAuthEventKeys, htype, hkey, hm, hname, hne]

lemma AgreeOnPermitted.thirdPartyInvite (hm : extractContentMembership (.obj obj) = "invite")
    (htoken : thirdPartyInviteToken (.obj obj) ≠ []) : a.thirdPartyInvite = b.thirdPartyInvite :=
  h.slots .thirdPartyInvite (by
    simp [slotKey, permittedKeys, permittedAuthEventKeys, htype, hkey, hm, htoken])

end Agreement

lemma parseMembershipState_eq_some {membership : Str} {requested : MembershipState}
    (h : parseMembershipState membership = some requested) :
    membership = match requested with
      | .join => lit "join"
      | .invite => lit "invite"
      | .leave => lit "leave"
      | .ban => lit "ban"
      | .knock => lit "knock" := by
  unfold parseMembershipState at h
  split_ifs at h <;> cases h <;> assumption

section Decision

variable {obj : Object} {sender : Str} {policy : RoomVersionPolicy} {a b : AuthEventMap}
  {sodium : Sodium}

section Member

variable (h : AgreeOnPermitted obj policy a b)
  (htype : stringMember obj "type" = some (lit "m.room.member"))
  (hsender : stringMember obj "sender" = some sender) (hsenderNe : sender ≠ [])
  (hexc : ¬ EmptyTokenInvite (.obj obj))

include h htype hsender hsenderNe hexc

lemma AgreeOnPermitted.authorizeInvite {stateKey : Str}
    (hkey : stringMember obj "state_key" = some stateKey) (hkeyNe : stateKey ≠ [])
    (hm : extractContentMembership (.obj obj) = "invite") :
    authorizeInvite obj sender stateKey policy a sodium =
      authorizeInvite obj sender stateKey policy b sodium := by
  have hbase := h.sameBase htype (by simp)
  have htarget : targetMembership sender stateKey a = targetMembership sender stateKey b :=
    hbase.targetMembership (h.targetMember htype hkey)
  unfold Merovingian.authorizeInvite
  rw [htarget]
  cases hinvite : thirdPartyInviteMember obj with
  | none => simp only [hbase.powerOf, hbase.senderMember, hbase.powerLevels]
  | some value =>
    refine authorizeThirdPartyInvite_congr fun signedObj token hsigned hmxid htoken => ?_
    have hsignedInvite : signedInvite (.obj obj) = some signedObj := by
      have hcontent : (objectMemberAsObject obj "content").bind
          (objectMember · "third_party_invite") = some value := hinvite
      obtain ⟨content, hcontent, hvalue⟩ := bind_eq_some_iff.mp hcontent
      rw [signedInvite, contentObject, Value.asObject_obj, bind_some, hcontent,
        bind_some, objectMemberAsObject, hvalue]
      exact hsigned
    by_cases hempty : token = []
    · subst hempty
      exact absurd ⟨obj, sender, stateKey, signedObj, rfl, htype, hsender, hsenderNe, hkey, hkeyNe,
        hm, hsignedInvite, hmxid, htoken⟩ hexc
    · refine h.thirdPartyInvite htype hkey hm ?_
      simpa [thirdPartyInviteToken, hsignedInvite, htoken] using hempty

lemma AgreeOnPermitted.authorizeMember :
    authorizeMember (.obj obj) obj sender policy a sodium =
      authorizeMember (.obj obj) obj sender policy b sodium := by
  have hbase := h.sameBase htype (by simp)
  unfold Merovingian.authorizeMember
  cases hkey : stringMember obj "state_key" with
  | none => rfl
  | some stateKey =>
    by_cases hkeyNe : stateKey = []
    · simp [hkeyNe]
    have htarget := h.targetMember htype hkey
    cases hparse : parseMembershipState (extractContentMembership (.obj obj)) with
    | none => rfl
    | some requested =>
      have hm := parseMembershipState_eq_some hparse
      cases requested with
      | join =>
        have hrules := h.joinRules htype hkey (.inl hm)
        simp [hbase.isCreatorBootstrap, hbase.authorizeJoin htarget hrules
          fun user huser hne => h.authorisingUserMember htype hkey hm huser hne]
      | invite =>
        simp [h.authorizeInvite htype hsender hsenderNe hexc hkey hkeyNe hm]
      | leave => simp only [hbase.authorizeLeave htarget]
      | ban => simp only [hbase.authorizeBan]
      | knock =>
        have hrules := h.joinRules htype hkey (.inr (.inr hm))
        simp [hbase.authorizeKnock htarget hrules]

end Member

lemma AgreeOnPermitted.authorize (h : AgreeOnPermitted obj policy a b)
    (hexc : ¬ EmptyTokenInvite (.obj obj)) :
    authorizeEventAgainstAuthEvents sodium (.obj obj) policy a =
      authorizeEventAgainstAuthEvents sodium (.obj obj) policy b := by
  simp only [authorizeEventAgainstAuthEvents, Value.asObject_obj]
  cases htype : stringMember obj "type" with
  | none => simp only
  | some eventType =>
    cases hsender : stringMember obj "sender" with
    | none => simp only
    | some sender =>
      by_cases hempty : sender = []
      · simp [hempty]
      by_cases hcreate : eventType = "m.room.create"
      · simp [if_pos hcreate, authorizeCreate, h.create]
      · have hbase := h.sameBase htype hcreate
        have hroom : authorizeInRoom sodium (.obj obj) obj eventType sender policy a =
            authorizeInRoom sodium (.obj obj) obj eventType sender policy b := by
          unfold authorizeInRoom
          by_cases hmember : eventType = "m.room.member"
          · subst hmember
            simp [h.create, h.authorizeMember htype hsender hempty hexc]
          · simp [h.create, if_neg hmember, hbase.authorizeBySender]
        simp [if_neg hcreate, hroom]

end Decision

/-! ### The selection rule is complete but for the exception -/

/-- A map whose third-party invite slot holds an event with an empty state key. -/
def emptyKeyInviteMap : AuthEventMap where
  create := .obj []
  thirdPartyInvite := .obj [("state_key", .str [])]

/-- The same room without any third-party invite. -/
def noInviteMap : AuthEventMap where
  create := .obj []

/-- The exceptional invite is told apart by a slot it may not cite. -/
lemma EmptyTokenInvite.decisions_differ {obj : Object} (h : EmptyTokenInvite (.obj obj))
    (sodium : Sodium) (policy : RoomVersionPolicy) :
    AgreeOnPermitted obj policy emptyKeyInviteMap noInviteMap ∧
      authorizeEventAgainstAuthEvents sodium (.obj obj) policy emptyKeyInviteMap ≠
        authorizeEventAgainstAuthEvents sodium (.obj obj) policy noInviteMap := by
  obtain ⟨obj', sender, stateKey, signedObj, heq, htype, hsender, hsenderNe, hkey, hkeyNe, hm,
    hsigned, hmxid, htoken⟩ := h
  obtain rfl : obj = obj' := Value.obj.inj heq
  have hempty : thirdPartyInviteToken (.obj obj) = [] := by
    simp [thirdPartyInviteToken, hsigned, htoken]
  constructor
  · refine ⟨rfl, rfl, fun slot hslot => ?_⟩
    cases slot with
    | thirdPartyInvite =>
      -- an empty token is not listed
      simp [slotKey, permittedKeys, permittedAuthEventKeys, hkey, hempty] at hslot
    | _ => rfl
  · -- the content carries the signed object under `third_party_invite`
    obtain ⟨invite, hinvite, hsignedObj⟩ := bind_eq_some_iff.mp hsigned
    obtain ⟨content, hcontent, hinviteObj⟩ := bind_eq_some_iff.mp hinvite
    obtain ⟨value, hvalue, hvalueObj⟩ := bind_eq_some_iff.mp hinviteObj
    have hmember : thirdPartyInviteMember obj = some value := by
      exact bind_eq_some_iff.mpr ⟨content, hcontent, hvalue⟩
    have hparse : parseMembershipState (lit "invite") = some .invite := by decide
    have hdecide : ∀ authEvents : AuthEventMap, authEvents.create = .obj [] →
        authEvents.senderMember = .null → authEvents.targetMember = .null →
        authorizeEventAgainstAuthEvents sodium (.obj obj) policy authEvents =
          authorizeThirdPartyInvite sodium value stateKey sender .leave
            authEvents.thirdPartyInvite := by
      intro authEvents hcreate hsm htm
      have hfederation : federationProblem sender (.obj []) = none := rfl
      simp [authorizeEventAgainstAuthEvents, htype, hsender, hsenderNe, lit_eq_nil,
        authorizeInRoom, hcreate, hfederation, authorizeMember, hkey, hkeyNe, hm, hparse,
        authorizeInvite, hmember, targetMembership, hsm, htm, currentMembership]
    have hfound : authorizeThirdPartyInvite sodium value stateKey sender .leave
        (.obj [("state_key", .str [])]) =
          makeDenied "6" "sender does not match m.room.third_party_invite sender" := by
      have hstateKey : stringMember [(lit "state_key", .str [])] "state_key" = some [] := by decide
      have hnoSender : stringMember [(lit "state_key", .str [])] "sender" = none := by decide
      simp [authorizeThirdPartyInvite, hvalueObj, hsignedObj, hmxid, htoken, hstateKey, hnoSender]
    have hmissing : authorizeThirdPartyInvite sodium value stateKey sender .leave .null =
        makeDenied "6" "no matching m.room.third_party_invite event for token" := by
      simp [authorizeThirdPartyInvite, hvalueObj, hsignedObj, hmxid, htoken]
    rw [hdecide emptyKeyInviteMap rfl rfl rfl, hdecide noInviteMap rfl rfl rfl]
    simp only [emptyKeyInviteMap, noInviteMap, hfound, hmissing]
    decide

/-- Maps that agree on the create event and on every slot the event may cite give the same
decision, exactly when the event is not an invite with an empty third-party token. -/
theorem authSelection_complete_iff (sodium : Sodium) (policy : RoomVersionPolicy) (obj : Object) :
    (∀ a b, AgreeOnPermitted obj policy a b →
      authorizeEventAgainstAuthEvents sodium (.obj obj) policy a =
        authorizeEventAgainstAuthEvents sodium (.obj obj) policy b) ↔
    ¬ EmptyTokenInvite (.obj obj) := by
  constructor
  · intro h hexc
    obtain ⟨hagree, hne⟩ := hexc.decisions_differ sodium policy
    exact hne (h _ _ hagree)
  · intro hexc a b hagree
    exact hagree.authorize hexc

/-- An Ed25519 public key, in base64 and in bytes. -/
def inviteKeyB64 : Str := "11qYAYKxCrfVS/7TyWQHOg7hcvPapiMlrwIaaPcHURo"

def inviteKey : Str :=
  [215, 90, 152, 1, 130, 177, 10, 183, 213, 75, 254, 211, 201, 100, 7, 58, 14, 225, 114, 243, 218,
    166, 35, 37, 175, 2, 26, 104, 247, 7, 81, 26]

/-- That key's signature of the canonical JSON of an invite of `@b:x` with an empty token. -/
def inviteSignatureB64 : Str :=
  "Ahpp8YkNGQGiZodfv0yWVHPTajJYl1pFZhZ2drUZ5kQrJcUuANN/4lgh5DXaYA8EhQGzbTl2gV2/WhWNPq3ACQ"

def inviteSignature : Str :=
  [2, 26, 105, 241, 137, 13, 25, 1, 162, 102, 135, 95, 191, 76, 150, 84, 115, 211, 106, 50, 88,
    151, 90, 69, 102, 22, 118, 118, 181, 25, 230, 68, 43, 37, 197, 46, 0, 211, 127, 226, 88, 33,
    228, 53, 218, 96, 15, 4, 133, 1, 179, 109, 57, 118, 129, 93, 191, 90, 21, 141, 62, 173, 192, 9]

/-- What libsodium answers for that key, signature and payload. -/
def inviteSodium : Sodium where
  ready := true
  sha256 := fun input => some input
  bin2base64 := fun _ bytes => bytes
  base642bin := fun text =>
    if text = inviteKeyB64 then some inviteKey
    else if text = inviteSignatureB64 then some inviteSignature
    else none
  verifyDetached := fun signature message publicKey =>
    signature = inviteSignature && publicKey = inviteKey &&
      message = "\x7b\"mxid\":\"@b:x\",\"token\":\"\"\x7d"

/-- `@a:x` invites `@b:x` on a third-party invite with an empty token. -/
def emptyTokenInvite : Object :=
  [("type", .str "m.room.member"), ("sender", .str "@a:x"), ("state_key", .str "@b:x"),
    ("content", .obj [("membership", .str "invite"),
      ("third_party_invite", .obj [("signed", .obj [("mxid", .str "@b:x"), ("token", .str ""),
        ("signatures", .obj [("x", .obj [("ed25519:1", .str inviteSignatureB64)])])])])])]

/-- A room of `@a:x` whose state has the third-party invite under the empty state key. -/
def roomWithThirdPartyInvite : AuthEventMap where
  create := .obj [("type", .str "m.room.create"), ("sender", .str "@a:x")]
  createEventId := "$create"
  thirdPartyInvite := .obj [("type", .str "m.room.third_party_invite"), ("sender", .str "@a:x"),
    ("state_key", .str ""), ("content", .obj [("public_key", .str inviteKeyB64)])]

/-- The invite is allowed or refused by a state event that it may not cite. -/
theorem authSelection_incomplete :
    let withoutInvite := { roomWithThirdPartyInvite with thirdPartyInvite := .null }
    AgreeOnPermitted emptyTokenInvite { id := "11" } roomWithThirdPartyInvite withoutInvite ∧
    (authorizeEventAgainstAuthEvents inviteSodium (.obj emptyTokenInvite) { id := "11" }
      roomWithThirdPartyInvite).allowed = true ∧
    (authorizeEventAgainstAuthEvents inviteSodium (.obj emptyTokenInvite) { id := "11" }
      withoutInvite).allowed = false := by
  refine ⟨⟨rfl, rfl, fun slot hslot => ?_⟩, by decide, by decide⟩
  cases slot with
  | thirdPartyInvite => exact absurd hslot (by decide)
  | _ => rfl

end Merovingian
