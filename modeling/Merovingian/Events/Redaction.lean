import Merovingian.Json.Value
import Merovingian.Rooms.RoomVersionPolicy

/-!
# Redaction

The model of `redact_event` (`events/redaction.cpp`): the keys of the event, and of its
content, that a room version keeps.  Both levels drop members by their key and rewrite the
value of some of the rest, so both are `keepMembers`, whose few lemmas say what is read
from a redacted object.
-/

namespace Merovingian

open List

/-! ### Keeping members -/

/-- The members whose key is kept, in order, with their values rewritten. -/
def keepMembers (keep : Str → Bool) (rewrite : Str → Value → Value) (object : Object) : Object :=
  (object.filter fun member => keep member.1).map fun member =>
    (member.1, rewrite member.1 member.2)

lemma objectMember_keepMembers (keep : Str → Bool) (rewrite : Str → Value → Value)
    (o : Object) (key : Str) :
    objectMember (keepMembers keep rewrite o) key =
      if keep key = true then (objectMember o key).map (rewrite key) else none := by
  rw [keepMembers, objectMember_map]
  split
  · rename_i hkeep
    rw [objectMember_filter hkeep]
  · rename_i hkeep
    rw [Option.map_eq_none_iff, objectMember_eq_none]
    intro m hm hkey
    have hkept := (mem_filter.mp hm).2
    exact hkeep (hkey ▸ hkept)

lemma filter_keepMembers (keep p : Str → Bool) (rewrite : Str → Value → Value) (o : Object) :
    ((keepMembers keep rewrite o).filter fun m => p m.1) =
      keepMembers keep rewrite (o.filter fun m => p m.1) := by
  simp only [keepMembers, filter_map, filter_filter]
  congr 1
  refine filter_congr fun m _ => ?_
  simp [Bool.and_comm]

/-! ### The keys that survive -/

def baseKeyIsAllowed (key : Str) : Bool :=
  key = "event_id" || key = "type" || key = "room_id" || key = "sender" || key = "state_key" ||
    key = "content" || key = "hashes" || key = "signatures" || key = "depth" ||
    key = "prev_events" || key = "auth_events" || key = "origin_server_ts"

def keyIsAllowed (key : Str) (policy : RoomVersionPolicy) : Bool :=
  if policy.redactionRules = .roomV1V7 ∨ policy.redactionRules = .roomV8V10 then
    baseKeyIsAllowed key || key = "origin" || key = "prev_state" || key = "membership"
  else
    baseKeyIsAllowed key

def contentKeyAllowed (eventType key : Str) (policy : RoomVersionPolicy) : Bool :=
  if eventType = "m.room.member" then
    key = "membership" ||
      (policy.redactionKeepsJoinAuthorisation && key = "join_authorised_via_users_server") ||
      (policy.redactionRules = .roomV11Plus && key = "third_party_invite")
  else if eventType = "m.room.create" then
    policy.redactionRules = .roomV11Plus || key = "creator"
  else if eventType = "m.room.join_rules" then
    let allowPreserved :=
      policy.redactionRules = .roomV8V10 || policy.redactionRules = .roomV11Plus
    key = "join_rule" || (allowPreserved && key = "allow")
  else if eventType = "m.room.power_levels" then
    key = "ban" || key = "events" || key = "events_default" || key = "kick" || key = "redact" ||
      key = "state_default" || key = "users" || key = "users_default" ||
      (policy.redactionRules = .roomV11Plus && key = "invite")
  else if eventType = "m.room.history_visibility" then
    key = "history_visibility"
  else if eventType = "m.room.aliases" then
    policy.redactionKeepsAliases && key = "aliases"
  else if eventType = "m.room.redaction" then
    policy.redactionRules = .roomV11Plus && key = "redacts"
  else
    false

/-! ### The redacted event -/

def redactThirdPartyInvite (value : Value) : Value :=
  match value.asObject with
  | none => .obj []
  | some object =>
    match objectMember object "signed" with
    | none => .obj []
    | some signedValue => .obj [("signed", signedValue)]

/-- What `redact_content` writes for a member it keeps. -/
def redactContentValue (key : Str) (value : Value) : Value :=
  if key = "third_party_invite" then redactThirdPartyInvite value else value

def redactContent (content : Value) (eventType : Str) (policy : RoomVersionPolicy) : Value :=
  match content.asObject with
  | none => .obj []
  | some object =>
    .obj (keepMembers (fun key => contentKeyAllowed eventType key policy) redactContentValue object)

/-- The test of `redact_event`'s loop: a version 12 create event has no `room_id`. -/
def memberSurvives (eventType : Option Str) (policy : RoomVersionPolicy) (key : Str) : Bool :=
  let createEventOmitsRoomId :=
    policy.createEventIsRoomId && eventType = some (lit "m.room.create")
  !(key = "room_id" && createEventOmitsRoomId) && keyIsAllowed key policy

/-- What `redact_event` writes for a member it keeps. -/
def redactMember (eventType : Option Str) (policy : RoomVersionPolicy) (key : Str) (value : Value) :
    Value :=
  match eventType with
  | none => value
  | some eventType => if key = "content" then redactContent value eventType policy else value

/-- The body of `redact_event`, on the event's object. -/
def redactObject (object : Object) (policy : RoomVersionPolicy) : Object :=
  let eventType := stringMember object "type"
  keepMembers (memberSurvives eventType policy) (redactMember eventType policy) object

def redactEvent (event : Value) (policy : RoomVersionPolicy) : Except Str Value :=
  match event.asObject with
  | none => .error "event must be an object"
  | some object => .ok (.obj (redactObject object policy))

@[simp] lemma redactEvent_obj (o : Object) (policy : RoomVersionPolicy) :
    redactEvent (.obj o) policy = .ok (.obj (redactObject o policy)) := rfl

/-! ### Reading a redacted event -/

variable (policy : RoomVersionPolicy)

lemma objectMember_redactObject (o : Object) (key : Str) :
    objectMember (redactObject o policy) key =
      if memberSurvives (stringMember o "type") policy key = true then
        (objectMember o key).map (redactMember (stringMember o "type") policy key) else none := by
  rw [redactObject, objectMember_keepMembers]

/-- The keys every room version keeps, apart from `room_id` and `content`, read the same. -/
lemma objectMember_redactObject_base (o : Object) {key : Str} (hbase : baseKeyIsAllowed key = true)
    (hroom : key ≠ "room_id") (hcontent : key ≠ "content") :
    objectMember (redactObject o policy) key = objectMember o key := by
  have hsurvives : memberSurvives (stringMember o "type") policy key = true := by
    simp [memberSurvives, keyIsAllowed, hbase, hroom]
  have hkeep : redactMember (stringMember o "type") policy key = id := by
    funext value
    cases htype : stringMember o "type" <;> simp [redactMember, hcontent]
  rw [objectMember_redactObject, if_pos hsurvives, hkeep, Option.map_id_fun, id]

@[simp] lemma stringMember_redactObject_type (o : Object) :
    stringMember (redactObject o policy) "type" = stringMember o "type" := by
  rw [stringMember, objectMember_redactObject_base policy o (by decide) (by simp) (by simp)]
  rfl

lemma objectMember_redactObject_content (o : Object) {eventType : Str}
    (htype : stringMember o "type" = some eventType) :
    objectMember (redactObject o policy) "content" =
      (objectMember o "content").map fun content => redactContent content eventType policy := by
  have hsurvives : memberSurvives (stringMember o "type") policy "content" = true := by
    simp [memberSurvives, keyIsAllowed, baseKeyIsAllowed]
  rw [objectMember_redactObject, if_pos hsurvives, htype]
  rfl

/-! ### Idempotence -/

lemma redactThirdPartyInvite_idem (v : Value) :
    redactThirdPartyInvite (redactThirdPartyInvite v) = redactThirdPartyInvite v := by
  unfold redactThirdPartyInvite
  cases v.asObject with
  | none => rfl
  | some o => cases h : objectMember o "signed" <;> simp [h, objectMember_cons]

lemma redactContentValue_idem (key : Str) (v : Value) :
    redactContentValue key (redactContentValue key v) = redactContentValue key v := by
  unfold redactContentValue
  split
  · exact redactThirdPartyInvite_idem v
  · rfl

lemma keepMembers_idem {keep : Str → Bool} {rewrite : Str → Value → Value} (o : Object)
    (h : ∀ key value, rewrite key (rewrite key value) = rewrite key value) :
    keepMembers keep rewrite (keepMembers keep rewrite o) = keepMembers keep rewrite o := by
  induction o with
  | nil => rfl
  | cons m o ih =>
    obtain ⟨k, v⟩ := m
    simp only [keepMembers] at ih ⊢
    by_cases hk : keep k = true <;> simp [hk, ih, h]

lemma redactContent_idem (content : Value) (eventType : Str) :
    redactContent (redactContent content eventType policy) eventType policy =
      redactContent content eventType policy := by
  unfold redactContent
  cases content.asObject with
  | none => rfl
  | some o => simp [keepMembers_idem o redactContentValue_idem]

lemma redactMember_idem (eventType : Option Str) (key : Str) (v : Value) :
    redactMember eventType policy key (redactMember eventType policy key v) =
      redactMember eventType policy key v := by
  cases eventType with
  | none => rfl
  | some eventType =>
    unfold redactMember
    by_cases hkey : key = "content"
    · simp [hkey, redactContent_idem]
    · simp [hkey]

lemma redactObject_idem (o : Object) :
    redactObject (redactObject o policy) policy = redactObject o policy := by
  have htype := stringMember_redactObject_type policy o
  rw [redactObject, htype]
  exact keepMembers_idem o (redactMember_idem policy _)

end Merovingian
