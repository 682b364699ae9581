import Merovingian.Events.Authorization
import Mathlib.Data.Set.Finite.List

/-!
# No escalation through power levels

Along any chain of `m.room.power_levels` events, each authorized against the one before, no user
who is not a privileged creator can come to hold more power than the most powerful such user had at
the start.  The step is rules 9.5 to 9.9: a new level is at most the sender's power, which is a
level of the old event.
-/

namespace Merovingian

open Option List Set

variable {sodium : Sodium} {policy : RoomVersionPolicy} {create : Value} {event content : Object}
  {encoding : PowerLevelEncoding} {userId sender : Str} {senderPower level : Int64}

/-! ### Levels of an event -/

/-- The `users` object of a power-levels event. -/
def usersObject (event : Object) : Option Object :=
  (contentObject (.obj event)).bind (objectMemberAsObject · "users")

/-- The level an event gives a user it lists. -/
def explicitLevel (event : Object) (policy : RoomVersionPolicy) (userId : Str) : Option Int64 :=
  (usersObject event).bind fun users => powerLevelMember users userId (powerLevelEncoding policy)

/-- The level an event gives the users it does not list. -/
def usersDefault (event : Object) (policy : RoomVersionPolicy) : Int64 :=
  extractPowerLevelKey (.obj event) "users_default" 0 (powerLevelEncoding policy)

/-- The levels an event gives the users it lists. -/
def explicitLevels (event : Object) (policy : RoomVersionPolicy) : List Int64 :=
  ((usersObject event).getD []).filterMap fun entry => explicitLevel event policy entry.1

/-- The maximum of 0, `users_default` and every explicit user level. -/
def powerCeiling (event : Object) (policy : RoomVersionPolicy) : Int64 :=
  (explicitLevels event policy).foldr max (max 0 (usersDefault event policy))

lemma foldr_max_le {l : List Int64} {a b : Int64} : l.foldr max a ≤ b ↔ a ≤ b ∧ ∀ x ∈ l, x ≤ b := by
  induction l with
  | nil => simp
  | cons x l ih =>
    rw [foldr_cons, max_le_iff, forall_mem_cons]
    tauto

/-- A listed user is listed as an entry of `users`. -/
lemma mem_explicitLevels (h : explicitLevel event policy userId = some level) :
    level ∈ explicitLevels event policy := by
  obtain ⟨users, husers, hlevel⟩ := bind_eq_some_iff.mp h
  obtain ⟨value, hvalue, -⟩ := bind_eq_some_iff.mp hlevel
  refine mem_filterMap.mpr ⟨(userId, value), ?_, h⟩
  rw [husers]
  exact mem_of_objectMember hvalue

lemma powerCeiling_le {b : Int64} :
    powerCeiling event policy ≤ b ↔ 0 ≤ b ∧ usersDefault event policy ≤ b ∧
      ∀ userId level, explicitLevel event policy userId = some level → level ≤ b := by
  rw [powerCeiling, foldr_max_le, max_le_iff, and_assoc]
  refine and_congr_right fun _ => and_congr_right fun _ => ⟨?_, ?_⟩
  · intro h userId level hlevel
    exact h level (mem_explicitLevels hlevel)
  · intro h level hlevel
    obtain ⟨entry, -, hentry⟩ := mem_filterMap.mp hlevel
    exact h entry.1 level hentry

/-- The power of a user who is not a privileged creator is their explicit level, or the
default. -/
lemma effectiveSenderPower_eq (hcreator : userIsRoomCreator create userId policy = false) :
    effectiveSenderPower (.obj event) userId create policy =
      (explicitLevel event policy userId).getD (usersDefault event policy) := by
  simp only [effectiveSenderPower, hcreator, extractUserPowerLevel, explicitLevel, usersObject,
    usersDefault]
  cases hcontent : contentObject (.obj event) with
  | none => simp [extractPowerLevelKey, hcontent]
  | some content =>
    simp only [bind_some]
    cases objectMemberAsObject content "users" <;> rfl

/-- Every power of a user who is not a privileged creator is below the ceiling. -/
lemma effectiveSenderPower_le_ceiling (hcreator : userIsRoomCreator create userId policy = false) :
    effectiveSenderPower (.obj event) userId create policy ≤ powerCeiling event policy := by
  obtain ⟨-, hdefault, hexplicit⟩ := powerCeiling_le.mp (le_refl (powerCeiling event policy))
  rw [effectiveSenderPower_eq hcreator]
  cases hlevel : explicitLevel event policy userId with
  | none => exact hdefault
  | some level => exact hexplicit userId level hlevel

/-! ### A user nobody mentions -/

lemma finite_creators (create : Value) (policy : RoomVersionPolicy) :
    {userId | userIsRoomCreator create userId policy = true}.Finite := by
  -- the sender of the create event and the strings of `additional_creators`
  let additional := ((contentObject create).bind (arrayMember · "additional_creators")).getD []
  let sender := (create.asObject.bind (stringMember · "sender")).getD []
  refine ((additional.filterMap Value.asString).finite_toSet.union
    (finite_singleton sender)).subset ?_
  intro userId h
  simp only [mem_ofPred_eq, userIsRoomCreator] at h
  split at h
  · cases h
  split at h
  · cases h
  rename_i obj hobj
  split at h
  · rename_i hsender
    right
    simp [sender, hobj, hsender]
  split at h
  · cases h
  rename_i content hcontent
  split at h
  · cases h
  rename_i value hvalue
  left
  unfold arrayContainsString at h
  split at h
  · cases h
  rename_i array harray
  obtain ⟨element, helement, heq⟩ := any_eq_true.mp h
  refine mem_filterMap.mpr ⟨element, ?_, by simpa using heq⟩
  simpa [additional, contentObject, hobj, hcontent, arrayMember, hvalue, harray] using helement

/-- Some user is neither a privileged creator nor listed, so the default is some user's power. -/
lemma exists_power_eq_usersDefault (event : Object) (create : Value) (policy : RoomVersionPolicy) :
    ∃ userId, userIsRoomCreator create userId policy = false ∧
      effectiveSenderPower (.obj event) userId create policy = usersDefault event policy := by
  have hlisted : {userId | userId ∈ ((usersObject event).getD []).map Prod.fst}.Finite :=
    finite_toSet _
  obtain ⟨userId, hfresh⟩ := ((finite_creators create policy).union hlisted).exists_notMem
  simp only [mem_union, mem_ofPred_eq, not_or, Bool.not_eq_true] at hfresh
  refine ⟨userId, hfresh.1, ?_⟩
  rw [effectiveSenderPower_eq hfresh.1]
  cases hlevel : explicitLevel event policy userId with
  | none => rfl
  | some level =>
    obtain ⟨users, husers, hlevel⟩ := bind_eq_some_iff.mp hlevel
    obtain ⟨value, hvalue, -⟩ := bind_eq_some_iff.mp hlevel
    have hmem : userId ∈ ((usersObject event).getD []).map Prod.fst := by
      rw [husers]
      exact mem_map.mpr ⟨(userId, value), mem_of_objectMember hvalue, rfl⟩
    exact absurd hmem hfresh.2

/-! ### What an authorized change may do -/

/-- The bounds of rules 9.5, 9.8 and 9.9 on a change of power levels by a sender of power
`senderPower`. -/
structure BoundedChange (policy : RoomVersionPolicy) (sender : Str) (senderPower : Int64)
    (old new : Object) : Prop where
  /-- The default is kept, or the new one is within the sender's power. -/
  default_le : usersDefault new policy ≤ senderPower ∨
    usersDefault new policy ≤ max 0 (usersDefault old policy)
  /-- A level is kept, or the new one is within the sender's power. -/
  level_le : ∀ userId level, explicitLevel new policy userId = some level →
    level ≤ senderPower ∨ explicitLevel old policy userId = some level
  /-- Other users at or above the sender keep their level. -/
  peers_kept : ∀ userId level, userId ≠ sender → explicitLevel old policy userId = some level →
    senderPower ≤ level → explicitLevel new policy userId = some level

lemma contentObject_obj (event : Object) :
    contentObject (.obj event) = objectMemberAsObject event "content" := rfl

lemma authorizePowerLevels_allowed {obj old : Object} {authEvents : AuthEventMap}
    (hold : authEvents.powerLevels = .obj old)
    (h : (authorizePowerLevels obj sender policy authEvents).allowed = true) :
    ∃ content, objectMemberAsObject obj "content" = some content ∧
      requiredStateEventPower (.obj old) "m.room.power_levels" policy ≤
        powerOf policy authEvents sender ∧
      powerLevelsChangeRejectionReason (.obj old) content sender
        (powerOf policy authEvents sender) policy = none := by
  unfold authorizePowerLevels at h
  rw [hold] at h
  simp only at h
  split at h
  · cases h
  rename_i hpower
  split at h
  · cases h
  rename_i content hcontent
  split at h
  · cases h
  split at h
  · cases h
  split at h
  · rename_i hnull
    cases hnull
  split at h
  · cases h
  rename_i hchange
  exact ⟨content, hcontent, not_lt.mp hpower, hchange⟩

lemma scalarKeyRejectionReason_eq_none {old new : Object} {key : Str}
    (h : scalarKeyRejectionReason old new senderPower encoding key = none) :
    powerLevelMember new key encoding = powerLevelMember old key encoding ∨
      ∀ level, powerLevelMember new key encoding = some level → level ≤ senderPower := by
  unfold scalarKeyRejectionReason at h
  simp only at h
  split at h
  · rename_i heq
    exact .inl heq.symm
  split at h
  · cases h
  split at h
  · cases h
  rename_i hnew
  right
  intro level hlevel
  simpa [hlevel] using hnew

lemma elevatedUserReason_eq_none {oldUsers : Option Object} {value : Value}
    (h : elevatedUserReason oldUsers senderPower encoding (userId, value) = none)
    (hlevel : decodePowerLevel value encoding = some level) :
    level ≤ senderPower ∨
      (oldUsers.bind fun users => powerLevelMember users userId encoding) = some level := by
  simp only [elevatedUserReason, hlevel] at h
  split at h
  · cases h
  rename_i hcond
  rcases not_and_or.mp hcond with hsame | hle
  · exact .inr (not_not.mp hsame)
  · exact .inl (not_lt.mp hle)

lemma demotedUserReason_eq_none {oldUsers : Object} {newUsers : Option Object} {entry : Str × Value}
    (h : demotedUserReason oldUsers newUsers sender senderPower encoding entry = none)
    (hsender : entry.1 ≠ sender) (hlevel : powerLevelMember oldUsers entry.1 encoding = some level)
    (hpeer : senderPower ≤ level) :
    (newUsers.bind fun users => powerLevelMember users entry.1 encoding) = some level := by
  simp only [demotedUserReason, if_neg hsender, hlevel] at h
  split at h
  · cases h
  rename_i hcond
  by_contra hne
  exact hcond ⟨hne, hpeer⟩

section

variable (hcontent : objectMemberAsObject event "content" = some content)

include hcontent

lemma usersDefault_eq :
    usersDefault event policy =
      (powerLevelMember content "users_default" (powerLevelEncoding policy)).getD 0 := by
  rw [usersDefault, extractPowerLevelKey, contentObject_obj, hcontent]

lemma explicitLevel_eq (userId : Str) :
    explicitLevel event policy userId = (objectMemberAsObject content "users").bind fun users =>
      powerLevelMember users userId (powerLevelEncoding policy) := by
  rw [explicitLevel, usersObject, contentObject_obj, hcontent, bind_some]

end

/-- A change that no rule refuses is bounded. -/
lemma boundedChange_of_reason_none {old new oldContent newContent : Object}
    (hold : objectMemberAsObject old "content" = some oldContent)
    (hnew : objectMemberAsObject new "content" = some newContent)
    (h : powerLevelsChangeRejectionReason (.obj old) newContent sender senderPower policy = none) :
    BoundedChange policy sender senderPower old new := by
  simp only [powerLevelsChangeRejectionReason, contentObject_obj, hold, bind_some,
    or_eq_none_iff, findSome?_eq_none_iff] at h
  obtain ⟨⟨hscalar, -⟩, helevated, hdemoted⟩ := h
  refine ⟨?_, ?_, ?_⟩
  · have hkey := findSome?_eq_none_iff.mp hscalar "users_default" (by
      simp [scalarPowerLevelKeys])
    rw [usersDefault_eq hold, usersDefault_eq hnew]
    rcases scalarKeyRejectionReason_eq_none hkey with heq | hle
    · right
      rw [heq]
      exact le_max_right _ _
    · cases hlevel : powerLevelMember newContent "users_default" (powerLevelEncoding policy) with
      | none => exact .inr (le_max_left _ _)
      | some level => exact .inl (hle level hlevel)
  · intro userId level hlevel
    rw [explicitLevel_eq hnew] at hlevel
    rw [explicitLevel_eq hold]
    obtain ⟨users, husers, hlevel⟩ := bind_eq_some_iff.mp hlevel
    obtain ⟨value, hvalue, hdecode⟩ := bind_eq_some_iff.mp hlevel
    rw [husers] at helevated
    exact elevatedUserReason_eq_none (helevated _ (mem_of_objectMember hvalue)) hdecode
  · intro userId level hsender hlevel hpeer
    rw [explicitLevel_eq hold] at hlevel
    rw [explicitLevel_eq hnew]
    obtain ⟨users, husers, hlevel⟩ := bind_eq_some_iff.mp hlevel
    obtain ⟨value, hvalue, -⟩ := bind_eq_some_iff.mp hlevel
    rw [husers, bind_some, findSome?_eq_none_iff] at hdemoted
    exact demotedUserReason_eq_none (hdemoted _ (mem_of_objectMember hvalue)) hsender hlevel hpeer

/-! ### Steps and chains -/

/-- `new` is a power-levels event by a sender who is not a privileged creator, allowed with
`old` in the power-levels slot of some map over the room's create event. -/
def PowerLevelStep (sodium : Sodium) (policy : RoomVersionPolicy) (create : Value)
    (old new : Object) : Prop :=
  ∃ authEvents : AuthEventMap, authEvents.create = create ∧ authEvents.powerLevels = .obj old ∧
    stringMember new "type" = some (lit "m.room.power_levels") ∧
    (∀ sender, stringMember new "sender" = some sender →
      userIsRoomCreator create sender policy = false) ∧
    (authorizeEventAgainstAuthEvents sodium (.obj new) policy authEvents).allowed = true

/-- An authorized power-levels event is a bounded change by its sender.  A power-levels event
without a content object in the slot leaves every sender at 0, below the 50 that is then
required, so the old event has one. -/
lemma PowerLevelStep.boundedChange {old new : Object}
    (h : PowerLevelStep sodium policy create old new) :
    ∃ sender, stringMember new "sender" = some sender ∧
      userIsRoomCreator create sender policy = false ∧
      BoundedChange policy sender (effectiveSenderPower (.obj old) sender create policy) old new := by
  obtain ⟨authEvents, rfl, hold, htype, hcreator, hallowed⟩ := h
  obtain ⟨sender, hsender, hrule⟩ := authorize_allowed htype hallowed
  refine ⟨sender, hsender, hcreator sender hsender, ?_⟩
  have hpl : (authorizePowerLevels new sender policy authEvents).allowed = true := by
    rcases hrule with ⟨hcreate, -⟩ | haliases | ⟨hmember, -⟩ | ⟨-, -, hby⟩
    · exact absurd hcreate (by simp)
    · exact absurd haliases (by simp)
    · exact absurd hmember (by simp)
    unfold authorizeBySender at hby
    simp only at hby
    split at hby
    · cases hby
    rw [if_neg (by simp)] at hby
    split at hby
    · cases hby
    rwa [if_pos trivial] at hby
  obtain ⟨content, hcontent, hpower, hreason⟩ := authorizePowerLevels_allowed hold hpl
  have hsp : powerOf policy authEvents sender =
      effectiveSenderPower (.obj old) sender authEvents.create policy := by rw [powerOf, hold]
  rw [hsp] at hpower hreason
  cases hc : objectMemberAsObject old "content" with
  | some oldContent => exact boundedChange_of_reason_none hc hcontent hreason
  | none =>
    have hzero : effectiveSenderPower (.obj old) sender authEvents.create policy = 0 := by
      rw [effectiveSenderPower_eq (hcreator sender hsender)]
      simp [explicitLevel, usersObject, usersDefault, extractPowerLevelKey, contentObject_obj, hc]
    have hfifty : requiredStateEventPower (.obj old) "m.room.power_levels" policy = 50 := by
      simp [requiredStateEventPower, eventTypeLevel, extractPowerLevelKey, contentObject_obj, hc]
    rw [hzero, hfifty] at hpower
    exact absurd hpower (by decide)

/-- What a chain preserves: neither the ceiling nor a bound on the power of the users who are
not privileged creators can be passed. -/
structure NoEscalation (policy : RoomVersionPolicy) (create : Value) (old new : Object) : Prop where
  ceiling : powerCeiling new policy ≤ powerCeiling old policy
  bound : ∀ b, 0 ≤ b →
    (∀ userId, userIsRoomCreator create userId policy = false →
      effectiveSenderPower (.obj old) userId create policy ≤ b) →
    ∀ userId, userIsRoomCreator create userId policy = false →
      effectiveSenderPower (.obj new) userId create policy ≤ b

instance : Trans (NoEscalation policy create) (NoEscalation policy create)
    (NoEscalation policy create) where
  trans h h' :=
    { ceiling := h'.ceiling.trans h.ceiling
      bound := fun b hb hold => h'.bound b hb (h.bound b hb hold) }

lemma PowerLevelStep.noEscalation {old new : Object}
    (h : PowerLevelStep sodium policy create old new) : NoEscalation policy create old new := by
  obtain ⟨sender, -, hcreator, hchange⟩ := h.boundedChange
  obtain ⟨hzero, hdefault, hexplicit⟩ := powerCeiling_le.mp (le_refl (powerCeiling old policy))
  have hsender : effectiveSenderPower (.obj old) sender create policy ≤ powerCeiling old policy :=
    effectiveSenderPower_le_ceiling hcreator
  constructor
  · refine powerCeiling_le.mpr ⟨hzero, ?_, ?_⟩
    · rcases hchange.default_le with hle | hle
      · exact hle.trans hsender
      · exact hle.trans (max_le hzero hdefault)
    · intro userId level hlevel
      rcases hchange.level_le userId level hlevel with hle | hsame
      · exact hle.trans hsender
      · exact hexplicit userId level hsame
  · intro b hb hold userId huser
    rw [effectiveSenderPower_eq huser]
    cases hlevel : explicitLevel new policy userId with
    | none =>
      -- the default was the power of a user whom nobody mentions
      obtain ⟨other, hother, hpower⟩ := exists_power_eq_usersDefault old create policy
      rcases hchange.default_le with hle | hle
      · exact hle.trans (hold sender hcreator)
      · exact hle.trans (max_le hb (hpower ▸ hold other hother))
    | some level =>
      rcases hchange.level_le userId level hlevel with hle | hsame
      · exact hle.trans (hold sender hcreator)
      · have hpower := hold userId huser
        rwa [effectiveSenderPower_eq huser, hsame] at hpower

/-- Along a chain of authorized power-levels events the ceiling never rises, and each step
leaves the explicit level of every other user at or above the sender as it was. -/
theorem powerLevels_no_escalation (sodium : Sodium) (policy : RoomVersionPolicy) (create : Value)
    (chain : List Object) (hchain : chain.IsChain (PowerLevelStep sodium policy create)) :
    chain.Pairwise (NoEscalation policy create) ∧
    chain.IsChain fun old new => ∀ sender, stringMember new "sender" = some sender →
      ∀ userId level, userId ≠ sender → explicitLevel old policy userId = some level →
        effectiveSenderPower (.obj old) sender create policy ≤ level →
          explicitLevel new policy userId = some level := by
  constructor
  · exact (hchain.imp fun _ _ h => h.noEscalation).pairwise
  · refine hchain.imp fun old new h sender hsender => ?_
    obtain ⟨sender', hsender', -, hchange⟩ := h.boundedChange
    obtain rfl : sender' = sender := Option.some.inj (hsender' ▸ hsender)
    exact hchange.peers_kept

/-- A room whose administrator `@a:x` is alone at level 100. -/
def adminLevels : Object :=
  [("type", .str "m.room.power_levels"), ("content", .obj [("users", .obj [("@a:x", .int 100)])])]

/-- The administrator makes `@b:x` a moderator. -/
def moderatorLevels : Object :=
  [("type", .str "m.room.power_levels"), ("sender", .str "@a:x"), ("state_key", .str ""),
    ("content", .obj [("users", .obj [("@a:x", .int 100), ("@b:x", .int 50)])])]

/-- A create event by `@a:x`. -/
def createByAdmin : Value := .obj [("type", .str "m.room.create"), ("sender", .str "@a:x")]

lemma powerLevelStep_moderator :
    PowerLevelStep exampleSodium { id := "11", powerLevelsRequireIntegers := true } createByAdmin
      adminLevels moderatorLevels := by
  refine ⟨{ create := createByAdmin, powerLevels := .obj adminLevels,
            senderMember := .obj [("content", .obj [("membership", .str "join")])] },
    rfl, rfl, by decide, ?_, by decide⟩
  intro sender _
  rfl

/-- Adding a moderator leaves the ceiling at the administrator's level. -/
theorem powerLevels_no_escalation_moderator :
    NoEscalation { id := "11", powerLevelsRequireIntegers := true } createByAdmin adminLevels
      moderatorLevels := by
  have h := (powerLevels_no_escalation exampleSodium _ createByAdmin [adminLevels, moderatorLevels]
    (isChain_cons_cons.mpr ⟨powerLevelStep_moderator, isChain_singleton _⟩)).1
  exact rel_of_pairwise_cons h (by simp)

end Merovingian
