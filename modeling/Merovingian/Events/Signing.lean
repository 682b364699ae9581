import Merovingian.Crypto.Ed25519
import Merovingian.Events.Redaction
import Merovingian.Json.ReadBack

/-!
# Event ids and signatures

The models of `make_reference_hash_event_id` (`events/event_id.cpp`) and of
`make_event_signing_payload` and `attach_event_signature` (`events/event_signer.cpp`), and
the stability of an event's identity: the id and the payload are the same before and after
redaction, whatever stands under `unsigned` and `signatures`, and once a signature has been
attached and the signed text read back.
-/

namespace Merovingian

open Value List

/-! ### Reference hash and signing payload -/

def cloneWithoutFields (object : Object) (fields : List Str) : Object :=
  object.filter fun member => member.1 ∉ fields

def cloneWithoutUnsignedAndSignatures (object : Object) : Object :=
  object.filter fun member => member.1 ≠ "unsigned" && member.1 ≠ "signatures"

def serializeObjectWithout (event : Value) (fields : List Str) : SerializeResult :=
  match event.asObject with
  | none => .error .invalidString
  | some object => serializeCanonicalStrict (.obj (cloneWithoutFields object fields))

def encodedReferenceHash (sodium : Sodium) (event : Value) (policy : RoomVersionPolicy)
    (urlSafe : Bool) : Except Str Str :=
  match redactEvent event policy with
  | .error e => .error e
  | .ok redacted =>
    match serializeObjectWithout redacted ["signatures", "unsigned"] with
    | .error e => .error (canonicalJsonErrorName e)
    | .ok output => sha256Base64 sodium output urlSafe

def makeReferenceHashEventId (sodium : Sodium) (event : Value) (policy : RoomVersionPolicy) :
    Except Str Str :=
  match encodedReferenceHash sodium event policy policy.eventIdUrlSafeBase64 with
  | .error e => .error e
  | .ok hash => .ok ("$" ++ hash)

/-- `make_event_signing_payload` of a plain signed object. -/
def makeSignedJsonPayload (event : Value) : SerializeResult :=
  match event.asObject with
  | none => .error .invalidString
  | some object => serializeCanonicalStrict (.obj (cloneWithoutUnsignedAndSignatures object))

/-- `make_event_signing_payload` of an event in a room version. -/
def makeEventSigningPayload (event : Value) (policy : RoomVersionPolicy) : SerializeResult :=
  match event.asObject with
  | none => .error .invalidString
  | some _ =>
    match redactEvent event policy with
    | .error _ => .error .invalidString
    | .ok redacted =>
      match redacted.asObject with
      | none => .error .invalidString
      | some redactedObj =>
        serializeCanonicalStrict (.obj (cloneWithoutUnsignedAndSignatures redactedObj))

/-! ### Attaching a signature -/

structure SigningKeyId where
  serverName : Str
  keyId : Str
deriving DecidableEq, Repr

def signingKeyIdIsValid (keyId : SigningKeyId) : Bool :=
  !keyId.serverName.isEmpty && containsNoControlOrSpace keyId.serverName &&
    ed25519KeyIdIsValid keyId.keyId

/-- Overwrites the first member with this key, or appends one: the loop of
`upsert_server_signature` and `upsert_signature`. -/
def upsertMember (key : Str) (update : Option Value → Value) : Object → Object
  | [] => [(key, update none)]
  | (k, v) :: members =>
    if k = key then (k, update (some v)) :: members
    else (k, v) :: upsertMember key update members

/-- `clone_server_signatures`, and `clone_signature_object` of a present value. -/
def cloneObject (value : Value) : Object := value.asObject.getD []

def upsertServerSignature (serverSignatures : Object) (keyId : SigningKeyId) (signature : Str) :
    Object :=
  upsertMember keyId.keyId (fun _ => .str signature) serverSignatures

def upsertSignature (signatures : Object) (keyId : SigningKeyId) (signature : Str) : Object :=
  upsertMember keyId.serverName
    (fun
      | some serverValue => .obj (upsertServerSignature (cloneObject serverValue) keyId signature)
      | none => .obj [(keyId.keyId, .str signature)])
    signatures

/-- The object `attach_event_signature` serializes. -/
def signedObject (object : Object) (keyId : SigningKeyId) (signature : Str) : Object :=
  let signatures := ((objectMember object "signatures").map cloneObject).getD []
  (object.filter fun member => member.1 ≠ lit "signatures") ++
    [(lit "signatures", .obj (upsertSignature signatures keyId signature))]

def attachEventSignature (sodium : Sodium) (event : Value) (keyId : SigningKeyId)
    (signature : Str) : SerializeResult :=
  if !signingKeyIdIsValid keyId || !signatureIsValidShape sodium signature then
    .error .invalidString
  else match event.asObject with
    | none => .error .invalidString
    | some object => serializeCanonicalStrict (.obj (signedObject object keyId signature))

/-! ### What the id and the payload depend on -/

/-- The part of an event that is hashed and signed. -/
def identityObject (object : Object) (policy : RoomVersionPolicy) : Object :=
  cloneWithoutUnsignedAndSignatures (redactObject object policy)

lemma cloneWithoutFields_eq (o : Object) :
    cloneWithoutFields o ["signatures", "unsigned"] = cloneWithoutUnsignedAndSignatures o := by
  refine filter_congr fun m _ => ?_
  by_cases h : m.1 = "unsigned" <;> simp [h]

lemma makeEventSigningPayload_obj (o : Object) (policy : RoomVersionPolicy) :
    makeEventSigningPayload (.obj o) policy =
      serializeCanonicalStrict (.obj (identityObject o policy)) := rfl

lemma makeReferenceHashEventId_obj (sodium : Sodium) (o : Object) (policy : RoomVersionPolicy) :
    makeReferenceHashEventId sodium (.obj o) policy =
      match makeEventSigningPayload (.obj o) policy with
      | .error e => .error (canonicalJsonErrorName e)
      | .ok output =>
        (sha256Base64 sodium output policy.eventIdUrlSafeBase64).map fun hash => "$" ++ hash := by
  rw [makeEventSigningPayload_obj]
  simp only [makeReferenceHashEventId, encodedReferenceHash, redactEvent_obj,
    serializeObjectWithout, asObject_obj, cloneWithoutFields_eq, identityObject]
  cases serializeCanonicalStrict
    (.obj (cloneWithoutUnsignedAndSignatures (redactObject o policy))) with
  | error e => rfl
  | ok output =>
    simp only
    cases sha256Base64 sodium output policy.eventIdUrlSafeBase64 <;> rfl

variable {o ms p ns : Object} {policy : RoomVersionPolicy}

lemma makeReferenceHashEventId_congr (sodium : Sodium)
    (h : makeEventSigningPayload (.obj o) policy = makeEventSigningPayload (.obj p) policy) :
    makeReferenceHashEventId sodium (.obj o) policy =
      makeReferenceHashEventId sodium (.obj p) policy := by
  rw [makeReferenceHashEventId_obj, makeReferenceHashEventId_obj, h]

lemma stringMember_clone_type (o : Object) :
    stringMember (cloneWithoutUnsignedAndSignatures o) "type" = stringMember o "type" := by
  unfold stringMember cloneWithoutUnsignedAndSignatures
  rw [objectMember_filter (p := fun key => key ≠ "unsigned" && key ≠ "signatures") (by simp)]

/-- Redaction and stripping commute, so what is hashed is a function of what is not stripped. -/
lemma identityObject_eq (o : Object) (policy : RoomVersionPolicy) :
    identityObject o policy = redactObject (cloneWithoutUnsignedAndSignatures o) policy := by
  rw [redactObject, stringMember_clone_type]
  exact filter_keepMembers (memberSurvives (stringMember o "type") policy)
    (fun key => key ≠ "unsigned" && key ≠ "signatures") _ o

lemma clone_signedObject (o : Object) (keyId : SigningKeyId) (signature : Str) :
    cloneWithoutUnsignedAndSignatures (signedObject o keyId signature) =
      cloneWithoutUnsignedAndSignatures o := by
  unfold cloneWithoutUnsignedAndSignatures signedObject
  rw [filter_append, filter_filter]
  simp only [filter_cons, filter_nil, ne_eq, not_true_eq_false, decide_false,
    Bool.and_false, Bool.false_eq_true, if_false, append_nil]
  refine filter_congr fun m _ => ?_
  by_cases h : m.1 = "signatures" <;> simp

/-! ### Signatures under other keys -/

/-- The signature an object carries for a server and a key id. -/
def signatureOf (object : Object) (server key : Str) : Option Value :=
  ((objectMemberAsObject object "signatures").bind fun signatures =>
    objectMemberAsObject signatures server).bind fun serverSignatures =>
      objectMember serverSignatures key

lemma objectMember_upsertMember (key : Str) (update : Option Value → Value) (o : Object) (k : Str) :
    objectMember (upsertMember key update o) k =
      if k = key then some (update (objectMember o key)) else objectMember o k := by
  induction o with
  | nil =>
    rw [upsertMember, objectMember_cons]
    by_cases h : k = key
    · simp [h]
    · simp [h, Ne.symm h]
  | cons m o ih =>
    obtain ⟨l, v⟩ := m
    rw [upsertMember]
    by_cases hl : l = key
    · subst hl
      by_cases h : k = l
      · simp [h, objectMember_cons]
      · simp [h, Ne.symm h, objectMember_cons]
    · rw [if_neg hl, objectMember_cons, ih, objectMember_cons, objectMember_cons, if_neg hl]
      by_cases h : k = key
      · subst h
        rw [if_neg hl, if_pos rfl, if_pos rfl]
      · rw [if_neg h, if_neg h]

lemma objectMember_signedObject_signatures (o : Object) (keyId : SigningKeyId) (signature : Str) :
    objectMember (signedObject o keyId signature) "signatures" =
      some (.obj (upsertSignature (((objectMember o "signatures").map cloneObject).getD []) keyId
        signature)) := by
  have hnone : objectMember (o.filter fun member => member.1 ≠ "signatures") "signatures" = none := by
    rw [objectMember_eq_none]
    intro m hm
    simpa using (mem_filter.mp hm).2
  unfold signedObject
  rw [objectMember_append, hnone, Option.none_or, objectMember_cons, if_pos rfl]

lemma objectMember_clone_signatures (o : Object) (server : Str) :
    objectMember (((objectMember o "signatures").map cloneObject).getD []) server =
      (objectMemberAsObject o "signatures").bind fun signatures =>
        objectMember signatures server := by
  unfold objectMemberAsObject cloneObject
  cases objectMember o "signatures" with
  | none => rfl
  | some v => cases h : v.asObject <;> simp [h]

lemma signatureOf_signedObject (o : Object) (keyId : SigningKeyId) (signature : Str)
    {server key : Str} (hne : (server, key) ≠ (keyId.serverName, keyId.keyId)) :
    signatureOf (signedObject o keyId signature) server key = signatureOf o server key := by
  have hold : signatureOf o server key =
      ((objectMember (((objectMember o "signatures").map cloneObject).getD []) server).bind
        asObject).bind fun serverSignatures => objectMember serverSignatures key := by
    rw [objectMember_clone_signatures]
    unfold signatureOf
    cases objectMemberAsObject o "signatures" <;> rfl
  have hnew : signatureOf (signedObject o keyId signature) server key =
      ((objectMember (upsertSignature (((objectMember o "signatures").map cloneObject).getD [])
        keyId signature) server).bind asObject).bind fun serverSignatures =>
          objectMember serverSignatures key := by
    unfold signatureOf objectMemberAsObject
    rw [objectMember_signedObject_signatures]
    rfl
  rw [hold, hnew, upsertSignature, objectMember_upsertMember]
  split
  · -- the server that signs: its other keys are kept
    rename_i hserver
    subst hserver
    have hkey : key ≠ keyId.keyId := fun h => hne (by rw [h])
    cases objectMember (((objectMember o "signatures").map cloneObject).getD [])
      keyId.serverName with
    | none => simp [objectMember_cons, hkey.symm]
    | some v =>
      simp only [Option.bind_some, asObject_obj, upsertServerSignature,
        objectMember_upsertMember, if_neg hkey, cloneObject]
      cases v.asObject <;> simp
  · rfl

/-! ### The signed text, read back -/

lemma objectMember_eq_some_iff (hnd : (o.map Prod.fst).Nodup) {key : Str} {v : Value} :
    objectMember o key = some v ↔ (key, v) ∈ o :=
  ⟨mem_of_objectMember, objectMember_of_mem hnd⟩

lemma objectMember_perm (hnd : (o.map Prod.fst).Nodup) (h : o.Perm p) (key : Str) :
    objectMember p key = objectMember o key := by
  have hnd' : (p.map Prod.fst).Nodup := (h.map Prod.fst).nodup_iff.mp hnd
  ext v
  rw [objectMember_eq_some_iff hnd, objectMember_eq_some_iff hnd', h.mem_iff]

/-- What is read from two objects that differ in the order of members. -/
inductive SameRead : Option Value → Option Value → Prop
  | none : SameRead none none
  | some {v w : Value} : Strict v → SameUpToOrder v w → SameRead (some v) (some w)

lemma SameMembers.sameRead (h : SameMembers ms ns) (hs : StrictMembers ms) (key : Str) :
    SameRead (objectMember ms key) (objectMember ns key) := by
  induction ms generalizing ns with
  | nil => cases h; exact .none
  | cons m ms ih =>
    cases h with
    | cons hv htail =>
      rw [objectMember_cons, objectMember_cons]
      split
      · exact .some hs.1.2 hv
      · exact ih htail hs.2

lemma SameUpToOrder.sameRead (h : SameUpToOrder (.obj ms) (.obj ns))
    (hs : Strict (.obj ms)) (key : Str) : SameRead (objectMember ms key) (objectMember ns key) := by
  cases h with
  | obj hperm hmembers =>
    rw [← objectMember_perm hs.1 hperm]
    exact hmembers.sameRead (hs.2.perm hperm) key

lemma SameRead.asString_eq {a b : Option Value} (h : SameRead a b) :
    b.bind asString = a.bind asString := by
  cases h with
  | none => rfl
  | some _ h => cases h <;> rfl

/-- A rewriting of values that keeps them strict and does not look at the order of members. -/
def RespectsOrder (rewrite : Value → Value) : Prop :=
  ∀ v w, Strict v → SameUpToOrder v w → Strict (rewrite v) ∧ SameUpToOrder (rewrite v) (rewrite w)

lemma respectsOrder_id : RespectsOrder fun value => value :=
  fun _ _ hs h => ⟨hs, h⟩

variable {keep : Str → Bool} {rewrite : Str → Value → Value} {sodium : Sodium} {object : Object}
  {keyId : SigningKeyId} (policy : RoomVersionPolicy)

section

variable (hr : ∀ key, RespectsOrder (rewrite key))

include hr

lemma StrictMembers.keepMembers (hs : StrictMembers ms) :
    StrictMembers (keepMembers keep rewrite ms) := by
  refine strictMembers_iff.mpr fun m hm => ?_
  simp only [Merovingian.keepMembers, mem_map, mem_filter] at hm
  obtain ⟨m', ⟨hm', -⟩, rfl⟩ := hm
  obtain ⟨hkey, hv⟩ := strictMembers_iff.mp hs m' hm'
  exact ⟨hkey, (hr _ _ _ hv (SameUpToOrder.refl _)).1⟩

lemma Strict.keepMembers (hs : Strict (.obj ms)) : Strict (.obj (keepMembers keep rewrite ms)) := by
  refine ⟨?_, hs.2.keepMembers hr⟩
  have hkeys : (Merovingian.keepMembers keep rewrite ms).map Prod.fst =
      (ms.filter fun m => keep m.1).map Prod.fst := by
    rw [Merovingian.keepMembers, map_map]
    rfl
  rw [hkeys]
  exact hs.1.sublist (filter_sublist.map Prod.fst)

lemma SameMembers.keepMembers (h : SameMembers ms ns) (hs : StrictMembers ms) :
    SameMembers (keepMembers keep rewrite ms) (keepMembers keep rewrite ns) := by
  induction ms generalizing ns with
  | nil => cases h; exact .nil
  | cons m ms ih =>
    cases h with
    | cons hv htail =>
      rename_i k v w ns
      simp only [Merovingian.keepMembers] at ih ⊢
      by_cases hk : keep k = true
      · simp only [filter_cons, hk]
        exact .cons (hr k v w hs.1.2 hv).2 (ih htail hs.2)
      · simp only [filter_cons, hk]
        exact ih htail hs.2

lemma SameUpToOrder.keepMembers (hs : Strict (.obj ms)) (h : SameUpToOrder (.obj ms) (.obj ns)) :
    SameUpToOrder (.obj (keepMembers keep rewrite ms)) (.obj (keepMembers keep rewrite ns)) := by
  cases h with
  | obj hperm hmembers =>
    exact .obj ((hperm.filter _).map _) (hmembers.keepMembers hr (hs.2.perm hperm))

end

lemma respectsOrder_redactThirdPartyInvite : RespectsOrder redactThirdPartyInvite := by
  intro v w hs h
  cases h with
  | obj hperm hmembers =>
    rename_i ms ms' ns
    have hread := SameUpToOrder.sameRead (.obj hperm hmembers) hs (lit "signed")
    simp only [redactThirdPartyInvite, asObject_obj]
    generalize objectMember ms (lit "signed") = a at hread ⊢
    generalize objectMember ns (lit "signed") = b at hread ⊢
    cases hread with
    | none => exact ⟨by simp [Strict, StrictMembers], SameUpToOrder.refl _⟩
    | some hv hvw =>
      have hkey : stringIsValidForJson (lit "signed") = true := by decide
      exact ⟨⟨by simp, ⟨hkey, hv⟩, trivial⟩, .obj (List.Perm.refl _) (.cons hvw .nil)⟩
  | _ => exact ⟨by simp [redactThirdPartyInvite, asObject, Strict, StrictMembers],
      SameUpToOrder.refl _⟩

lemma respectsOrder_redactContentValue (key : Str) : RespectsOrder (redactContentValue key) := by
  unfold redactContentValue
  split
  · exact respectsOrder_redactThirdPartyInvite
  · exact respectsOrder_id

lemma respectsOrder_redactContent (eventType : Str) (policy : RoomVersionPolicy) :
    RespectsOrder fun content => redactContent content eventType policy := by
  intro v w hs h
  cases h with
  | obj hperm hmembers =>
    exact ⟨hs.keepMembers respectsOrder_redactContentValue,
      SameUpToOrder.keepMembers respectsOrder_redactContentValue hs (.obj hperm hmembers)⟩
  | _ => exact ⟨by simp [redactContent, asObject, Strict, StrictMembers],
      SameUpToOrder.refl _⟩

lemma respectsOrder_redactMember (eventType : Option Str) (policy : RoomVersionPolicy) (key : Str) :
    RespectsOrder (redactMember eventType policy key) := by
  cases eventType with
  | none => exact respectsOrder_id
  | some eventType =>
    unfold redactMember
    by_cases hkey : key = "content"
    · simpa [hkey] using respectsOrder_redactContent eventType policy
    · simpa [hkey] using respectsOrder_id

lemma clone_eq_keepMembers (o : Object) :
    cloneWithoutUnsignedAndSignatures o =
      keepMembers (fun key => key ≠ "unsigned" && key ≠ "signatures") (fun _ value => value) o := by
  simp [cloneWithoutUnsignedAndSignatures, keepMembers]

/-- What is hashed does not depend on the order of members. -/
lemma makeEventSigningPayload_of_same (hs : Strict (.obj o)) (h : SameUpToOrder (.obj o) (.obj p)) :
    makeEventSigningPayload (.obj p) policy = makeEventSigningPayload (.obj o) policy := by
  have htype : stringMember p "type" = stringMember o "type" :=
    (h.sameRead hs (lit "type")).asString_eq
  have hredact : SameUpToOrder (.obj (redactObject o policy)) (.obj (redactObject p policy)) := by
    rw [redactObject, redactObject, htype]
    exact h.keepMembers (respectsOrder_redactMember _ policy) hs
  have hstrict : Strict (.obj (redactObject o policy)) :=
    hs.keepMembers (respectsOrder_redactMember _ policy)
  have hid : ∀ _ : Str, RespectsOrder fun value => value := fun _ => respectsOrder_id
  rw [makeEventSigningPayload_obj, makeEventSigningPayload_obj, identityObject, identityObject,
    clone_eq_keepMembers, clone_eq_keepMembers]
  exact serializeCanonicalStrict_congr (hstrict.keepMembers hid) (hredact.keepMembers hid hstrict)

lemma SameRead.bind_asObject {a b : Option Value} {read : Object → Option Value} (h : SameRead a b)
    (hread : ∀ ms ns, Strict (.obj ms) → SameUpToOrder (.obj ms) (.obj ns) →
      SameRead (read ms) (read ns)) :
    SameRead ((a.bind asObject).bind read) ((b.bind asObject).bind read) := by
  cases h with
  | none => exact .none
  | some hs h =>
    cases h with
    | obj hperm hmembers => exact hread _ _ hs (.obj hperm hmembers)
    | _ => exact .none

lemma SameUpToOrder.signatureOf (h : SameUpToOrder (.obj o) (.obj p))
    (hs : Strict (.obj o)) (server key : Str) :
    SameRead (signatureOf o server key) (signatureOf p server key) := by
  rw [Merovingian.signatureOf, Option.bind_assoc, Merovingian.signatureOf, Option.bind_assoc]
  refine (h.sameRead hs (lit "signatures")).bind_asObject fun ms ns hms hsame => ?_
  exact (hsame.sameRead hms server).bind_asObject fun ms ns hms hsame => hsame.sameRead hms key

/-! ### Stability of the identity -/

/-- The objects that stand for the same event as `object`. -/
inductive EventVariant (sodium : Sodium) (policy : RoomVersionPolicy) (object : Object) :
    Object → Prop
  /-- Its redaction. -/
  | redacted {variant : Object} :
      redactEvent (.obj object) policy = .ok (.obj variant) →
        EventVariant sodium policy object variant
  /-- The event with anything, or nothing, under `unsigned` and `signatures`. -/
  | restripped {variant : Object} :
      cloneWithoutUnsignedAndSignatures variant = cloneWithoutUnsignedAndSignatures object →
        EventVariant sodium policy object variant
  /-- The object a signature has been attached to. -/
  | signed {keyId : SigningKeyId} {signature : Str} :
      signingKeyIdIsValid keyId = true → signatureIsValidShape sodium signature = true →
        EventVariant sodium policy object (signedObject object keyId signature)

lemma makeEventSigningPayload_of_clone_eq
    (h : cloneWithoutUnsignedAndSignatures p = cloneWithoutUnsignedAndSignatures o) :
    makeEventSigningPayload (.obj p) policy = makeEventSigningPayload (.obj o) policy := by
  rw [makeEventSigningPayload_obj, makeEventSigningPayload_obj, identityObject_eq,
    identityObject_eq, h]

lemma EventVariant.makeEventSigningPayload {variant : Object}
    (h : EventVariant sodium policy object variant) :
    makeEventSigningPayload (.obj variant) policy = makeEventSigningPayload (.obj object) policy := by
  cases h with
  | redacted h =>
    simp only [redactEvent_obj, Except.ok.injEq] at h
    rw [← h, makeEventSigningPayload_obj, makeEventSigningPayload_obj, identityObject,
      identityObject, redactObject_idem]
  | restripped h => exact makeEventSigningPayload_of_clone_eq policy h
  | signed _ _ =>
    exact makeEventSigningPayload_of_clone_eq policy (clone_signedObject object _ _)

lemma same_of_attachEventSignature {signature out : Str}
    {parsed : Value} (h : attachEventSignature sodium (.obj object) keyId signature = .ok out)
    (hparsed : serializeCanonicalStrict parsed = .ok out) :
    Strict (.obj (signedObject object keyId signature)) ∧
      ∃ members, parsed = .obj members ∧
        SameUpToOrder (.obj (signedObject object keyId signature)) (.obj members) := by
  have htext : serializeCanonicalStrict (.obj (signedObject object keyId signature)) = .ok out := by
    unfold attachEventSignature at h
    split at h
    · cases h
    · exact h
  have hsame := same_of_serialize_eq htext hparsed
  refine ⟨((serializeValue_eq_ok _).mp htext).1, ?_⟩
  cases hsame with
  | obj hperm hmembers => exact ⟨_, rfl, .obj hperm hmembers⟩

/-- An event keeps its id and its signing payload under redaction, under any change of
`unsigned` and `signatures` and under signing; and a new signature changes no other one. -/
theorem event_identity_stable (sodium : Sodium) (policy : RoomVersionPolicy) (object : Object) :
    (∃ redacted, redactEvent (.obj object) policy = .ok redacted ∧
      redactEvent redacted policy = .ok redacted) ∧
    (∀ variant, EventVariant sodium policy object variant →
      makeReferenceHashEventId sodium (.obj variant) policy =
        makeReferenceHashEventId sodium (.obj object) policy ∧
      makeEventSigningPayload (.obj variant) policy =
        makeEventSigningPayload (.obj object) policy) ∧
    (∀ keyId signature server key, (server, key) ≠ (keyId.serverName, keyId.keyId) →
      signatureOf (signedObject object keyId signature) server key =
        signatureOf object server key) ∧
    -- the text `attach_event_signature` returns, read back as any value with that text
    (∀ keyId signature out parsed,
      attachEventSignature sodium (.obj object) keyId signature = .ok out →
      serializeCanonicalStrict parsed = .ok out →
      makeReferenceHashEventId sodium parsed policy =
        makeReferenceHashEventId sodium (.obj object) policy ∧
      makeEventSigningPayload parsed policy = makeEventSigningPayload (.obj object) policy ∧
      ∃ members, parsed = .obj members ∧
        ∀ server key, (server, key) ≠ (keyId.serverName, keyId.keyId) →
          (signatureOf members server key).bind Value.asString =
            (signatureOf object server key).bind Value.asString) := by
  refine ⟨⟨_, rfl, by rw [redactEvent_obj, redactObject_idem]⟩, ?_, ?_, ?_⟩
  · intro variant h
    exact ⟨makeReferenceHashEventId_congr sodium h.makeEventSigningPayload,
      h.makeEventSigningPayload⟩
  · intro keyId signature server key hne
    exact signatureOf_signedObject object keyId signature hne
  · intro keyId signature out parsed h hparsed
    obtain ⟨hstrict, members, rfl, hsame⟩ := same_of_attachEventSignature h hparsed
    have hpayload : makeEventSigningPayload (.obj members) policy =
        makeEventSigningPayload (.obj object) policy :=
      (makeEventSigningPayload_of_same policy hstrict hsame).trans
        (makeEventSigningPayload_of_clone_eq policy (clone_signedObject object keyId signature))
    refine ⟨makeReferenceHashEventId_congr sodium hpayload, hpayload, members, rfl, ?_⟩
    intro server key hne
    rw [(hsame.signatureOf hstrict server key).asString_eq, signatureOf_signedObject _ _ _ hne]

/-- A base64 decoder that knows one signature. -/
def exampleSodium : Sodium where
  ready := true
  sha256 := fun input => some input
  bin2base64 := fun _ bytes => bytes
  base642bin := fun text => if text = "c2ln" then some (replicate 64 0) else none
  verifyDetached := fun _ _ _ => false

/-- An event signed by `a`. -/
def exampleEvent : Object :=
  [("type", .str "m.room.topic"), ("unsigned", .null),
    ("signatures", .obj [("a", .obj [("ed25519:1", .str "x")])])]

/-- `exampleEvent` signed by `b` as well, its members in another order. -/
def exampleSigned : Object :=
  [("signatures", .obj [("b", .obj [("ed25519:1", .str "c2ln")]),
    ("a", .obj [("ed25519:1", .str "x")])]), ("unsigned", .null), ("type", .str "m.room.topic")]

/-- Signing `exampleEvent` and reading it back keeps its id and payload. -/
theorem event_identity_stable_signed :
    makeReferenceHashEventId exampleSodium (.obj exampleSigned) { id := "11" } =
      makeReferenceHashEventId exampleSodium (.obj exampleEvent) { id := "11" } ∧
    makeEventSigningPayload (.obj exampleSigned) { id := "11" } =
      makeEventSigningPayload (.obj exampleEvent) { id := "11" } := by
  have htext : serializeCanonicalStrict (.obj exampleSigned) =
      .ok (lit ("\x7b\"signatures\":\x7b\"a\":\x7b\"ed25519:1\":\"x\"\x7d,\"b\":" ++
        "\x7b\"ed25519:1\":\"c2ln\"\x7d\x7d,\"type\":\"m.room.topic\",\"unsigned\":null\x7d")) := by
    decide
  obtain ⟨hid, hpayload, -⟩ := (event_identity_stable exampleSodium { id := "11" } exampleEvent).2.2.2
    ⟨lit "b", lit "ed25519:1"⟩ (lit "c2ln") _ (.obj exampleSigned) (by decide) htext
  exact ⟨hid, hpayload⟩

end Merovingian
