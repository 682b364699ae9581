import Merovingian.Http.RequestHead
import Merovingian.Ipc.IpcJsonStr
import Merovingian.Json.ParseJson
import Merovingian.Lib.Base64

/-!
# Federation requests between processes

The model of `serialize_fed_request` and `deserialize_fed_request` of
`ipc/federation_ipc_frames.cpp`.  The main process writes a request as a JSON text and the worker
reads it back.  A value that a remote server chose is written as a string if it is valid UTF-8 and
as base64, under another key, if it is not.  Credential headers are not written.

The frame is the text of a JSON value (`serializeFedRequest_eq`), which the parser gives back; what
the worker reads off it is the request without its credentials (`deserialize_serialize`).
-/

namespace Merovingian

open JsonText Http List

/-! ### Base64 -/

/-- libsodium's base64 of the original alphabet with padding; `none` where a call fails. -/
structure SodiumBase64 where
  ready : Bool
  bin2base64 : Str → Option Str
  base642bin : Str → Option Str

namespace SodiumBase64

/-- `base64_original_encode`, and the empty text where it gives nothing: `base64_encode_body`. -/
def encodeBody (sodium : SodiumBase64) (bytes : Str) : Str :=
  if bytes = [] || !sodium.ready then [] else (sodium.bin2base64 bytes).getD []

/-- `base64_original_decode`, and the empty text where it gives nothing: `base64_decode_body`. -/
def decodeBody (sodium : SodiumBase64) (encoded : Str) : Str :=
  if encoded = [] || !sodium.ready then [] else (sodium.base642bin encoded).getD []

/-- libsodium decodes what it encodes, which is ASCII. -/
structure Decodes (sodium : SodiumBase64) : Prop where
  ready : sodium.ready = true
  encode : ∀ bytes, bytes ≠ [] → ∃ text, sodium.bin2base64 bytes = some text ∧ text ≠ [] ∧
    Ascii text ∧ sodium.base642bin text = some bytes

variable {sodium : SodiumBase64} (hs : sodium.Decodes)

include hs

lemma Decodes.ascii_encodeBody (bytes : Str) : Ascii (sodium.encodeBody bytes) := by
  rw [encodeBody]
  split
  · simp [Ascii]
  · next hbytes =>
    obtain ⟨text, htext, -, hascii, -⟩ := hs.encode bytes (by simp_all)
    rwa [htext]

lemma Decodes.decodeBody_encodeBody (bytes : Str) :
    sodium.decodeBody (sodium.encodeBody bytes) = bytes := by
  by_cases hbytes : bytes = []
  · simp [encodeBody, decodeBody, hbytes]
  · obtain ⟨text, htext, hne, -, hdecode⟩ := hs.encode bytes hbytes
    simp [encodeBody, decodeBody, hbytes, hs.ready, htext, hne, hdecode]

end SodiumBase64

/-! ### Requests -/

structure LocalHttpRequest where
  method : Str := []
  target : Str := []
  accessToken : Str := []
  body : Str := []
  headers : List Header := []
  remoteAddr : Str := []
  sigVerified : Bool := false
  verifiedOrigin : Str := []
  verifiedKeyId : Str := []
  originServerTs : Option Int64 := none
deriving DecidableEq

def isCredentialHeaderName (name : Str) : Bool :=
  equalsAsciiCaseInsensitive name "authorization" || equalsAsciiCaseInsensitive name "x-matrix"

section Frames

variable (sodium : SodiumBase64)

/-! ### Writing -/

/-- What `append_lossless_member` appends. -/
def losslessMember (key value : Str) : Str :=
  34 :: (key ++
    if utf8IsValid value then lit "\":" ++ ipcJsonStr value
    else lit "_b64\":" ++ ipcJsonStr (sodium.encodeBody value))

/-- The text of a header. -/
def headerText (header : Header) : Str :=
  lit "\x7b\"n\":" ++ ipcJsonStr header.name ++ lit "," ++ losslessMember sodium "v" header.value ++
    lit "\x7d"

/-- The loop over the headers; `first` says that nothing has been written. -/
def headersText : Bool → List Header → Str
  | _, [] => []
  | first, header :: headers =>
    if isCredentialHeaderName header.name then headersText first headers
    else (if first then [] else [44]) ++ headerText sodium header ++ headersText false headers

def serializeFedRequest (request : LocalHttpRequest) : Str :=
  lit "\x7b\"type\":\"fed_request\",\"method\":" ++ ipcJsonStr request.method ++ lit "," ++
    losslessMember sodium "target" request.target ++
    lit ",\"remote_addr\":" ++ ipcJsonStr request.remoteAddr ++
    lit ",\"sig_verified\":" ++ (if request.sigVerified then lit "true" else lit "false") ++
    lit ",\"verified_origin\":" ++ ipcJsonStr request.verifiedOrigin ++
    lit ",\"verified_key_id\":" ++ ipcJsonStr request.verifiedKeyId ++
    lit ",\"headers\":[" ++ headersText sodium true request.headers ++ lit "]," ++
    losslessMember sodium "body" request.body ++ lit "\x7d"

/-! ### Reading -/

def getStr (object : Object) (key : Str) : Str := (stringMember object key).getD []

def getBool (object : Object) (key : Str) : Bool :=
  ((objectMember object key).bind Value.asBool).getD false

def getLosslessStr (object : Object) (key : Str) : Str :=
  if (objectMember object key).isSome then getStr object key
  else sodium.decodeBody (getStr object (key ++ lit "_b64"))

def extractHeaders (items : List Value) : List Header :=
  items.filterMap fun item =>
    item.asObject.bind fun object =>
      let name := getStr object "n"
      let value := getLosslessStr sodium object "v"
      if name = [] then none else some ⟨name, value⟩

def deserializeFedRequest (yyjson : YyjsonNumbers) (json : Str) : LocalHttpRequest :=
  match parseJson yyjson json with
  | .error _ => {}
  | .ok value =>
    match value.asObject with
    | none => {}
    | some object =>
      { method := getStr object "method"
        target := getLosslessStr sodium object "target"
        remoteAddr := getStr object "remote_addr"
        sigVerified := getBool object "sig_verified"
        verifiedOrigin := getStr object "verified_origin"
        verifiedKeyId := getStr object "verified_key_id"
        body := getLosslessStr sodium object "body"
        headers := ((arrayMember object "headers").map (extractHeaders sodium)).getD [] }

/-! ### The frame as a value -/

/-- The key a value is written under. -/
def losslessKey (key value : Str) : Str := if utf8IsValid value then key else key ++ lit "_b64"

/-- The string a value is written as. -/
def losslessText (value : Str) : Str :=
  if utf8IsValid value then value else sodium.encodeBody value

/-- The members of a header's object. -/
def headerObject (header : Header) : Object :=
  [(lit "n", .str (utf8Repair header.name)),
    (losslessKey "v" header.value, .str (losslessText sodium header.value))]

/-- The headers that are written. -/
def forwardedHeaders (headers : List Header) : List Header :=
  headers.filter fun header => !isCredentialHeaderName header.name

/-- The members of a frame. -/
def frameObject (request : LocalHttpRequest) : Object :=
  [(lit "type", .str (lit "fed_request")),
    (lit "method", .str (utf8Repair request.method)),
    (losslessKey "target" request.target, .str (losslessText sodium request.target)),
    (lit "remote_addr", .str (utf8Repair request.remoteAddr)),
    (lit "sig_verified", .bool request.sigVerified),
    (lit "verified_origin", .str (utf8Repair request.verifiedOrigin)),
    (lit "verified_key_id", .str (utf8Repair request.verifiedKeyId)),
    (lit "headers", .arr ((forwardedHeaders request.headers).map fun header =>
      .obj (headerObject sodium header))),
    (losslessKey "body" request.body, .str (losslessText sodium request.body))]

/-- What the worker makes of a request. -/
def received (request : LocalHttpRequest) : LocalHttpRequest where
  method := utf8Repair request.method
  target := request.target
  body := request.body
  headers := ((forwardedHeaders request.headers).filter fun header => header.name ≠ []).map
    fun header => { header with name := utf8Repair header.name }
  remoteAddr := utf8Repair request.remoteAddr
  sigVerified := request.sigVerified
  verifiedOrigin := utf8Repair request.verifiedOrigin
  verifiedKeyId := utf8Repair request.verifiedKeyId

end Frames

/-! ### The text of the frame -/

section Text

variable {sodium : SodiumBase64} (hs : sodium.Decodes)

include hs

lemma utf8IsValid_losslessText (value : Str) : utf8IsValid (losslessText sodium value) = true := by
  rw [losslessText]
  split
  · assumption
  · exact utf8IsValid_ascii (hs.ascii_encodeBody value)

/-- A member is the text of its key and its string, for the keys that need no escapes. -/
lemma losslessMember_eq {key : Str} (hkey : key.flatMap escapeByte = key) (value : Str) :
    losslessMember sodium key value =
      memberText (losslessKey key value, escapedString (losslessText sodium value)) := by
  have hsuffix : (lit "_b64").flatMap escapeByte = lit "_b64" := by decide
  have hcolon : lit "\":" = [34, 58] := by decide
  have hb64 : lit "_b64\":" = lit "_b64" ++ [34, 58] := by decide
  rw [losslessMember, memberText, losslessKey, losslessText]
  split
  · next hvalid =>
    rw [ipcJsonStr_eq, utf8Repair_of_valid hvalid, hcolon]
    simp [escapedString, hkey]
  · have hrepair := utf8Repair_of_valid (utf8IsValid_ascii (hs.ascii_encodeBody value))
    rw [ipcJsonStr_eq, hrepair, hb64]
    simp [escapedString, hkey, hsuffix]

lemma headerText_eq (header : Header) :
    headerText sodium header = renderValue (.obj (headerObject sodium header)) := by
  have hopen : lit "\x7b\"n\":" = 123 :: (escapedString (lit "n") ++ [58]) := by decide
  have hcomma : lit "," = [44] := by decide
  have hclose : lit "\x7d" = [125] := by decide
  rw [headerText, losslessMember_eq hs (by decide), ipcJsonStr_eq, hopen, hcomma, hclose]
  simp [renderValue, renderMembers, headerObject, objectText, commaSeparated, memberText]

omit hs in
lemma headersText_eq (first : Bool) (headers : List Header) :
    headersText sodium first headers =
      if first then commaSeparated ((forwardedHeaders headers).map (headerText sodium))
      else moreTexts ((forwardedHeaders headers).map (headerText sodium)) := by
  induction headers generalizing first with
  | nil => cases first <;> rfl
  | cons header headers ih =>
    rw [headersText, forwardedHeaders, filter_cons]
    by_cases hcredential : isCredentialHeaderName header.name = true
    · simp only [hcredential]
      exact ih first
    · simp only [hcredential, Bool.not_false, if_true, map_cons]
      rw [ih false]
      cases first
      · rfl
      · rw [if_pos rfl, commaSeparated_cons]
        rfl

/-- The frame is the text of its value. -/
theorem serializeFedRequest_eq (request : LocalHttpRequest) :
    serializeFedRequest sodium request = renderValue (.obj (frameObject sodium request)) := by
  have htype : lit "\x7b\"type\":\"fed_request\",\"method\":" =
      123 :: (memberText (lit "type", escapedString (lit "fed_request")) ++
        44 :: (escapedString (lit "method") ++ [58])) := by decide
  have haddr : lit ",\"remote_addr\":" = 44 :: (escapedString (lit "remote_addr") ++ [58]) := by decide
  have hverified : lit ",\"sig_verified\":" = 44 :: (escapedString (lit "sig_verified") ++ [58]) := by
    decide
  have horigin : lit ",\"verified_origin\":" =
      44 :: (escapedString (lit "verified_origin") ++ [58]) := by decide
  have hkeyId : lit ",\"verified_key_id\":" =
      44 :: (escapedString (lit "verified_key_id") ++ [58]) := by decide
  have hheaders : lit ",\"headers\":[" = 44 :: (escapedString (lit "headers") ++ [58, 91]) := by decide
  have hend : lit "]," = [93, 44] := by decide
  have hcomma : lit "," = [44] := by decide
  have hclose : lit "\x7d" = [125] := by decide
  have hitems : (forwardedHeaders request.headers).map (headerText sodium) =
      renderItems ((forwardedHeaders request.headers).map fun header =>
        .obj (headerObject sodium header)) := by
    induction forwardedHeaders request.headers with
    | nil => rfl
    | cons header headers ih => rw [map_cons, map_cons, renderItems, ih, headerText_eq hs]
  rw [serializeFedRequest, losslessMember_eq hs (by decide), losslessMember_eq hs (by decide),
    headersText_eq, hitems, htype, haddr, hverified, horigin, hkeyId, hheaders, hend,
    hcomma, hclose]
  simp only [ipcJsonStr_eq]
  simp [renderValue, renderMembers, frameObject, objectText, arrayText, commaSeparated, memberText]

end Text

/-! ### What the parser gives back -/

variable {yyjson : YyjsonNumbers}

section Parsing

variable {sodium : SodiumBase64} (request : LocalHttpRequest) (header : Header)

lemma nodup_headerObject : ((headerObject sodium header).map Prod.fst).Nodup := by
  simp only [headerObject, losslessKey, map_cons]
  cases utf8IsValid header.value <;> decide

lemma nodup_frameObject : ((frameObject sodium request).map Prod.fst).Nodup := by
  simp only [frameObject, losslessKey, map_cons]
  cases utf8IsValid request.target <;> cases utf8IsValid request.body <;> decide

variable {request header}

lemma utf8IsValid_losslessKey {key : Str} (hkey : Ascii key) (value : Str) :
    utf8IsValid (losslessKey key value) = true := by
  rw [losslessKey]
  split
  · exact utf8IsValid_ascii hkey
  · exact utf8IsValid_ascii (hkey.append (by decide))

variable (hs : sodium.Decodes)

include hs

lemma plain_headerObject (header : Header) : Plain (.obj (headerObject sodium header)) := by
  refine ⟨by simp [headerObject, maxObjectMembers], nodup_headerObject header, ?_⟩
  refine ⟨⟨by decide, utf8IsValid_utf8Repair _⟩, ⟨?_, utf8IsValid_losslessText hs _⟩, trivial⟩
  exact utf8IsValid_losslessKey (by decide) _

lemma plain_headers (headers : List Header) :
    PlainItems (headers.map fun header => .obj (headerObject sodium header)) := by
  induction headers with
  | nil => trivial
  | cons header headers ih => exact ⟨plain_headerObject hs header, ih⟩

lemma plain_frameObject (request : LocalHttpRequest) :
    Plain (.obj (frameObject sodium request)) := by
  refine ⟨by simp [frameObject, maxObjectMembers], nodup_frameObject request, ?_⟩
  have htype : utf8IsValid (lit "fed_request") = true := by decide
  refine ⟨⟨by decide, htype⟩, ⟨by decide, utf8IsValid_utf8Repair _⟩,
    ⟨utf8IsValid_losslessKey (by decide) _, utf8IsValid_losslessText hs _⟩,
    ⟨by decide, utf8IsValid_utf8Repair _⟩, ⟨by decide, trivial⟩,
    ⟨by decide, utf8IsValid_utf8Repair _⟩, ⟨by decide, utf8IsValid_utf8Repair _⟩,
    ⟨by decide, plain_headers hs _⟩,
    ⟨utf8IsValid_losslessKey (by decide) _, utf8IsValid_losslessText hs _⟩, trivial⟩

omit hs in
lemma nesting_frameObject (request : LocalHttpRequest) :
    nesting (.obj (frameObject sodium request)) ≤ maxDepth := by
  have hheaders : ∀ headers : List Header,
      nestingItems (headers.map fun header => .obj (headerObject sodium header)) ≤ 2 := by
    intro headers
    induction headers with
    | nil => simp [nestingItems]
    | cons header headers ih =>
      simpa [nestingItems, nesting, nestingMembers, headerObject] using ih
  have := hheaders (forwardedHeaders request.headers)
  simp only [nesting, nestingMembers, frameObject, maxDepth]
  omega

omit hs in
lemma numberFree_frameObject (request : LocalHttpRequest) :
    NumberFree (toTree (.obj (frameObject sodium request))) := by
  have hheaders : ∀ headers : List Header, NumberFreeItems
      (toTreeItems (headers.map fun header => .obj (headerObject sodium header))) := by
    intro headers
    induction headers with
    | nil => trivial
    | cons header headers ih => exact ⟨⟨trivial, trivial, trivial⟩, ih⟩
  exact ⟨trivial, trivial, trivial, trivial, trivial, trivial, trivial, hheaders _, trivial, trivial⟩

lemma parseJson_serializeFedRequest (hy : yyjson.ReadsJson) (request : LocalHttpRequest) :
    parseJson yyjson (serializeFedRequest sodium request) =
      .ok (.obj (frameObject sodium request)) := by
  rw [serializeFedRequest_eq hs]
  exact parseJson_renderValue hy (plain_frameObject hs request) (nesting_frameObject request)
    (numberFree_frameObject request)

end Parsing

/-! ### Reading the frame -/

section Reading

variable {sodium : SodiumBase64} {object : Object} {key value : Str}

lemma getStr_of_mem (hnodup : (object.map Prod.fst).Nodup) (h : (key, .str value) ∈ object) :
    getStr object key = value := by
  rw [getStr, stringMember, objectMember_of_mem hnodup h]
  rfl

/-- What was written losslessly is read back; a value that was written as base64 has nothing under
its own key. -/
lemma getLosslessStr_of_mem (hs : sodium.Decodes) (hnodup : (object.map Prod.fst).Nodup)
    (h : (losslessKey key value, .str (losslessText sodium value)) ∈ object)
    (habsent : utf8IsValid value = false → key ∉ object.map Prod.fst) :
    getLosslessStr sodium object key = value := by
  rw [losslessKey, losslessText] at h
  cases hvalid : utf8IsValid value with
  | true =>
    simp only [hvalid, if_true] at h
    rw [getLosslessStr, objectMember_of_mem hnodup h, if_pos (by rfl), getStr_of_mem hnodup h]
  | false =>
    simp only [hvalid, if_neg Bool.false_ne_true] at h
    have hnone : objectMember object key = none := by
      refine objectMember_eq_none.mpr fun member hmember heq => ?_
      exact habsent hvalid (heq ▸ mem_map_of_mem hmember)
    rw [getLosslessStr, hnone, if_neg (by simp), getStr_of_mem hnodup h, hs.decodeBody_encodeBody]

lemma extractHeaders_eq (hs : sodium.Decodes) (headers : List Header) :
    extractHeaders sodium (headers.map fun header => .obj (headerObject sodium header)) =
      (headers.filter fun header => header.name ≠ []).map
        fun header => { header with name := utf8Repair header.name } := by
  induction headers with
  | nil => rfl
  | cons header headers ih =>
    have hname : getStr (headerObject sodium header) "n" = utf8Repair header.name :=
      getStr_of_mem (nodup_headerObject header) (by simp [headerObject])
    have hvalue : getLosslessStr sodium (headerObject sodium header) "v" = header.value := by
      refine getLosslessStr_of_mem hs (nodup_headerObject header) (by simp [headerObject]) ?_
      intro hvalid
      simp only [headerObject, losslessKey, map_cons, hvalid]
      decide
    rw [map_cons, extractHeaders, filterMap_cons, Value.asObject_obj, Option.bind_some]
    simp only [hname, hvalue, utf8Repair_eq_nil]
    rw [← extractHeaders, ih]
    by_cases hempty : header.name = [] <;> simp [hempty]

/-- The worker reads the request without its credentials. -/
theorem deserialize_serialize (hy : yyjson.ReadsJson)
    (hs : sodium.Decodes) (request : LocalHttpRequest) :
    deserializeFedRequest sodium yyjson (serializeFedRequest sodium request) = received request := by
  have hnodup : ((frameObject sodium request).map Prod.fst).Nodup := nodup_frameObject request
  rw [deserializeFedRequest, parseJson_serializeFedRequest hs hy]
  simp only [Value.asObject_obj, received, LocalHttpRequest.mk.injEq, true_and, and_true]
  refine ⟨getStr_of_mem hnodup (by simp [frameObject]), ?_, ?_, ?_,
    getStr_of_mem hnodup (by simp [frameObject]), ?_,
    getStr_of_mem hnodup (by simp [frameObject]), getStr_of_mem hnodup (by simp [frameObject])⟩
  · refine getLosslessStr_of_mem hs hnodup (by simp [frameObject]) fun hvalid => ?_
    simp only [frameObject, losslessKey, map_cons, hvalid]
    cases utf8IsValid request.body <;> decide
  · refine getLosslessStr_of_mem hs hnodup (by simp [frameObject]) fun hvalid => ?_
    simp only [frameObject, losslessKey, map_cons, hvalid]
    cases utf8IsValid request.target <;> decide
  · have hmem : (lit "headers", Value.arr ((forwardedHeaders request.headers).map fun header =>
        .obj (headerObject sodium header))) ∈ frameObject sodium request := by simp [frameObject]
    rw [arrayMember, objectMember_of_mem hnodup hmem]
    exact extractHeaders_eq hs _
  · have hmem : (lit "sig_verified", Value.bool request.sigVerified) ∈ frameObject sodium request := by
      simp [frameObject]
    rw [getBool, objectMember_of_mem hnodup hmem]
    rfl

end Reading

/-! ### Losslessness and secrecy -/

/-- The fields that a frame carries as plain strings are valid, and no header is nameless. -/
structure Sendable (request : LocalHttpRequest) : Prop where
  method : utf8IsValid request.method = true
  remoteAddr : utf8IsValid request.remoteAddr = true
  verifiedOrigin : utf8IsValid request.verifiedOrigin = true
  verifiedKeyId : utf8IsValid request.verifiedKeyId = true
  headers : ∀ header ∈ request.headers, header.name ≠ [] ∧ utf8IsValid header.name = true

lemma received_of_sendable {request : LocalHttpRequest} (h : Sendable request) :
    received request = { request with
        accessToken := []
        originServerTs := none
        headers := forwardedHeaders request.headers } := by
  have hmem : ∀ header ∈ forwardedHeaders request.headers, header.name ≠ [] ∧
      utf8IsValid header.name = true :=
    fun header hheader => h.headers header (mem_of_mem_filter hheader)
  have hnamed : (forwardedHeaders request.headers).filter (fun header => header.name ≠ []) =
      forwardedHeaders request.headers :=
    filter_eq_self.mpr fun header hheader => decide_eq_true (hmem header hheader).1
  have hnames : (forwardedHeaders request.headers).map
      (fun header => { header with name := utf8Repair header.name }) =
        forwardedHeaders request.headers := by
    refine (map_congr_left fun header hheader => ?_).trans (map_id _)
    rw [utf8Repair_of_valid (hmem header hheader).2]
    rfl
  rw [received, hnamed, hnames, utf8Repair_of_valid h.method, utf8Repair_of_valid h.remoteAddr,
    utf8Repair_of_valid h.verifiedOrigin, utf8Repair_of_valid h.verifiedKeyId]

/-- A request with another token, another time and other values in its credential headers. -/
def reissue (accessToken : Str) (originServerTs : Option Int64) (value : Header → Str)
    (request : LocalHttpRequest) : LocalHttpRequest :=
  { request with
    accessToken := accessToken
    originServerTs := originServerTs
    headers := request.headers.map fun header =>
      if isCredentialHeaderName header.name then { header with value := value header } else header }

lemma forwardedHeaders_reissue (value : Header → Str) (headers : List Header) :
    forwardedHeaders (headers.map fun header =>
      if isCredentialHeaderName header.name then { header with value := value header } else header) =
      forwardedHeaders headers := by
  induction headers with
  | nil => rfl
  | cons header headers ih =>
    rw [forwardedHeaders, forwardedHeaders] at ih
    rw [map_cons, forwardedHeaders, forwardedHeaders, filter_cons, ih]
    by_cases hcredential : isCredentialHeaderName header.name = true <;> simp [hcredential]

/-- A request crosses the process boundary without its credentials and without loss.  Whatever its
bytes, the frame is a valid JSON text and the worker reads the request off it, with the fields that
are no remote server's choice repaired; a request whose fields of that kind are valid comes back as
it is, without its credential headers, its access token and its massaged time.  The frame is the same
for all values of the credential headers and of the token. -/
theorem fedRequest_lossless {yyjson : YyjsonNumbers} (hy : yyjson.ReadsJson)
    {sodium : SodiumBase64} (hs : sodium.Decodes) (request : LocalHttpRequest) :
    (utf8IsValid (serializeFedRequest sodium request) = true ∧
      ∃ tree, readJson (serializeFedRequest sodium request) = some tree) ∧
    deserializeFedRequest sodium yyjson (serializeFedRequest sodium request) = received request ∧
    (Sendable request →
      deserializeFedRequest sodium yyjson (serializeFedRequest sodium request) = { request with
          accessToken := []
          originServerTs := none
          headers := forwardedHeaders request.headers }) ∧
    ∀ accessToken originServerTs value,
      serializeFedRequest sodium (reissue accessToken originServerTs value request) =
        serializeFedRequest sodium request := by
  have hstrict := (plain_frameObject hs request).strict
  have hreceived := deserialize_serialize hy hs request
  refine ⟨⟨?_, ?_⟩, hreceived, fun hsendable => ?_, ?_⟩
  · rw [serializeFedRequest_eq hs]
    exact utf8IsValid_renderValue hstrict
  · rw [serializeFedRequest_eq hs]
    exact ⟨_, readJson_renderValue hstrict⟩
  · rw [hreceived, received_of_sendable hsendable]
  · intro accessToken originServerTs value
    rw [serializeFedRequest, serializeFedRequest, headersText_eq, headersText_eq, reissue,
      forwardedHeaders_reissue]

/-- Base64 as RFC 4648 has it. -/
def rfcBase64 : SodiumBase64 where
  ready := true
  bin2base64 bytes := some (encodeBase64 bytes)
  base642bin := decodeBase64

lemma rfcBase64_decodes : rfcBase64.Decodes where
  ready := rfl
  encode bytes hbytes := ⟨encodeBase64 bytes, rfl, encodeBase64_ne_nil hbytes,
    mem_encodeBase64_le bytes, decodeBase64_encodeBase64 bytes⟩

/-- A request with a target that is not UTF-8, a NUL and a quote in its body, and a credential. -/
def rawRequest : LocalHttpRequest where
  method := lit "PUT"
  target := [47, 0xFF]
  body := [0, 34]
  headers := [⟨lit "Host", [0xC3]⟩, ⟨lit "AUTHORIZATION", lit "X-Matrix"⟩]
  remoteAddr := lit "::1"
  sigVerified := true
  verifiedOrigin := lit "two.example"
  verifiedKeyId := lit "ed25519:1"

theorem fedRequest_lossless_raw :
    deserializeFedRequest rfcBase64 grammarYyjsonNumbers (serializeFedRequest rfcBase64 rawRequest) =
      { rawRequest with headers := [⟨lit "Host", [0xC3]⟩] } := by
  have hsendable : Sendable rawRequest :=
    ⟨by decide, by decide, by decide, by decide, by decide⟩
  have hlossless := (fedRequest_lossless grammarYyjsonNumbers_readsJson rfcBase64_decodes
    rawRequest).2.2.1 hsendable
  have hheaders : forwardedHeaders rawRequest.headers = [⟨lit "Host", [0xC3]⟩] := by decide
  rw [hlossless]
  rfl

/-- A request loses its access token, which is no header. -/
theorem fedRequest_token_lost :
    (∀ header ∈ ({ rawRequest with accessToken := lit "secret" } : LocalHttpRequest).headers,
      header.name ≠ []) ∧
    deserializeFedRequest rfcBase64 grammarYyjsonNumbers
      (serializeFedRequest rfcBase64 { rawRequest with accessToken := lit "secret" }) ≠
        { rawRequest with
          accessToken := lit "secret"
          headers := forwardedHeaders rawRequest.headers } := by
  refine ⟨by decide, fun h => ?_⟩
  rw [deserialize_serialize grammarYyjsonNumbers_readsJson rfcBase64_decodes] at h
  exact absurd (congrArg LocalHttpRequest.accessToken h) (by decide)

end Merovingian
