import Merovingian.Json.Value
import Merovingian.Rooms.RoomVersionPolicy

/-!
# Reading power levels

The part of `events/authorization.cpp` that reads an `m.room.power_levels` event: the encodings of
a level that a room version accepts, the effective level of a user or of a scalar key, and the
checks a new power-levels content has to pass against the old one.  A reason of the source, empty
when there is none, is an `Option`.
-/

namespace Merovingian

/-! ### Encodings of a level -/

inductive PowerLevelEncoding where
  | integers
  | integersOrStrings
  | integersStringsOrFloats
deriving DecidableEq, Repr

def powerLevelEncoding (policy : RoomVersionPolicy) : PowerLevelEncoding :=
  if policy.powerLevelsRequireIntegers then .integers
  else if policy.powerLevelsAcceptFloats then .integersStringsOrFloats
  else .integersOrStrings

/-- The whitespace a level may be padded with. -/
def isLevelSpace (byte : UInt8) : Bool :=
  byte = 32 || byte = 9 || byte = 10 || byte = 13 || byte = 12 || byte = 11

/-- The token between the first and the last byte that is not whitespace. -/
def trimLevel (text : Str) : Str :=
  ((text.dropWhile isLevelSpace).reverse.dropWhile isLevelSpace).reverse

/-- A level encoded as a string.  One leading `+` is dropped, and a digit must follow it. -/
def powerLevelFromString (text : Str) : Option Int64 :=
  let token := trimLevel text
  if token.isEmpty then none
  else if token.head? = some 43 then
    let rest := token.drop 1
    if (rest.head?.map isDigitByte).getD false then fromChars rest else none
  else fromChars token

/-- A level encoded as a float: finite, truncated, and within an `int64_t`. -/
def powerLevelFromDouble (number : Double) : Option Int64 :=
  if !number.isFinite then none
  else if number.trunc < -2 ^ 63 ∨ 2 ^ 63 ≤ number.trunc then none
  else some (Int64.ofInt number.trunc)

/-- `power_level_value` of a present value. -/
def decodePowerLevel (value : Value) (encoding : PowerLevelEncoding) : Option Int64 :=
  match value with
  | .int integer => some integer
  | .double number =>
    if encoding = .integersStringsOrFloats then powerLevelFromDouble number else none
  | .str text => if encoding = .integers then none else powerLevelFromString text
  | _ => none

/-- Padded, signed and overlong strings, and a float past the range. -/
example : decodePowerLevel (.str " +050\t") .integersOrStrings = some 50 ∧
    decodePowerLevel (.str "+-1") .integersOrStrings = none ∧
    decodePowerLevel (.str "9223372036854775808") .integersOrStrings = none ∧
    decodePowerLevel (.double ⟨0x43E0000000000000⟩) .integersStringsOrFloats = none := by decide

def powerLevelMember (object : Object) (key : Str) (encoding : PowerLevelEncoding) :
    Option Int64 :=
  (objectMember object key).bind fun value => decodePowerLevel value encoding

/-! ### Levels of a power-levels event -/

/-- The `content` object of an event, if both are objects. -/
def contentObject (event : Value) : Option Object :=
  event.asObject.bind fun object => objectMemberAsObject object "content"

def extractPowerLevelKey (powerLevelsEvent : Value) (key : Str) (defaultValue : Int64)
    (encoding : PowerLevelEncoding) : Int64 :=
  match contentObject powerLevelsEvent with
  | none => defaultValue
  | some content => (powerLevelMember content key encoding).getD defaultValue

def extractUserPowerLevel (powerLevelsEvent : Value) (userId : Str)
    (encoding : PowerLevelEncoding) : Int64 :=
  match contentObject powerLevelsEvent with
  | none => 0
  | some content =>
    let defaultLevel := extractPowerLevelKey powerLevelsEvent "users_default" 0 encoding
    match objectMemberAsObject content "users" with
    | none => defaultLevel
    | some users => (powerLevelMember users userId encoding).getD defaultLevel

/-- The level `events` gives an event type, if it lists it, and otherwise a default. -/
def eventTypeLevel (powerLevelsEvent : Value) (eventType : Str) (defaultValue : Int64)
    (encoding : PowerLevelEncoding) : Int64 :=
  match (contentObject powerLevelsEvent).bind (objectMemberAsObject · "events") with
  | none => defaultValue
  | some events => (powerLevelMember events eventType encoding).getD defaultValue

def requiredStateEventPower (powerLevelsEvent : Value) (eventType : Str)
    (policy : RoomVersionPolicy) : Int64 :=
  if !powerLevelsEvent.hasContent then 50
  else
    let encoding := powerLevelEncoding policy
    let stateDefault := extractPowerLevelKey powerLevelsEvent "state_default" 50 encoding
    eventTypeLevel powerLevelsEvent eventType stateDefault encoding

/-! ### User ids -/

/-- The parts before and after the first colon. -/
def splitAtColon (id : Str) : Option (Str × Str) :=
  match id.dropWhile (· ≠ 58) with
  | [] => none
  | _ :: rest => some (id.takeWhile (· ≠ 58), rest)

def domainOf (matrixId : Str) : Str := ((splitAtColon matrixId).map Prod.snd).getD []

/-- A byte no user id holds: a control character or a space. -/
def isStructurallyInvalid (byte : UInt8) : Bool := byte ≤ 0x20 || byte = 0x7F

def userIdIsWellFormed (userId : Str) : Bool :=
  if userId.length < 3 || 255 < userId.length || userId.head? ≠ some 64 then false
  else match splitAtColon userId with
    | none => false
    | some (before, serverName) =>
      if serverName.isEmpty then false
      else if (before.drop 1).any isStructurallyInvalid || serverName.any isStructurallyInvalid then
        false
      else match splitAtColon serverName with
        | none => true
        | some (host, port) => !host.isEmpty && (splitAtColon port).isNone

example : userIdIsWellFormed "@a:b" = true ∧ userIdIsWellFormed "@a:b:8448" = true ∧
    userIdIsWellFormed "@a:" = false ∧ userIdIsWellFormed "@a:b c" = false ∧
    userIdIsWellFormed "@a:b:1:2" = false := by decide

/-! ### Checks on a new content -/

def scalarPowerLevelKeys : List Str :=
  ["users_default", "events_default", "state_default", "ban", "redact", "kick", "invite"]

def boundedPowerLevelMaps (policy : RoomVersionPolicy) : List Str :=
  if policy.authRules = .roomV1 then ["events"] else ["events", "notifications"]

/-- Rule 9.1 for one scalar key. -/
def scalarKeyProblem (content : Object) (encoding : PowerLevelEncoding) (key : Str) :
    Option Str :=
  match objectMember content key with
  | none => none
  | some value =>
    if (decodePowerLevel value encoding).isNone then some (key ++ lit " must be an integer")
    else none

/-- Rule 9.2 for one bounded map. -/
def boundedMapProblem (content : Object) (encoding : PowerLevelEncoding) (key : Str) :
    Option Str :=
  match objectMember content key with
  | none => none
  | some value =>
    match value.asObject with
    | none => some (key ++ lit " must be an object")
    | some map =>
      if map.any fun entry => (decodePowerLevel entry.2 encoding).isNone then
        some (key ++ lit " values must be integers")
      else none

/-- Rule 9.3 for one entry of `users`. -/
def userEntryProblem (encoding : PowerLevelEncoding) (entry : Str × Value) : Option Str :=
  if !userIdIsWellFormed entry.1 then some "users keys must be valid user IDs"
  else if (decodePowerLevel entry.2 encoding).isNone then some "users values must be integers"
  else none

/-- Rule 9.3. -/
def usersProblem (content : Object) (encoding : PowerLevelEncoding) : Option Str :=
  match objectMember content "users" with
  | none => none
  | some value =>
    match value.asObject with
    | none => some "users must be an object"
    | some users => users.findSome? (userEntryProblem encoding)

def powerLevelsContentRejectionReason (content : Object) (policy : RoomVersionPolicy) :
    Option Str :=
  let encoding := powerLevelEncoding policy
  (scalarPowerLevelKeys.findSome? (scalarKeyProblem content encoding)).or
    (((boundedPowerLevelMaps policy).findSome? (boundedMapProblem content encoding)).or
      (usersProblem content encoding))

/-- Rule 9.5 for one scalar key. -/
def scalarKeyRejectionReason (oldContent newContent : Object) (senderPower : Int64)
    (encoding : PowerLevelEncoding) (key : Str) : Option Str :=
  let oldLevel := powerLevelMember oldContent key encoding
  let newLevel := powerLevelMember newContent key encoding
  if oldLevel = newLevel then none
  else if oldLevel.any (senderPower < ·) then
    some (lit "cannot alter " ++ key ++
      lit ": its current value exceeds the sender's power level")
  else if newLevel.any (senderPower < ·) then
    some (lit "cannot set " ++ key ++ lit " above the sender's own power level")
  else none

def scalarPowerLevelRejectionReason (oldContent newContent : Object) (senderPower : Int64)
    (encoding : PowerLevelEncoding) : Option Str :=
  scalarPowerLevelKeys.findSome?
    (scalarKeyRejectionReason oldContent newContent senderPower encoding)

/-- Rule 9.6 for one entry of the old map. -/
def oldEntryRejectionReason (newMap : Option Object) (mapKey : Str) (senderPower : Int64)
    (encoding : PowerLevelEncoding) (entry : Str × Value) : Option Str :=
  match decodePowerLevel entry.2 encoding with
  | none => none
  | some oldLevel =>
    let newLevel := newMap.bind fun map => powerLevelMember map entry.1 encoding
    if newLevel ≠ some oldLevel ∧ senderPower < oldLevel then
      some (mapKey ++ lit " entry '" ++ entry.1 ++
        lit "' currently exceeds the sender's power level")
    else none

/-- Rule 9.7 for one entry of the new map. -/
def newEntryRejectionReason (oldMap : Option Object) (mapKey : Str) (senderPower : Int64)
    (encoding : PowerLevelEncoding) (entry : Str × Value) : Option Str :=
  match decodePowerLevel entry.2 encoding with
  | none => none
  | some newLevel =>
    let oldLevel := oldMap.bind fun map => powerLevelMember map entry.1 encoding
    if oldLevel ≠ some newLevel ∧ senderPower < newLevel then
      some (mapKey ++ lit " entry '" ++ entry.1 ++ lit "' exceeds the sender's power level")
    else none

def powerLevelMapRejectionReason (oldContent newContent : Object) (senderPower : Int64)
    (encoding : PowerLevelEncoding) (mapKey : Str) : Option Str :=
  let oldMap := objectMemberAsObject oldContent mapKey
  let newMap := objectMemberAsObject newContent mapKey
  ((oldMap.getD []).findSome? (oldEntryRejectionReason newMap mapKey senderPower encoding)).or
    ((newMap.getD []).findSome? (newEntryRejectionReason oldMap mapKey senderPower encoding))

/-- Rule 9.9 for one entry of the new `users`. -/
def elevatedUserReason (oldUsers : Option Object) (senderPower : Int64)
    (encoding : PowerLevelEncoding) (entry : Str × Value) : Option Str :=
  match decodePowerLevel entry.2 encoding with
  | none => none
  | some newLevel =>
    let oldLevel := oldUsers.bind fun users => powerLevelMember users entry.1 encoding
    if oldLevel ≠ some newLevel ∧ senderPower < newLevel then
      some "cannot elevate user above own power level"
    else none

/-- Rule 9.8 for one entry of the old `users`, which exempts the sender's own. -/
def demotedUserReason (oldUsers : Object) (newUsers : Option Object) (sender : Str)
    (senderPower : Int64) (encoding : PowerLevelEncoding) (entry : Str × Value) : Option Str :=
  if entry.1 = sender then none
  else match powerLevelMember oldUsers entry.1 encoding with
    | none => none
    | some oldLevel =>
      let newLevel := newUsers.bind fun users => powerLevelMember users entry.1 encoding
      if newLevel ≠ some oldLevel ∧ senderPower ≤ oldLevel then
        some "cannot change or remove power level of user at or above own power level"
      else none

/-- Rules 9.5 to 9.9: what the new content may change of the old event's. -/
def powerLevelsChangeRejectionReason (oldEvent : Value) (newContent : Object) (sender : Str)
    (senderPower : Int64) (policy : RoomVersionPolicy) : Option Str :=
  let encoding := powerLevelEncoding policy
  let oldContent := contentObject oldEvent
  let oldUsers := oldContent.bind (objectMemberAsObject · "users")
  let newUsers := objectMemberAsObject newContent "users"
  let contentReason := oldContent.bind fun oldContent =>
    (scalarPowerLevelRejectionReason oldContent newContent senderPower encoding).or
      ((boundedPowerLevelMaps policy).findSome?
        (powerLevelMapRejectionReason oldContent newContent senderPower encoding))
  contentReason.or
    (((newUsers.getD []).findSome? (elevatedUserReason oldUsers senderPower encoding)).or
      (oldUsers.bind fun oldUsers =>
        oldUsers.findSome? (demotedUserReason oldUsers newUsers sender senderPower encoding)))

end Merovingian
