import Merovingian.Database.PersistentStore
import Merovingian.Lib.Text

/-!
# The to-device queue

The model of the to-device rows of `database/PersistentStore.cpp`: `enqueue_to_device_messages`,
`drain_to_device_messages` and what `delete_device` does to them.  The rows of all recipients are
in one list.  A batch of messages is prepared against a queue for each recipient it names, which
holds the size and the age of the recipient's rows; a row that the bounds push out of its queue is
evicted from the list by its key when the batch commits.
-/

namespace Merovingian

/-! ### Messages -/

structure PersistentToDeviceMessage where
  streamId : ℕ := 0
  senderUserId : Str
  targetUserId : Str
  targetDeviceId : Str
  messageType : Str
  contentJson : Str
  createdAtMs : ℕ := 0
deriving DecidableEq, Repr

structure ToDeviceRowKey where
  streamId : ℕ
  targetUserId : Str
  targetDeviceId : Str
deriving DecidableEq, Repr

structure QueuedRow where
  streamId : ℕ
  createdAtMs : ℕ
  bytes : ℕ
deriving DecidableEq, Repr

namespace PersistentToDeviceMessage

/-- The user and the device a message is for. -/
def recipient (message : PersistentToDeviceMessage) : Str × Str :=
  (message.targetUserId, message.targetDeviceId)

/-- The key of a message's row. -/
def rowKey (message : PersistentToDeviceMessage) : ToDeviceRowKey :=
  ⟨message.streamId, message.targetUserId, message.targetDeviceId⟩

/-- The bytes of a message that count. -/
def bytes (message : PersistentToDeviceMessage) : ℕ := message.contentJson.length

/-- A message as its recipient's queue sees it. -/
def queued (message : PersistentToDeviceMessage) : QueuedRow :=
  ⟨message.streamId, message.createdAtMs, message.bytes⟩

/-- `targeted_device`: the message is for one device and not for all of the user's. -/
def targetedDevice (message : PersistentToDeviceMessage) : Bool :=
  message.targetDeviceId ≠ [] && message.targetDeviceId ≠ lit "*"

/-- A message at its position of the stream and its time. -/
def stamp (streamId now : ℕ) (message : PersistentToDeviceMessage) : PersistentToDeviceMessage :=
  { message with streamId := streamId, createdAtMs := now }

end PersistentToDeviceMessage

open PersistentToDeviceMessage

/-- `assign_recipient_key`. -/
def recipientKey (recipient : Str × Str) : Str := lengthPrefixed recipient.1 ++ recipient.2

lemma recipientKey_injective : Function.Injective recipientKey := by
  rintro ⟨user, device⟩ ⟨user', device'⟩ h
  obtain ⟨huser, hdevice⟩ := lengthPrefixed_append_inj h
  exact Prod.ext huser hdevice

/-! ### Bounds -/

/-- The bounds of the queues; zero disables a bound. -/
structure ToDeviceLimits where
  maxToDeviceMessagesPerUserDevice : ℕ := 10000
  toDeviceMessageTtlSeconds : ℕ := 604800
  maxToDeviceMessageBytes : ℕ := 65536
  maxToDeviceBytesPerUserDevice : ℕ := 16777216
deriving DecidableEq, Repr

namespace ToDeviceLimits

/-- `to_device_bounds_apply`. -/
def boundsApply (limits : ToDeviceLimits) : Bool :=
  0 < limits.toDeviceMessageTtlSeconds || 0 < limits.maxToDeviceMessagesPerUserDevice ||
    0 < limits.maxToDeviceBytesPerUserDevice

def ttlMs (limits : ToDeviceLimits) : ℕ := limits.toDeviceMessageTtlSeconds * 1000

/-- A row made at a time has expired.  The age of a row that says 0 is unknown. -/
def expired (limits : ToDeviceLimits) (now createdAtMs : ℕ) : Bool :=
  0 < limits.ttlMs && 0 < createdAtMs && createdAtMs < now && limits.ttlMs ≤ now - createdAtMs

/-- A queue with so many rows has no room for one more, or not for so many bytes in all. -/
def full (limits : ToDeviceLimits) (rows bytes : ℕ) : Bool :=
  (0 < limits.maxToDeviceMessagesPerUserDevice && limits.maxToDeviceMessagesPerUserDevice ≤ rows) ||
    (0 < limits.maxToDeviceBytesPerUserDevice && limits.maxToDeviceBytesPerUserDevice < bytes)

/-- `to_device_content_fits`. -/
def contentFits (limits : ToDeviceLimits) (contentJson : Str) : Bool :=
  limits.maxToDeviceMessageBytes = 0 || contentJson.length ≤ limits.maxToDeviceMessageBytes

/-- `to_device_message_is_valid`. -/
def messageIsValid (limits : ToDeviceLimits) (message : PersistentToDeviceMessage) : Bool :=
  !(message.senderUserId = [] || message.targetUserId = [] || message.messageType = [] ||
      message.contentJson = []) &&
    (limits.contentFits message.contentJson &&
      (limits.maxToDeviceBytesPerUserDevice = 0 ||
        message.contentJson.length ≤ limits.maxToDeviceBytesPerUserDevice))

end ToDeviceLimits

/-! ### Preparing a batch -/

structure RecipientQueue where
  rows : List QueuedRow := []
  bytes : ℕ := 0
deriving DecidableEq, Repr

/-- `ToDeviceBatch` without its statements. -/
structure ToDeviceBatch where
  added : List PersistentToDeviceMessage := []
  evicted : List ToDeviceRowKey := []
  queues : Str → Option RecipientQueue := fun _ => none

/-- The fields of `PersistentStore` for to-device messages; a device is a user and a device id, and
the `uint64_t` stream counter is unbounded. -/
structure ToDeviceStore where
  nextSyncStreamId : ℕ := 0
  toDeviceMessages : List PersistentToDeviceMessage := []
  devices : List (Str × Str) := []
  limits : ToDeviceLimits := {}
deriving DecidableEq, Repr

/-- `queues.try_emplace`. -/
def nameRecipient (queues : Str → Option RecipientQueue) (message : PersistentToDeviceMessage) :
    Str → Option RecipientQueue :=
  Function.update queues (recipientKey message.recipient)
    ((queues (recipientKey message.recipient)).or (some {}))

/-- One row in the pass of `index_to_device_recipients` over the store's rows. -/
def enterRow (queues : Str → Option RecipientQueue) (row : PersistentToDeviceMessage) :
    Str → Option RecipientQueue :=
  match queues (recipientKey row.recipient) with
  | none => queues
  | some queue =>
    Function.update queues (recipientKey row.recipient)
      (some ⟨queue.rows ++ [row.queued], queue.bytes + row.bytes⟩)

def indexToDeviceRecipients (store : ToDeviceStore) (messages : List PersistentToDeviceMessage) :
    Str → Option RecipientQueue :=
  if !store.limits.boundsApply then fun _ => none
  else
    let queues := store.toDeviceMessages.foldl enterRow
      (messages.foldl nameRecipient fun _ => none)
    fun key => (queues key).map fun queue =>
      { queue with rows := stableSort QueuedRow.streamId queue.rows }

/-- The loop of `prepare_to_device_enqueue` that drops the oldest rows of a queue: the rows it
drops, and the queue it leaves. -/
def makeRoom (limits : ToDeviceLimits) (messageBytes : ℕ) :
    List QueuedRow → ℕ → List QueuedRow × RecipientQueue
  | [], bytes => ([], ⟨[], bytes⟩)
  | row :: rows, bytes =>
    if limits.full (rows.length + 1) (bytes + messageBytes) then
      let rest := makeRoom limits messageBytes rows (bytes - row.bytes)
      (row :: rest.1, rest.2)
    else ([], ⟨row :: rows, bytes⟩)

/-- `prepare_to_device_enqueue` for a message at a position of the stream. -/
def prepareToDeviceEnqueue (limits : ToDeviceLimits) (streamId now : ℕ)
    (message : PersistentToDeviceMessage) (batch : ToDeviceBatch) : ToDeviceBatch :=
  if limits.boundsApply then
    let key := recipientKey message.recipient
    let queue := (batch.queues key).getD {}
    let aged := queue.rows.filter fun row => limits.expired now row.createdAtMs
    let kept := queue.rows.filter fun row => !limits.expired now row.createdAtMs
    let room := makeRoom limits message.bytes kept (queue.bytes - (aged.map QueuedRow.bytes).sum)
    { added := batch.added ++ [message.stamp streamId now]
      evicted := batch.evicted ++ (aged ++ room.1).map fun row =>
        ⟨row.streamId, message.targetUserId, message.targetDeviceId⟩
      queues := Function.update batch.queues key
        (some ⟨room.2.rows ++ [⟨streamId, now, message.bytes⟩], room.2.bytes + message.bytes⟩) }
  else { batch with added := batch.added ++ [message.stamp streamId now] }

/-- The loop over the messages of a batch, each with the time the clock shows when it is prepared.
The counter is where the loop leaves it; there is no batch if the allocation throws. -/
def prepareToDeviceEnqueues (limits : ToDeviceLimits) :
    List (PersistentToDeviceMessage × ℕ) → ℕ → ToDeviceBatch → ℕ × Option ToDeviceBatch
  | [], next, batch => (next, some batch)
  | (message, now) :: messages, next, batch =>
    match allocateSyncStreamId next with
    | none => (next, none)
    | some streamId =>
      prepareToDeviceEnqueues limits messages streamId
        (prepareToDeviceEnqueue limits streamId now message batch)

namespace ToDeviceStore

/-- The batch for messages, and the counter after it. -/
def prepareBatch (store : ToDeviceStore) (messages : List (PersistentToDeviceMessage × ℕ)) :
    ℕ × Option ToDeviceBatch :=
  prepareToDeviceEnqueues store.limits messages store.nextSyncStreamId
    { queues := indexToDeviceRecipients store (messages.map Prod.fst) }

def eraseToDeviceRows (victims : List ToDeviceRowKey) (store : ToDeviceStore) : ToDeviceStore :=
  { store with toDeviceMessages := store.toDeviceMessages.filter fun row => row.rowKey ∉ victims }

def applyToDeviceBatch (batch : ToDeviceBatch) (store : ToDeviceStore) : ToDeviceStore :=
  eraseToDeviceRows batch.evicted
    { store with toDeviceMessages := store.toDeviceMessages ++ batch.added }

/-- The store after the counter moved. -/
def withNextSyncStreamId (next : ℕ) (store : ToDeviceStore) : ToDeviceStore :=
  { store with nextSyncStreamId := next }

/-- Every message of a call is valid. -/
def allValid (store : ToDeviceStore) (messages : List (PersistentToDeviceMessage × ℕ)) : Bool :=
  messages.all fun message => store.limits.messageIsValid message.1

/-- `enqueue_to_device_messages`; `commits` says whether the backend commits.  It returns nothing
where it throws. -/
def enqueueToDeviceMessages (commits : Bool) (messages : List (PersistentToDeviceMessage × ℕ))
    (store : ToDeviceStore) : Option Bool × ToDeviceStore :=
  if !store.allValid messages then (some false, store)
  else if messages = [] then (some true, store)
  else
    match store.prepareBatch messages with
    | (next, none) => (none, store.withNextSyncStreamId next)
    | (next, some batch) =>
      if !commits then (some false, store.withNextSyncStreamId next)
      else (some true, (store.withNextSyncStreamId next).applyToDeviceBatch batch)

def enqueueToDeviceMessage (commits : Bool) (message : PersistentToDeviceMessage) (now : ℕ)
    (store : ToDeviceStore) : Option Bool × ToDeviceStore :=
  store.enqueueToDeviceMessages commits [(message, now)]

/-- `addressed_to_device` of a drain. -/
def addressedToDevice (userId deviceId : Str) (message : PersistentToDeviceMessage) : Bool :=
  message.targetUserId = userId &&
    (message.targetDeviceId = [] || message.targetDeviceId = lit "*" ||
      message.targetDeviceId = deviceId)

/-- The rows that the loop of a drain looks at. -/
def inReach (userId deviceId : Str) (upper : ℕ) (store : ToDeviceStore) :
    List PersistentToDeviceMessage :=
  store.toDeviceMessages.filter fun message =>
    addressedToDevice userId deviceId message && message.streamId ≤ upper

/-- What a drain removes rather than returns. -/
def purged (since now : ℕ) (store : ToDeviceStore) (message : PersistentToDeviceMessage) : Bool :=
  store.limits.expired now message.createdAtMs ||
    (message.streamId ≤ since && message.targetedDevice)

/-- `drain_to_device_messages` of a device, at a time. -/
def drainToDeviceMessages (commits : Bool) (now : ℕ) (userId deviceId : Str) (since upper : ℕ)
    (store : ToDeviceStore) : List PersistentToDeviceMessage × ToDeviceStore :=
  let rows := store.inReach userId deviceId upper
  let drained := rows.filter fun message => !store.purged since now message && since < message.streamId
  let toPurge := (rows.filter (store.purged since now)).map rowKey
  (stableSort streamId drained,
    if toPurge = [] then store else if commits then store.eraseToDeviceRows toPurge else store)

/-- `delete_device`: the device and the rows for it. -/
def deleteDevice (commits : Bool) (userId deviceId : Str) (store : ToDeviceStore) :
    Bool × ToDeviceStore :=
  if (userId, deviceId) ∉ store.devices then (false, store)
  else if !commits then (false, store)
  else
    (true,
      { store with
        devices := store.devices.erase (userId, deviceId)
        toDeviceMessages := store.toDeviceMessages.filter fun message =>
          !(message.targetUserId = userId && message.targetDeviceId = deviceId) })

end ToDeviceStore

end Merovingian
