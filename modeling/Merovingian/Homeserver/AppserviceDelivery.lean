import Merovingian.Database.AppserviceStore
import Merovingian.Database.EventTable
import Merovingian.Json.Parser
import Merovingian.Lib.Run

/-!
# Delivery to application services

The model of `homeserver/appservice_delivery.cpp`.  One thread sends what is queued, one
transaction at a time; it holds the runtime's mutex except during the network call.  So the body of
the loop of `drain_one_appservice` is two functions here: `turn`, up to the moment the transaction
is on its way, and `answer`, from the moment the call returned.  Between them other threads queue
events and ephemeral data, rows of events are rewritten by redactions, and the server may stop and
start again (`restart`).

`attempts` is the history of the transactions that were handed to the network; `acknowledged` and
`dropped` are the histories of those answered and of those given up because their event could not
be read.  yyjson and the printer of doubles are parameters.
-/

namespace Merovingian

structure AppserviceTransactionEvent where
  contentJson : Str := []
  eventId : Str := []
  originServerTs : ℕ := 0
  roomId : Str := []
  sender : Str := []
  stateKey : Option Str := none
  type : Str := []
deriving DecidableEq, Repr

structure AppserviceTransaction where
  txnId : Str
  events : List AppserviceTransactionEvent := []
  ephemeralJson : List Str := []
deriving DecidableEq, Repr

/-- The fields of `appservice::AppserviceRegistration` that delivery reads. -/
structure AppserviceRegistration where
  id : Str
  receiveEphemeral : Bool
deriving DecidableEq, Repr

/-- The fields of `appservice::AppserviceCallResult` that delivery reads. -/
structure AppserviceCallResult where
  ok : Bool
  disabled : Bool
deriving DecidableEq, Repr

structure AppserviceEphemeralItem where
  key : Str
  json : Str
deriving DecidableEq, Repr

structure AppservicePendingEphemeral where
  txnId : ℕ
  eventsFree : Bool
  items : List Str
deriving DecidableEq, Repr

/-- `AppserviceDeliveryBackoff`, in milliseconds. -/
structure AppserviceDeliveryBackoff where
  retryAt : ℕ := 0
  delay : ℕ := 0
deriving DecidableEq, Repr

/-- The reader and the writer of JSON that delivery uses. -/
structure AppserviceCodec where
  yyjson : Yyjson
  formatDouble : Double → Str

def appserviceTransactionEventFor (codec : AppserviceCodec) (event : PersistentEvent) :
    Option AppserviceTransactionEvent :=
  match parseLossless codec.yyjson event.json with
  | .error _ => none
  | .ok parsed => parsed.asObject.map fun root =>
    { contentJson := ((objectMember root "content").bind fun content =>
        (serializeValue (some codec.formatDouble) content).toOption).getD []
      eventId := event.eventId
      originServerTs := ((objectMember root "origin_server_ts").bind Value.asInt).elim 0
        fun ts => if 0 < ts then ts.toInt.toNat else 0
      roomId := event.roomId
      sender := event.senderUserId
      stateKey := stringMember root "state_key"
      type := (stringMember root "type").getD [] }

/-- A transaction handed to the network. -/
structure DeliveryAttempt where
  /-- The process lifetime it was made in. -/
  lifetime : ℕ
  appserviceId : Str
  number : ℕ
  transaction : AppserviceTransaction
  /-- Its number was allocated for this attempt. -/
  fresh : Bool
deriving DecidableEq, Repr

namespace DeliveryAttempt

/-- The events the transaction carries. -/
def eventIds (attempt : DeliveryAttempt) : List Str :=
  attempt.transaction.events.map AppserviceTransactionEvent.eventId

/-- The ephemeral items the transaction carries. -/
def ephemeral (attempt : DeliveryAttempt) : List Str := attempt.transaction.ephemeralJson

end DeliveryAttempt

/-- The transaction whose network call is under way. -/
structure DeliveryFlight where
  appserviceId : Str
  number : ℕ
  /-- `cursor.pending_stream_ordering`; there is none for a transaction without an event. -/
  streamOrdering : Option ℕ
deriving DecidableEq, Repr

/-- What delivery reads and writes of `HomeserverRuntime`, with its histories. -/
structure AppserviceRuntime where
  events : List PersistentEvent := []
  store : AppserviceStore := .empty
  ephemeral : Str → List AppserviceEphemeralItem := fun _ => []
  pendingEphemeral : Str → Option AppservicePendingEphemeral := fun _ => none
  backoff : Str → Option AppserviceDeliveryBackoff := fun _ => none
  inFlight : Option DeliveryFlight := none
  lifetime : ℕ := 0
  attempts : List DeliveryAttempt := []
  acknowledged : List (Str × ℕ) := []
  dropped : List (Str × ℕ) := []

namespace AppserviceRuntime

def findEventById (runtime : AppserviceRuntime) (eventId : Str) : Option PersistentEvent :=
  lookupBy PersistentEvent.eventId runtime.events eventId

def findEventByStreamOrdering (runtime : AppserviceRuntime) (streamOrdering : ℕ) :
    Option PersistentEvent :=
  runtime.events.reverse.find? fun event => event.streamOrdering = streamOrdering

def maxAppserviceEphemeralQueue : ℕ := 512

def maxAppserviceEphemeralPerTransaction : ℕ := 100

/-- `push_appservice_ephemeral`: an older item with the key goes, then the oldest ones beyond the
capacity. -/
def pushAppserviceEphemeral (queue : List AppserviceEphemeralItem) (item : AppserviceEphemeralItem)
    (capacity : ℕ) : List AppserviceEphemeralItem :=
  let others := queue.filter fun queued => queued.key ≠ item.key
  others.drop (others.length + 1 - max capacity 1) ++ [item]

def recordFailure (runtime : AppserviceRuntime) (appserviceId : Str) (failedAt : ℕ) :
    AppserviceRuntime :=
  let backoff := (runtime.backoff appserviceId).getD {}
  let delay := if backoff.delay = 0 then 1000 else min (backoff.delay * 2) (5 * 60 * 1000)
  { runtime with
    backoff := Function.update runtime.backoff appserviceId (some ⟨failedAt + delay, delay⟩) }

/-- `take_appservice_ephemeral`: the items and the queue without them. -/
def takeAppserviceEphemeral (runtime : AppserviceRuntime) (appserviceId : Str) :
    List Str × AppserviceRuntime :=
  let queue := runtime.ephemeral appserviceId
  ((queue.take maxAppserviceEphemeralPerTransaction).map AppserviceEphemeralItem.json,
    { runtime with
      ephemeral := Function.update runtime.ephemeral appserviceId
        (queue.drop maxAppserviceEphemeralPerTransaction) })

/-- The start of `send_over_network`. -/
def send (runtime : AppserviceRuntime) (flight : DeliveryFlight)
    (transaction : AppserviceTransaction) (fresh : Bool) : AppserviceRuntime :=
  { runtime with
    inFlight := some flight
    attempts := runtime.attempts ++
      [⟨runtime.lifetime, flight.appserviceId, flight.number, transaction, fresh⟩] }

/-- A transaction of ephemeral data alone goes to the network. -/
def sendPendingEphemeral (runtime : AppserviceRuntime) (appserviceId : Str)
    (pending : AppservicePendingEphemeral) (fresh : Bool) : AppserviceRuntime :=
  runtime.send ⟨appserviceId, pending.txnId, none⟩ ⟨decimalNat pending.txnId, [], pending.items⟩
    fresh

/-- The half of `send_ephemeral_only` that makes a new transaction. -/
def sendNewEphemeral (runtime : AppserviceRuntime) (appserviceId : Str) (now : ℕ) (commits : Bool) :
    AppserviceRuntime :=
  let cursor := runtime.store.findAppserviceTxnCursor appserviceId
  let stored := runtime.store.storeAppserviceTxnCursor commits
    { cursor with nextTxnId := cursor.nextTxnId + 1 }
  if !stored.1 then runtime.recordFailure appserviceId now
  else
    let taken := runtime.takeAppserviceEphemeral appserviceId
    let pending : AppservicePendingEphemeral := ⟨cursor.nextTxnId, true, taken.1⟩
    sendPendingEphemeral { taken.2 with
      store := stored.2
      pendingEphemeral := Function.update runtime.pendingEphemeral appserviceId (some pending) }
      appserviceId pending true

/-- `complete_appservice_delivery` for an event that cannot be read. -/
def dropUnreadable (runtime : AppserviceRuntime) (appserviceId : Str) (streamOrdering now : ℕ)
    (commits : Bool) (given : List (Str × ℕ)) : AppserviceRuntime :=
  let completed := runtime.store.completeAppserviceDelivery commits appserviceId streamOrdering
  if !completed.1 then runtime.recordFailure appserviceId now
  else { runtime with store := completed.2, dropped := runtime.dropped ++ given }

/-- The items a retry carries: those parked for its transaction. -/
def parkedItems (runtime : AppserviceRuntime) (appserviceId : Str) (txnId : ℕ) : List Str :=
  match runtime.pendingEphemeral appserviceId with
  | some parked => if !parked.eventsFree && parked.txnId = txnId then parked.items else []
  | none => []

/-- The branch of `drain_one_appservice` for a transaction that was sent and never
acknowledged. -/
def retryPending (codec : AppserviceCodec) (runtime : AppserviceRuntime) (appserviceId : Str)
    (now : ℕ) (commits : Bool) : AppserviceRuntime :=
  let cursor := runtime.store.findAppserviceTxnCursor appserviceId
  match (runtime.findEventByStreamOrdering cursor.pendingStreamOrdering).bind
      (appserviceTransactionEventFor codec) with
  | none => runtime.dropUnreadable appserviceId cursor.pendingStreamOrdering now commits
      [(appserviceId, cursor.pendingTxnId)]
  | some event =>
    runtime.send ⟨appserviceId, cursor.pendingTxnId, some cursor.pendingStreamOrdering⟩
      ⟨decimalNat cursor.pendingTxnId, [event], runtime.parkedItems appserviceId cursor.pendingTxnId⟩
      false

/-- The ephemeral items of a new transaction: taken from the queue and parked under its number. -/
def parkEphemeral (runtime : AppserviceRuntime) (registration : AppserviceRegistration)
    (txnId : ℕ) : List Str × AppserviceRuntime :=
  if registration.receiveEphemeral then
    let taken := runtime.takeAppserviceEphemeral registration.id
    (taken.1, { taken.2 with
      pendingEphemeral := Function.update runtime.pendingEphemeral registration.id
        (if taken.1 = [] then none else some ⟨txnId, false, taken.1⟩) })
  else ([], runtime)

/-- The branch of `drain_one_appservice` for the first queued event. -/
def sendFirst (codec : AppserviceCodec) (runtime : AppserviceRuntime)
    (registration : AppserviceRegistration) (entry : PersistentAppserviceOutboxEntry) (now : ℕ)
    (commits : Bool) : AppserviceRuntime :=
  match (runtime.findEventById entry.eventId).bind (appserviceTransactionEventFor codec) with
  | none => runtime.dropUnreadable registration.id entry.streamOrdering now commits []
  | some event =>
    let cursor := runtime.store.findAppserviceTxnCursor registration.id
    let stored := runtime.store.storeAppserviceTxnCursor commits
      { cursor with
        pendingTxnId := cursor.nextTxnId
        nextTxnId := cursor.nextTxnId + 1
        pendingStreamOrdering := entry.streamOrdering }
    if !stored.1 then runtime.recordFailure registration.id now
    else
      let parked := parkEphemeral { runtime with store := stored.2 } registration cursor.nextTxnId
      parked.2.send ⟨registration.id, cursor.nextTxnId, some entry.streamOrdering⟩
        ⟨decimalNat cursor.nextTxnId, [event], parked.1⟩ true

/-- The branch of `drain_one_appservice` with no transaction pending. -/
def sendNext (codec : AppserviceCodec) (runtime : AppserviceRuntime)
    (registration : AppserviceRegistration) (now : ℕ) (commits : Bool) : AppserviceRuntime :=
  match runtime.store.findFirstAppserviceOutboxEntry registration.id with
  | some entry => runtime.sendFirst codec registration entry now commits
  | none =>
    -- no event is queued; ephemeral data alone is still worth a transaction
    if runtime.ephemeral registration.id = [] then runtime
    else runtime.sendNewEphemeral registration.id now commits

/-- The body of the loop of `drain_one_appservice`, up to the network call. -/
def turn (codec : AppserviceCodec) (runtime : AppserviceRuntime)
    (registration : AppserviceRegistration) (now : ℕ) (commits : Bool) : AppserviceRuntime :=
  if runtime.inFlight.isSome then runtime
  else if (runtime.backoff registration.id).any fun backoff => now < backoff.retryAt then runtime
  else
    match runtime.pendingEphemeral registration.id with
    | some ⟨txnId, true, items⟩ =>
      runtime.sendPendingEphemeral registration.id ⟨txnId, true, items⟩ false
    | _ =>
      if (runtime.store.findAppserviceTxnCursor registration.id).pendingTxnId ≠ 0 then
        runtime.retryPending codec registration.id now commits
      else runtime.sendNext codec registration now commits

/-- What follows a transaction that is over: its items and the back-off are forgotten. -/
def forget (runtime : AppserviceRuntime) (appserviceId : Str) : AppserviceRuntime :=
  { runtime with
    pendingEphemeral := Function.update runtime.pendingEphemeral appserviceId none
    backoff := Function.update runtime.backoff appserviceId none }

/-- What follows an answer that ends the transaction. -/
def finish (runtime : AppserviceRuntime) (flight : DeliveryFlight) (now : ℕ) (commits : Bool) :
    AppserviceRuntime :=
  match flight.streamOrdering with
  | none => runtime.forget flight.appserviceId
  | some streamOrdering =>
    let completed := runtime.store.completeAppserviceDelivery commits flight.appserviceId
      streamOrdering
    if !completed.1 then runtime.recordFailure flight.appserviceId now
    else { runtime with store := completed.2 }.forget flight.appserviceId

/-- The body of the loop from the return of the network call on. -/
def answer (runtime : AppserviceRuntime) (result : AppserviceCallResult) (now : ℕ) (commits : Bool) :
    AppserviceRuntime :=
  match runtime.inFlight with
  | none => runtime
  | some flight =>
    let landed := { runtime with inFlight := none }
    if result.ok || result.disabled then
      { landed with
        acknowledged := landed.acknowledged ++ [(flight.appserviceId, flight.number)] }.finish
        flight now commits
    else landed.recordFailure flight.appserviceId now

/-- `enqueue_appservice_delivery` for one interested application service. -/
def enqueue (runtime : AppserviceRuntime) (appserviceId eventId : Str)
    (fallbackStreamOrdering maxQueuedEvents : ℕ) (commits : Bool) : AppserviceRuntime :=
  let streamOrdering := ((runtime.findEventById eventId).map PersistentEvent.streamOrdering).getD
    fallbackStreamOrdering
  if streamOrdering = 0 then runtime
  else if !runtime.store.hasAppserviceOutboxEntry appserviceId streamOrdering &&
      maxQueuedEvents ≤ runtime.store.countAppserviceOutboxEntries appserviceId then runtime
  else
    { runtime with
      store := (runtime.store.enqueueAppserviceEvent commits
        ⟨appserviceId, streamOrdering, eventId⟩).2 }

/-- An event is added to the store, unless it is there. -/
def storeEvent (runtime : AppserviceRuntime) (event : PersistentEvent) : AppserviceRuntime :=
  if (runtime.findEventById event.eventId).isSome then runtime
  else { runtime with events := runtime.events ++ [event] }

/-- `replace_event_json`, as a redaction does. -/
def replaceEventJson (runtime : AppserviceRuntime) (eventId json : Str) : AppserviceRuntime :=
  { runtime with
    events := runtime.events.map fun event =>
      if event.eventId = eventId then { event with json := json } else event }

/-- The server stops, at any moment, and starts again. -/
def restart (runtime : AppserviceRuntime) : AppserviceRuntime :=
  { runtime with
    store := runtime.store.reload
    ephemeral := fun _ => []
    pendingEphemeral := fun _ => none
    backoff := fun _ => none
    inFlight := none
    lifetime := runtime.lifetime + 1 }

end AppserviceRuntime

/-- What happens to the deliveries. -/
inductive DeliveryEvent
  | storeEvent (event : PersistentEvent)
  | replaceEventJson (eventId json : Str)
  | enqueue (appserviceId eventId : Str) (fallbackStreamOrdering maxQueuedEvents : ℕ)
      (commits : Bool)
  | queueEphemeral (appserviceId : Str) (item : AppserviceEphemeralItem)
  | turn (registration : AppserviceRegistration) (now : ℕ) (commits : Bool)
  | answer (result : AppserviceCallResult) (now : ℕ) (commits : Bool)
  | restart
deriving Repr

namespace DeliveryEvent

/-- The state after an event. -/
def after (codec : AppserviceCodec) (runtime : AppserviceRuntime) : DeliveryEvent → AppserviceRuntime
  | .storeEvent event => runtime.storeEvent event
  | .replaceEventJson eventId json => runtime.replaceEventJson eventId json
  | .enqueue appserviceId eventId fallbackStreamOrdering maxQueuedEvents commits =>
    runtime.enqueue appserviceId eventId fallbackStreamOrdering maxQueuedEvents commits
  | .queueEphemeral appserviceId item =>
    { runtime with
      ephemeral := Function.update runtime.ephemeral appserviceId
        (AppserviceRuntime.pushAppserviceEphemeral (runtime.ephemeral appserviceId) item
          AppserviceRuntime.maxAppserviceEphemeralQueue) }
  | .turn registration now commits => runtime.turn codec registration now commits
  | .answer result now commits => runtime.answer result now commits
  | .restart => runtime.restart

/-- The step relation of deliveries. -/
def Step (codec : AppserviceCodec) (runtime : AppserviceRuntime) (event : DeliveryEvent)
    (later : AppserviceRuntime) : Prop :=
  later = event.after codec runtime

/-- The events an event of the run speaks of, with the stream ordering it gives them. -/
def orderings : DeliveryEvent → List (Str × ℕ)
  | .storeEvent event => [(event.eventId, event.streamOrdering)]
  | .enqueue _ eventId fallbackStreamOrdering _ _ => [(eventId, fallbackStreamOrdering)]
  | _ => []

end DeliveryEvent

end Merovingian
