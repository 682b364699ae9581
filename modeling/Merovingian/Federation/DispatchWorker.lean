import Merovingian.Federation.OutboundTransaction
import Merovingian.Lib.Run

/-!
# The federation dispatcher

The model of `federation/DispatchWorker.cpp`.  Everything the worker shares between threads is
touched with its mutex held, so a run is a sequence of critical sections: each is a function here,
and `DispatchEvent` names them.  `attempt` has up to four of them; between two of them the thread
holds its transaction and what it knows about the destination, which is an `AttemptStage`.  Clock,
network and database answers come with the events.

Transactions carry the number under which they were accepted: by `enqueue_batch`, or by
`replay_pending` in the order of the stored rows.  The numbers and the histories are not in the
source; nothing reads them.
-/

namespace Merovingian

/-- The fields of `DispatchWorkerConfig` that decide what is queued, sent and dropped. -/
structure DispatchWorkerConfig where
  maxQueueDepth : ℕ := 1024
  maxPendingPerDestination : ℕ := 0
  /-- `destination_refusal`: why a destination is excluded, or nothing. -/
  destinationRefusal : Str → Str := fun _ => []
  maxRetries : UInt32 := 8
  slowAttemptMs : UInt64 := 10000

namespace DispatchWorkerConfig

def effectiveMaxPendingPerDestination (config : DispatchWorkerConfig) : ℕ :=
  if config.maxPendingPerDestination ≠ 0 then config.maxPendingPerDestination
  else max 16 (config.maxQueueDepth / 16)

/-- The test `max_queue_depth != 0 && size >= max_queue_depth`. -/
def queueFull (config : DispatchWorkerConfig) (size : ℕ) : Bool :=
  config.maxQueueDepth ≠ 0 && config.maxQueueDepth ≤ size

end DispatchWorkerConfig

structure DispatchWorkerSummary where
  enqueued : ℕ := 0
  delivered : ℕ := 0
  failed : ℕ := 0
  dropped : ℕ := 0
  pending : ℕ := 0
  rejected : ℕ := 0
deriving DecidableEq, Repr

/-- What does not change about an accepted transaction. -/
structure DispatchTicket where
  serial : ℕ
  transactionId : Str
  destination : Str
deriving DecidableEq, Repr

/-- A transaction with the number under which it was accepted. -/
structure DispatchEntry where
  serial : ℕ
  transaction : OutboundTransaction
deriving DecidableEq, Repr

namespace DispatchEntry

/-- What does not change about the transaction. -/
def ticket (entry : DispatchEntry) : DispatchTicket :=
  ⟨entry.serial, entry.transaction.transactionId, entry.transaction.destination⟩

/-- The transaction goes to a destination. -/
def isFor (destination : Str) (entry : DispatchEntry) : Bool :=
  entry.transaction.destination = destination

end DispatchEntry

/-- Where a thread is in `run_due`. -/
inductive AttemptStage where
  /-- `take_next` returned. -/
  | taken (entry : DispatchEntry)
  /-- Before the critical section of `wait_out_open_circuit`. -/
  | circuitOpen (entry : DispatchEntry) (destination : FederationDestination) (nowTs : UInt64)
  /-- Before the one that counts a failed attempt. -/
  | failed (entry : DispatchEntry) (destination : FederationDestination) (failedAt : UInt64)
  /-- Before the one that follows a 2xx answer. -/
  | succeeded (entry : DispatchEntry) (destination : FederationDestination) (finishedAt : UInt64)
  /-- Before the one of `re_enqueue_with_backoff`. -/
  | retrying (entry : DispatchEntry) (nowTs : UInt64)
  /-- Before the destructor of `InFlightSlot`: the transaction has left. -/
  | ended
deriving DecidableEq, Repr

/-- The transaction a thread holds. -/
def AttemptStage.entry : AttemptStage → Option DispatchEntry
  | .taken entry | .circuitOpen entry _ _ | .failed entry _ _ | .succeeded entry _ _ |
    .retrying entry _ => some entry
  | .ended => none

/-- A thread between `take_next` and the end of its `InFlightSlot`. -/
structure DispatchAttempt where
  destination : Str
  stage : AttemptStage
deriving DecidableEq, Repr

namespace DispatchAttempt

/-- The transaction in flight. -/
def entry (attempt : DispatchAttempt) : Option DispatchEntry := attempt.stage.entry

end DispatchAttempt

/-- What a thread learns from the clock, from discovery and from the network. -/
structure AttemptAnswer where
  nowTs : UInt64
  /-- Discovery succeeded and is allowed. -/
  resolved : Bool
  failedAt : UInt64
  outcome : OutboundTransactionResult
  appliedAt : UInt64
  finishedAt : UInt64
deriving DecidableEq, Repr

structure DispatchDestinationSnapshot where
  serverName : Str
  state : FederationDestination
deriving DecidableEq, Repr

/-- `DispatchWorker`, with its threads and its histories. -/
structure DispatchWorker where
  /-- `persistent_store_`, if there is one. -/
  store : Option FederationStore := none
  queue : List DispatchEntry := []
  pendingReplay : List DispatchEntry := []
  /-- `queued_per_destination_`, with zero for a destination that is not in the map. -/
  queuedPerDestination : Str → ℕ := fun _ => 0
  inFlightDestinations : Finset Str := ∅
  destinations : List DispatchDestinationSnapshot := []
  summary : DispatchWorkerSummary := {}
  shutdownRequested : Bool := false
  attempts : List DispatchAttempt := []
  accepted : List DispatchTicket := []
  /-- Those answered with a 2xx status. -/
  confirmed : List DispatchTicket := []
  delivered : List DispatchTicket := []
  dropped : List DispatchTicket := []
  /-- Those that left the queue after a failed write. -/
  givenUp : List DispatchTicket := []

namespace DispatchWorker

/-! ### The queue -/

/-- `push_queue_locked` with the two counters that every caller moves with it. -/
def pushQueueLocked (worker : DispatchWorker) (entry : DispatchEntry) : DispatchWorker :=
  { worker with
    queuedPerDestination := Function.update worker.queuedPerDestination
      entry.transaction.destination
      (worker.queuedPerDestination entry.transaction.destination + 1)
    queue := worker.queue ++ [entry]
    summary := { worker.summary with
      enqueued := worker.summary.enqueued + 1
      pending := worker.summary.pending + 1 } }

/-- `requeue_locked` with its counter. -/
def requeueLocked (worker : DispatchWorker) (entry : DispatchEntry) : DispatchWorker :=
  { worker with
    queue := entry :: worker.queue
    summary := { worker.summary with pending := worker.summary.pending + 1 } }

def destinationAtShareLocked (config : DispatchWorkerConfig) (worker : DispatchWorker)
    (destination : Str) : Bool :=
  config.effectiveMaxPendingPerDestination ≤ worker.queuedPerDestination destination

def releaseDestinationSlotLocked (worker : DispatchWorker) (destination : Str) : DispatchWorker :=
  if worker.queuedPerDestination destination ≤ 1 then
    { worker with
      queuedPerDestination := Function.update worker.queuedPerDestination destination 0 }
  else
    { worker with
      queuedPerDestination := Function.update worker.queuedPerDestination destination
        (worker.queuedPerDestination destination - 1) }

/-- A transaction is accepted under the next number. -/
def accept (worker : DispatchWorker) (transaction : OutboundTransaction) :
    DispatchEntry × DispatchWorker :=
  let entry : DispatchEntry := ⟨worker.accepted.length, transaction⟩
  (entry, { worker with accepted := worker.accepted ++ [entry.ticket] })

/-- A transaction is accepted into the queue. -/
def acceptIntoQueue (worker : DispatchWorker) (transaction : OutboundTransaction) : DispatchWorker :=
  (worker.accept transaction).2.pushQueueLocked (worker.accept transaction).1

/-- A transaction is accepted and parked. -/
def acceptParked (worker : DispatchWorker) (transaction : OutboundTransaction) : DispatchWorker :=
  { (worker.accept transaction).2 with
    pendingReplay := worker.pendingReplay ++ [(worker.accept transaction).1] }

/-! ### `enqueue_batch` -/

/-- The first loop of `enqueue_batch`: the policy refuses a destination. -/
def refused (config : DispatchWorkerConfig) (transaction : OutboundTransaction) : Bool :=
  config.destinationRefusal transaction.destination ≠ []

/-- The first loop of `enqueue_batch`: a transaction goes on to the bounds. -/
def admitted (config : DispatchWorkerConfig) (transaction : OutboundTransaction) : Bool :=
  transactionIsWellFormed transaction && !refused config transaction

/-- The second loop of `enqueue_batch`: the positions within the bounds, and how many are not.
`size` and `held` count the members that were taken before. -/
def takeWithinBounds (config : DispatchWorkerConfig) (size : ℕ) (held : Str → ℕ) :
    List (OutboundTransaction × ℕ) → List (OutboundTransaction × ℕ) × ℕ
  | [] => ([], 0)
  | member :: rest =>
    if config.queueFull size ||
        config.effectiveMaxPendingPerDestination ≤ held member.1.destination then
      let later := takeWithinBounds config size held rest
      (later.1, later.2 + 1)
    else
      let later := takeWithinBounds config (size + 1) (Function.update held member.1.destination
        (held member.1.destination + 1)) rest
      (member :: later.1, later.2)

/-- The members of a batch that are taken, with their positions, and how many the bounds refuse. -/
def taken (config : DispatchWorkerConfig) (worker : DispatchWorker)
    (batch : List OutboundTransaction) : List (OutboundTransaction × ℕ) × ℕ :=
  takeWithinBounds config worker.queue.length worker.queuedPerDestination
    (batch.zipIdx.filter fun member => admitted config member.1)

/-- The write of the rows of a batch. -/
def storeBatch (worker : DispatchWorker) (commits : Bool) (batch : List OutboundTransaction) :
    Option (Option FederationStore) :=
  match worker.store with
  | none => some none
  | some store =>
    let stored := store.transactions.storeFederationTransactions commits
      (batch.map toPersistentTransaction)
    if stored.1 then some (some { store with transactions := stored.2 }) else none

/-- `enqueue_batch`: one flag for each member, and the worker. -/
def enqueueBatch (config : DispatchWorkerConfig) (worker : DispatchWorker)
    (batch : List OutboundTransaction) (commits : Bool) : List Bool × DispatchWorker :=
  let flags (positions : List ℕ) := (List.range batch.length).map fun position =>
    decide (position ∈ positions)
  let policed := { worker with
    summary := { worker.summary with
      rejected := worker.summary.rejected + batch.countP fun transaction =>
        transactionIsWellFormed transaction && refused config transaction } }
  if worker.shutdownRequested then (flags [], policed)
  else
    let chosen := worker.taken config batch
    let bounded := { policed with
      summary := { policed.summary with rejected := policed.summary.rejected + chosen.2 } }
    if chosen.1 = [] then (flags [], bounded)
    else
      -- one commit for the batch: every row is durable before any can be sent
      match bounded.storeBatch commits (chosen.1.map Prod.fst) with
      | none => (flags [], bounded)
      | some store => (flags (chosen.1.map Prod.snd),
          (chosen.1.map Prod.fst).foldl acceptIntoQueue { bounded with store := store })

/-! ### `take_next` -/

/-- The loop of `top_up_replay_locked`, with the rows it still may look at. -/
def topUp (config : DispatchWorkerConfig) : ℕ → DispatchWorker → DispatchWorker
  | 0, worker => worker
  | remaining + 1, worker =>
    match worker.pendingReplay with
    | [] => worker
    | row :: rest =>
      if config.queueFull worker.queue.length then worker
      -- a row whose destination is at its share goes to the back
      else if destinationAtShareLocked config worker row.transaction.destination then
        topUp config remaining { worker with pendingReplay := rest ++ [row] }
      else topUp config remaining ({ worker with pendingReplay := rest }.pushQueueLocked row)

def topUpReplayLocked (config : DispatchWorkerConfig) (worker : DispatchWorker) : DispatchWorker :=
  topUp config worker.pendingReplay.length worker

/-- The loop of `next_ready_locked`. -/
def nextReadyFrom (dueBy : UInt64) : Finset Str → List DispatchEntry → Option ℕ
  | _, [] => none
  | heldBack, candidate :: rest =>
    if candidate.transaction.destination ∈ heldBack then
      (nextReadyFrom dueBy heldBack rest).map (· + 1)
    else if candidate.transaction.nextRetryTs ≤ dueBy then some 0
    else
      (nextReadyFrom dueBy (insert candidate.transaction.destination heldBack) rest).map (· + 1)

def nextReadyLocked (worker : DispatchWorker) (dueBy : UInt64) : Option ℕ :=
  nextReadyFrom dueBy worker.inFlightDestinations worker.queue

/-- A transaction leaves the queue for a thread. -/
def take (worker : DispatchWorker) (position : ℕ) (entry : DispatchEntry) : DispatchWorker :=
  { worker with
    queue := worker.queue.eraseIdx position
    inFlightDestinations := insert entry.transaction.destination worker.inFlightDestinations
    summary := { worker.summary with pending := worker.summary.pending - 1 }
    attempts := worker.attempts ++ [⟨entry.transaction.destination, .taken entry⟩] }

/-- The transaction that `take_next` finds, with its position. -/
def next (worker : DispatchWorker) (dueBy : UInt64) : Option (ℕ × DispatchEntry) :=
  (worker.nextReadyLocked dueBy).bind fun position =>
    worker.queue[position]?.map fun entry => (position, entry)

def takeNext (config : DispatchWorkerConfig) (worker : DispatchWorker) (dueBy : UInt64) :
    DispatchWorker :=
  match worker.next dueBy with
  | none => worker
  | some (position, entry) => (worker.take position entry).topUpReplayLocked config

/-! ### `attempt` -/

def findOrCreateDestination (worker : DispatchWorker) (serverName : Str) :
    FederationDestination × DispatchWorker :=
  match lookupBy DispatchDestinationSnapshot.serverName worker.destinations serverName with
  | some snapshot => (snapshot.state, worker)
  | none =>
    let destination : FederationDestination := { serverName := serverName }
    (destination,
      { worker with destinations := worker.destinations ++ [⟨serverName, destination⟩] })

def rememberDestinationLocked (worker : DispatchWorker) (destination : FederationDestination)
    (commits : Bool) : DispatchWorker :=
  { worker with
    destinations := upsertBy DispatchDestinationSnapshot.serverName destination.serverName
      ⟨destination.serverName, destination⟩ (fun snapshot => { snapshot with state := destination })
      worker.destinations
    store := worker.store.map fun store =>
      storeFederationDestination store commits (toPersistentDestination destination) }

/-- `attempt` from the look at the destination to the next critical section. -/
def stageAfter (config : DispatchWorkerConfig) (entry : DispatchEntry)
    (destination : FederationDestination) (answer : AttemptAnswer) : AttemptStage :=
  if !destinationShouldRetry destination answer.nowTs then
    .circuitOpen entry destination answer.nowTs
  else if !answer.resolved then
    .failed entry (applyOutboundResult destination {} answer.failedAt) answer.failedAt
  else
    let performed := performOutboundTransaction answer.outcome destination answer.nowTs
      answer.appliedAt
    if performed.1.isSuccess then
      -- a slow success counts against the destination all the same
      let slow := answer.nowTs < answer.finishedAt &&
        config.slowAttemptMs < answer.finishedAt - answer.nowTs
      .succeeded entry
        (if slow then
          applySlowSuccess performed.2 destination.consecutiveFailures answer.finishedAt
        else performed.2) answer.finishedAt
    else .failed entry performed.2 answer.finishedAt

/-- A thread goes on to another stage. -/
def setStage (worker : DispatchWorker) (thread : ℕ) (attempt : DispatchAttempt)
    (stage : AttemptStage) : DispatchWorker :=
  { worker with attempts := worker.attempts.set thread { attempt with stage := stage } }

/-- The first critical section of `attempt`, and what the thread does after it. -/
def look (config : DispatchWorkerConfig) (worker : DispatchWorker) (thread : ℕ)
    (attempt : DispatchAttempt) (entry : DispatchEntry) (answer : AttemptAnswer) : DispatchWorker :=
  let found := worker.findOrCreateDestination entry.transaction.destination
  let stage := stageAfter config entry found.1 answer
  let confirmed := match stage with
    | .succeeded entry _ _ => worker.confirmed ++ [entry.ticket]
    | _ => worker.confirmed
  { found.2 with confirmed := confirmed }.setStage thread attempt stage

/-- The write of the row of a transaction. -/
def storeRow (worker : DispatchWorker) (commits : Bool) (transaction : OutboundTransaction) :
    Option (Option FederationStore) :=
  match worker.store with
  | none => some none
  | some store =>
    let stored := store.transactions.storeFederationTransaction commits
      (toPersistentTransaction transaction)
    if stored.1 then some (some { store with transactions := stored.2 }) else none

/-- The removal of the row of a transaction. -/
def deleteRow (worker : DispatchWorker) (commits : Bool) (transactionId : Str) :
    Option (Option FederationStore) :=
  match worker.store with
  | none => some none
  | some store =>
    let deleted := store.transactions.deleteFederationTransaction commits transactionId
    if deleted.1 then some (some { store with transactions := deleted.2 }) else none

/-- One more failure. -/
def countFailed (worker : DispatchWorker) : DispatchWorker :=
  { worker with summary := { worker.summary with failed := worker.summary.failed + 1 } }

/-- A transaction leaves for good, in one of three ways. -/
def giveUp (worker : DispatchWorker) (entry : DispatchEntry) : DispatchWorker :=
  { (worker.releaseDestinationSlotLocked entry.transaction.destination).countFailed with
    givenUp := worker.givenUp ++ [entry.ticket] }

@[inherit_doc giveUp]
def drop (worker : DispatchWorker) (entry : DispatchEntry) : DispatchWorker :=
  let released := worker.releaseDestinationSlotLocked entry.transaction.destination
  { released with
    summary := { released.summary with dropped := released.summary.dropped + 1 }
    dropped := worker.dropped ++ [entry.ticket] }

@[inherit_doc giveUp]
def deliver (worker : DispatchWorker) (entry : DispatchEntry) : DispatchWorker :=
  let released := worker.releaseDestinationSlotLocked entry.transaction.destination
  { released with
    summary := { released.summary with delivered := released.summary.delivered + 1 }
    delivered := worker.delivered ++ [entry.ticket] }

/-- The end of `wait_out_open_circuit` and of `re_enqueue_with_backoff`: the retry is stored before
the transaction is queued again. -/
def storeAndRequeue (worker : DispatchWorker) (entry : DispatchEntry) (commits : Bool) :
    DispatchWorker :=
  match worker.storeRow commits entry.transaction with
  | none => worker.giveUp entry
  | some store => { worker with store := store }.requeueLocked entry

/-- The entry with a time for its next attempt. -/
def waitUntil (entry : DispatchEntry) (nextRetryTs : UInt64) : DispatchEntry :=
  { entry with transaction := { entry.transaction with nextRetryTs := nextRetryTs } }

def waitOutOpenCircuit (worker : DispatchWorker) (entry : DispatchEntry)
    (destination : FederationDestination) (nowTs : UInt64) (commits : Bool) : DispatchWorker :=
  let nextRetryTs := if nowTs < destination.retryAfterTs then destination.retryAfterTs
    else nowTs + computeBackoff entry.transaction.retryCount
  worker.countFailed.storeAndRequeue (waitUntil entry nextRetryTs) commits

/-- The entry with one more attempt counted. -/
def countRetry (entry : DispatchEntry) : DispatchEntry :=
  { entry with
    transaction := { entry.transaction with retryCount := entry.transaction.retryCount + 1 } }

def reEnqueueWithBackoff (config : DispatchWorkerConfig) (worker : DispatchWorker)
    (entry : DispatchEntry) (nowTs : UInt64) (commits : Bool) : DispatchWorker :=
  let retried := countRetry entry
  if config.maxRetries ≤ retried.transaction.retryCount then
    match worker.deleteRow commits retried.transaction.transactionId with
    | none => worker.giveUp retried
    | some store => { worker with store := store }.drop retried
  else
    worker.storeAndRequeue
      (waitUntil retried (nowTs + computeBackoff retried.transaction.retryCount)) commits

/-- The critical section that follows a 2xx answer: the worker, and whether the row is gone. -/
def recordSuccess (worker : DispatchWorker) (entry : DispatchEntry)
    (destination : FederationDestination) (destinationCommits commits : Bool) :
    DispatchWorker × Bool :=
  let remembered := worker.rememberDestinationLocked destination destinationCommits
  match remembered.deleteRow commits entry.transaction.transactionId with
  | none => (remembered.countFailed, false)
  | some store => ({ remembered with store := store }.deliver entry, true)

/-- The destructor of `InFlightSlot`. -/
def leave (worker : DispatchWorker) (thread : ℕ) (destination : Str) : DispatchWorker :=
  { worker with
    inFlightDestinations := worker.inFlightDestinations.erase destination
    attempts := worker.attempts.eraseIdx thread }

/-- The next critical section of a thread, by the stage it is in. -/
def advance (config : DispatchWorkerConfig) (worker : DispatchWorker) (thread : ℕ)
    (attempt : DispatchAttempt) (answer : AttemptAnswer) (destinationCommits commits : Bool) :
    DispatchWorker :=
  match attempt.stage with
  | .taken entry => worker.look config thread attempt entry answer
  | .circuitOpen entry destination nowTs =>
    (worker.waitOutOpenCircuit entry destination nowTs commits).setStage thread attempt .ended
  | .failed entry destination failedAt =>
    (worker.rememberDestinationLocked destination destinationCommits).countFailed.setStage thread
      attempt (.retrying entry failedAt)
  | .succeeded entry destination finishedAt =>
    let recorded := worker.recordSuccess entry destination destinationCommits commits
    recorded.1.setStage thread attempt (if recorded.2 then .ended else .retrying entry finishedAt)
  | .retrying entry nowTs =>
    (worker.reEnqueueWithBackoff config entry nowTs commits).setStage thread attempt .ended
  | .ended => worker.leave thread attempt.destination

/-! ### `replay_pending` -/

/-- The loop of `replay_pending` over the stored destinations. -/
def replayDestinations (worker : DispatchWorker)
    (destinations : List PersistentFederationDestination) : DispatchWorker :=
  { worker with
    destinations := destinations.foldl (fun known destination =>
      upsertBy DispatchDestinationSnapshot.serverName destination.serverName
        ⟨destination.serverName, toFederationDestination destination⟩
        (fun snapshot => { snapshot with state := toFederationDestination destination }) known)
      worker.destinations }

/-- The loop of `replay_pending` over a stored transaction that the policy does not exclude. -/
def replayRow (config : DispatchWorkerConfig) (worker : DispatchWorker)
    (transaction : OutboundTransaction) : DispatchWorker :=
  if config.queueFull worker.queue.length ||
      worker.destinationAtShareLocked config transaction.destination then
    worker.acceptParked transaction
  else worker.acceptIntoQueue transaction

/-- The removal of the row of an excluded transaction. -/
def excludeRow (commits : Str → Bool) (worker : DispatchWorker) (transaction : OutboundTransaction) :
    DispatchWorker :=
  match worker.deleteRow (commits transaction.transactionId) transaction.transactionId with
  | none => worker.countFailed
  | some store =>
    { worker with
      store := store
      summary := { worker.summary with dropped := worker.summary.dropped + 1 } }

/-- `replay_pending`: `commits` is the answer to the removal of each excluded row. -/
def replayPending (config : DispatchWorkerConfig) (worker : DispatchWorker) (commits : Str → Bool) :
    DispatchWorker :=
  match worker.store with
  | none => worker
  | some store =>
    let rows := (store.transactions.rows.map toOutboundTransaction).filter transactionIsWellFormed
    let replayed := (rows.filter fun row => !refused config row).foldl (replayRow config)
      (worker.replayDestinations store.destinations)
    (rows.filter (refused config)).foldl (excludeRow commits) replayed

end DispatchWorker

/-- The critical sections of the dispatcher. -/
inductive DispatchEvent
  | enqueueBatch (batch : List OutboundTransaction) (commits : Bool)
  | takeNext (dueBy : UInt64)
  | advance (thread : ℕ) (answer : AttemptAnswer) (destinationCommits commits : Bool)
  | replayPending (commits : Str → Bool)
  | requestShutdown

namespace DispatchEvent

/-- The worker after a critical section. -/
def after (config : DispatchWorkerConfig) (worker : DispatchWorker) : DispatchEvent → DispatchWorker
  | .enqueueBatch batch commits => (worker.enqueueBatch config batch commits).2
  | .takeNext dueBy => worker.takeNext config dueBy
  | .advance thread answer destinationCommits commits =>
    match worker.attempts[thread]? with
    | none => worker
    | some attempt => worker.advance config thread attempt answer destinationCommits commits
  | .replayPending commits => worker.replayPending config commits
  | .requestShutdown => { worker with shutdownRequested := true }

/-- The step relation of the dispatcher. -/
def Step (config : DispatchWorkerConfig) (worker : DispatchWorker) (event : DispatchEvent)
    (later : DispatchWorker) : Prop :=
  later = event.after config worker

end DispatchEvent

end Merovingian
