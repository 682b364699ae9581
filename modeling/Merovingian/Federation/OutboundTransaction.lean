import Merovingian.Database.FederationTransactions

/-!
# Outbound transactions and the state of their destinations

The model of `federation/outbound_transaction.cpp`, as far as the dispatcher depends on it: how long
a destination is left alone after a failure, and what an answer does to its state.  What goes over
the network and comes back is an argument.
-/

namespace Merovingian

structure OutboundTransaction where
  transactionId : Str := []
  destination : Str := []
  method : Str := "PUT"
  target : Str := []
  origin : Str := []
  originServerTs : Str := []
  body : Str := []
  retryCount : UInt32 := 0
  nextRetryTs : UInt64 := 0
deriving DecidableEq, Repr

structure FederationDestination where
  serverName : Str := []
  retryAfterTs : UInt64 := 0
  lastSuccessTs : UInt64 := 0
  consecutiveFailures : UInt32 := 0
  state : Str := "idle"
deriving DecidableEq, Repr

def toPersistentTransaction (transaction : OutboundTransaction) : PersistentFederationTransaction :=
  ⟨transaction.transactionId, transaction.destination, transaction.method, transaction.target,
    transaction.origin, transaction.originServerTs, transaction.body, transaction.retryCount,
    transaction.nextRetryTs⟩

def toOutboundTransaction (transaction : PersistentFederationTransaction) : OutboundTransaction :=
  ⟨transaction.transactionId, transaction.serverName, transaction.method, transaction.target,
    transaction.origin, transaction.originServerTs, transaction.body, transaction.retryCount,
    transaction.nextRetryTs⟩

def toPersistentDestination (destination : FederationDestination) :
    PersistentFederationDestination :=
  ⟨destination.serverName, destination.state, destination.retryAfterTs, destination.lastSuccessTs,
    destination.consecutiveFailures⟩

def toFederationDestination (destination : PersistentFederationDestination) :
    FederationDestination :=
  ⟨destination.serverName, destination.retryAfterTs, destination.lastSuccessTs,
    destination.consecutiveFailures, destination.state⟩

def transactionIsWellFormed (transaction : OutboundTransaction) : Bool :=
  transaction.transactionId ≠ [] && transaction.destination ≠ [] && transaction.method ≠ [] &&
    transaction.target ≠ [] && transaction.origin ≠ [] && transaction.body ≠ []

def baseRetryIntervalMs : UInt64 := 2000

def maxRetryIntervalMs : UInt64 := 300000

def maxConsecutiveFailuresBeforeCircuitOpen : UInt32 := 3

/-- The loop of `compute_backoff`. -/
def doubleInterval : ℕ → UInt64 → UInt64
  | 0, interval => interval
  | attempts + 1, interval =>
    if maxRetryIntervalMs ≤ interval then maxRetryIntervalMs
    else if maxRetryIntervalMs / 2 < interval then maxRetryIntervalMs
    else doubleInterval attempts (interval * 2)

def computeBackoff (retryCount : UInt32) : UInt64 :=
  if retryCount = 0 then baseRetryIntervalMs else doubleInterval retryCount.toNat baseRetryIntervalMs

/-- The curve doubles and ends at five minutes. -/
example : computeBackoff 0 = 2000 ∧ computeBackoff 3 = 16000 ∧ computeBackoff 7 = 256000 ∧
    computeBackoff 8 = 300000 := by decide

def destinationShouldRetry (destination : FederationDestination) (nowTs : UInt64) : Bool :=
  if maxConsecutiveFailuresBeforeCircuitOpen ≤ destination.consecutiveFailures &&
      nowTs < destination.retryAfterTs then false
  else if nowTs < destination.retryAfterTs then false
  else true

/-- The fields of `OutboundTransactionResult` that are read. -/
structure OutboundTransactionResult where
  sent : Bool := false
  httpStatus : UInt16 := 0
deriving DecidableEq, Repr

def statusIsSuccess (status : UInt16) : Bool := 200 ≤ status && status < 300

/-- The peer answered, with a status of success. -/
def OutboundTransactionResult.isSuccess (result : OutboundTransactionResult) : Bool :=
  result.sent && statusIsSuccess result.httpStatus

def applyOutboundResult (destination : FederationDestination) (result : OutboundTransactionResult)
    (nowTs : UInt64) : FederationDestination :=
  if result.isSuccess then
    { destination with
      consecutiveFailures := 0, lastSuccessTs := nowTs, retryAfterTs := 0, state := "ok" }
  else
    { destination with
      consecutiveFailures := destination.consecutiveFailures + 1
      retryAfterTs := nowTs + computeBackoff (destination.consecutiveFailures + 1)
      state := "backoff" }

def applySlowSuccess (destination : FederationDestination) (failuresBefore : UInt32)
    (nowTs : UInt64) : FederationDestination :=
  { destination with
    consecutiveFailures := failuresBefore + 1
    retryAfterTs := nowTs + computeBackoff (failuresBefore + 1)
    state := "backoff" }

/-- `perform_outbound_transaction`: `outcome` is the answer of the client, and `finishedTs` the
clock after it. -/
def performOutboundTransaction (outcome : OutboundTransactionResult)
    (destination : FederationDestination) (nowTs finishedTs : UInt64) :
    OutboundTransactionResult × FederationDestination :=
  if !destinationShouldRetry destination nowTs then ({}, destination)
  else (outcome, applyOutboundResult destination outcome finishedTs)

end Merovingian
