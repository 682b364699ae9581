import Merovingian.Homeserver.AppserviceDelivery

/-!
# A turn of the delivery thread

What one pass through the loop of `drain_one_appservice` can do, up to the network call: seven
things, each with what it found and the state it leaves.  The back-off and the queue of ephemeral
data are not followed further, so a state is given up to them.
-/

namespace Merovingian

namespace AppserviceRuntime

variable {codec : AppserviceCodec} {runtime later : AppserviceRuntime}
  {registration : AppserviceRegistration} {now : ℕ} {commits : Bool}

/-- The cursor of an application service. -/
abbrev cursor (runtime : AppserviceRuntime) (appserviceId : Str) : PersistentAppserviceTxnCursor :=
  runtime.store.findAppserviceTxnCursor appserviceId

/-- No transaction of ephemeral data alone is parked. -/
def NoneParked (runtime : AppserviceRuntime) (appserviceId : Str) : Prop :=
  ∀ parked, runtime.pendingEphemeral appserviceId = some parked → parked.eventsFree = false

/-- The cursor once a number was allocated. -/
def allocated (cursor : PersistentAppserviceTxnCursor) : PersistentAppserviceTxnCursor :=
  { cursor with nextTxnId := cursor.nextTxnId + 1 }

/-- The cursor once a number was allocated for an event. -/
def pendingFor (cursor : PersistentAppserviceTxnCursor) (streamOrdering : ℕ) :
    PersistentAppserviceTxnCursor :=
  { cursor with
    pendingTxnId := cursor.nextTxnId
    nextTxnId := cursor.nextTxnId + 1
    pendingStreamOrdering := streamOrdering }

/-- The store once a delivery is over. -/
def completed (runtime : AppserviceRuntime) (appserviceId : Str) (streamOrdering : ℕ) :
    AppserviceStore :=
  (runtime.store.putCursor (AppserviceStore.completedCursor (runtime.cursor appserviceId)
    streamOrdering)).deleteEntry appserviceId streamOrdering

/-- What a turn of the sending thread does. -/
inductive Turned (codec : AppserviceCodec) (runtime : AppserviceRuntime)
    (registration : AppserviceRegistration) : AppserviceRuntime → Prop
  /-- There is nothing to do, or a write failed. -/
  | nothing (backoff : Str → Option AppserviceDeliveryBackoff) :
      Turned codec runtime registration { runtime with backoff := backoff }
  /-- Ephemeral data alone is sent again. -/
  | resendItems (parked : AppservicePendingEphemeral) (hidle : runtime.inFlight = none)
      (hparked : runtime.pendingEphemeral registration.id = some parked)
      (hfree : parked.eventsFree = true) :
      Turned codec runtime registration
        (runtime.sendPendingEphemeral registration.id parked false)
  /-- The pending transaction is sent again. -/
  | retry (row : PersistentEvent) (event : AppserviceTransactionEvent)
      (hidle : runtime.inFlight = none) (hnone : runtime.NoneParked registration.id)
      (hpending : (runtime.cursor registration.id).pendingTxnId ≠ 0)
      (hrow : runtime.findEventByStreamOrdering
        (runtime.cursor registration.id).pendingStreamOrdering = some row)
      (hevent : appserviceTransactionEventFor codec row = some event) :
      Turned codec runtime registration (runtime.send
        ⟨registration.id, (runtime.cursor registration.id).pendingTxnId,
          some (runtime.cursor registration.id).pendingStreamOrdering⟩
        ⟨decimalNat (runtime.cursor registration.id).pendingTxnId, [event],
          runtime.parkedItems registration.id (runtime.cursor registration.id).pendingTxnId⟩ false)
  /-- The pending transaction is given up: its event cannot be read. -/
  | dropPending (hidle : runtime.inFlight = none) (hnone : runtime.NoneParked registration.id)
      (hpending : (runtime.cursor registration.id).pendingTxnId ≠ 0)
      (hunreadable : (runtime.findEventByStreamOrdering
        (runtime.cursor registration.id).pendingStreamOrdering).bind
          (appserviceTransactionEventFor codec) = none) :
      Turned codec runtime registration { runtime with
        store := runtime.completed registration.id
          (runtime.cursor registration.id).pendingStreamOrdering
        dropped := runtime.dropped ++
          [(registration.id, (runtime.cursor registration.id).pendingTxnId)] }
  /-- The first row is removed: its event cannot be read. -/
  | dropFirst (entry : PersistentAppserviceOutboxEntry) (hidle : runtime.inFlight = none)
      (hnone : runtime.NoneParked registration.id)
      (hpending : (runtime.cursor registration.id).pendingTxnId = 0)
      (hfirst : runtime.store.findFirstAppserviceOutboxEntry registration.id = some entry)
      (hunreadable : (runtime.findEventById entry.eventId).bind
        (appserviceTransactionEventFor codec) = none) :
      Turned codec runtime registration { runtime with
        store := runtime.completed registration.id entry.streamOrdering }
  /-- The first event is sent in a new transaction. -/
  | sendFirst (entry : PersistentAppserviceOutboxEntry) (row : PersistentEvent)
      (event : AppserviceTransactionEvent) (items : List Str)
      (ephemeral : Str → List AppserviceEphemeralItem)
      (parking : Option AppservicePendingEphemeral) (hidle : runtime.inFlight = none)
      (hnone : runtime.NoneParked registration.id)
      (hpending : (runtime.cursor registration.id).pendingTxnId = 0)
      (hfirst : runtime.store.findFirstAppserviceOutboxEntry registration.id = some entry)
      (hrow : runtime.findEventById entry.eventId = some row)
      (hevent : appserviceTransactionEventFor codec row = some event)
      (hparking : items = [] ∧ parking = runtime.pendingEphemeral registration.id ∨
        parking = if items = [] then none
          else some ⟨(runtime.cursor registration.id).nextTxnId, false, items⟩) :
      Turned codec runtime registration (send { runtime with
          store := runtime.store.putCursor
            (pendingFor (runtime.cursor registration.id) entry.streamOrdering)
          ephemeral := ephemeral
          pendingEphemeral := Function.update runtime.pendingEphemeral registration.id parking }
        ⟨registration.id, (runtime.cursor registration.id).nextTxnId, some entry.streamOrdering⟩
        ⟨decimalNat (runtime.cursor registration.id).nextTxnId, [event], items⟩ true)
  /-- Ephemeral data alone is sent in a new transaction. -/
  | sendItems (items : List Str) (ephemeral : Str → List AppserviceEphemeralItem)
      (hidle : runtime.inFlight = none) (hnone : runtime.NoneParked registration.id)
      (hpending : (runtime.cursor registration.id).pendingTxnId = 0)
      (hfirst : runtime.store.findFirstAppserviceOutboxEntry registration.id = none) :
      Turned codec runtime registration (sendPendingEphemeral { runtime with
          store := runtime.store.putCursor (allocated (runtime.cursor registration.id))
          ephemeral := ephemeral
          pendingEphemeral := Function.update runtime.pendingEphemeral registration.id
            (some ⟨(runtime.cursor registration.id).nextTxnId, true, items⟩) }
        registration.id ⟨(runtime.cursor registration.id).nextTxnId, true, items⟩ true)

lemma storeAppserviceTxnCursor_cases (store : AppserviceStore) (commits : Bool)
    (cursor : PersistentAppserviceTxnCursor) :
    store.storeAppserviceTxnCursor commits cursor = (false, store) ∨
      store.storeAppserviceTxnCursor commits cursor = (true, store.putCursor cursor) := by
  unfold AppserviceStore.storeAppserviceTxnCursor
  split_ifs
  · exact .inl rfl
  · exact .inr rfl

lemma dropUnreadable_cases (runtime : AppserviceRuntime) (appserviceId : Str)
    (streamOrdering now : ℕ) (commits : Bool) (given : List (Str × ℕ)) :
    (∃ backoff, runtime.dropUnreadable appserviceId streamOrdering now commits given =
        { runtime with backoff := backoff }) ∨
      runtime.dropUnreadable appserviceId streamOrdering now commits given = { runtime with
          store := runtime.completed appserviceId streamOrdering
          dropped := runtime.dropped ++ given } := by
  unfold dropUnreadable
  rcases runtime.store.completeAppserviceDelivery_cases commits appserviceId streamOrdering with
    hrefused | hdone
  · rw [hrefused]
    exact .inl ⟨_, rfl⟩
  · rw [hdone]
    exact .inr rfl

section Free

variable (hidle : runtime.inFlight = none) (hnone : runtime.NoneParked registration.id)

include hidle hnone

lemma turned_retryPending (hpending : (runtime.cursor registration.id).pendingTxnId ≠ 0) :
    Turned codec runtime registration (runtime.retryPending codec registration.id now commits) := by
  unfold retryPending
  dsimp only
  cases hread : (runtime.findEventByStreamOrdering
      (runtime.cursor registration.id).pendingStreamOrdering).bind
      (appserviceTransactionEventFor codec) with
  | none =>
    rcases runtime.dropUnreadable_cases registration.id
        (runtime.cursor registration.id).pendingStreamOrdering now commits
        [(registration.id, (runtime.cursor registration.id).pendingTxnId)] with
      ⟨backoff, heq⟩ | heq
    · exact heq ▸ .nothing backoff
    · exact heq ▸ .dropPending hidle hnone hpending hread
  | some event =>
    obtain ⟨row, hrow, hevent⟩ := Option.bind_eq_some_iff.mp hread
    exact .retry row event hidle hnone hpending hrow hevent

variable (hpending : (runtime.cursor registration.id).pendingTxnId = 0)

include hpending

lemma turned_sendFirst {entry : PersistentAppserviceOutboxEntry}
    (hfirst : runtime.store.findFirstAppserviceOutboxEntry registration.id = some entry) :
    Turned codec runtime registration (runtime.sendFirst codec registration entry now commits) := by
  unfold sendFirst
  dsimp only
  cases hread : (runtime.findEventById entry.eventId).bind
      (appserviceTransactionEventFor codec) with
  | none =>
    rcases runtime.dropUnreadable_cases registration.id entry.streamOrdering now commits [] with
      ⟨backoff, heq⟩ | heq
    · exact heq ▸ .nothing backoff
    · have hsame : runtime.dropUnreadable registration.id entry.streamOrdering now commits [] =
          { runtime with store := runtime.completed registration.id entry.streamOrdering } := by
        rw [heq, List.append_nil]
      exact hsame ▸ .dropFirst entry hidle hnone hpending hfirst hread
  | some event =>
    obtain ⟨row, hrow, hevent⟩ := Option.bind_eq_some_iff.mp hread
    rcases storeAppserviceTxnCursor_cases runtime.store commits
        (pendingFor (runtime.cursor registration.id) entry.streamOrdering) with hstored | hstored
    · simp only [pendingFor] at hstored
      rw [hstored]
      exact .nothing _
    · simp only [pendingFor] at hstored
      rw [hstored]
      simp only [Bool.not_true, Bool.false_eq_true, if_false]
      unfold parkEphemeral
      split_ifs with hreceives
      · exact .sendFirst entry row event _ _ _ hidle hnone hpending hfirst hrow hevent (.inr rfl)
      · have hsame : runtime.pendingEphemeral = Function.update runtime.pendingEphemeral
            registration.id (runtime.pendingEphemeral registration.id) :=
          (Function.update_eq_self _ _).symm
        have hturned : Turned codec runtime registration _ :=
          .sendFirst entry row event [] runtime.ephemeral
            (runtime.pendingEphemeral registration.id) hidle hnone hpending hfirst hrow hevent
            (.inl ⟨rfl, rfl⟩)
        rw [← hsame] at hturned
        exact hturned

lemma turned_sendNext :
    Turned codec runtime registration (runtime.sendNext codec registration now commits) := by
  unfold sendNext
  cases hfirst : runtime.store.findFirstAppserviceOutboxEntry registration.id with
  | some entry => exact turned_sendFirst hidle hnone hpending hfirst
  | none =>
    split_ifs with hempty
    · exact .nothing runtime.backoff
    · unfold sendNewEphemeral
      dsimp only
      rcases storeAppserviceTxnCursor_cases runtime.store commits
          (allocated (runtime.cursor registration.id)) with hstored | hstored
      · simp only [allocated] at hstored
        rw [hstored]
        exact .nothing _
      · simp only [allocated] at hstored
        rw [hstored]
        exact .sendItems _ _ hidle hnone hpending hfirst

end Free

/-- A turn does one of the seven things. -/
lemma turn_turned (codec : AppserviceCodec) (runtime : AppserviceRuntime)
    (registration : AppserviceRegistration) (now : ℕ) (commits : Bool) :
    Turned codec runtime registration (runtime.turn codec registration now commits) := by
  unfold turn
  by_cases hflight : runtime.inFlight.isSome = true
  · rw [if_pos hflight]
    exact .nothing runtime.backoff
  rw [if_neg hflight]
  have hidle : runtime.inFlight = none := by simpa using hflight
  by_cases hbackoff : ((runtime.backoff registration.id).any fun backoff =>
      decide (now < backoff.retryAt)) = true
  · rw [if_pos hbackoff]
    exact .nothing runtime.backoff
  rw [if_neg hbackoff]
  split
  · next txnId items hparked => exact .resendItems _ hidle hparked rfl
  · next hother =>
    have hnone : runtime.NoneParked registration.id := by
      intro parked hparked
      by_contra hfree
      obtain ⟨txnId, eventsFree, items⟩ := parked
      simp only [Bool.not_eq_false] at hfree
      subst hfree
      exact hother txnId items hparked
    by_cases hpending : (runtime.cursor registration.id).pendingTxnId ≠ 0
    · rw [if_pos hpending]
      exact turned_retryPending hidle hnone hpending
    · rw [if_neg hpending]
      exact turned_sendNext hidle hnone (not_not.mp hpending)

end AppserviceRuntime

end Merovingian
