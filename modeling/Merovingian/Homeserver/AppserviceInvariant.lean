import Merovingian.Homeserver.AppserviceTurn

/-!
# What the attempts of deliveries have in common

Each attempt is tied to the cursor and to the parked ephemeral items of its application service
(`Recorded`): its number was allocated before, an attempt of the pending transaction carries the
event that a retry reads back and the items that a retry would carry, and an attempt that is
neither pending nor parked is closed: acknowledged, given up, or forgotten by a restart because it
carried no event.  `DeliveryInvariant` is this for all attempts, with the agreement of the attempts
of one number; every event keeps it.

The stream orderings of events come from outside.  That no two events share one is the hypothesis
`DistinctOrderings`.
-/

namespace Merovingian

open List

/-- Each event has one stream ordering, which no other event has. -/
def DistinctOrderings (known : List (Str × ℕ)) : Prop :=
  ∀ first ∈ known, ∀ second ∈ known, first.1 = second.1 ↔ first.2 = second.2

namespace AppserviceRuntime

variable {codec : AppserviceCodec} {runtime later : AppserviceRuntime} {known : List (Str × ℕ)}
  {registration : AppserviceRegistration} {attempt : DeliveryAttempt} {appserviceId : Str}

/-- The transaction is over: acknowledged, given up because its event could not be read, or
without an event and forgotten by a restart. -/
def Closed (runtime : AppserviceRuntime) (attempt : DeliveryAttempt) : Prop :=
  (attempt.appserviceId, attempt.number) ∈ runtime.acknowledged ∨
    (attempt.appserviceId, attempt.number) ∈ runtime.dropped ∨
    attempt.eventIds = [] ∧ attempt.lifetime < runtime.lifetime

/-- A step within a lifetime that forgets no history. -/
structure Continues (runtime later : AppserviceRuntime) : Prop where
  lifetime : later.lifetime = runtime.lifetime
  acknowledged : runtime.acknowledged ⊆ later.acknowledged
  dropped : runtime.dropped ⊆ later.dropped

/-- How an attempt of the past is tied to the present state. -/
structure Recorded (known : List (Str × ℕ)) (runtime : AppserviceRuntime)
    (attempt : DeliveryAttempt) : Prop where
  named : attempt.transaction.txnId = decimalNat attempt.number
  single : attempt.eventIds.length ≤ 1
  pos : 0 < attempt.number
  lt : attempt.number < (runtime.cursor attempt.appserviceId).nextTxnId
  lifetime : attempt.lifetime ≤ runtime.lifetime
  /-- An attempt of the pending transaction carries the event a retry reads back. -/
  pendingEvent : attempt.number = (runtime.cursor attempt.appserviceId).pendingTxnId →
    ∃ eventId, attempt.eventIds = [eventId] ∧
      (eventId, (runtime.cursor attempt.appserviceId).pendingStreamOrdering) ∈ known
  /-- It carries the ephemeral items a retry would carry. -/
  pendingItems : attempt.number = (runtime.cursor attempt.appserviceId).pendingTxnId →
    attempt.lifetime = runtime.lifetime →
    attempt.ephemeral = runtime.parkedItems attempt.appserviceId attempt.number
  /-- An attempt of the parked transaction without an event carries what is parked. -/
  parkedItems : ∀ parked, runtime.pendingEphemeral attempt.appserviceId = some parked →
    parked.eventsFree = true → attempt.number = parked.txnId →
    attempt.eventIds = [] ∧ attempt.ephemeral = parked.items
  /-- An attempt is closed, or its transaction is the pending one or the parked one. -/
  closed : runtime.Closed attempt ∨
    attempt.number = (runtime.cursor attempt.appserviceId).pendingTxnId ∨
    ∃ parked, runtime.pendingEphemeral attempt.appserviceId = some parked ∧
      parked.eventsFree = true ∧ attempt.number = parked.txnId

namespace Recorded

section

variable (h : Recorded known runtime attempt)

include h

/-- With no transaction pending or parked, an attempt is closed. -/
lemma closed_of_idle (hpending : (runtime.cursor attempt.appserviceId).pendingTxnId = 0)
    (hnone : runtime.NoneParked attempt.appserviceId) : runtime.Closed attempt := by
  rcases h.closed with hclosed | hsame | ⟨parked, hparked, hfree, -⟩
  · exact hclosed
  · exact absurd (hsame.trans hpending) h.pos.ne'
  · exact absurd (hnone parked hparked) (by simp [hfree])

lemma of_same (hcursor : later.cursor attempt.appserviceId = runtime.cursor attempt.appserviceId)
    (hparked : later.pendingEphemeral attempt.appserviceId =
      runtime.pendingEphemeral attempt.appserviceId)
    (hcontinues : Continues runtime later) : Recorded known later attempt := by
  have hitems : ∀ number, later.parkedItems attempt.appserviceId number =
      runtime.parkedItems attempt.appserviceId number := by
    intro number
    simp [AppserviceRuntime.parkedItems, hparked]
  constructor
  case named => exact h.named
  case single => exact h.single
  case pos => exact h.pos
  case lt => rw [hcursor]; exact h.lt
  case lifetime => rw [hcontinues.lifetime]; exact h.lifetime
  case pendingEvent => rw [hcursor]; exact h.pendingEvent
  case pendingItems => rw [hcursor, hcontinues.lifetime, hitems]; exact h.pendingItems
  case parkedItems => rw [hparked]; exact h.parkedItems
  case closed =>
    rw [hcursor, hparked, Closed, hcontinues.lifetime]
    exact h.closed.imp_left (Or.imp (fun hmem => hcontinues.acknowledged hmem)
      (Or.imp (fun hmem => hcontinues.dropped hmem) id))

lemma of_closed (hclosed : later.Closed attempt) (hlifetime : later.lifetime = runtime.lifetime)
    (hnext : (runtime.cursor attempt.appserviceId).nextTxnId ≤
      (later.cursor attempt.appserviceId).nextTxnId)
    (hpending : attempt.number ≠ (later.cursor attempt.appserviceId).pendingTxnId)
    (hparked : ∀ parked, later.pendingEphemeral attempt.appserviceId = some parked →
      parked.eventsFree = true → attempt.number ≠ parked.txnId) : Recorded known later attempt where
  named := h.named
  single := h.single
  pos := h.pos
  lt := h.lt.trans_le hnext
  lifetime := hlifetime ▸ h.lifetime
  pendingEvent := fun hsame => absurd hsame hpending
  pendingItems := fun hsame => absurd hsame hpending
  parkedItems := fun parked hmem hfree hsame => absurd hsame (hparked parked hmem hfree)
  closed := .inl hclosed

end

end Recorded

/-- What the flight of a transaction says about the present state. -/
structure Flying (runtime : AppserviceRuntime) (flight : DeliveryFlight) : Prop where
  attempted : ∃ attempt ∈ runtime.attempts, attempt.appserviceId = flight.appserviceId ∧
    attempt.number = flight.number
  pending : ∀ streamOrdering, flight.streamOrdering = some streamOrdering →
    (runtime.cursor flight.appserviceId).pendingTxnId = flight.number ∧
      (runtime.cursor flight.appserviceId).pendingStreamOrdering = streamOrdering
  parked : flight.streamOrdering = none →
    ∃ parked, runtime.pendingEphemeral flight.appserviceId = some parked ∧
      parked.eventsFree = true ∧ parked.txnId = flight.number

/-- The numbers allocated for an application service, in the order of their first attempts. -/
def allocatedNumbers (runtime : AppserviceRuntime) (appserviceId : Str) : List ℕ :=
  (runtime.attempts.filter fun attempt =>
    attempt.fresh && attempt.appserviceId = appserviceId).map DeliveryAttempt.number

/-- What holds in every state. -/
structure DeliveryInvariant (known : List (Str × ℕ)) (runtime : AppserviceRuntime) : Prop where
  rows : ∀ event ∈ runtime.events, (event.eventId, event.streamOrdering) ∈ known
  rowIds : (runtime.events.map PersistentEvent.eventId).Nodup
  queued : ∀ entry ∈ runtime.store.outbox, (entry.eventId, entry.streamOrdering) ∈ known
  pending : ∀ appserviceId, (runtime.cursor appserviceId).pendingTxnId <
    (runtime.cursor appserviceId).nextTxnId
  parked : ∀ appserviceId parked, runtime.pendingEphemeral appserviceId = some parked →
    0 < parked.txnId ∧ parked.txnId < (runtime.cursor appserviceId).nextTxnId ∧
      (parked.eventsFree = true → (runtime.cursor appserviceId).pendingTxnId = 0)
  recorded : ∀ attempt ∈ runtime.attempts, Recorded known runtime attempt
  agree : ∀ first ∈ runtime.attempts, ∀ second ∈ runtime.attempts,
    first.appserviceId = second.appserviceId → first.number = second.number →
    first.eventIds = second.eventIds ∧
      (first.lifetime = second.lifetime → first.ephemeral = second.ephemeral)
  increasing : ∀ appserviceId, (runtime.allocatedNumbers appserviceId).Pairwise (· < ·)
  flying : ∀ flight, runtime.inFlight = some flight → Flying runtime flight

namespace DeliveryInvariant

lemma fresh (known : List (Str × ℕ)) : DeliveryInvariant known {} where
  rows := by simp
  rowIds := .nil
  queued := by simp [AppserviceStore.empty]
  pending := fun _ => Nat.zero_lt_one
  parked := by simp
  recorded := by simp
  agree := by simp
  increasing := fun _ => .nil
  flying := by simp

section

variable (h : DeliveryInvariant known runtime)

include h

/-- A step that leaves the cursors and the parked items alone, sends nothing and forgets no
history. -/
lemma of_same (hrows : ∀ event ∈ later.events, (event.eventId, event.streamOrdering) ∈ known)
    (hrowIds : (later.events.map PersistentEvent.eventId).Nodup)
    (hqueued : ∀ entry ∈ later.store.outbox, (entry.eventId, entry.streamOrdering) ∈ known)
    (hcursor : ∀ appserviceId, later.cursor appserviceId = runtime.cursor appserviceId)
    (hparked : later.pendingEphemeral = runtime.pendingEphemeral)
    (hcontinues : Continues runtime later) (hattempts : later.attempts = runtime.attempts)
    (hflight : ∀ flight, later.inFlight = some flight → runtime.inFlight = some flight) :
    DeliveryInvariant known later where
  rows := hrows
  rowIds := hrowIds
  queued := hqueued
  pending := fun appserviceId => by rw [hcursor]; exact h.pending appserviceId
  parked := fun appserviceId => by rw [hcursor, hparked]; exact h.parked appserviceId
  recorded := by
    rw [hattempts]
    exact fun attempt hmem => (h.recorded attempt hmem).of_same (hcursor _)
      (congrFun hparked _) hcontinues
  agree := by rw [hattempts]; exact h.agree
  increasing := fun appserviceId => by
    rw [allocatedNumbers, hattempts]
    exact h.increasing appserviceId
  flying := fun flight hmem => by
    have hflying := h.flying flight (hflight flight hmem)
    refine ⟨by rw [hattempts]; exact hflying.attempted, ?_, ?_⟩
    · rw [hcursor]; exact hflying.pending
    · rw [hparked]; exact hflying.parked

/-- A step that changes the cursor and the parked items of one application service, all of whose
attempts are closed then. -/
lemma of_closed (appserviceId : Str) (hevents : later.events = runtime.events)
    (houtbox : later.store.outbox ⊆ runtime.store.outbox)
    (hothers : ∀ other, other ≠ appserviceId → later.cursor other = runtime.cursor other ∧
      later.pendingEphemeral other = runtime.pendingEphemeral other)
    (hcontinues : Continues runtime later) (hattempts : later.attempts = runtime.attempts)
    (hflight : later.inFlight = none)
    (hpending : (later.cursor appserviceId).pendingTxnId < (later.cursor appserviceId).nextTxnId)
    (hnext : (runtime.cursor appserviceId).nextTxnId ≤ (later.cursor appserviceId).nextTxnId)
    (hparked : ∀ parked, later.pendingEphemeral appserviceId = some parked →
      0 < parked.txnId ∧ parked.txnId < (later.cursor appserviceId).nextTxnId ∧
        (parked.eventsFree = true → (later.cursor appserviceId).pendingTxnId = 0))
    (hclosed : ∀ attempt ∈ runtime.attempts, attempt.appserviceId = appserviceId →
      later.Closed attempt ∧ attempt.number ≠ (later.cursor appserviceId).pendingTxnId ∧
        ∀ parked, later.pendingEphemeral appserviceId = some parked → parked.eventsFree = true →
          attempt.number ≠ parked.txnId) :
    DeliveryInvariant known later where
  rows := hevents ▸ h.rows
  rowIds := hevents ▸ h.rowIds
  queued := fun entry hmem => h.queued entry (houtbox hmem)
  pending := fun other => by
    by_cases hsame : other = appserviceId
    · exact hsame ▸ hpending
    · rw [(hothers other hsame).1]
      exact h.pending other
  parked := fun other => by
    by_cases hsame : other = appserviceId
    · exact hsame ▸ hparked
    · rw [(hothers other hsame).1, (hothers other hsame).2]
      exact h.parked other
  recorded := by
    rw [hattempts]
    intro attempt hmem
    by_cases hsame : attempt.appserviceId = appserviceId
    · obtain ⟨hclosed, hpending, hfree⟩ := hclosed attempt hmem hsame
      exact (h.recorded attempt hmem).of_closed hclosed hcontinues.lifetime (hsame ▸ hnext)
        (hsame ▸ hpending) (hsame ▸ hfree)
    · exact (h.recorded attempt hmem).of_same (hothers _ hsame).1 (hothers _ hsame).2 hcontinues
  agree := by rw [hattempts]; exact h.agree
  increasing := fun other => by
    rw [allocatedNumbers, hattempts]
    exact h.increasing other
  flying := fun flight hmem => by rw [hflight] at hmem; cases hmem

lemma send {flight : DeliveryFlight} {transaction : AppserviceTransaction} {new : Bool}
    (hrecorded : Recorded known runtime
      ⟨runtime.lifetime, flight.appserviceId, flight.number, transaction, new⟩)
    (hagree : ∀ attempt ∈ runtime.attempts, attempt.appserviceId = flight.appserviceId →
      attempt.number = flight.number →
      attempt.eventIds = transaction.events.map AppserviceTransactionEvent.eventId ∧
        (attempt.lifetime = runtime.lifetime → attempt.ephemeral = transaction.ephemeralJson))
    (hnew : new = true → ∀ attempt ∈ runtime.attempts,
      attempt.appserviceId = flight.appserviceId → attempt.number < flight.number)
    (hpending : ∀ streamOrdering, flight.streamOrdering = some streamOrdering →
      (runtime.cursor flight.appserviceId).pendingTxnId = flight.number ∧
        (runtime.cursor flight.appserviceId).pendingStreamOrdering = streamOrdering)
    (hparked : flight.streamOrdering = none →
      ∃ parked, runtime.pendingEphemeral flight.appserviceId = some parked ∧
        parked.eventsFree = true ∧ parked.txnId = flight.number) :
    DeliveryInvariant known (runtime.send flight transaction new) where
  rows := h.rows
  rowIds := h.rowIds
  queued := h.queued
  pending := h.pending
  parked := h.parked
  recorded := fun attempt hmem => by
    have hold : Recorded known runtime attempt := by
      rcases mem_append.mp hmem with hmem | hmem
      · exact h.recorded attempt hmem
      · exact mem_singleton.mp hmem ▸ hrecorded
    exact hold.of_same rfl rfl ⟨rfl, Subset.refl _, Subset.refl _⟩
  agree := fun first hfirst second hsecond hservice hnumber => by
    rcases mem_append.mp hfirst with hfirst | hfirst <;>
      rcases mem_append.mp hsecond with hsecond | hsecond
    · exact h.agree first hfirst second hsecond hservice hnumber
    · obtain rfl := mem_singleton.mp hsecond
      exact hagree first hfirst hservice hnumber
    · obtain rfl := mem_singleton.mp hfirst
      obtain ⟨hevents, hitems⟩ := hagree second hsecond hservice.symm hnumber.symm
      exact ⟨hevents.symm, fun hlifetime => (hitems hlifetime.symm).symm⟩
    · obtain rfl := mem_singleton.mp hfirst
      obtain rfl := mem_singleton.mp hsecond
      exact ⟨rfl, fun _ => rfl⟩
  increasing := fun appserviceId => by
    have hsplit : (runtime.send flight transaction new).allocatedNumbers appserviceId =
        runtime.allocatedNumbers appserviceId ++
          if (new && flight.appserviceId = appserviceId) = true then [flight.number] else [] := by
      unfold allocatedNumbers AppserviceRuntime.send
      rw [filter_append, map_append, filter_singleton]
      cases (new && decide (flight.appserviceId = appserviceId)) <;> rfl
    rw [hsplit]
    split_ifs with hlast
    · rw [Bool.and_eq_true, decide_eq_true_eq] at hlast
      refine pairwise_append.mpr ⟨h.increasing appserviceId, pairwise_singleton _ _, ?_⟩
      intro number hnumber last hmem
      obtain ⟨attempt, hattempt, rfl⟩ := mem_map.mp hnumber
      obtain ⟨hattempt, htest⟩ := mem_filter.mp hattempt
      rw [Bool.and_eq_true, decide_eq_true_eq] at htest
      rw [mem_singleton.mp hmem]
      exact hnew hlast.1 attempt hattempt (htest.2.trans hlast.2.symm)
    · rw [append_nil]
      exact h.increasing appserviceId
  flying := fun other hmem => by
    cases hmem
    exact ⟨⟨_, mem_append_right _ mem_cons_self, rfl, rfl⟩, hpending, hparked⟩

end

end DeliveryInvariant

end AppserviceRuntime

end Merovingian
