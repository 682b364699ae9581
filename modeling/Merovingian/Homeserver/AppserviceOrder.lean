import Merovingian.Homeserver.AppserviceSteps
import Merovingian.Json.ParserRoundTrip

/-!
# Application services are sent events in order

The main result, `appservice_delivery`, is about every run of enqueues, turns of the sending
thread, answers, failed writes, redactions and restarts.  It is read off `DeliveryInvariant` and
the inversion of a step.
-/

namespace Merovingian

open AppserviceRuntime DeliveryEvent AppserviceStore

variable {codec : AppserviceCodec} {runtime later : AppserviceRuntime} {known : List (Str × ℕ)}
  {registration : AppserviceRegistration} {attempt : DeliveryAttempt} {appserviceId : Str}
  {entry : PersistentAppserviceOutboxEntry} {streamOrdering : ℕ}

/-- What a run says about the stream orderings of events. -/
def knownOrderings (events : List DeliveryEvent) : List (Str × ℕ) :=
  events.flatMap DeliveryEvent.orderings

lemma deliveryInvariant_run {events : List DeliveryEvent}
    (hrun : Run (Step codec) {} events runtime)
    (hdistinct : DistinctOrderings (knownOrderings events)) :
    DeliveryInvariant (knownOrderings events) runtime := by
  refine hrun.invariant (DeliveryInvariant (knownOrderings events))
    (fun event => ∀ ordering ∈ event.orderings, ordering ∈ knownOrderings events) ?_ ?_ (.fresh _)
  · exact fun hknown hstep h => h.step hdistinct hknown hstep
  · exact fun event hmem ordering hordering => List.mem_flatMap.mpr ⟨event, hmem, hordering⟩

/-- What a transaction that is not a retry carries: the queued event with the lowest stream
ordering, or no event when none is queued. -/
def CarriesFirst (runtime : AppserviceRuntime) (attempt : DeliveryAttempt) : Prop :=
  (∃ entry ∈ runtime.store.outbox, entry.appserviceId = attempt.appserviceId ∧
      (∀ other ∈ runtime.store.outbox, other.appserviceId = attempt.appserviceId →
        entry.streamOrdering ≤ other.streamOrdering) ∧
      attempt.eventIds = [entry.eventId]) ∨
    (∀ other ∈ runtime.store.outbox, other.appserviceId ≠ attempt.appserviceId) ∧
      attempt.eventIds = []

lemma append_singleton_inj {α : Type} {l : List α} {a b : α} (h : l ++ [a] = l ++ [b]) : a = b :=
  List.singleton_inj.mp (List.append_cancel_left h)

lemma fresh_of_turned (h : DeliveryInvariant known runtime)
    (hturned : Turned codec runtime registration later)
    (hattempts : later.attempts = runtime.attempts ++ [attempt]) (hfresh : attempt.fresh = true) :
    CarriesFirst runtime attempt ∧ ∀ earlier ∈ runtime.attempts,
      earlier.appserviceId = attempt.appserviceId → runtime.Closed earlier := by
  cases hturned with
  | resendItems | retry =>
    obtain rfl := append_singleton_inj hattempts
    cases hfresh
  | sendFirst entry row event items ephemeral parking hidle hnone hpending hfirst hrow hevent
      hparking =>
    obtain rfl := append_singleton_inj hattempts
    obtain ⟨hmem, hservice⟩ := mem_of_findFirst hfirst
    refine ⟨.inl ⟨entry, hmem, hservice, fun other hother hsame => ?_, ?_⟩, ?_⟩
    · exact le_of_findFirst hfirst hother hsame
    · have hid : event.eventId = entry.eventId := by
        rw [eventId_of_appserviceTransactionEventFor hevent, key_of_lookupBy hrow]
      exact congrArg (fun eventId => [eventId]) hid
    · intro earlier hearlier hsame
      exact (h.recorded earlier hearlier).closed_of_idle (hsame ▸ hpending) (hsame ▸ hnone)
  | sendItems items ephemeral hidle hnone hpending hfirst =>
    obtain rfl := append_singleton_inj hattempts
    refine ⟨.inr ⟨fun other hother => ?_, rfl⟩, ?_⟩
    · exact ne_of_findFirst_eq_none hfirst hother
    · intro earlier hearlier hsame
      exact (h.recorded earlier hearlier).closed_of_idle (hsame ▸ hpending) (hsame ▸ hnone)
  | _ => simp at hattempts

/-! ### Why a row goes -/

/-- The event of a row cannot be read. -/
def Unreadable (codec : AppserviceCodec) (runtime : AppserviceRuntime)
    (entry : PersistentAppserviceOutboxEntry) : Prop :=
  (runtime.findEventById entry.eventId).bind (appserviceTransactionEventFor codec) = none

/-- An answer that ends the transaction of the event of a row. -/
def AnsweredFor (runtime : AppserviceRuntime) (event : DeliveryEvent)
    (entry : PersistentAppserviceOutboxEntry) : Prop :=
  ∃ result now commits flight, event = .answer result now commits ∧
    runtime.inFlight = some flight ∧ (result.ok || result.disabled) = true ∧
    ∃ attempt ∈ runtime.attempts, attempt.appserviceId = entry.appserviceId ∧
      attempt.appserviceId = flight.appserviceId ∧ attempt.number = flight.number ∧
      attempt.eventIds = [entry.eventId]

lemma AppserviceRuntime.DeliveryInvariant.find_eq (h : DeliveryInvariant known runtime)
    (hdistinct : DistinctOrderings known) {eventId : Str}
    (hknown : (eventId, streamOrdering) ∈ known) :
    runtime.findEventById eventId = runtime.findEventByStreamOrdering streamOrdering := by
  have hfound : ∀ row, runtime.findEventByStreamOrdering streamOrdering = some row →
      row ∈ runtime.events ∧ row.eventId = eventId := by
    intro row hfind
    have hmem : row ∈ runtime.events := List.mem_reverse.mp (List.mem_of_find?_eq_some hfind)
    have hordering : row.streamOrdering = streamOrdering := by simpa using List.find?_some hfind
    exact ⟨hmem, (hdistinct _ (h.rows row hmem) _ hknown).mpr hordering⟩
  cases hfind : runtime.findEventByStreamOrdering streamOrdering with
  | some row => exact (lookupBy_eq_some h.rowIds).mpr (hfound row hfind)
  | none =>
    cases hid : runtime.findEventById eventId with
    | none => rfl
    | some row =>
      -- the row of the id has the stream ordering, so the search cannot miss it
      obtain ⟨hmem, hsame⟩ := (lookupBy_eq_some h.rowIds).mp hid
      have hordering := (hdistinct _ (h.rows row hmem) _ hknown).mp hsame
      have hmiss := List.find?_eq_none.mp hfind row (List.mem_reverse.mpr hmem)
      exact absurd hordering (by simpa using hmiss)

lemma isAt_of_completed (hmem : entry ∈ runtime.store.outbox)
    (hgone : entry ∉ (runtime.completed appserviceId streamOrdering).outbox) :
    entry.appserviceId = appserviceId ∧ entry.streamOrdering = streamOrdering := by
  have hat : entry.isAt appserviceId streamOrdering = true := by
    by_contra hnot
    exact hgone (mem_outbox_deleteEntry.mpr ⟨hmem, by simpa using hnot⟩)
  simpa [PersistentAppserviceOutboxEntry.isAt] using hat

section

variable (h : DeliveryInvariant known runtime)

include h

section

variable (hdistinct : DistinctOrderings known)

include hdistinct

/-- A turn removes a row only when its event cannot be read. -/
lemma unreadable_of_turned (hturned : Turned codec runtime registration later)
    (hmem : entry ∈ runtime.store.outbox) (hgone : entry ∉ later.store.outbox) :
    Unreadable codec runtime entry := by
  cases hturned with
  | dropPending hidle hnone hpending hunreadable =>
    rw [Unreadable, h.find_eq hdistinct (h.queued entry hmem), (isAt_of_completed hmem hgone).2]
    exact hunreadable
  | dropFirst first hidle hnone hpending hfirst hunreadable =>
    have hknown := h.queued first (mem_of_findFirst hfirst).1
    have hsame : entry.eventId = first.eventId :=
      (hdistinct _ (h.queued entry hmem) _ hknown).mpr (isAt_of_completed hmem hgone).2
    rw [Unreadable, hsame]
    exact hunreadable
  | _ => exact absurd hmem hgone

lemma answeredFor_of_answer {result : AppserviceCallResult} {now : ℕ} {commits : Bool}
    (hmem : entry ∈ runtime.store.outbox)
    (hgone : entry ∉ (runtime.answer result now commits).store.outbox) :
    AnsweredFor runtime (.answer result now commits) entry := by
  unfold AppserviceRuntime.answer at hgone
  cases hflight : runtime.inFlight with
  | none =>
    rw [hflight] at hgone
    exact absurd hmem hgone
  | some flight =>
    rw [hflight] at hgone
    dsimp only at hgone
    by_cases hends : (result.ok || result.disabled) = true
    · rw [if_pos hends] at hgone
      unfold AppserviceRuntime.finish at hgone
      cases hordering : flight.streamOrdering with
      | none =>
        rw [hordering] at hgone
        exact absurd hmem hgone
      | some streamOrdering =>
        rw [hordering] at hgone
        dsimp only at hgone
        rcases runtime.store.completeAppserviceDelivery_cases commits flight.appserviceId
          streamOrdering with hrefused | hdone
        · rw [hrefused] at hgone
          exact absurd hmem hgone
        · rw [hdone] at hgone
          obtain ⟨hservice, hat⟩ := isAt_of_completed hmem hgone
          obtain ⟨⟨attempt, hattempt, hof, hnumber⟩, hpending, -⟩ := h.flying flight hflight
          obtain ⟨hid, hplace⟩ := hpending streamOrdering hordering
          -- the attempt in flight carries the event of the pending stream ordering
          obtain ⟨eventId, hevents, hknown⟩ := (h.recorded attempt hattempt).pendingEvent
            (by rw [hof, hid, hnumber])
          rw [hof, hplace, ← hat] at hknown
          have hsame : eventId = entry.eventId :=
            (hdistinct _ hknown _ (h.queued entry hmem)).mpr rfl
          exact ⟨result, now, commits, flight, rfl, hflight, hends, attempt, hattempt,
            hof.trans hservice.symm, hof, hnumber, by rw [hevents, hsame]⟩
    · rw [if_neg hends] at hgone
      exact absurd hmem hgone

/-- Why a row goes: its transaction was answered, or its event cannot be read. -/
lemma removed_cases {event : DeliveryEvent} (hstep : Step codec runtime event later)
    (hmem : entry ∈ runtime.store.outbox) (hgone : entry ∉ later.store.outbox) :
    AnsweredFor runtime event entry ∨ Unreadable codec runtime entry := by
  rw [hstep] at hgone
  cases event with
  | storeEvent event =>
    refine absurd hmem fun hmem => hgone ?_
    rw [after, AppserviceRuntime.storeEvent]
    split_ifs <;> exact hmem
  | enqueue appserviceId eventId fallbackStreamOrdering maxQueuedEvents commits =>
    refine absurd hmem fun hmem => hgone ?_
    rw [after, AppserviceRuntime.enqueue]
    split_ifs
    · exact hmem
    · exact hmem
    · rcases runtime.store.enqueueAppserviceEvent_cases commits ⟨appserviceId, _, eventId⟩ with
        hsame | ⟨hrows, -⟩
      · rw [hsame]
        exact hmem
      · exact (hrows entry).mpr (.inr hmem)
  | turn registration now commits =>
    exact .inr (unreadable_of_turned h hdistinct
      (turn_turned codec runtime registration now commits) hmem hgone)
  | answer result now commits => exact .inl (answeredFor_of_answer h hdistinct hmem hgone)
  | restart => exact absurd (mem_outbox_reload.mpr hmem) hgone
  | _ => exact absurd hmem hgone

end

end

/-! ### The result -/

lemma decimalNat_injective {first second : ℕ} (h : decimalNat first = decimalNat second) :
    first = second := by
  rw [← digitsValue_decimalNat first, h, digitsValue_decimalNat]

/-- Delivery to application services is in order, with one event at most in a transaction.  In
every state that a run reaches:

* attempts under one transaction id carry the same event or none, and within one lifetime of the
  process the same ephemeral items;
* the numbers allocated for an application service increase;
* a transaction that is not a retry carries the queued event with the lowest stream ordering, or
  none if none is queued, and every older transaction of the application service is closed;
* a row goes only when the transaction of its event was answered, or its event cannot be read;
* the outbox is strictly sorted, and what is found in it is what a scan finds. -/
theorem appservice_delivery (codec : AppserviceCodec) {events : List DeliveryEvent}
    (hrun : Run (DeliveryEvent.Step codec) {} events runtime)
    (hdistinct : DistinctOrderings (knownOrderings events)) :
    (∀ first ∈ runtime.attempts, first.eventIds.length ≤ 1 ∧ ∀ second ∈ runtime.attempts,
      first.appserviceId = second.appserviceId →
      first.transaction.txnId = second.transaction.txnId →
      first.eventIds = second.eventIds ∧
        (first.lifetime = second.lifetime → first.ephemeral = second.ephemeral)) ∧
    (∀ appserviceId, (runtime.allocatedNumbers appserviceId).Pairwise (· < ·)) ∧
    (∀ registration now commits attempt,
      (runtime.turn codec registration now commits).attempts = runtime.attempts ++ [attempt] →
      attempt.fresh = true → CarriesFirst runtime attempt ∧ ∀ earlier ∈ runtime.attempts,
        earlier.appserviceId = attempt.appserviceId → runtime.Closed earlier) ∧
    (∀ event later, DeliveryEvent.Step codec runtime event later →
      ∀ entry ∈ runtime.store.outbox, entry ∉ later.store.outbox →
        AnsweredFor runtime event entry ∨ Unreadable codec runtime entry) ∧
    OutboxSorted runtime.store.outbox ∧ ∀ appserviceId,
      (∀ streamOrdering, runtime.store.hasAppserviceOutboxEntry appserviceId streamOrdering =
        runtime.store.outbox.any fun entry => entry.isAt appserviceId streamOrdering) ∧
      runtime.store.countAppserviceOutboxEntries appserviceId =
        runtime.store.outbox.countP (PersistentAppserviceOutboxEntry.isOf appserviceId) ∧
      runtime.store.findFirstAppserviceOutboxEntry appserviceId =
        runtime.store.outbox.find? (PersistentAppserviceOutboxEntry.isOf appserviceId) := by
  have h := deliveryInvariant_run hrun hdistinct
  refine ⟨fun first hfirst => ⟨(h.recorded first hfirst).single, ?_⟩, h.increasing, ?_, ?_,
    runtime.store.sorted, fun appserviceId => ⟨fun streamOrdering => ?_, ?_, ?_⟩⟩
  · intro second hsecond hservice htxn
    rw [(h.recorded first hfirst).named, (h.recorded second hsecond).named] at htxn
    exact h.agree first hfirst second hsecond hservice (decimalNat_injective htxn)
  · intro registration now commits attempt hattempts hfresh
    exact fresh_of_turned h (turn_turned codec runtime registration now commits) hattempts hfresh
  · exact fun event later hstep entry hmem hgone => removed_cases h hdistinct hstep hmem hgone
  · exact runtime.store.hasAppserviceOutboxEntry_eq appserviceId streamOrdering
  · exact runtime.store.countAppserviceOutboxEntries_eq appserviceId
  · exact runtime.store.findFirstAppserviceOutboxEntry_eq appserviceId

/-- A codec with a reader for the JSON grammar, for texts without doubles. -/
def grammarCodec : AppserviceCodec := ⟨grammarYyjson, fun _ => []⟩

/-- The state a list of events leads to. -/
def deliver (events : List DeliveryEvent) : AppserviceRuntime :=
  events.foldl (DeliveryEvent.after grammarCodec) {}

lemma deliver_run (events : List DeliveryEvent) :
    Run (Step grammarCodec) {} events (deliver events) := by
  have hstep : ∀ runtime event, Step grammarCodec runtime event
      (after grammarCodec runtime event) := fun _ _ => rfl
  exact Run.of_foldl hstep _ events

def bridge : AppserviceRegistration := ⟨"bridge", true⟩

/-- A message is stored and queued. -/
def messageQueued (eventId : Str) (streamOrdering : ℕ) : List DeliveryEvent :=
  [.storeEvent { eventId := eventId, json := "\x7b\x7d", streamOrdering := streamOrdering },
    .enqueue bridge.id eventId streamOrdering 10 true]

/-- Two messages are queued; the first transaction fails, the server restarts, and it is sent
again. -/
def retriedDelivery : List DeliveryEvent :=
  messageQueued "$a" 4 ++ messageQueued "$b" 7 ++
    [.turn bridge 0 true, .answer ⟨false, false⟩ 0 true, .restart, .turn bridge 0 true,
      .answer ⟨true, false⟩ 0 true]

theorem appservice_delivery_after_restart :
    ((deliver retriedDelivery).attempts.map fun attempt =>
      (attempt.number, attempt.eventIds, attempt.fresh)) =
        [(1, [lit "$a"], true), (1, [lit "$a"], false)] ∧
    ∀ registration now commits attempt,
      ((deliver retriedDelivery).turn grammarCodec registration now commits).attempts =
        (deliver retriedDelivery).attempts ++ [attempt] →
      attempt.fresh = true → CarriesFirst (deliver retriedDelivery) attempt ∧
        ∀ earlier ∈ (deliver retriedDelivery).attempts,
          earlier.appserviceId = attempt.appserviceId →
            (deliver retriedDelivery).Closed earlier := by
  have hdistinct : DistinctOrderings (knownOrderings retriedDelivery) := by
    unfold DistinctOrderings
    decide
  refine ⟨by decide, ?_⟩
  exact (appservice_delivery grammarCodec (deliver_run retriedDelivery) hdistinct).2.2.1

/-- Ephemeral data alone is sent and fails, the server restarts, and a message is queued. -/
def forgottenDelivery : List DeliveryEvent :=
  [.queueEphemeral bridge.id ⟨"typing", "\x7b\x7d"⟩, .turn bridge 0 true,
    .answer ⟨false, false⟩ 0 true, .restart] ++ messageQueued "$a" 4

/-- A restart forgets a transaction without an event: the next one is sent although it was never
acknowledged, nor given up because of an event. -/
theorem sent_after_unacknowledged :
    ∃ events runtime attempt earlier, Run (DeliveryEvent.Step grammarCodec) {} events runtime ∧
      DistinctOrderings (knownOrderings events) ∧
      (runtime.turn grammarCodec bridge 0 true).attempts = runtime.attempts ++ [attempt] ∧
      attempt.fresh = true ∧ earlier ∈ runtime.attempts ∧
      earlier.appserviceId = attempt.appserviceId ∧
      (earlier.appserviceId, earlier.number) ∉ runtime.acknowledged ∧
      (earlier.appserviceId, earlier.number) ∉ runtime.dropped := by
  have hdistinct : DistinctOrderings (knownOrderings forgottenDelivery) := by
    unfold DistinctOrderings
    decide
  refine ⟨forgottenDelivery, deliver forgottenDelivery,
    ⟨1, bridge.id, 2, ⟨"2", [{ eventId := "$a" }], []⟩, true⟩,
    ⟨0, bridge.id, 1, ⟨"1", [], ["\x7b\x7d"]⟩, true⟩, deliver_run _, hdistinct, ?_, rfl, ?_, rfl,
    ?_, ?_⟩
  all_goals decide

end Merovingian
