import Merovingian.Homeserver.AppserviceInvariant

/-!
# Every event of a delivery keeps the invariant

The step lemmas of `DeliveryInvariant`: for each of the seven things a turn of the sending thread
does, for the return of the network call, for the other threads and for a restart.
-/

namespace Merovingian

open List AppserviceStore Function

namespace AppserviceRuntime

variable {codec : AppserviceCodec} {runtime later : AppserviceRuntime} {known : List (Str × ℕ)}
  {registration : AppserviceRegistration} {attempt : DeliveryAttempt} {appserviceId : Str}
  {event : AppserviceTransactionEvent}

lemma eventId_of_appserviceTransactionEventFor {row : PersistentEvent}
    (h : appserviceTransactionEventFor codec row = some event) :
    event.eventId = row.eventId := by
  unfold appserviceTransactionEventFor at h
  split at h
  · cases h
  · obtain ⟨root, -, rfl⟩ := Option.map_eq_some_iff.mp h
    rfl

section

variable (runtime : AppserviceRuntime)

lemma cursor_completed (appserviceId : Str) (streamOrdering : ℕ) (other : Str) :
    (runtime.completed appserviceId streamOrdering).findAppserviceTxnCursor other =
      if other = appserviceId then completedCursor (runtime.cursor appserviceId) streamOrdering
      else runtime.cursor other := by
  have hput := runtime.store.findAppserviceTxnCursor_putCursor
    (completedCursor (runtime.cursor appserviceId) streamOrdering) other
  have hid : (completedCursor (runtime.cursor appserviceId) streamOrdering).appserviceId =
      appserviceId := runtime.store.findAppserviceTxnCursor_appserviceId appserviceId
  rwa [hid] at hput

lemma cursor_putCursor_self (cursor : PersistentAppserviceTxnCursor)
    (h : cursor.appserviceId = appserviceId) :
    (runtime.store.putCursor cursor).findAppserviceTxnCursor appserviceId = cursor := by
  rw [findAppserviceTxnCursor_putCursor, if_pos h.symm]

end

namespace DeliveryInvariant

section

variable (h : DeliveryInvariant known runtime) {flight : DeliveryFlight}

include h

lemma completed (appserviceId : Str) (streamOrdering : ℕ)
    (hstore : later.store = runtime.completed appserviceId streamOrdering)
    (hevents : later.events = runtime.events) (hothers : ∀ other, other ≠ appserviceId →
      later.pendingEphemeral other = runtime.pendingEphemeral other)
    (hcontinues : Continues runtime later) (hattempts : later.attempts = runtime.attempts)
    (hflight : later.inFlight = none)
    (hparked : ∀ parked, later.pendingEphemeral appserviceId = some parked →
      runtime.pendingEphemeral appserviceId = some parked ∧ parked.eventsFree = false)
    (hclosed : ∀ attempt ∈ runtime.attempts, attempt.appserviceId = appserviceId →
      later.Closed attempt) :
    DeliveryInvariant known later := by
  have hcursor : later.cursor appserviceId =
      completedCursor (runtime.cursor appserviceId) streamOrdering := by
    rw [cursor, hstore, cursor_completed, if_pos rfl]
  have hpending : (later.cursor appserviceId).pendingTxnId = 0 := by rw [hcursor]; rfl
  have hnext : (later.cursor appserviceId).nextTxnId =
      (runtime.cursor appserviceId).nextTxnId := by rw [hcursor]; rfl
  refine h.of_closed appserviceId hevents ?_ (fun other hne => ⟨?_, hothers other hne⟩) hcontinues
    hattempts hflight ?_ hnext.ge (fun parked hmem => ?_)
    (fun attempt hmem hservice => ⟨hclosed attempt hmem hservice, ?_, fun parked hmem hfree => ?_⟩)
  · rw [hstore]
    exact fun _ hmem => (mem_outbox_deleteEntry.mp hmem).1
  · rw [cursor, hstore, cursor_completed, if_neg hne]
  · rw [hpending, hnext]
    exact (Nat.zero_le _).trans_lt (h.pending appserviceId)
  · obtain ⟨hold, hfree⟩ := hparked parked hmem
    obtain ⟨hpos, hlt, -⟩ := h.parked appserviceId parked hold
    exact ⟨hpos, hnext ▸ hlt, fun _ => hpending⟩
  · rw [hpending]
    exact (h.recorded attempt hmem).pos.ne'
  · exact absurd (hparked parked hmem).2 (by simp [hfree])

lemma closed_or_pending (hmem : attempt ∈ runtime.attempts)
    (hpending : (runtime.cursor attempt.appserviceId).pendingTxnId ≠ 0) :
    runtime.Closed attempt ∨
      attempt.number = (runtime.cursor attempt.appserviceId).pendingTxnId := by
  rcases (h.recorded attempt hmem).closed with hclosed | hsame | ⟨parked, hparked, hfree, -⟩
  · exact .inl hclosed
  · exact .inr hsame
  · exact absurd ((h.parked _ parked hparked).2.2 hfree) hpending

lemma dropPending (hidle : runtime.inFlight = none) (hnone : runtime.NoneParked appserviceId)
    (hpending : (runtime.cursor appserviceId).pendingTxnId ≠ 0) :
    DeliveryInvariant known { runtime with
      store := runtime.completed appserviceId (runtime.cursor appserviceId).pendingStreamOrdering
      dropped := runtime.dropped ++
        [(appserviceId, (runtime.cursor appserviceId).pendingTxnId)] } := by
  refine h.completed appserviceId _ rfl rfl (fun _ _ => rfl)
    ⟨rfl, Subset.refl _, subset_append_left _ _⟩ rfl hidle
    (fun parked hmem => ⟨hmem, hnone parked hmem⟩) ?_
  rintro attempt hmem rfl
  rcases h.closed_or_pending hmem hpending with hclosed | hsame
  · exact hclosed.imp_right (Or.imp_left fun hmem => mem_append_left _ hmem)
  · exact .inr (.inl (mem_append_right _ (by simp [hsame])))

lemma sendParked {parked : AppservicePendingEphemeral}
    (hparked : runtime.pendingEphemeral appserviceId = some parked)
    (hfree : parked.eventsFree = true) (new : Bool)
    (hnew : new = true → ∀ attempt ∈ runtime.attempts, attempt.appserviceId = appserviceId →
      attempt.number < parked.txnId) :
    DeliveryInvariant known (runtime.sendPendingEphemeral appserviceId parked new) := by
  obtain ⟨hpos, hlt, hpending⟩ := h.parked appserviceId parked hparked
  refine h.send ?_ ?_ hnew (fun _ hmem => by cases hmem)
    (fun _ => ⟨parked, hparked, hfree, rfl⟩)
  · constructor
    case named => rfl
    case single => exact Nat.zero_le 1
    case pos => exact hpos
    case lt => exact hlt
    case lifetime => exact le_rfl
    case pendingEvent => exact fun hsame => absurd (hsame.trans (hpending hfree)) hpos.ne'
    case pendingItems => exact fun hsame => absurd (hsame.trans (hpending hfree)) hpos.ne'
    case parkedItems =>
      intro other hother _ _
      obtain rfl := Option.some.inj (hparked.symm.trans hother)
      exact ⟨rfl, rfl⟩
    case closed => exact .inr (.inr ⟨parked, hparked, hfree, rfl⟩)
  · rintro attempt hmem rfl hnumber
    obtain ⟨hevents, hitems⟩ := (h.recorded attempt hmem).parkedItems parked hparked hfree hnumber
    exact ⟨hevents, fun _ => hitems⟩

/-- The pending transaction is sent, for the first time or again: it carries the event of the
pending stream ordering and the items parked for it. -/
lemma sendPending (hdistinct : DistinctOrderings known) (appserviceId : Str)
    (event : AppserviceTransactionEvent) (hnone : runtime.NoneParked appserviceId)
    (hpending : (runtime.cursor appserviceId).pendingTxnId ≠ 0)
    (hknown : (event.eventId, (runtime.cursor appserviceId).pendingStreamOrdering) ∈ known)
    (new : Bool)
    (hnew : new = true → ∀ attempt ∈ runtime.attempts, attempt.appserviceId = appserviceId →
      attempt.number < (runtime.cursor appserviceId).pendingTxnId) :
    DeliveryInvariant known (runtime.send ⟨appserviceId, (runtime.cursor appserviceId).pendingTxnId,
        some (runtime.cursor appserviceId).pendingStreamOrdering⟩
      ⟨decimalNat (runtime.cursor appserviceId).pendingTxnId, [event],
        runtime.parkedItems appserviceId (runtime.cursor appserviceId).pendingTxnId⟩ new) := by
  refine h.send ?_ ?_ hnew (fun _ hmem => ⟨rfl, Option.some.inj hmem⟩) (fun hmem => by cases hmem)
  · constructor
    case named => rfl
    case single => exact le_rfl
    case pos => exact Nat.pos_of_ne_zero hpending
    case lt => exact h.pending appserviceId
    case lifetime => exact le_rfl
    case pendingEvent => exact fun _ => ⟨event.eventId, rfl, hknown⟩
    case pendingItems => exact fun _ _ => rfl
    case parkedItems => exact fun parked hmem hfree => absurd (hnone parked hmem) (by simp [hfree])
    case closed => exact .inr (.inl rfl)
  · rintro attempt hmem rfl hnumber
    have hrecorded := h.recorded attempt hmem
    obtain ⟨eventId, hevents, hold⟩ := hrecorded.pendingEvent hnumber
    have hsame : eventId = event.eventId := (hdistinct _ hold _ hknown).mpr rfl
    refine ⟨by rw [hevents, hsame]; rfl, fun hlifetime => ?_⟩
    have hitems := hrecorded.pendingItems hnumber hlifetime
    rwa [hnumber] at hitems

section

variable (hidle : runtime.inFlight = none) (hnone : runtime.NoneParked appserviceId)
  (hpending : (runtime.cursor appserviceId).pendingTxnId = 0)

include hidle hnone hpending

lemma dropFirst (streamOrdering : ℕ) :
    DeliveryInvariant known { runtime with
      store := runtime.completed appserviceId streamOrdering } := by
  refine h.completed appserviceId streamOrdering rfl rfl (fun _ _ => rfl)
    ⟨rfl, Subset.refl _, Subset.refl _⟩ rfl hidle
    (fun parked hmem => ⟨hmem, hnone parked hmem⟩) ?_
  rintro attempt hmem rfl
  exact (h.recorded attempt hmem).closed_of_idle hpending hnone

lemma allocate {cursor : PersistentAppserviceTxnCursor} (hid : cursor.appserviceId = appserviceId)
    (hnext : cursor.nextTxnId = (runtime.cursor appserviceId).nextTxnId + 1)
    (hcursor : cursor.pendingTxnId = 0 ∨
      cursor.pendingTxnId = (runtime.cursor appserviceId).nextTxnId)
    (ephemeral : Str → List AppserviceEphemeralItem) {parking : Option AppservicePendingEphemeral}
    (hparking : ∀ parked, parking = some parked → 0 < parked.txnId ∧
      parked.txnId < cursor.nextTxnId ∧ (parked.eventsFree = true → cursor.pendingTxnId = 0 ∧
      parked.txnId = (runtime.cursor appserviceId).nextTxnId)) :
    DeliveryInvariant known { runtime with
      store := runtime.store.putCursor cursor
      ephemeral := ephemeral
      pendingEphemeral := update runtime.pendingEphemeral appserviceId parking } := by
  set later : AppserviceRuntime := { runtime with
    store := runtime.store.putCursor cursor
    pendingEphemeral := update runtime.pendingEphemeral appserviceId parking }
  have hself : later.cursor appserviceId = cursor := cursor_putCursor_self runtime cursor hid
  have hplace : later.pendingEphemeral appserviceId = parking := update_self ..
  refine h.of_closed appserviceId rfl (Subset.refl _) (fun other hne => ⟨?_, ?_⟩)
    ⟨rfl, Subset.refl _, Subset.refl _⟩ rfl hidle ?_ ?_ ?_ ?_
  · show (runtime.store.putCursor cursor).findAppserviceTxnCursor other = runtime.cursor other
    rw [findAppserviceTxnCursor_putCursor, if_neg (hid ▸ hne)]
  · exact update_of_ne hne _ _
  · rw [hself]
    omega
  · rw [hself]
    omega
  · intro parked hparked
    rw [hplace] at hparked
    rw [hself]
    obtain ⟨hpos, hlt, hfree⟩ := hparking parked hparked
    exact ⟨hpos, hlt, fun h => (hfree h).1⟩
  · rintro attempt hmem rfl
    have hrecorded := h.recorded attempt hmem
    have hlt := hrecorded.lt
    refine ⟨hrecorded.closed_of_idle hpending hnone, ?_, fun parked hparked hfree => ?_⟩
    · rw [hself]
      have hpos := hrecorded.pos
      omega
    · rw [hplace] at hparked
      have hsame := ((hparking parked hparked).2.2 hfree).2
      omega

lemma sendItems (items : List Str) (ephemeral : Str → List AppserviceEphemeralItem) :
    DeliveryInvariant known (sendPendingEphemeral { runtime with
        store := runtime.store.putCursor (allocated (runtime.cursor appserviceId))
        ephemeral := ephemeral
        pendingEphemeral := update runtime.pendingEphemeral appserviceId
          (some ⟨(runtime.cursor appserviceId).nextTxnId, true, items⟩) }
      appserviceId ⟨(runtime.cursor appserviceId).nextTxnId, true, items⟩ true) := by
  have hpos : 0 < (runtime.cursor appserviceId).nextTxnId :=
    (Nat.zero_le _).trans_lt (h.pending appserviceId)
  refine sendParked (h.allocate hidle hnone hpending ?_ ?_ ?_ ephemeral ?_) ?_ ?_ true ?_
  · exact runtime.store.findAppserviceTxnCursor_appserviceId appserviceId
  · rfl
  · exact .inl hpending
  · intro parked hparked
    cases hparked
    exact ⟨hpos, Nat.lt_succ_self _, fun _ => ⟨hpending, rfl⟩⟩
  · exact update_self ..
  · rfl
  · rintro - attempt hmem rfl
    exact (h.recorded attempt hmem).lt

lemma sendFirst (hdistinct : DistinctOrderings known) (streamOrdering : ℕ)
    (hknown : (event.eventId, streamOrdering) ∈ known)
    (items : List Str) (ephemeral : Str → List AppserviceEphemeralItem)
    (parking : Option AppservicePendingEphemeral)
    (hparking : items = [] ∧ parking = runtime.pendingEphemeral appserviceId ∨
      parking = if items =
      [] then none else some ⟨(runtime.cursor appserviceId).nextTxnId, false, items⟩) :
    DeliveryInvariant known (AppserviceRuntime.send { runtime with
        store := runtime.store.putCursor (pendingFor (runtime.cursor appserviceId) streamOrdering)
        ephemeral := ephemeral
        pendingEphemeral := update runtime.pendingEphemeral appserviceId parking }
      ⟨appserviceId, (runtime.cursor appserviceId).nextTxnId, some streamOrdering⟩
      ⟨decimalNat (runtime.cursor appserviceId).nextTxnId, [event], items⟩ true) := by
  have hpos : 0 < (runtime.cursor appserviceId).nextTxnId :=
    (Nat.zero_le _).trans_lt (h.pending appserviceId)
  have hid : (pendingFor (runtime.cursor appserviceId) streamOrdering).appserviceId =
      appserviceId := runtime.store.findAppserviceTxnCursor_appserviceId appserviceId
  have hself := cursor_putCursor_self runtime _ hid
  -- what is parked belongs to an older transaction, or is what this one carries
  have hparked : ∀ parked, parking = some parked → parked.eventsFree = false ∧
      0 < parked.txnId ∧ parked.txnId < (runtime.cursor appserviceId).nextTxnId + 1 ∧
      (if parked.txnId = (runtime.cursor appserviceId).nextTxnId then parked.items else []) =
        items := by
    intro parked hmem
    rcases hparking with ⟨hnil, hsame⟩ | hsame
    · rw [hsame] at hmem
      obtain ⟨hpos, hlt, -⟩ := h.parked appserviceId parked hmem
      exact ⟨hnone parked hmem, hpos, Nat.lt_succ_of_lt hlt, by rw [if_neg hlt.ne, hnil]⟩
    · rw [hsame] at hmem
      split_ifs at hmem
      cases hmem
      exact ⟨rfl, hpos, Nat.lt_succ_self _, if_pos rfl⟩
  set before : AppserviceRuntime := { runtime with
    store := runtime.store.putCursor (pendingFor (runtime.cursor appserviceId) streamOrdering)
    ephemeral := ephemeral
    pendingEphemeral := update runtime.pendingEphemeral appserviceId parking }
  have hcursor : before.cursor appserviceId =
      pendingFor (runtime.cursor appserviceId) streamOrdering := hself
  have hparking' : before.pendingEphemeral appserviceId = parking := update_self ..
  have hbefore : DeliveryInvariant known before := by
    refine h.allocate hidle hnone hpending hid rfl (.inr rfl) ephemeral fun parked hmem => ?_
    obtain ⟨hfree, hpos, hlt, -⟩ := hparked parked hmem
    exact ⟨hpos, hlt, fun hcon => absurd hcon (by simp [hfree])⟩
  have hitems : before.parkedItems appserviceId (runtime.cursor appserviceId).nextTxnId = items := by
    unfold AppserviceRuntime.parkedItems
    rw [hparking']
    cases hcase : parking with
    | none =>
      rcases hparking with ⟨hnil, -⟩ | hsame
      · exact hnil.symm
      · rw [hcase] at hsame
        split_ifs at hsame with hnil
        exact hnil.symm
    | some parked =>
      obtain ⟨hfree, -, -, hsame⟩ := hparked parked hcase
      rw [← hsame]
      simp [hfree]
  have hsent := hbefore.sendPending hdistinct appserviceId event
    (fun parked hmem => (hparked parked (hparking'.symm.trans hmem)).1)
    (by rw [hcursor]; exact hpos.ne') (by rw [hcursor]; exact hknown) true (by
      rintro - attempt hmem rfl
      rw [hcursor]
      exact (h.recorded attempt hmem).lt)
  rw [hcursor] at hsent
  have hnumber : (pendingFor (runtime.cursor appserviceId) streamOrdering).pendingTxnId =
    (runtime.cursor appserviceId).nextTxnId := rfl
  rw [hnumber, hitems] at hsent
  exact hsent

end

/-- A turn of the sending thread keeps the invariant. -/
lemma turned (hdistinct : DistinctOrderings known)
    (hturned : Turned codec runtime registration later) : DeliveryInvariant known later := by
  cases hturned with
  | nothing backoff =>
    exact h.of_same h.rows h.rowIds h.queued (fun _ => rfl) rfl
      ⟨rfl, Subset.refl _, Subset.refl _⟩ rfl fun _ hmem => hmem
  | resendItems parked hidle hparked hfree =>
    exact h.sendParked hparked hfree false fun hnew => by cases hnew
  | retry row event hidle hnone hpending hrow hevent =>
    refine h.sendPending hdistinct registration.id event hnone hpending ?_ false
      fun hnew => by cases hnew
    have hmem : row ∈ runtime.events := mem_reverse.mp (mem_of_find?_eq_some hrow)
    have hordering : row.streamOrdering =
        (runtime.cursor registration.id).pendingStreamOrdering := by
      simpa using find?_some hrow
    rw [eventId_of_appserviceTransactionEventFor hevent, ← hordering]
    exact h.rows row hmem
  | dropPending hidle hnone hpending hunreadable => exact h.dropPending hidle hnone hpending
  | dropFirst entry hidle hnone hpending hfirst hunreadable =>
    exact h.dropFirst hidle hnone hpending entry.streamOrdering
  | sendFirst entry row event items ephemeral parking hidle hnone hpending hfirst hrow hevent
      hparking =>
    refine h.sendFirst hidle hnone hpending hdistinct entry.streamOrdering ?_ items ephemeral
      parking hparking
    rw [eventId_of_appserviceTransactionEventFor hevent, key_of_lookupBy hrow]
    exact h.queued entry (mem_of_findFirst hfirst).1
  | sendItems items ephemeral hidle hnone hpending hfirst =>
    exact h.sendItems hidle hnone hpending items ephemeral

/-! ### The return of the network call -/

lemma landed (backoff : Str → Option AppserviceDeliveryBackoff) {acknowledged : List (Str × ℕ)}
    (hacknowledged : runtime.acknowledged ⊆ acknowledged) :
    DeliveryInvariant known { runtime with
      inFlight := none
      backoff := backoff
      acknowledged := acknowledged } :=
  h.of_same h.rows h.rowIds h.queued (fun _ => rfl) rfl
    ⟨rfl, hacknowledged, Subset.refl _⟩ rfl fun _ hmem => by cases hmem

section

variable (hflight : runtime.inFlight = some flight)

include hflight

lemma closed_of_answered (hmem : attempt ∈ runtime.attempts)
    (hservice : attempt.appserviceId = flight.appserviceId) :
    runtime.Closed attempt ∨ attempt.number = flight.number := by
  have hflying := h.flying flight hflight
  cases hordering : flight.streamOrdering with
  | some streamOrdering =>
    have hpending := (hflying.pending _ hordering).1
    rw [← hservice] at hpending
    obtain ⟨other, hother, -, hnumber⟩ := hflying.attempted
    have hne : (runtime.cursor attempt.appserviceId).pendingTxnId ≠ 0 := by
      rw [hpending, ← hnumber]
      exact (h.recorded other hother).pos.ne'
    exact (h.closed_or_pending hmem hne).imp_right fun hsame => hsame.trans hpending
  | none =>
    obtain ⟨parked, hparked, hfree, hnumber⟩ := hflying.parked hordering
    rw [← hservice] at hparked
    have hzero := (h.parked _ parked hparked).2.2 hfree
    rcases (h.recorded attempt hmem).closed with hclosed | hsame | ⟨other, hother, -, hsame⟩
    · exact .inl hclosed
    · exact absurd (hsame.trans hzero) (h.recorded attempt hmem).pos.ne'
    · obtain rfl := Option.some.inj (hparked.symm.trans hother)
      exact .inr (hsame.trans hnumber)

lemma answered (hmem : attempt ∈ runtime.attempts)
    (hservice : attempt.appserviceId = flight.appserviceId)
    (hlater : later.acknowledged = runtime.acknowledged ++ [(flight.appserviceId, flight.number)])
    (hdropped : later.dropped = runtime.dropped) (hlifetime : later.lifetime = runtime.lifetime) :
    later.Closed attempt := by
  unfold Closed
  rw [hlater, hdropped, hlifetime]
  rcases h.closed_of_answered hflight hmem hservice with hclosed | hsame
  · exact hclosed.imp_left fun hmem => mem_append_left _ hmem
  · exact .inl (mem_append_right _ (by simp [hservice, hsame]))

lemma finish (now : ℕ) (commits : Bool) :
    DeliveryInvariant known (AppserviceRuntime.finish { runtime with
      inFlight := none
      acknowledged := runtime.acknowledged ++ [(flight.appserviceId, flight.number)] }
      flight now commits) := by
  have hflying := h.flying flight hflight
  unfold AppserviceRuntime.finish
  cases hordering : flight.streamOrdering with
  | none =>
    refine h.of_closed flight.appserviceId rfl (Subset.refl _) (fun other hne => ⟨rfl, ?_⟩)
      ⟨rfl, subset_append_left _ _, Subset.refl _⟩ rfl rfl (h.pending _) le_rfl ?_ ?_
    · exact update_of_ne hne _ _
    · intro parked hparked
      simp [forget] at hparked
    · intro attempt hmem hservice
      obtain ⟨parked, hparked, hfree, -⟩ := hflying.parked hordering
      have hzero := (h.parked _ parked hparked).2.2 hfree
      refine ⟨h.answered hflight hmem hservice rfl rfl rfl, ?_, fun parked hparked => ?_⟩
      · exact fun hsame => (h.recorded attempt hmem).pos.ne' (hsame.trans hzero)
      · simp [forget] at hparked
  | some streamOrdering =>
    dsimp only
    rcases runtime.store.completeAppserviceDelivery_cases commits flight.appserviceId
        streamOrdering with hrefused | hdone
    · rw [hrefused]
      exact h.landed _ (subset_append_left _ _)
    · rw [hdone]
      refine h.completed flight.appserviceId streamOrdering rfl rfl (fun other hne => ?_)
        ⟨rfl, subset_append_left _ _, Subset.refl _⟩ rfl rfl (fun parked hparked => ?_) ?_
      · exact update_of_ne hne _ _
      · simp [forget] at hparked
      · exact fun attempt hmem hservice => h.answered hflight hmem hservice rfl rfl rfl

end

lemma answer (result : AppserviceCallResult) (now : ℕ) (commits : Bool) :
    DeliveryInvariant known (runtime.answer result now commits) := by
  unfold AppserviceRuntime.answer
  split
  · exact h
  · next flight hflight =>
    split_ifs
    · exact h.finish hflight now commits
    · exact h.landed _ (Subset.refl _)

/-! ### The other threads and a restart -/

lemma storeEvent {event : PersistentEvent} (hknown : (event.eventId,
      event.streamOrdering) ∈ known) :
    DeliveryInvariant known (runtime.storeEvent event) := by
  unfold AppserviceRuntime.storeEvent
  split_ifs with hthere
  · exact h
  · have hnew : event.eventId ∉ runtime.events.map PersistentEvent.eventId := by
      intro hmem
      obtain ⟨row, hrow, hsame⟩ := mem_map.mp hmem
      refine hthere ?_
      rw [findEventById, ← hsame, lookupBy_of_mem h.rowIds hrow]
      rfl
    refine h.of_same ?_ ?_ h.queued (fun _ => rfl) rfl
      ⟨rfl, Subset.refl _, Subset.refl _⟩ rfl fun _ hmem => hmem
    · exact forall_mem_append.mpr ⟨h.rows, forall_mem_singleton.mpr hknown⟩
    · rw [map_append, nodup_append']
      exact ⟨h.rowIds, nodup_singleton _, by simpa using hnew⟩

lemma replaceEventJson (eventId json : Str) :
    DeliveryInvariant known (runtime.replaceEventJson eventId json) := by
  have hkeys : ∀ event : PersistentEvent,
      (if event.eventId = eventId then { event with json := json } else event).eventId =
          event.eventId ∧
        (if event.eventId = eventId then { event with json := json } else event).streamOrdering =
          event.streamOrdering := by
    intro event
    split_ifs <;> exact ⟨rfl, rfl⟩
  refine h.of_same ?_ ?_ h.queued (fun _ => rfl) rfl
    ⟨rfl, Subset.refl _, Subset.refl _⟩ rfl fun _ hmem => hmem
  · intro event hmem
    obtain ⟨old, hold, rfl⟩ := mem_map.mp hmem
    rw [(hkeys old).1, (hkeys old).2]
    exact h.rows old hold
  · have hsame : (runtime.replaceEventJson eventId json).events.map PersistentEvent.eventId =
        runtime.events.map PersistentEvent.eventId := by
      rw [AppserviceRuntime.replaceEventJson, map_map]
      exact map_congr_left fun event _ => (hkeys event).1
    rw [hsame]
    exact h.rowIds

lemma enqueue {eventId : Str} {fallbackStreamOrdering : ℕ}
    (hknown : (eventId, fallbackStreamOrdering) ∈ known) (appserviceId : Str) (maxQueuedEvents : ℕ)
    (commits : Bool) : DeliveryInvariant known
      (runtime.enqueue appserviceId eventId fallbackStreamOrdering maxQueuedEvents commits) := by
  unfold AppserviceRuntime.enqueue
  dsimp only
  set streamOrdering := ((runtime.findEventById eventId).map PersistentEvent.streamOrdering).getD
    fallbackStreamOrdering with hordering
  have hentry : (eventId, streamOrdering) ∈ known := by
    cases hrow : runtime.findEventById eventId with
    | none => simpa [hordering, hrow] using hknown
    | some row =>
      have hmem := h.rows row (mem_of_lookupBy hrow)
      rw [key_of_lookupBy hrow] at hmem
      simpa [hordering, hrow] using hmem
  split_ifs
  · exact h
  · exact h
  · rcases runtime.store.enqueueAppserviceEvent_cases commits
        ⟨appserviceId, streamOrdering, eventId⟩ with hsame | ⟨hrows, hcursors⟩
    · rw [hsame]
      exact h
    · refine h.of_same h.rows h.rowIds (fun entry hmem => ?_) hcursors rfl
        ⟨rfl, Subset.refl _, Subset.refl _⟩ rfl fun _ hmem => hmem
      rcases (hrows entry).mp hmem with rfl | hmem
      · exact hentry
      · exact h.queued entry hmem

lemma restart : DeliveryInvariant known runtime.restart := by
  have hcursor : ∀ appserviceId, runtime.restart.cursor appserviceId =
      runtime.cursor appserviceId := runtime.store.findAppserviceTxnCursor_reload
  constructor
  case rows => exact h.rows
  case rowIds => exact h.rowIds
  case queued => exact fun entry hmem => h.queued entry (mem_outbox_reload.mp hmem)
  case pending =>
    intro appserviceId
    rw [hcursor]
    exact h.pending appserviceId
  case parked => exact fun _ _ hmem => by cases hmem
  case agree => exact h.agree
  case increasing => exact h.increasing
  case flying => exact fun _ hmem => by cases hmem
  case recorded =>
    intro attempt hmem
    have hold := h.recorded attempt hmem
    have hlifetime : attempt.lifetime < runtime.restart.lifetime := Nat.lt_succ_of_le hold.lifetime
    constructor
    case named => exact hold.named
    case single => exact hold.single
    case pos => exact hold.pos
    case lt => rw [hcursor]; exact hold.lt
    case lifetime => exact hlifetime.le
    case pendingEvent => rw [hcursor]; exact hold.pendingEvent
    case pendingItems => exact fun _ hsame => absurd hsame hlifetime.ne
    case parkedItems => exact fun _ hmem => by cases hmem
    case closed =>
      rw [hcursor]
      rcases hold.closed with hclosed | hsame | ⟨parked, hparked, hfree, hsame⟩
      · exact .inl (hclosed.imp_right (Or.imp_right fun hforgotten =>
          ⟨hforgotten.1, Nat.lt_succ_of_lt hforgotten.2⟩))
      · exact .inr (.inl hsame)
      · -- a transaction without an event is forgotten
        have hevents := (hold.parkedItems parked hparked hfree hsame).1
        exact .inl (.inr (.inr ⟨hevents, hlifetime⟩))

/-- Every event keeps the invariant. -/
lemma step (hdistinct : DistinctOrderings known) {event : DeliveryEvent}
    (hknown : ∀ ordering ∈ event.orderings, ordering ∈ known)
    (hstep : DeliveryEvent.Step codec runtime event later) : DeliveryInvariant known later := by
  rw [hstep]
  cases event with
  | storeEvent event => exact h.storeEvent (hknown _ mem_cons_self)
  | replaceEventJson eventId json => exact h.replaceEventJson eventId json
  | enqueue appserviceId eventId fallbackStreamOrdering maxQueuedEvents commits =>
    exact h.enqueue (hknown _ mem_cons_self) appserviceId maxQueuedEvents commits
  | queueEphemeral appserviceId item =>
    exact h.of_same h.rows h.rowIds h.queued (fun _ => rfl) rfl
      ⟨rfl, Subset.refl _, Subset.refl _⟩ rfl fun _ hmem => hmem
  | turn registration now commits =>
    exact h.turned hdistinct (turn_turned codec runtime registration now commits)
  | answer result now commits => exact h.answer result now commits
  | restart => exact h.restart

end

end DeliveryInvariant

end AppserviceRuntime

end Merovingian
