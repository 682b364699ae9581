import Merovingian.Database.ToDeviceQueue

/-!
# What a batch of to-device messages evicts

The queues of a batch hold rows of the store and of the batch itself (`Holds`), so whatever a batch
evicts was too old when a message for the same recipient arrived, or was the oldest of more rows
than the bounds allow (`Dropped`).  That is kept message by message (`Gathered`), from the
queues that `index_to_device_recipients` gathers to the batch that is applied.
-/

namespace Merovingian

open PersistentToDeviceMessage List Function

/-! ### The queues of a batch -/

/-- A queue holds rows: their sizes and ages, oldest first, with the sum of their bytes.  They are
rows of a list, all for one recipient. -/
structure Holds (list : List PersistentToDeviceMessage) (recipient : Str × Str)
    (queue : RecipientQueue) (rows : List PersistentToDeviceMessage) : Prop where
  rows_eq : queue.rows = rows.map queued
  bytes_eq : queue.bytes = (rows.map bytes).sum
  mem : ∀ row ∈ rows, row ∈ list
  recipient_eq : ∀ row ∈ rows, row.recipient = recipient
  ascending : rows.Pairwise fun row later => row.streamId < later.streamId

/-- Why a batch drops a row: it is too old when a message for its recipient arrives, or it is the
oldest of rows for its recipient that leave no room for the message. -/
def Dropped (limits : ToDeviceLimits) (messages : List (PersistentToDeviceMessage × ℕ))
    (list : List PersistentToDeviceMessage) (row : PersistentToDeviceMessage) : Prop :=
  ∃ message ∈ messages, message.1.recipient = row.recipient ∧
    (limits.expired message.2 row.createdAtMs = true ∨
      ∃ queue rows, Holds list row.recipient queue rows ∧ row ∈ rows ∧
        (∀ other ∈ rows, row.streamId ≤ other.streamId) ∧
        limits.full rows.length (queue.bytes + message.1.bytes) = true)

section Queues

variable {limits : ToDeviceLimits} {list longer rows : List PersistentToDeviceMessage}
  {recipient : Str × Str} {queue : RecipientQueue} {row message : PersistentToDeviceMessage}
  {messages : List (PersistentToDeviceMessage × ℕ)}

namespace Holds

lemma mono (h : Holds list recipient queue rows) (hsub : ∀ row ∈ list, row ∈ longer) :
    Holds longer recipient queue rows :=
  { h with mem := fun row hrow => hsub row (h.mem row hrow) }

lemma nil (list : List PersistentToDeviceMessage) (recipient : Str × Str) :
    Holds list recipient {} [] where
  rows_eq := rfl
  bytes_eq := rfl
  mem := by simp
  recipient_eq := by simp
  ascending := .nil

lemma filter (h : Holds list recipient queue rows) (p : QueuedRow → Bool) :
    Holds list recipient ⟨queue.rows.filter fun row => !p row,
        queue.bytes - ((queue.rows.filter p).map QueuedRow.bytes).sum⟩
      (rows.filter fun row => !p row.queued) where
  rows_eq := by rw [h.rows_eq, filter_map]; rfl
  bytes_eq := by
    have hsplit : (rows.map bytes).sum =
        ((rows.filter fun row => p row.queued).map bytes).sum +
          ((rows.filter fun row => !p row.queued).map bytes).sum := by
      rw [← sum_append, ← map_append]
      exact ((filter_append_perm _ rows).map bytes).symm.sum_eq
    have haged : (queue.rows.filter p).map QueuedRow.bytes =
        (rows.filter fun row => p row.queued).map bytes := by
      rw [h.rows_eq, filter_map, map_map]
      rfl
    rw [haged, h.bytes_eq, hsplit, Nat.add_sub_cancel_left]
  mem row hrow := h.mem row (mem_of_mem_filter hrow)
  recipient_eq row hrow := h.recipient_eq row (mem_of_mem_filter hrow)
  ascending := h.ascending.filter _

lemma tail {head : QueuedRow} {tail : List QueuedRow} {bytes : ℕ}
    (h : Holds list recipient ⟨head :: tail, bytes⟩ rows) :
    ∃ oldest rest, rows = oldest :: rest ∧ oldest.queued = head ∧
      Holds list recipient ⟨tail, bytes - head.bytes⟩ rest := by
  have hrows := h.rows_eq
  cases rows with
  | nil => cases hrows
  | cons oldest rest =>
    obtain ⟨hhead, htail⟩ := cons.inj hrows
    have hsum := h.bytes_eq
    dsimp only at hsum
    refine ⟨oldest, rest, rfl, hhead.symm, htail, ?_, ?_, ?_, (pairwise_cons.mp h.ascending).2⟩
    · rw [hhead, hsum]
      exact Nat.add_sub_cancel_left _ _
    · exact fun row hrow => h.mem row (mem_cons_of_mem _ hrow)
    · exact fun row hrow => h.recipient_eq row (mem_cons_of_mem _ hrow)

lemma push (h : Holds list recipient queue rows) (message : PersistentToDeviceMessage)
    (hsub : ∀ row ∈ list, row ∈ longer) (hmessage : message ∈ longer)
    (hrecipient : message.recipient = recipient)
    (habove : ∀ row ∈ list, row.streamId < message.streamId) :
    Holds longer recipient ⟨queue.rows ++ [message.queued], queue.bytes + message.bytes⟩
      (rows ++ [message]) where
  rows_eq := by rw [h.rows_eq, map_append, map_singleton]
  bytes_eq := by rw [h.bytes_eq, map_append, sum_append, map_singleton, sum_singleton]
  mem := forall_mem_append.mpr
    ⟨fun row hrow => hsub row (h.mem row hrow), forall_mem_singleton.mpr hmessage⟩
  recipient_eq := forall_mem_append.mpr ⟨h.recipient_eq, forall_mem_singleton.mpr hrecipient⟩
  ascending := by
    refine pairwise_append.mpr ⟨h.ascending, pairwise_singleton _ _, ?_⟩
    intro row hrow later hlater
    rw [mem_singleton.mp hlater]
    exact habove row (h.mem row hrow)

end Holds

lemma Dropped.mono (h : Dropped limits messages list row) (hsub : ∀ row ∈ list, row ∈ longer) :
    Dropped limits messages longer row := by
  obtain ⟨message, hmessage, hrecipient, hexpired | ⟨queue, rows, hholds, hrest⟩⟩ := h
  · exact ⟨message, hmessage, hrecipient, .inl hexpired⟩
  · exact ⟨message, hmessage, hrecipient, .inr ⟨queue, rows, hholds.mono hsub, hrest⟩⟩

/-- The loop that makes room drops the oldest of too many rows, one by one, and leaves the rest. -/
lemma makeRoom_spec (limits : ToDeviceLimits) {now : ℕ} (hmessage : (message, now) ∈ messages)
    (h : Holds list message.recipient queue rows) :
    (∀ dropped ∈ (makeRoom limits message.bytes queue.rows queue.bytes).1,
      ∃ row ∈ list, row.queued = dropped ∧ row.recipient = message.recipient ∧
        Dropped limits messages list row) ∧
    ∃ left, Holds list message.recipient
      (makeRoom limits message.bytes queue.rows queue.bytes).2 left := by
  obtain ⟨queued, bytes⟩ := queue
  induction queued generalizing bytes rows with
  | nil => exact ⟨by simp [makeRoom], rows, h⟩
  | cons head tail ih =>
    obtain ⟨oldest, rest, rfl, hoffset, hrest⟩ := h.tail
    have hlength : (oldest :: rest).length = tail.length + 1 := by
      have := congrArg length h.rows_eq
      simpa using this.symm
    simp only [makeRoom]
    split
    · next hfull =>
      obtain ⟨hdropped, hleft⟩ := ih _ hrest
      refine ⟨?_, hleft⟩
      intro dropped hmem
      rcases mem_cons.mp hmem with rfl | hmem
      · have hrecipient := h.recipient_eq oldest mem_cons_self
        refine ⟨oldest, h.mem oldest mem_cons_self, hoffset, hrecipient, (message, now), hmessage,
          hrecipient.symm, .inr ⟨_, _, hrecipient ▸ h, mem_cons_self, ?_, ?_⟩⟩
        · exact forall_mem_cons.mpr ⟨le_refl _, fun other hother =>
            le_of_lt ((pairwise_cons.mp h.ascending).1 other hother)⟩
        · rw [hlength]
          exact hfull
      · exact hdropped dropped hmem
    · exact ⟨by simp, _, h⟩

end Queues

/-! ### Gathering the queues -/

section Gathering

variable {store : ToDeviceStore} {recipient : Str × Str} {queue : RecipientQueue}
  {queues : Str → Option RecipientQueue} {seen : List PersistentToDeviceMessage}

/-- The queues hold the rows that were seen, in their order. -/
def Entered (seen : List PersistentToDeviceMessage) (queues : Str → Option RecipientQueue) : Prop :=
  ∀ recipient queue, queues (recipientKey recipient) = some queue →
    queue.rows = (seen.filter fun row => row.recipient = recipient).map queued ∧
      queue.bytes = ((seen.filter fun row => row.recipient = recipient).map bytes).sum

lemma entered_nameRecipient (h : Entered [] queues) (message : PersistentToDeviceMessage) :
    Entered [] (nameRecipient queues message) := by
  intro recipient queue hqueue
  rw [nameRecipient, update_apply] at hqueue
  split at hqueue
  · next heq =>
    cases hheld : queues (recipientKey message.recipient) with
    | none =>
      rw [hheld, Option.none_or, Option.some.injEq] at hqueue
      rw [← hqueue]
      exact ⟨rfl, rfl⟩
    | some held =>
      rw [hheld, Option.some_or] at hqueue
      exact h recipient queue (by rw [heq, hheld, hqueue])
  · exact h recipient queue hqueue

lemma entered_enterRow (h : Entered seen queues) (row : PersistentToDeviceMessage) :
    Entered (seen ++ [row]) (enterRow queues row) := by
  intro recipient queue hqueue
  rw [enterRow] at hqueue
  cases hheld : queues (recipientKey row.recipient) with
  | none =>
    -- a recipient that the batch does not name
    rw [hheld] at hqueue
    have hrow : row.recipient ≠ recipient := by
      rintro rfl
      cases hheld.symm.trans hqueue
    simpa [hrow] using h recipient queue hqueue
  | some held =>
    simp only [hheld, update_apply] at hqueue
    split at hqueue
    · next heq =>
      obtain rfl := recipientKey_injective heq
      obtain ⟨hrows, hbytes⟩ := h row.recipient held hheld
      rw [← Option.some.inj hqueue]
      simp [hrows, hbytes]
    · next hne =>
      have hrow : row.recipient ≠ recipient := fun heq => hne (congrArg recipientKey heq.symm)
      simpa [hrow] using h recipient queue hqueue

lemma entered_foldl (h : Entered seen queues) (rows : List PersistentToDeviceMessage) :
    Entered (seen ++ rows) (rows.foldl enterRow queues) := by
  induction rows generalizing seen queues with
  | nil => simpa using h
  | cons row rows ih => simpa using ih (entered_enterRow h row)

lemma indexToDeviceRecipients_holds (hids : (store.toDeviceMessages.map streamId).Nodup)
    {messages : List PersistentToDeviceMessage}
    (h : indexToDeviceRecipients store messages (recipientKey recipient) = some queue) :
    ∃ rows, Holds store.toDeviceMessages recipient queue rows := by
  rw [indexToDeviceRecipients] at h
  split at h
  · cases h
  have hnamed : Entered [] (messages.foldl nameRecipient fun _ => none) := by
    refine foldlRecOn messages nameRecipient (fun _ _ h => by cases h) ?_
    exact fun queues hqueues message _ => entered_nameRecipient hqueues message
  obtain ⟨held, hheld, rfl⟩ := Option.map_eq_some_iff.mp h
  obtain ⟨hrows, hbytes⟩ := entered_foldl hnamed store.toDeviceMessages recipient held hheld
  set own := store.toDeviceMessages.filter fun row => row.recipient = recipient with hown
  have hperm := stableSort_perm streamId own
  have hmem : ∀ row ∈ stableSort streamId own, row ∈ store.toDeviceMessages ∧
      row.recipient = recipient := fun row hrow => by
    simpa [hown] using hperm.mem_iff.mp hrow
  refine ⟨stableSort streamId own, ?_, ?_, fun row hrow => (hmem row hrow).1,
    fun row hrow => (hmem row hrow).2, ?_⟩
  · rw [hrows]
    exact (map_insertionSort _ _ queued own fun _ _ _ _ => Iff.rfl).symm
  · rw [hbytes]
    exact ((hperm.map bytes).sum_eq).symm
  · exact pairwise_lt_stableSort (hids.sublist (filter_sublist.map streamId))

end Gathering

/-! ### Preparing and applying a batch -/

/-- Rows with positions of their own that the counter has passed. -/
structure FreshIds (next : ℕ) (list : List PersistentToDeviceMessage) : Prop where
  nodup : (list.map streamId).Nodup
  le : ∀ row ∈ list, row.streamId ≤ next

/-- A batch that was prepared against a store, for some of the messages of a call. -/
structure Gathered (store : ToDeviceStore) (messages : List (PersistentToDeviceMessage × ℕ))
    (next : ℕ) (batch : ToDeviceBatch) : Prop where
  fresh : FreshIds next (store.toDeviceMessages ++ batch.added)
  queues : ∀ recipient queue, batch.queues (recipientKey recipient) = some queue →
    ∃ rows, Holds (store.toDeviceMessages ++ batch.added) recipient queue rows
  evicted : ∀ key ∈ batch.evicted, ∃ row ∈ store.toDeviceMessages ++ batch.added,
    row.rowKey = key ∧
      Dropped store.limits messages (store.toDeviceMessages ++ batch.added) row

/-- The messages of a batch as they are stored, from a counter on. -/
def stampAll : ℕ → List (PersistentToDeviceMessage × ℕ) → List PersistentToDeviceMessage
  | _, [] => []
  | next, (message, now) :: messages =>
    message.stamp (next + 1) now :: stampAll (next + 1) messages

section Batches

variable {store : ToDeviceStore} {messages rest : List (PersistentToDeviceMessage × ℕ)}
  {next now : ℕ} {batch : ToDeviceBatch} {list : List PersistentToDeviceMessage}
  {message row : PersistentToDeviceMessage}

namespace FreshIds

lemma mono {later : ℕ} (h : FreshIds next list) (hle : next ≤ later) : FreshIds later list :=
  ⟨h.nodup, fun row hrow => (h.le row hrow).trans hle⟩

lemma sublist {shorter : List PersistentToDeviceMessage} (h : FreshIds next list)
    (hsub : shorter.Sublist list) : FreshIds next shorter :=
  ⟨h.nodup.sublist (hsub.map streamId), fun row hrow => h.le row (hsub.subset hrow)⟩

lemma push (h : FreshIds next list) (message : PersistentToDeviceMessage) (now : ℕ) :
    FreshIds (next + 1) (list ++ [message.stamp (next + 1) now]) := by
  constructor
  · rw [map_append, map_singleton, nodup_append]
    refine ⟨h.nodup, nodup_singleton _, ?_⟩
    intro streamId hid other hother
    obtain ⟨row, hrow, rfl⟩ := mem_map.mp hid
    rw [mem_singleton.mp hother]
    exact (Nat.lt_succ_of_le (h.le row hrow)).ne
  · refine forall_mem_append.mpr ⟨fun row hrow => ?_, forall_mem_singleton.mpr le_rfl⟩
    exact (h.le row hrow).trans (Nat.le_succ next)

end FreshIds

namespace Gathered

section

variable (h : Gathered store messages next batch)

include h

lemma prepare (hmessage : (message, now) ∈ messages) :
    Gathered store messages (next + 1)
      (prepareToDeviceEnqueue store.limits (next + 1) now message batch) := by
  set list := store.toDeviceMessages ++ batch.added with hlist
  set longer := store.toDeviceMessages ++ (batch.added ++ [message.stamp (next + 1) now]) with hlonger
  have happend : longer = list ++ [message.stamp (next + 1) now] := (append_assoc _ _ _).symm
  have hfresh : FreshIds (next + 1) longer := happend ▸ h.fresh.push message now
  have hsub : ∀ row ∈ list, row ∈ longer := fun row hrow => happend ▸ mem_append_left _ hrow
  have holdQueues : ∀ recipient queue, batch.queues (recipientKey recipient) = some queue →
      ∃ rows, Holds longer recipient queue rows := by
    intro recipient queue hqueue
    obtain ⟨rows, hholds⟩ := h.queues recipient queue hqueue
    exact ⟨rows, hholds.mono hsub⟩
  have holdEvicted : ∀ key ∈ batch.evicted, ∃ row ∈ longer, row.rowKey = key ∧
      Dropped store.limits messages longer row := by
    intro key hkey
    obtain ⟨row, hrow, hrowKey, hdropped⟩ := h.evicted key hkey
    exact ⟨row, hsub row hrow, hrowKey, hdropped.mono hsub⟩
  rw [prepareToDeviceEnqueue]
  split
  · dsimp only
    -- the queue of the recipient, `queues[key]`
    obtain ⟨rows, hholds⟩ : ∃ rows, Holds list message.recipient
        ((batch.queues (recipientKey message.recipient)).getD {}) rows := by
      cases hqueue : batch.queues (recipientKey message.recipient) with
      | none => exact ⟨[], .nil _ _⟩
      | some queue => exact h.queues _ queue hqueue
    have hkept := hholds.filter fun row => store.limits.expired now row.createdAtMs
    obtain ⟨hroom, left, hleft⟩ := makeRoom_spec store.limits hmessage hkept
    refine ⟨hfresh, ?_, ?_⟩
    · intro recipient other hother
      dsimp only at hother
      rw [update_apply] at hother
      split at hother
      · next heq =>
        rw [recipientKey_injective heq, ← Option.some.inj hother]
        refine ⟨_, hleft.push (message.stamp (next + 1) now) hsub (by simp) rfl fun row hrow => ?_⟩
        exact Nat.lt_succ_of_le (h.fresh.le row hrow)
      · exact holdQueues recipient other hother
    · intro key hkey
      rcases mem_append.mp hkey with hkey | hkey
      · exact holdEvicted key hkey
      obtain ⟨gone, hgone, rfl⟩ := mem_map.mp hkey
      -- a row that is evicted for the message, with the row of the list it stands for
      obtain ⟨row, hrow, rfl, hrecipient, hdropped⟩ : ∃ row ∈ list, row.queued = gone ∧
          row.recipient = message.recipient ∧ Dropped store.limits messages list row := by
        rcases mem_append.mp hgone with haged | hpushed
        · obtain ⟨hmem, hexpired⟩ := mem_filter.mp haged
          rw [hholds.rows_eq] at hmem
          obtain ⟨row, hrow, rfl⟩ := mem_map.mp hmem
          have hrecipient := hholds.recipient_eq row hrow
          exact ⟨row, hholds.mem row hrow, rfl, hrecipient, (message, now), hmessage,
            hrecipient.symm, .inl hexpired⟩
        · exact hroom gone hpushed
      refine ⟨row, hsub row hrow, ?_, hdropped.mono hsub⟩
      obtain ⟨huser, hdevice⟩ := Prod.mk.inj hrecipient
      rw [rowKey, huser, hdevice]
      rfl
  · exact ⟨hfresh, holdQueues, holdEvicted⟩

lemma prepareAll (hrest : ∀ entry ∈ rest, entry ∈ messages) :
    next ≤ (prepareToDeviceEnqueues store.limits rest next batch).1 ∧
    ∀ done, (prepareToDeviceEnqueues store.limits rest next batch).2 = some done →
      Gathered store messages (prepareToDeviceEnqueues store.limits rest next batch).1 done := by
  induction rest generalizing next batch with
  | nil =>
    refine ⟨le_refl next, fun done hdone => ?_⟩
    obtain rfl : batch = done := Option.some.inj hdone
    exact h
  | cons entry rest ih =>
    rw [prepareToDeviceEnqueues, allocateSyncStreamId]
    by_cases hceiling : maxSyncStreamId ≤ next
    · rw [if_pos hceiling]
      exact ⟨le_refl next, fun done hdone => by cases hdone⟩
    · rw [if_neg hceiling]
      have hnext := h.prepare (hrest _ mem_cons_self)
      obtain ⟨hle, hdone⟩ := ih hnext fun entry hentry => hrest entry (mem_cons_of_mem _ hentry)
      exact ⟨(Nat.le_succ next).trans hle, hdone⟩

lemma fresh_apply :
    FreshIds next ((store.withNextSyncStreamId next).applyToDeviceBatch batch).toDeviceMessages :=
  h.fresh.sublist filter_sublist

lemma dropped_of_notMem (hrow : row ∈ store.toDeviceMessages)
    (hgone : row ∉ ((store.withNextSyncStreamId next).applyToDeviceBatch batch).toDeviceMessages) :
    Dropped store.limits messages (store.toDeviceMessages ++ batch.added) row := by
  have hmem : row ∈ store.toDeviceMessages ++ batch.added := mem_append_left _ hrow
  have hkey : row.rowKey ∈ batch.evicted := by
    by_contra hkept
    exact hgone (mem_filter.mpr ⟨hmem, decide_eq_true hkept⟩)
  obtain ⟨other, hother, hsame, hdropped⟩ := h.evicted _ hkey
  obtain rfl : other = row :=
    inj_on_of_nodup_map h.fresh.nodup hother hmem (congrArg ToDeviceRowKey.streamId hsame)
  exact hdropped

end

end Gathered

lemma added_prepareToDeviceEnqueues {limits : ToDeviceLimits} {done : ToDeviceBatch}
    (h : (prepareToDeviceEnqueues limits rest next batch).2 = some done) :
    done.added = batch.added ++ stampAll next rest := by
  induction rest generalizing next batch with
  | nil =>
    obtain rfl : batch = done := Option.some.inj h
    simp [stampAll]
  | cons entry rest ih =>
    obtain ⟨message, now⟩ := entry
    rw [prepareToDeviceEnqueues, allocateSyncStreamId] at h
    by_cases hceiling : maxSyncStreamId ≤ next
    · rw [if_pos hceiling] at h
      cases h
    · rw [if_neg hceiling] at h
      have hpushed : (prepareToDeviceEnqueue limits (next + 1) now message batch).added =
          batch.added ++ [message.stamp (next + 1) now] := by
        rw [prepareToDeviceEnqueue]
        split <;> rfl
      rw [ih h, hpushed, stampAll, append_assoc, singleton_append]

namespace ToDeviceStore

lemma added_prepareBatch (h : (store.prepareBatch messages).2 = some batch) :
    batch.added = stampAll store.nextSyncStreamId messages :=
  added_prepareToDeviceEnqueues h

lemma prepareBatch_spec (h : FreshIds store.nextSyncStreamId store.toDeviceMessages)
    (messages : List (PersistentToDeviceMessage × ℕ)) :
    store.nextSyncStreamId ≤ (store.prepareBatch messages).1 ∧
    ∀ batch, (store.prepareBatch messages).2 = some batch →
      Gathered store messages (store.prepareBatch messages).1 batch := by
  have hstart : Gathered store messages store.nextSyncStreamId
      { queues := indexToDeviceRecipients store (messages.map Prod.fst) } := by
    refine ⟨by simpa using h, fun recipient queue hqueue => ?_, by simp⟩
    rw [append_nil]
    exact indexToDeviceRecipients_holds h.nodup hqueue
  exact hstart.prepareAll fun _ hentry => hentry

end ToDeviceStore

end Batches

end Merovingian
