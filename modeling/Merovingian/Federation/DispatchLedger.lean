import Merovingian.Federation.DispatchWorker

/-!
# The ledger of the dispatcher

What the queue, the parked rows, the slots of destinations and the histories have to do with each
other (`Balanced`), and that no row of an accepted transaction is forgotten (`Covered`).  Both speak
of the transactions that threads hold as a list `flying`, with one lemma for each way in which a
transaction moves.
-/

namespace Merovingian

open List DispatchEntry Function

namespace DispatchWorker

variable {config : DispatchWorkerConfig} {worker : DispatchWorker} {entry again : DispatchEntry}
  {flying rest : List DispatchEntry} {transaction : OutboundTransaction} {id : Str}
  {store : Option FederationStore} {commits : Bool}

/-- The transactions the worker still answers for. -/
def openEntries (worker : DispatchWorker) (flying : List DispatchEntry) : List DispatchEntry :=
  worker.queue ++ worker.pendingReplay ++ flying

/-- The books of the worker: the slots of a destination are its queued and flying transactions, and
each accepted transaction is in one place. -/
structure Balanced (config : DispatchWorkerConfig) (worker : DispatchWorker)
    (flying : List DispatchEntry) : Prop where
  held : ∀ destination, worker.queuedPerDestination destination =
    (worker.queue ++ flying).countP (DispatchEntry.isFor destination)
  share : ∀ destination,
    worker.queuedPerDestination destination ≤ config.effectiveMaxPendingPerDestination
  pending : worker.summary.pending = worker.queue.length
  conserved : ∀ ticket, worker.accepted.count ticket =
    ((worker.openEntries flying).map DispatchEntry.ticket).count ticket +
      worker.delivered.count ticket + worker.dropped.count ticket + worker.givenUp.count ticket
  counted : worker.givenUp.length ≤ worker.summary.failed

lemma isFor_of_ticket (h : again.ticket = entry.ticket) (destination : Str) :
    again.isFor destination = entry.isFor destination := by
  have hsame : again.transaction.destination = entry.transaction.destination :=
    congrArg DispatchTicket.destination h
  rw [isFor, isFor, hsame]

lemma releaseDestinationSlotLocked_eq (worker : DispatchWorker) (destination : Str) :
    worker.releaseDestinationSlotLocked destination = { worker with
        queuedPerDestination := update worker.queuedPerDestination destination
          (worker.queuedPerDestination destination - 1) } := by
  unfold releaseDestinationSlotLocked
  split_ifs with h
  · rw [Nat.sub_eq_zero_of_le h]
  · rfl

lemma eraseIdx_of_split {queue before after : List DispatchEntry}
    (h : queue = before ++ entry :: after) : queue.eraseIdx before.length = before ++ after := by
  rw [h, eraseIdx_append_of_length_le le_rfl, Nat.sub_self, eraseIdx_cons_zero]

namespace Balanced

lemma fresh (config : DispatchWorkerConfig) (store : Option FederationStore) :
    Balanced config { store := store } [] where
  held _ := rfl
  share _ := Nat.zero_le _
  pending := rfl
  conserved _ := rfl
  counted := le_rfl

lemma perm (h : Balanced config worker flying) (hperm : flying.Perm rest) :
    Balanced config worker rest where
  held destination := by
    rw [h.held]
    exact (hperm.append_left _).countP_eq _
  share := h.share
  pending := h.pending
  conserved ticket := by
    rw [h.conserved]
    congr 3
    exact ((hperm.append_left _).map _).count_eq ticket
  counted := h.counted

lemma take (h : Balanced config worker flying) {before after : List DispatchEntry}
    (hqueue : worker.queue = before ++ entry :: after) :
    Balanced config (worker.take before.length entry) (entry :: flying) := by
  have hlater := eraseIdx_of_split hqueue
  constructor
  case held =>
    intro destination
    have hheld := h.held destination
    simp only [DispatchWorker.take, hlater]
    rw [hheld, hqueue]
    simp only [countP_append, countP_cons]
    omega
  case share => exact h.share
  case pending =>
    have hpending := h.pending
    simp only [DispatchWorker.take, hlater]
    rw [hpending, hqueue]
    simp only [length_append, length_cons]
    omega
  case conserved =>
    intro ticket
    have hconserved := h.conserved ticket
    simp only [DispatchWorker.take, hlater]
    simp only [openEntries, hqueue, map_append, map_cons, count_append, count_cons] at hconserved ⊢
    omega
  case counted => exact h.counted

section

variable (h : Balanced config worker (entry :: rest))

include h

section

variable (hticket : again.ticket = entry.ticket)

include hticket

lemma requeueLocked : Balanced config (worker.requeueLocked again) rest := by
  constructor
  case held =>
    intro destination
    have hheld := h.held destination
    simp only [DispatchWorker.requeueLocked, countP_append, countP_cons,
      isFor_of_ticket hticket] at hheld ⊢
    omega
  case share => exact h.share
  case pending => exact congrArg (· + 1) h.pending
  case conserved =>
    intro ticket
    have hconserved := h.conserved ticket
    simp only [DispatchWorker.requeueLocked, openEntries, map_append, map_cons,
      count_append, count_cons, hticket] at hconserved ⊢
    omega
  case counted => exact h.counted

lemma release (destination : Str) :
    update worker.queuedPerDestination again.transaction.destination
        (worker.queuedPerDestination again.transaction.destination - 1) destination =
      (worker.queue ++ rest).countP (isFor destination) ∧
    update worker.queuedPerDestination again.transaction.destination
        (worker.queuedPerDestination again.transaction.destination - 1) destination ≤
      config.effectiveMaxPendingPerDestination := by
  have hheld := h.held destination
  have hshare := h.share destination
  simp only [countP_append, countP_cons, ← isFor_of_ticket hticket] at hheld
  simp only [countP_append, update_apply, isFor, decide_eq_true_eq] at hheld ⊢
  by_cases hsame : destination = again.transaction.destination
  · subst hsame
    rw [if_pos rfl] at hheld ⊢
    omega
  · rw [if_neg (Ne.symm hsame)] at hheld
    rw [if_neg hsame]
    omega

lemma left {summary : DispatchWorkerSummary} {delivered dropped givenUp : List DispatchTicket}
    (hpending : summary.pending = worker.summary.pending)
    (hone : ∀ ticket, delivered.count ticket + dropped.count ticket + givenUp.count ticket =
      worker.delivered.count ticket + worker.dropped.count ticket + worker.givenUp.count ticket +
        [again.ticket].count ticket)
    (hcounted : givenUp.length ≤ summary.failed) :
    Balanced config { worker with
      queuedPerDestination := update worker.queuedPerDestination again.transaction.destination
        (worker.queuedPerDestination again.transaction.destination - 1)
      summary := summary
      delivered := delivered
      dropped := dropped
      givenUp := givenUp } rest := by
  constructor
  case held => exact fun destination => (h.release hticket destination).1
  case share => exact fun destination => (h.release hticket destination).2
  case pending => exact hpending.trans h.pending
  case conserved =>
    intro ticket
    have hconserved := h.conserved ticket
    have hone := hone ticket
    simp only [openEntries, map_append, map_cons, count_append, count_cons, count_nil,
      hticket] at hconserved hone ⊢
    omega
  case counted => exact hcounted

lemma giveUp : Balanced config (worker.giveUp again) rest := by
  rw [DispatchWorker.giveUp, releaseDestinationSlotLocked_eq]
  refine h.left hticket rfl (fun ticket => ?_) ?_
  · rw [count_append, ← Nat.add_assoc]
    rfl
  · simpa [countFailed] using h.counted

lemma drop : Balanced config (worker.drop again) rest := by
  rw [DispatchWorker.drop, releaseDestinationSlotLocked_eq]
  refine h.left hticket rfl (fun ticket => ?_) h.counted
  simp only [count_append]
  omega

lemma deliver : Balanced config (worker.deliver again) rest := by
  rw [DispatchWorker.deliver, releaseDestinationSlotLocked_eq]
  refine h.left hticket rfl (fun ticket => ?_) h.counted
  simp only [count_append]
  omega

end

end

section

variable (h : Balanced config worker flying) {parked : List DispatchEntry}

include h

lemma countFailed : Balanced config worker.countFailed flying :=
  { h with counted := h.counted.trans (Nat.le_succ _) }

/-- One more slot of a destination that is not at its share. -/
lemma push (hroom : worker.destinationAtShareLocked config entry.transaction.destination = false)
    (destination : Str) :
    update worker.queuedPerDestination entry.transaction.destination
        (worker.queuedPerDestination entry.transaction.destination + 1) destination =
      (worker.queue ++ [entry] ++ flying).countP (isFor destination) ∧
    update worker.queuedPerDestination entry.transaction.destination
        (worker.queuedPerDestination entry.transaction.destination + 1) destination ≤
      config.effectiveMaxPendingPerDestination := by
  have hheld := h.held destination
  have hshare := h.share destination
  simp only [destinationAtShareLocked, decide_eq_false_iff_not] at hroom
  simp only [countP_append, countP_cons, countP_nil, isFor, decide_eq_true_eq,
    update_apply] at hheld ⊢
  by_cases hsame : destination = entry.transaction.destination
  · subst hsame
    rw [if_pos rfl, if_pos rfl]
    omega
  · rw [if_neg hsame, if_neg (Ne.symm hsame)]
    omega

lemma promote (hparked : worker.pendingReplay = entry :: parked)
    (hroom : worker.destinationAtShareLocked config entry.transaction.destination = false) :
    Balanced config ({ worker with pendingReplay := parked }.pushQueueLocked entry) flying := by
  constructor
  case held => exact fun destination => (h.push hroom destination).1
  case share => exact fun destination => (h.push hroom destination).2
  case pending =>
    have hpending := h.pending
    simp [pushQueueLocked, hpending]
  case conserved =>
    intro ticket
    have hconserved := h.conserved ticket
    simp only [pushQueueLocked, openEntries, hparked, map_append, map_cons,
      count_append, count_cons, map_nil, count_nil] at hconserved ⊢
    omega
  case counted => exact h.counted

/-- The order of the parked rows does not matter. -/
lemma reorder (hperm : parked.Perm worker.pendingReplay) :
    Balanced config { worker with pendingReplay := parked } flying := by
  refine { h with conserved := fun ticket => ?_ }
  have hconserved := h.conserved ticket
  have hsame := (hperm.map DispatchEntry.ticket).count_eq ticket
  simp only [openEntries, map_append, count_append] at hconserved ⊢
  omega

lemma topUp (remaining : ℕ) : Balanced config (worker.topUp config remaining) flying := by
  induction remaining generalizing worker with
  | zero => exact h
  | succ remaining ih =>
    unfold DispatchWorker.topUp
    cases hparked : worker.pendingReplay with
    | nil => exact h
    | cons row parked =>
      dsimp only
      split_ifs with hfull hshare
      · exact h
      · exact ih (h.reorder (hparked ▸ perm_append_singleton row parked))
      · exact ih (h.promote hparked (by simpa using hshare))

lemma acceptParked (transaction : OutboundTransaction) :
    Balanced config (worker.acceptParked transaction) flying := by
  refine { h with conserved := fun ticket => ?_ }
  have hconserved := h.conserved ticket
  simp only [DispatchWorker.acceptParked, accept, openEntries, map_append, map_cons,
    count_append, map_nil] at hconserved ⊢
  omega

lemma acceptIntoQueue
    (hroom : worker.destinationAtShareLocked config transaction.destination = false) :
    Balanced config (worker.acceptIntoQueue transaction) flying := by
  have hparked := (h.acceptParked transaction).reorder (perm_append_singleton _ _).symm
  exact hparked.promote rfl hroom

lemma replayRow (transaction : OutboundTransaction) :
    Balanced config (worker.replayRow config transaction) flying := by
  unfold DispatchWorker.replayRow
  split_ifs with hroom
  · exact h.acceptParked transaction
  · simp only [Bool.or_eq_true, not_or, Bool.not_eq_true] at hroom
    exact h.acceptIntoQueue hroom.2

end

lemma foldl_acceptIntoQueue (members : List (OutboundTransaction × ℕ)) (size : ℕ)
    (h : Balanced config worker flying) :
    Balanced config (((takeWithinBounds config size worker.queuedPerDestination members).1.map
      Prod.fst).foldl DispatchWorker.acceptIntoQueue worker) flying := by
  induction members generalizing worker size with
  | nil => exact h
  | cons member rest ih =>
    unfold takeWithinBounds
    split_ifs with hbound
    · exact ih size h
    · simp only [Bool.or_eq_true, not_or, Bool.not_eq_true] at hbound
      exact ih (size + 1) (h.acceptIntoQueue hbound.2)

end Balanced

/-! ### The rows of accepted transactions -/

/-- The transaction ids of the durable rows. -/
def storeIds (store : Option FederationStore) : List Str :=
  store.elim [] fun store => store.transactions.ids

/-- The transaction ids the worker still answers for, and those it gave up. -/
def keptIds (worker : DispatchWorker) (flying : List DispatchEntry) : List Str :=
  ((worker.openEntries flying).map DispatchEntry.ticket ++ worker.givenUp).map
    DispatchTicket.transactionId

/-- While the row of an accepted transaction exists, the transaction is open or was given up. -/
def Covered (worker : DispatchWorker) (flying : List DispatchEntry) : Prop :=
  ∀ id ∈ storeIds worker.store, id ∈ worker.accepted.map DispatchTicket.transactionId →
    id ∈ worker.keptIds flying

lemma mem_storeIds_storeBatch {batch : List OutboundTransaction}
    (h : worker.storeBatch commits batch = some store) :
    (id ∈ storeIds store → id ∈ storeIds worker.store ∨
      id ∈ batch.map OutboundTransaction.transactionId) ∧
    (id ∈ storeIds worker.store → id ∈ storeIds store) ∧
    (worker.store.isSome → id ∈ batch.map OutboundTransaction.transactionId →
      id ∈ storeIds store) := by
  unfold storeBatch at h
  cases hstore : worker.store with
  | none =>
    rw [hstore] at h
    cases h
    exact ⟨.inl, fun h => h, by simp⟩
  | some old =>
    rw [hstore] at h
    dsimp only at h
    have hids : (batch.map toPersistentTransaction).map
        PersistentFederationTransaction.transactionId =
          batch.map OutboundTransaction.transactionId := by
      rw [map_map]
      rfl
    rcases old.transactions.storeFederationTransactions_cases commits
        (batch.map toPersistentTransaction) with hrefused | ⟨hdone, hrows⟩
    · rw [hrefused] at h
      cases h
    · rw [hdone] at h
      cases h
      have hmem : id ∈ storeIds (some { old with transactions :=
          (old.transactions.storeFederationTransactions commits
            (batch.map toPersistentTransaction)).2 }) ↔
          id ∈ storeIds (some old) ∨ id ∈ batch.map OutboundTransaction.transactionId := by
        simp only [storeIds, Option.elim_some, FederationTransactionTable.ids]
        rw [hrows, FederationTransactionTable.mem_map_foldl_upsert, hids]
      exact ⟨hmem.mp, fun h => hmem.mpr (.inl h), fun _ h => hmem.mpr (.inr h)⟩

lemma storeRow_eq (worker : DispatchWorker) (commits : Bool) (transaction : OutboundTransaction) :
    worker.storeRow commits transaction = worker.storeBatch commits [transaction] := rfl

lemma mem_storeIds_deleteRow {transactionId : Str}
    (h : worker.deleteRow commits transactionId = some store) :
    id ∈ storeIds store ↔ id ∈ storeIds worker.store ∧ id ≠ transactionId := by
  unfold deleteRow at h
  cases hstore : worker.store with
  | none =>
    rw [hstore] at h
    cases h
    simp [storeIds]
  | some old =>
    rw [hstore] at h
    dsimp only at h
    rcases old.transactions.deleteFederationTransaction_cases commits transactionId with
      hrefused | ⟨hdone, hrows⟩
    · rw [hrefused] at h
      cases h
    · rw [hdone] at h
      cases h
      simp only [storeIds, Option.elim_some, FederationTransactionTable.ids]
      rw [hrows]
      simp only [mem_map, mem_filter, decide_eq_true_eq]
      constructor
      · rintro ⟨row, ⟨hrow, hne⟩, rfl⟩
        exact ⟨⟨row, hrow, rfl⟩, hne⟩
      · rintro ⟨⟨row, hrow, rfl⟩, hne⟩
        exact ⟨row, ⟨hrow, hne⟩, rfl⟩

lemma mem_keptIds : id ∈ worker.keptIds flying ↔
    (∃ entry, (entry ∈ worker.queue ∨ entry ∈ worker.pendingReplay ∨ entry ∈ flying) ∧
      entry.transaction.transactionId = id) ∨
    id ∈ worker.givenUp.map DispatchTicket.transactionId := by
  simp only [keptIds, openEntries, map_append, mem_append, map_map, mem_map, or_and_right,
    exists_or, or_assoc]
  rfl

lemma mem_keptIds_cons : id ∈ worker.keptIds (entry :: rest) ↔
    id = entry.transaction.transactionId ∨ id ∈ worker.keptIds rest := by
  simp only [keptIds, openEntries, map_append, map_cons, mem_append, mem_cons]
  exact ⟨by tauto, by tauto⟩

namespace Covered

variable {later : DispatchWorker}

/-- A step that accepts nothing, writes no new row and keeps what it answers for. -/
lemma of_subset (h : Covered worker flying) (hrows : storeIds later.store ⊆ storeIds worker.store)
    (haccepted : later.accepted = worker.accepted)
    (hkept : ∀ id ∈ storeIds later.store, id ∈ worker.keptIds flying → id ∈ later.keptIds rest) :
    Covered later rest := by
  intro id hrow haccept
  rw [haccepted] at haccept
  exact hkept id hrow (h id (hrows hrow) haccept)

lemma perm (h : Covered worker flying) (hperm : flying.Perm rest) : Covered worker rest := by
  refine h.of_subset (Subset.refl _) rfl fun id _ hkept => ?_
  rw [mem_keptIds] at hkept ⊢
  simpa only [hperm.mem_iff] using hkept

lemma take (h : Covered worker flying) {before after : List DispatchEntry}
    (hqueue : worker.queue = before ++ entry :: after) :
    Covered (worker.take before.length entry) (entry :: flying) := by
  have hlater := eraseIdx_of_split hqueue
  refine h.of_subset (Subset.refl _) rfl fun id _ hkept => ?_
  rw [mem_keptIds] at hkept ⊢
  refine hkept.imp_left fun ⟨other, hplace, hid⟩ => ⟨other, ?_, hid⟩
  simp only [DispatchWorker.take, hlater]
  simp only [hqueue, mem_append, mem_cons] at hplace ⊢
  tauto

section

variable (h : Covered worker (entry :: rest))

include h

lemma requeueLocked (hticket : again.ticket = entry.ticket)
    (hstore : worker.storeRow commits again.transaction = some store) :
    Covered ({ worker with store := store }.requeueLocked again) rest := by
  rw [storeRow_eq] at hstore
  intro id hrow haccept
  have hqueued : id ∈ ({ worker with store := store }.requeueLocked again).keptIds rest ↔
      id = again.transaction.transactionId ∨ id ∈ worker.keptIds rest := mem_cons
  rw [hqueued]
  rcases (mem_storeIds_storeBatch hstore).1 hrow with hold | hnew
  · have hid : again.transaction.transactionId = entry.transaction.transactionId :=
      congrArg DispatchTicket.transactionId hticket
    rw [hid]
    exact mem_keptIds_cons.mp (h id hold haccept)
  · exact .inl (by simpa using hnew)

lemma giveUp (hticket : again.ticket = entry.ticket) :
    Covered (worker.giveUp again) rest := by
  rw [DispatchWorker.giveUp, releaseDestinationSlotLocked_eq]
  refine h.of_subset (Subset.refl _) rfl fun id _ hkept => ?_
  rw [mem_keptIds_cons] at hkept
  simp only [keptIds, hticket, map_append, mem_append] at hkept ⊢
  rcases hkept with rfl | hkept | hgiven
  · exact .inr (.inr mem_cons_self)
  · exact .inl hkept
  · exact .inr (.inl hgiven)

lemma removed (hstore : worker.deleteRow commits entry.transaction.transactionId = some store)
    (hlater : later.store = store) (haccepted : later.accepted = worker.accepted)
    (hqueue : later.queue = worker.queue) (hparked : later.pendingReplay = worker.pendingReplay)
    (hgiven : later.givenUp = worker.givenUp) : Covered later rest := by
  have hrows : ∀ id, id ∈ storeIds later.store ↔
      id ∈ storeIds worker.store ∧ id ≠ entry.transaction.transactionId := by
    intro id
    rw [hlater]
    exact mem_storeIds_deleteRow hstore
  refine h.of_subset (fun id hid => ((hrows id).mp hid).1) haccepted fun id hrow hkept => ?_
  rw [keptIds, openEntries, hqueue, hparked, hgiven]
  exact (mem_keptIds_cons.mp hkept).resolve_left ((hrows id).mp hrow).2

end

section

variable (h : Covered worker flying)

include h

lemma accepted (entry : DispatchEntry) (hstore : later.store = worker.store)
    (haccepted : later.accepted = worker.accepted ++ [entry.ticket])
    (hkept : ∀ id, id ∈ worker.keptIds flying ∨ id = entry.transaction.transactionId →
      id ∈ later.keptIds flying) :
    Covered later flying := by
  intro id hrow haccept
  rw [hstore] at hrow
  rw [haccepted, map_append, mem_append] at haccept
  refine hkept id ?_
  rcases haccept with haccept | haccept
  · exact .inl (h id hrow haccept)
  · exact .inr (mem_singleton.mp haccept)

lemma acceptIntoQueue (transaction : OutboundTransaction) :
    Covered (worker.acceptIntoQueue transaction) flying := by
  refine h.accepted (worker.accept transaction).1 rfl rfl fun id hid => ?_
  simp only [keptIds, openEntries, DispatchWorker.acceptIntoQueue, pushQueueLocked, map_append,
    mem_append, map_cons, mem_cons] at hid ⊢
  tauto

lemma acceptParked (transaction : OutboundTransaction) :
    Covered (worker.acceptParked transaction) flying := by
  refine h.accepted (worker.accept transaction).1 rfl rfl fun id hid => ?_
  simp only [keptIds, openEntries, DispatchWorker.acceptParked, map_append,
    mem_append, map_cons, mem_cons] at hid ⊢
  tauto

lemma replayRow (transaction : OutboundTransaction) :
    Covered (worker.replayRow config transaction) flying := by
  unfold DispatchWorker.replayRow
  split_ifs
  · exact h.acceptParked transaction
  · exact h.acceptIntoQueue transaction

lemma excludeRow (commits : Str → Bool) (transaction : OutboundTransaction) :
    Covered (worker.excludeRow commits transaction) flying := by
  unfold DispatchWorker.excludeRow
  split
  · exact h.of_subset (Subset.refl _) rfl fun _ _ hkept => hkept
  · next store hstore =>
    exact h.of_subset (fun _ hid => ((mem_storeIds_deleteRow hstore).mp hid).1) rfl
      fun _ _ hkept => hkept

end

end Covered

end DispatchWorker

end Merovingian
