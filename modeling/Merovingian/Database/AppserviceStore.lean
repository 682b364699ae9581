import Merovingian.Database.AppserviceOutbox
import Merovingian.Lib.Keyed
import Merovingian.Lib.SortedIndex

/-!
# What is stored for application services

The transaction cursors and the outbox of `database/PersistentStore.cpp`, in the database and in
memory.  Memory is touched only after a commit, so it follows the database: `AppserviceStore` holds
both, with the tie between them and the order of the vector as fields.  `reload` is what a restart
reads back.
-/

namespace Merovingian

open PersistentAppserviceOutboxEntry List

/-- `PersistentAppserviceTxnCursor`.  Its numbers are 64 bits wide in the source, which no run of
allocations comes to the end of. -/
structure PersistentAppserviceTxnCursor where
  appserviceId : Str
  nextTxnId : ℕ := 1
  deliveredStreamOrdering : ℕ := 0
  pendingTxnId : ℕ := 0
  pendingStreamOrdering : ℕ := 0
deriving DecidableEq, Repr

/-- The two tables of the database, with their primary keys. -/
structure AppserviceDatabase where
  cursors : List PersistentAppserviceTxnCursor
  outbox : List PersistentAppserviceOutboxEntry
  cursorKey : (cursors.map PersistentAppserviceTxnCursor.appserviceId).Nodup
  outboxKey : (outbox.map key).Nodup

/-- The upsert of a cursor, in the database and in memory. -/
def upsertCursor (cursor : PersistentAppserviceTxnCursor)
    (cursors : List PersistentAppserviceTxnCursor) : List PersistentAppserviceTxnCursor :=
  upsertBy PersistentAppserviceTxnCursor.appserviceId cursor.appserviceId cursor (fun _ => cursor)
    cursors

/-- The cursor of an application service, if there is a row. -/
def cursorRow (cursors : List PersistentAppserviceTxnCursor) (appserviceId : Str) :
    Option PersistentAppserviceTxnCursor :=
  lookupBy PersistentAppserviceTxnCursor.appserviceId cursors appserviceId

variable (cursor : PersistentAppserviceTxnCursor)

lemma cursorRow_upsertCursor (cursors : List PersistentAppserviceTxnCursor) (appserviceId : Str) :
    cursorRow (upsertCursor cursor cursors) appserviceId =
      if appserviceId = cursor.appserviceId then some cursor
      else cursorRow cursors appserviceId := by
  rw [cursorRow, upsertCursor, lookupBy_upsertBy rfl fun _ _ => rfl]
  cases lookupBy PersistentAppserviceTxnCursor.appserviceId cursors cursor.appserviceId <;> rfl

/-- The cursors and the outbox, in the database and in memory. -/
structure AppserviceStore where
  database : AppserviceDatabase
  cursors : List PersistentAppserviceTxnCursor
  outbox : List PersistentAppserviceOutboxEntry
  sorted : OutboxSorted outbox
  cursorsMirror : ∀ appserviceId,
    cursorRow cursors appserviceId = cursorRow database.cursors appserviceId
  outboxMirror : outbox.Perm database.outbox

namespace AppserviceDatabase

/-- `upsert_appservice_txn_cursor`. -/
def upsert (database : AppserviceDatabase) (cursor : PersistentAppserviceTxnCursor) :
    AppserviceDatabase :=
  { database with
    cursors := upsertCursor cursor database.cursors
    cursorKey := nodup_upsertBy rfl (fun _ _ => rfl) database.cursorKey }

/-- `enqueue_appservice_event`: the insert, which does nothing where the key is there. -/
def insertRow (database : AppserviceDatabase) (entry : PersistentAppserviceOutboxEntry) :
    AppserviceDatabase :=
  if h : entry.key ∈ database.outbox.map key then database
  else
    { database with
      outbox := database.outbox ++ [entry]
      outboxKey := by
        rw [map_append, nodup_append']
        exact ⟨database.outboxKey, nodup_singleton _, by simpa using h⟩ }

/-- `complete_appservice_outbox_entry`. -/
def deleteRow (database : AppserviceDatabase) (appserviceId : Str) (streamOrdering : ℕ) :
    AppserviceDatabase :=
  { database with
    outbox := database.outbox.filter fun entry => !entry.isAt appserviceId streamOrdering
    outboxKey := database.outboxKey.sublist (filter_sublist.map _) }

end AppserviceDatabase

namespace AppserviceStore

/-- A store with empty tables. -/
def empty : AppserviceStore where
  database := ⟨[], [], .nil, .nil⟩
  cursors := []
  outbox := []
  sorted := .nil
  cursorsMirror := fun _ => rfl
  outboxMirror := .nil

/-- What a start of the server reads from the database: `sort_appservice_outbox` orders the
rows. -/
def reload (store : AppserviceStore) : AppserviceStore where
  database := store.database
  cursors := stableSort PersistentAppserviceTxnCursor.appserviceId store.database.cursors
  outbox := stableSort key store.database.outbox
  sorted := pairwise_lt_stableSort store.database.outboxKey
  cursorsMirror := fun appserviceId =>
    lookupBy_perm store.database.cursorKey (stableSort_perm _ _).symm appserviceId
  outboxMirror := stableSort_perm _ _

def findAppserviceTxnCursor (store : AppserviceStore) (appserviceId : Str) :
    PersistentAppserviceTxnCursor :=
  (cursorRow store.cursors appserviceId).getD ⟨appserviceId, 1, 0, 0, 0⟩

/-- The cursor written, in the database and then in memory. -/
def putCursor (store : AppserviceStore) (cursor : PersistentAppserviceTxnCursor) :
    AppserviceStore where
  database := store.database.upsert cursor
  cursors := upsertCursor cursor store.cursors
  outbox := store.outbox
  sorted := store.sorted
  cursorsMirror := fun appserviceId => by
    rw [AppserviceDatabase.upsert, cursorRow_upsertCursor, cursorRow_upsertCursor,
      store.cursorsMirror]
  outboxMirror := store.outboxMirror

def storeAppserviceTxnCursor (store : AppserviceStore) (commits : Bool)
    (cursor : PersistentAppserviceTxnCursor) : Bool × AppserviceStore :=
  if cursor.appserviceId = [] || !commits then (false, store) else (true, store.putCursor cursor)

def hasAppserviceOutboxEntry (store : AppserviceStore) (appserviceId : Str)
    (streamOrdering : ℕ) : Bool :=
  outboxFinds store.outbox appserviceId streamOrdering

def countAppserviceOutboxEntries (store : AppserviceStore) (appserviceId : Str) : ℕ :=
  let first := outboxLowerBound store.outbox appserviceId 0
  outboxUpperBound store.outbox first appserviceId - first

def findFirstAppserviceOutboxEntry (store : AppserviceStore) (appserviceId : Str) :
    Option PersistentAppserviceOutboxEntry :=
  (store.outbox[outboxLowerBound store.outbox appserviceId 0]?).filter
    (isOf appserviceId)

variable {entry : PersistentAppserviceOutboxEntry}

lemma notMem_keys_of_not_has {store : AppserviceStore}
    (h : ¬ store.hasAppserviceOutboxEntry entry.appserviceId entry.streamOrdering = true) :
    ∀ other ∈ store.outbox, other.key ≠ entry.key := by
  rw [hasAppserviceOutboxEntry, store.sorted.outboxFinds_eq] at h
  intro other hother hsame
  refine h (any_eq_true.mpr ⟨other, hother, ?_⟩)
  exact isAt_iff.mpr hsame

/-- A row inserted at its lower bound. -/
def insertEntry (store : AppserviceStore) (entry : PersistentAppserviceOutboxEntry)
    (h : ¬ store.hasAppserviceOutboxEntry entry.appserviceId entry.streamOrdering = true) :
    AppserviceStore where
  database := store.database.insertRow entry
  cursors := store.cursors
  outbox := store.outbox.insertIdx
    (outboxLowerBound store.outbox entry.appserviceId entry.streamOrdering) entry
  sorted := by
    refine pairwise_insertIdx_bisect store.sorted (store.sorted.partitioned _ _) ?_ ?_
    · intro other _ hprecedes
      exact precedes_iff.mp hprecedes
    · intro other hother hnot
      rw [precedes_iff, not_lt] at hnot
      exact lt_of_le_of_ne hnot fun hsame => notMem_keys_of_not_has h other hother hsame.symm
  cursorsMirror := fun appserviceId => by
    rw [store.cursorsMirror, AppserviceDatabase.insertRow]
    split_ifs <;> rfl
  outboxMirror := by
    have hnew : entry.key ∉ store.database.outbox.map key := by
      intro hmem
      obtain ⟨other, hother, hsame⟩ := mem_map.mp hmem
      exact notMem_keys_of_not_has h other (store.outboxMirror.mem_iff.mpr hother) hsame
    rw [AppserviceDatabase.insertRow, dif_neg hnew]
    refine (insertIdx_bisect_perm (store.sorted.partitioned _ _) entry).trans ?_
    exact (store.outboxMirror.cons entry).trans (perm_append_singleton _ _).symm

def enqueueAppserviceEvent (store : AppserviceStore) (commits : Bool)
    (entry : PersistentAppserviceOutboxEntry) : Bool × AppserviceStore :=
  if entry.appserviceId = [] || entry.eventId = [] then (false, store)
  -- already queued: the primary key is the only dedupe
  else if h : store.hasAppserviceOutboxEntry entry.appserviceId entry.streamOrdering = true then
    (true, store)
  else if !commits then (false, store)
  else (true, store.insertEntry entry h)

/-- A row erased, in the database and then in memory. -/
def deleteEntry (store : AppserviceStore) (appserviceId : Str) (streamOrdering : ℕ) :
    AppserviceStore where
  database := store.database.deleteRow appserviceId streamOrdering
  cursors := store.cursors
  outbox := outboxErase store.outbox appserviceId streamOrdering
  sorted := store.sorted.outboxErase appserviceId streamOrdering
  cursorsMirror := store.cursorsMirror
  outboxMirror := (store.sorted.outboxErase_perm appserviceId streamOrdering).trans
    (store.outboxMirror.filter _)

/-- The cursor of a delivery that is over. -/
def completedCursor (cursor : PersistentAppserviceTxnCursor) (deliveredStreamOrdering : ℕ) :
    PersistentAppserviceTxnCursor :=
  { cursor with
    pendingTxnId := 0
    pendingStreamOrdering := 0
    deliveredStreamOrdering := max cursor.deliveredStreamOrdering deliveredStreamOrdering }

/-- `complete_appservice_delivery`: the cursor and the row in one transaction. -/
def completeAppserviceDelivery (store : AppserviceStore) (commits : Bool) (appserviceId : Str)
    (deliveredStreamOrdering : ℕ) : Bool × AppserviceStore :=
  if appserviceId = [] || !commits then (false, store)
  else
    let cursor := completedCursor (store.findAppserviceTxnCursor appserviceId)
      deliveredStreamOrdering
    (true, (store.putCursor cursor).deleteEntry appserviceId deliveredStreamOrdering)

/-! ### What the calls do -/

variable {store : AppserviceStore} {appserviceId : Str} {streamOrdering : ℕ}

section

variable (store : AppserviceStore) (appserviceId : Str)

/-- A look-up in the outbox is a scan. -/
theorem hasAppserviceOutboxEntry_eq (streamOrdering : ℕ) :
    store.hasAppserviceOutboxEntry appserviceId streamOrdering =
      store.outbox.any fun entry => entry.isAt appserviceId streamOrdering :=
  store.sorted.outboxFinds_eq appserviceId streamOrdering

/-- The number of rows of an application service is what a scan counts. -/
theorem countAppserviceOutboxEntries_eq :
    store.countAppserviceOutboxEntries appserviceId = store.outbox.countP (isOf appserviceId) :=
  store.sorted.count_eq appserviceId

/-- The first row of an application service is the first one of a scan. -/
theorem findFirstAppserviceOutboxEntry_eq :
    store.findFirstAppserviceOutboxEntry appserviceId = store.outbox.find? (isOf appserviceId) :=
  store.sorted.first_eq appserviceId

lemma findAppserviceTxnCursor_appserviceId :
    (store.findAppserviceTxnCursor appserviceId).appserviceId = appserviceId := by
  unfold findAppserviceTxnCursor
  cases h : cursorRow store.cursors appserviceId with
  | none => rfl
  | some cursor => exact key_of_lookupBy h

lemma findAppserviceTxnCursor_putCursor (appserviceId : Str) :
    (store.putCursor cursor).findAppserviceTxnCursor appserviceId =
      if appserviceId = cursor.appserviceId then cursor
      else store.findAppserviceTxnCursor appserviceId := by
  unfold findAppserviceTxnCursor putCursor
  rw [cursorRow_upsertCursor]
  split_ifs <;> rfl

lemma findAppserviceTxnCursor_reload :
    store.reload.findAppserviceTxnCursor appserviceId =
      store.findAppserviceTxnCursor appserviceId := by
  unfold findAppserviceTxnCursor
  rw [store.reload.cursorsMirror, store.cursorsMirror]
  rfl

end

lemma mem_outbox_reload : entry ∈ store.reload.outbox ↔ entry ∈ store.outbox := by
  rw [store.reload.outboxMirror.mem_iff, store.outboxMirror.mem_iff]
  rfl

lemma mem_outbox_deleteEntry :
    entry ∈ (store.deleteEntry appserviceId streamOrdering).outbox ↔
      entry ∈ store.outbox ∧ entry.isAt appserviceId streamOrdering = false := by
  rw [deleteEntry, (store.sorted.outboxErase_perm appserviceId streamOrdering).mem_iff,
    mem_filter, Bool.not_eq_true']

section

variable (h : store.findFirstAppserviceOutboxEntry appserviceId = some entry)

include h

lemma mem_of_findFirst :
    entry ∈ store.outbox ∧ entry.appserviceId = appserviceId := by
  rw [findFirstAppserviceOutboxEntry_eq] at h
  refine ⟨mem_of_find?_eq_some h, ?_⟩
  simpa [isOf] using find?_some h

lemma le_of_findFirst {other : PersistentAppserviceOutboxEntry}
    (hmem : other ∈ store.outbox) (hof : other.appserviceId = appserviceId) :
    entry.streamOrdering ≤ other.streamOrdering := by
  have hentry := (mem_of_findFirst h).2
  rw [findFirstAppserviceOutboxEntry_eq] at h
  obtain ⟨-, before, after, hsplit, hbefore⟩ := find?_eq_some_iff_append.mp h
  have hsorted := store.sorted
  rw [hsplit] at hsorted
  rw [hsplit] at hmem
  rcases mem_append.mp hmem with hmem | hmem
  · -- no row of the application service comes before
    have hnot := hbefore other hmem
    simp [isOf, hof] at hnot
  · rcases mem_cons.mp hmem with rfl | hmem
    · exact le_rfl
    · have hlt := (pairwise_cons.mp (pairwise_append.mp hsorted).2.1).1 other hmem
      rw [key, key, Prod.Lex.toLex_lt_toLex, hentry, hof] at hlt
      rcases hlt with hlt | ⟨-, hlt⟩
      · exact absurd hlt (lt_irrefl _)
      · exact hlt.le

end

lemma ne_of_findFirst_eq_none (h : store.findFirstAppserviceOutboxEntry appserviceId = none)
    (hmem : entry ∈ store.outbox) : entry.appserviceId ≠ appserviceId := by
  rw [findFirstAppserviceOutboxEntry_eq, find?_eq_none] at h
  simpa [isOf] using h entry hmem

lemma enqueueAppserviceEvent_cases (store : AppserviceStore) (commits : Bool)
    (entry : PersistentAppserviceOutboxEntry) :
    (store.enqueueAppserviceEvent commits entry).2 = store ∨
      (∀ other, other ∈ (store.enqueueAppserviceEvent commits entry).2.outbox ↔
        other = entry ∨ other ∈ store.outbox) ∧
      ∀ appserviceId, (store.enqueueAppserviceEvent commits entry).2.findAppserviceTxnCursor
        appserviceId = store.findAppserviceTxnCursor appserviceId := by
  unfold enqueueAppserviceEvent
  by_cases hempty : (decide (entry.appserviceId = []) || decide (entry.eventId = [])) = true
  · rw [if_pos hempty]
    exact .inl rfl
  rw [if_neg hempty]
  by_cases hhas : store.hasAppserviceOutboxEntry entry.appserviceId entry.streamOrdering = true
  · rw [dif_pos hhas]
    exact .inl rfl
  rw [dif_neg hhas]
  by_cases hcommits : (!commits) = true
  · rw [if_pos hcommits]
    exact .inl rfl
  rw [if_neg hcommits]
  have hperm := insertIdx_bisect_perm
    (store.sorted.partitioned entry.appserviceId entry.streamOrdering) entry
  exact .inr ⟨fun other => hperm.mem_iff.trans mem_cons, fun _ => rfl⟩

lemma completeAppserviceDelivery_cases (store : AppserviceStore) (commits : Bool)
    (appserviceId : Str) (streamOrdering : ℕ) :
    store.completeAppserviceDelivery commits appserviceId streamOrdering = (false, store) ∨
      store.completeAppserviceDelivery commits appserviceId streamOrdering =
        (true, (store.putCursor (completedCursor (store.findAppserviceTxnCursor appserviceId)
          streamOrdering)).deleteEntry appserviceId streamOrdering) := by
  unfold completeAppserviceDelivery
  split_ifs
  · exact .inl rfl
  · exact .inr rfl

end AppserviceStore

end Merovingian
