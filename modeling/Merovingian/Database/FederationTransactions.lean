import Merovingian.Lib.Bytes
import Merovingian.Lib.Positions

/-!
# The outbound federation queue in the database

The model of `federation_transactions` and `federation_destinations` of
`database/PersistentStore.cpp`.  A writer commits first and touches its copy in memory only after
that, so one list stands for the rows of the database and for that copy.  The rows of transactions
have an index from transaction ids to positions, trusted while
`federation_transaction_indexed_rows` is the number of rows.

Whatever the index holds, a write acts as the upsert of the database does
(`storeFederationTransactions_cases`) and a removal as its delete
(`deleteFederationTransaction_cases`).
-/

namespace Merovingian

structure PersistentFederationTransaction where
  transactionId : Str := []
  serverName : Str := []
  method : Str := "PUT"
  target : Str := []
  origin : Str := []
  originServerTs : Str := []
  body : Str := []
  retryCount : UInt32 := 0
  nextRetryTs : UInt64 := 0
deriving DecidableEq, Repr

def federationTransactionIsValid (transaction : PersistentFederationTransaction) : Bool :=
  transaction.transactionId ≠ [] && transaction.serverName ≠ [] && transaction.method ≠ [] &&
    transaction.target ≠ [] && transaction.origin ≠ [] && transaction.body ≠ []

/-- `federation_transactions` with its index.  An index that is in step holds the positions. -/
structure FederationTransactionTable where
  rows : List PersistentFederationTransaction
  index : Str → Option ℕ
  indexedRows : ℕ
  distinct : (rows.map PersistentFederationTransaction.transactionId).Nodup
  index_eq : indexedRows = rows.length → ∀ transactionId,
    index transactionId = rows.findIdx? fun row => row.transactionId = transactionId

namespace FederationTransactionTable

open PersistentFederationTransaction List

variable {table : FederationTransactionTable} (row : PersistentFederationTransaction)

/-- The transaction ids of the rows. -/
def ids (table : FederationTransactionTable) : List Str := table.rows.map transactionId

/-- `rebuild_federation_transaction_index`. -/
def rebuild (rows : List PersistentFederationTransaction) (h : (rows.map transactionId).Nodup) :
    FederationTransactionTable where
  rows := rows
  index := emplacePositions (fun row => some row.transactionId) rows
  indexedRows := rows.length
  distinct := h
  index_eq := fun _ transactionId => by
    rw [emplacePositions_eq]
    simp only [Option.some.injEq]

/-- `federation_transaction_index_in_step`. -/
def InStep (table : FederationTransactionTable) : Prop := table.indexedRows = table.rows.length

instance (table : FederationTransactionTable) : Decidable table.InStep :=
  inferInstanceAs (Decidable (_ = _))

/-- The pass over all rows at the end of `find_federation_transaction_position`. -/
def scanPosition (table : FederationTransactionTable) (transactionId : Str) : Option ℕ :=
  table.rows.findIdx? fun row => row.transactionId = transactionId

def findFederationTransactionPosition (table : FederationTransactionTable) (transactionId : Str) :
    Option ℕ :=
  if table.InStep then
    match table.index transactionId with
    | none => none
    | some position =>
      if table.rows[position]?.any fun row => row.transactionId = transactionId then some position
      else table.scanPosition transactionId
  else table.scanPosition transactionId

lemma findFederationTransactionPosition_eq (table : FederationTransactionTable)
    (transactionId : Str) : table.findFederationTransactionPosition transactionId =
      table.scanPosition transactionId := by
  unfold findFederationTransactionPosition
  by_cases hstep : table.InStep
  · have hindex : table.index transactionId = table.scanPosition transactionId :=
      table.index_eq hstep transactionId
    rw [if_pos hstep, hindex]
    cases hscan : table.scanPosition transactionId with
    | none => rfl
    | some position =>
      dsimp only
      split_ifs <;> rfl
  · rw [if_neg hstep]

lemma mem_ids_of_scanPosition {id : Str} {position : ℕ}
    (h : table.scanPosition id = some position) : id ∈ table.ids := by
  obtain ⟨hlt, hid, -⟩ := findIdx?_eq_some_iff_getElem.mp h
  exact mem_map.mpr ⟨table.rows[position], getElem_mem hlt, by simpa using hid⟩

/-- A row written by its transaction id, as the upsert of the database does. -/
def upsert (rows : List PersistentFederationTransaction) (row : PersistentFederationTransaction) :
    List PersistentFederationTransaction :=
  upsertBy transactionId row.transactionId row (fun _ => row) rows

/-- One pass of the loop of `store_federation_transactions`. -/
def putRow (table : FederationTransactionTable) (row : PersistentFederationTransaction)
    (hstep : table.InStep) : FederationTransactionTable :=
  match hposition : table.findFederationTransactionPosition row.transactionId with
  | some position =>
    { table with
      rows := table.rows.set position row
      distinct := by
        rw [findFederationTransactionPosition_eq] at hposition
        rw [set_findIdx? row hposition]
        exact nodup_upsertBy rfl (fun _ _ => rfl) table.distinct
      index_eq := fun _ transactionId => by
        rw [findFederationTransactionPosition_eq] at hposition
        rw [table.index_eq hstep, set_findIdx? row hposition]
        refine (findIdx?_eq_of_map ?_ transactionId).symm
        rw [map_upsertBy rfl (fun _ _ => rfl)]
        exact if_pos (mem_ids_of_scanPosition hposition) }
  | none =>
    { rows := table.rows ++ [row]
      index := emplacePosition table.index (some row.transactionId) table.rows.length
      indexedRows := (table.rows ++ [row]).length
      distinct := by
        rw [findFederationTransactionPosition_eq] at hposition
        rw [append_of_findIdx?_eq_none row hposition]
        exact nodup_upsertBy rfl (fun _ _ => rfl) table.distinct
      index_eq := fun _ transactionId => by
        have hold : ∀ transactionId, table.index transactionId =
            table.rows.findIdx? fun other => some other.transactionId = some transactionId := by
          simpa only [Option.some.injEq] using table.index_eq hstep
        have hnew := emplacePosition_findIdx? row hold transactionId
        simpa only [Option.some.injEq] using hnew }

lemma rows_putRow (hstep : table.InStep) :
    (table.putRow row hstep).rows = upsert table.rows row := by
  unfold putRow
  split
  · next position hposition =>
    rw [findFederationTransactionPosition_eq] at hposition
    exact set_findIdx? row hposition
  · next hposition =>
    rw [findFederationTransactionPosition_eq] at hposition
    exact append_of_findIdx?_eq_none row hposition

lemma inStep_putRow (hstep : table.InStep) :
    (table.putRow row hstep).InStep := by
  unfold putRow
  split
  · exact hstep.trans length_set.symm
  · rfl

/-- The loop of `store_federation_transactions`. -/
def putRows : List PersistentFederationTransaction → (table : FederationTransactionTable) →
    table.InStep → FederationTransactionTable
  | [], table, _ => table
  | row :: rest, table, hstep => putRows rest (table.putRow row hstep) (inStep_putRow row hstep)

lemma rows_putRows (rows : List PersistentFederationTransaction) (hstep : table.InStep) :
    (putRows rows table hstep).rows = rows.foldl upsert table.rows := by
  induction rows generalizing table with
  | nil => rfl
  | cons row rest ih => rw [putRows, ih, rows_putRow, foldl_cons]

/-- The table with its index in step. -/
def inStep (table : FederationTransactionTable) : {table : FederationTransactionTable // table.InStep} :=
  if h : table.InStep then ⟨table, h⟩ else ⟨rebuild table.rows table.distinct, rfl⟩

/-- `store_federation_transactions`: the rows of a batch are committed together. -/
def storeFederationTransactions (table : FederationTransactionTable) (commits : Bool)
    (transactions : List PersistentFederationTransaction) : Bool × FederationTransactionTable :=
  if transactions = [] then (true, table)
  else if !transactions.all federationTransactionIsValid then (false, table)
  else if !commits then (false, table)
  else (true, putRows transactions table.inStep.1 table.inStep.2)

def storeFederationTransaction (table : FederationTransactionTable) (commits : Bool)
    (transaction : PersistentFederationTransaction) : Bool × FederationTransactionTable :=
  table.storeFederationTransactions commits [transaction]

def deleteFederationTransaction (table : FederationTransactionTable) (commits : Bool)
    (transactionId : Str) : Bool × FederationTransactionTable :=
  if transactionId = [] then (false, table)
  else if !commits then (false, table)
  else
    match table.findFederationTransactionPosition transactionId with
    | none => (true, table)
    | some position =>
      (true, rebuild (table.rows.eraseIdx position)
        (table.distinct.sublist ((eraseIdx_sublist _ _).map _)))

/-! ### What the calls do -/

lemma storeFederationTransactions_cases (table : FederationTransactionTable) (commits : Bool)
    (transactions : List PersistentFederationTransaction) :
    table.storeFederationTransactions commits transactions = (false, table) ∨
      (table.storeFederationTransactions commits transactions).1 = true ∧
      (table.storeFederationTransactions commits transactions).2.rows =
        transactions.foldl upsert table.rows := by
  unfold storeFederationTransactions
  split_ifs with hnil
  · exact .inr ⟨rfl, by rw [hnil]; rfl⟩
  · exact .inl rfl
  · exact .inl rfl
  · refine .inr ⟨rfl, ?_⟩
    rw [rows_putRows]
    unfold inStep
    split_ifs <;> rfl

lemma deleteFederationTransaction_cases (table : FederationTransactionTable) (commits : Bool)
    (transactionId : Str) :
    table.deleteFederationTransaction commits transactionId = (false, table) ∨
      (table.deleteFederationTransaction commits transactionId).1 = true ∧
      (table.deleteFederationTransaction commits transactionId).2.rows =
        table.rows.filter fun row => row.transactionId ≠ transactionId := by
  unfold deleteFederationTransaction
  split_ifs
  · exact .inl rfl
  · exact .inl rfl
  · rw [findFederationTransactionPosition_eq]
    cases hposition : table.scanPosition transactionId with
    | none =>
      refine .inr ⟨rfl, (filter_eq_self.mpr fun row hrow => ?_).symm⟩
      simpa using findIdx?_eq_none_iff.mp hposition row hrow
    | some position => exact .inr ⟨rfl, eraseIdx_findIdx? table.distinct hposition⟩

lemma mem_map_foldl_upsert {transactions rows : List PersistentFederationTransaction} {id : Str} :
    id ∈ (transactions.foldl upsert rows).map transactionId ↔
      id ∈ rows.map transactionId ∨ id ∈ transactions.map transactionId := by
  induction transactions generalizing rows with
  | nil => simp
  | cons row rest ih =>
    rw [foldl_cons, ih, upsert, map_upsertBy rfl (fun _ _ => rfl), map_cons,
      mem_cons]
    split_ifs with hmem
    · constructor
      · exact Or.imp_right .inr
      · rintro (h | rfl | h)
        · exact .inl h
        · exact .inl hmem
        · exact .inr h
    · rw [mem_append, mem_singleton, or_assoc]

end FederationTransactionTable

/-! ### Destinations -/

structure PersistentFederationDestination where
  serverName : Str := []
  state : Str := []
  retryAfterTs : UInt64 := 0
  lastSuccessTs : UInt64 := 0
  consecutiveFailures : UInt32 := 0
deriving DecidableEq, Repr

/-- What the dispatcher reads and writes of `PersistentStore`. -/
structure FederationStore where
  transactions : FederationTransactionTable
  destinations : List PersistentFederationDestination

def storeFederationDestination (store : FederationStore) (commits : Bool)
    (destination : PersistentFederationDestination) : FederationStore :=
  if destination.serverName = [] || destination.state = [] || !commits then store
  else
    { store with
      destinations := upsertBy PersistentFederationDestination.serverName destination.serverName
        destination (fun _ => destination) store.destinations }

@[simp] lemma transactions_storeFederationDestination (store : FederationStore) (commits : Bool)
    (destination : PersistentFederationDestination) :
    (storeFederationDestination store commits destination).transactions = store.transactions := by
  unfold storeFederationDestination
  split_ifs <;> rfl

end Merovingian
