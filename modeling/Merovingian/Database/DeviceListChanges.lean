import Merovingian.Database.PersistentStore

/-!
# Device-list changes

The model of `record_device_list_changes` of `database/PersistentStore.cpp`.  A change says that
the devices of a subject changed for an observer, or that they no longer share a room.  A batch
takes one position of the sync stream, and its rows replace the earlier rows of the pairs it names,
in the table and in memory.  So each pair that was ever recorded has one row, the latest
(`Recorded`).
-/

namespace Merovingian

open List

structure PersistentDeviceListChange where
  streamId : ℕ := 0
  observerUserId : Str
  subjectUserId : Str
  changeType : Str
deriving DecidableEq, Repr

namespace PersistentDeviceListChange

/-- The observer and the subject. -/
def pair (change : PersistentDeviceListChange) : Str × Str :=
  (change.observerUserId, change.subjectUserId)

/-- What `record_device_list_changes` accepts. -/
def recordable (change : PersistentDeviceListChange) : Bool :=
  change.observerUserId ≠ [] && change.subjectUserId ≠ [] &&
    (change.changeType = lit "changed" || change.changeType = lit "left")

/-- The change at a position of the stream. -/
def stamp (streamId : ℕ) (change : PersistentDeviceListChange) : PersistentDeviceListChange :=
  { change with streamId := streamId }

end PersistentDeviceListChange

open PersistentDeviceListChange

/-! ### The statements -/

/-- A statement on the table `device_list_changes`. -/
inductive DeviceListStatement
  | delete (pair : Str × Str)
  | insert (row : PersistentDeviceListChange)

/-- The table after a statement. -/
def DeviceListStatement.execute (table : List PersistentDeviceListChange) :
    DeviceListStatement → List PersistentDeviceListChange
  | delete pair => table.filter fun row => row.pair ≠ pair
  | insert row => table ++ [row]

/-- The statements for a batch; `existing` are the pairs that have a row. -/
def deviceListStatements (existing : List (Str × Str)) (rows : List PersistentDeviceListChange) :
    List DeviceListStatement :=
  rows.flatMap fun row => (if row.pair ∈ existing then [.delete row.pair] else []) ++ [.insert row]

/-! ### The store -/

/-- The fields of `PersistentStore` for device lists, and the table of the backend. -/
structure DeviceListStore where
  nextSyncStreamId : ℕ := 0
  deviceListChanges : List PersistentDeviceListChange := []
  table : List PersistentDeviceListChange := []
deriving DecidableEq, Repr

/-- The last change of each pair of a batch. -/
def lastOfEachPair (changes : List PersistentDeviceListChange) : List PersistentDeviceListChange :=
  (firstBy pair [] changes.reverse).reverse

/-- The rows of a batch, at the next position. -/
def batchRows (streamId : ℕ) (changes : List PersistentDeviceListChange) :
    List PersistentDeviceListChange :=
  (lastOfEachPair changes).map (stamp streamId)

/-- `record_device_list_changes`; `commits` says whether the backend commits.  It returns nothing
where it throws. -/
def recordDeviceListChanges (commits : Bool) (changes : List PersistentDeviceListChange)
    (store : DeviceListStore) : Option Bool × DeviceListStore :=
  if changes = [] then (some true, store)
  else if !changes.all recordable then (some false, store)
  else
    let batchPairs := (lastOfEachPair changes).map pair
    let existingPairs := (store.deviceListChanges.map pair).filter (· ∈ batchPairs)
    match allocateSyncStreamId store.nextSyncStreamId with
    | none => (none, store)
    | some streamId =>
      let rows := batchRows streamId changes
      if !commits then (some false, { store with nextSyncStreamId := streamId })
      else
        (some true,
          { nextSyncStreamId := streamId
            deviceListChanges :=
              (store.deviceListChanges.filter fun row => row.pair ∉ batchPairs) ++ rows
            table := (deviceListStatements existingPairs rows).foldl DeviceListStatement.execute
              store.table })

/-! ### A batch -/

section Batch

variable {changes rows table : List PersistentDeviceListChange}

lemma nodup_lastOfEachPair (changes : List PersistentDeviceListChange) :
    ((lastOfEachPair changes).map pair).Nodup := by
  rw [lastOfEachPair, map_reverse, nodup_reverse]
  exact nodup_firstBy [] changes.reverse

lemma map_pair_batchRows (streamId : ℕ) (changes : List PersistentDeviceListChange) :
    (batchRows streamId changes).map pair = (lastOfEachPair changes).map pair := by
  rw [batchRows, map_map]
  rfl

lemma foldl_execute {existing : List (Str × Str)} (hrows : (rows.map pair).Nodup)
    (hexisting : ∀ row ∈ table, row.pair ∈ rows.map pair → row.pair ∈ existing) :
    (deviceListStatements existing rows).foldl DeviceListStatement.execute table =
      (table.filter fun row => row.pair ∉ rows.map pair) ++ rows := by
  induction rows generalizing table with
  | nil => simp [deviceListStatements]
  | cons row rows ih =>
    obtain ⟨hfresh, hrest⟩ := nodup_cons.mp hrows
    -- a row whose pair has none yet is inserted without a deletion
    have hdeleted : (if row.pair ∈ existing then [DeviceListStatement.delete row.pair] else
        []).foldl DeviceListStatement.execute table =
          table.filter fun other => other.pair ≠ row.pair := by
      split_ifs with hmem
      · rfl
      · have hnone : ∀ other ∈ table, other.pair ≠ row.pair := fun other hother heq =>
          hmem (heq ▸ hexisting other hother (heq ▸ mem_cons_self))
        exact (filter_eq_self.mpr fun other hother => by simpa using hnone other hother).symm
    have hsplit : deviceListStatements existing (row :: rows) =
        ((if row.pair ∈ existing then [.delete row.pair] else []) ++ [.insert row]) ++
          deviceListStatements existing rows := flatMap_cons
    rw [hsplit, foldl_append, foldl_append, hdeleted]
    show (deviceListStatements existing rows).foldl DeviceListStatement.execute
      ((table.filter fun other => other.pair ≠ row.pair) ++ [row]) = _
    rw [ih hrest]
    · rw [filter_append, filter_filter, append_assoc]
      congr 1
      · refine filter_congr fun other _ => ?_
        simp only [map_cons, mem_cons, not_or, Bool.decide_and]
        exact Bool.and_comm _ _
      · rw [filter_cons_of_pos (by simpa using hfresh)]
        rfl
    · intro other hother hpair
      rcases mem_append.mp hother with hother | hother
      · exact hexisting other (mem_filter.mp hother).1 (mem_cons_of_mem _ hpair)
      · rw [mem_singleton.mp hother] at hpair
        exact absurd hpair hfresh

end Batch

/-! ### What a call does -/

namespace DeviceListStore

variable {store store' : DeviceListStore} {recorded changes : List PersistentDeviceListChange}
  {commits : Bool} {result : Option Bool}

lemma recordDeviceListChanges_cases
    (h : recordDeviceListChanges commits changes store = (result, store')) :
    (store' = store ∧ (result = some true → changes = [])) ∨
    (result = some false ∧
      store' = { store with nextSyncStreamId := store.nextSyncStreamId + 1 }) ∨
    (result = some true ∧ (∀ change ∈ changes, change.recordable = true) ∧
      store'.nextSyncStreamId = store.nextSyncStreamId + 1 ∧
      store'.deviceListChanges = (store.deviceListChanges.filter fun row =>
        row.pair ∉ (lastOfEachPair changes).map pair) ++
          batchRows (store.nextSyncStreamId + 1) changes ∧
      store'.table = (deviceListStatements ((store.deviceListChanges.map pair).filter
        (· ∈ (lastOfEachPair changes).map pair))
          (batchRows (store.nextSyncStreamId + 1) changes)).foldl DeviceListStatement.execute
            store.table) := by
  have hunchanged : ∀ {outcome : Option Bool}, outcome ≠ some true →
      (outcome, store) = (result, store') → store' = store ∧ (result = some true → changes = []) := by
    intro outcome houtcome heq
    cases heq
    exact ⟨rfl, fun hok => absurd hok houtcome⟩
  unfold recordDeviceListChanges at h
  by_cases hempty : changes = []
  · rw [if_pos hempty] at h
    cases h
    exact .inl ⟨rfl, fun _ => hempty⟩
  rw [if_neg hempty] at h
  by_cases hvalid : changes.all recordable = true
  · rw [hvalid, Bool.not_true] at h
    by_cases hceiling : maxSyncStreamId ≤ store.nextSyncStreamId
    · simp only [allocateSyncStreamId, if_pos hceiling] at h
      exact .inl (hunchanged (by simp) h)
    simp only [allocateSyncStreamId, if_neg hceiling] at h
    cases commits with
    | false =>
      cases h
      exact .inr (.inl ⟨rfl, rfl⟩)
    | true =>
      cases h
      exact .inr (.inr ⟨rfl, all_eq_true.mp hvalid, rfl, rfl, rfl⟩)
  · rw [Bool.not_eq_true] at hvalid
    rw [hvalid, Bool.not_false] at h
    exact .inl (hunchanged (by simp) h)

/-- The store after the changes that were recorded, newest first: for each pair one row, the
latest, in memory and in the table. -/
structure Recorded (recorded : List PersistentDeviceListChange) (store : DeviceListStore) :
    Prop where
  nodup : (store.deviceListChanges.map pair).Nodup
  latest : ∀ p, lookupBy pair store.deviceListChanges p = lookupBy pair recorded p
  table : store.table = store.deviceListChanges
  streamId : ∀ change ∈ recorded, change.streamId ≤ store.nextSyncStreamId
  changeType : ∀ change ∈ recorded, change.changeType = lit "changed" ∨ change.changeType = lit "left"

/-- The changes that are recorded after a call. -/
def recordedAfter (result : Option Bool) (store' : DeviceListStore)
    (changes recorded : List PersistentDeviceListChange) : List PersistentDeviceListChange :=
  if result = some true then batchRows store'.nextSyncStreamId changes ++ recorded else recorded

lemma Recorded.empty : Recorded [] {} where
  nodup := nodup_nil
  latest _ := rfl
  table := rfl
  streamId _ h := absurd h not_mem_nil
  changeType _ h := absurd h not_mem_nil

lemma Recorded.skip (h : Recorded recorded store) :
    Recorded recorded { store with nextSyncStreamId := store.nextSyncStreamId + 1 } where
  nodup := h.nodup
  latest := h.latest
  table := h.table
  streamId change hchange := Nat.le_succ_of_le (h.streamId change hchange)
  changeType := h.changeType

lemma Recorded.record (h : Recorded recorded store)
    (hcall : recordDeviceListChanges commits changes store = (result, store')) :
    Recorded (recordedAfter result store' changes recorded) store' := by
  rcases recordDeviceListChanges_cases hcall with ⟨rfl, hempty⟩ | ⟨rfl, rfl⟩ |
    ⟨rfl, hvalid, hnext, hrows, htable⟩
  · by_cases hok : result = some true
    · rw [recordedAfter, if_pos hok, hempty hok]
      exact h
    · rw [recordedAfter, if_neg hok]
      exact h
  · exact h.skip
  · rw [recordedAfter, if_pos rfl, hnext]
    have hbatch : ((batchRows (store.nextSyncStreamId + 1) changes).map pair).Nodup := by
      rw [map_pair_batchRows]
      exact nodup_lastOfEachPair changes
    constructor
    · rw [hrows, map_append]
      refine nodup_append'.mpr ⟨h.nodup.sublist (filter_sublist.map _), hbatch,
        fun p hp hp' => ?_⟩
      obtain ⟨row, hrow, rfl⟩ := mem_map.mp hp
      rw [map_pair_batchRows] at hp'
      exact of_decide_eq_true (mem_filter.mp hrow).2 hp'
    · intro p
      rw [hrows, lookupBy_replaced h.nodup fun row => by simp [map_pair_batchRows],
        lookupBy_append, h.latest p]
    · rw [htable, hrows, h.table, ← map_pair_batchRows (store.nextSyncStreamId + 1)]
      refine foldl_execute hbatch fun row hrow hpair => ?_
      exact mem_filter.mpr ⟨mem_map_of_mem hrow, decide_eq_true hpair⟩
    · intro change hchange
      rcases mem_append.mp hchange with hchange | hchange
      · obtain ⟨original, -, rfl⟩ := mem_map.mp hchange
        exact hnext.ge
      · exact (h.streamId change hchange).trans (hnext ▸ Nat.le_succ _)
    · intro change hchange
      rcases mem_append.mp hchange with hchange | hchange
      · obtain ⟨original, horiginal, rfl⟩ := mem_map.mp hchange
        have hrecordable := hvalid original
          (mem_reverse.mp (mem_of_mem_firstBy (mem_reverse.mp horiginal)).1)
        simp only [recordable, Bool.and_eq_true, Bool.or_eq_true, decide_eq_true_eq] at hrecordable
        exact hrecordable.2
      · exact h.changeType change hchange

end DeviceListStore

end Merovingian
