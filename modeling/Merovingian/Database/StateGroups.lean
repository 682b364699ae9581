import Merovingian.Lib.Bytes
import Merovingian.Lib.Keyed

/-!
# State groups

The model of the state-group part of `database/PersistentStore.cpp` over the tables
`StateGroupTable` and `StateGroupEntryTable`: a group is a snapshot of a room's state or a
delta over a parent group, and is read back through the chain of its parents, newest entry
first.

A new group is written as a delta only when its parent holds no key that the requested state
lacks and the depth bound leaves room; else it is a snapshot, or the parent itself is reused.
-/

namespace Merovingian

open List Function

/-! ### Tables -/

structure PersistentStateGroup where
  stateGroupId : Str
  roomId : Str
  parentStateGroupId : Option Str
  deltaDepth : ℕ
deriving DecidableEq, Repr

/-- `PersistentStateGroupStateEntry`. -/
structure StateGroupEntry where
  stateGroupId : Str
  eventType : Str
  stateKey : Str
  eventId : Str
deriving DecidableEq, Repr

/-- `StateGroupTable`: the rows and the hash index from an id to its row. -/
structure StateGroupTable where
  rows : List PersistentStateGroup
  byId : Str → Option ℕ
  byId_eq : ∀ id, byId id = rows.findIdx? fun row => row.stateGroupId = id

namespace StateGroupTable

/-- The table without rows. -/
def empty : StateGroupTable := ⟨[], fun _ => none, fun _ => findIdx?_nil.symm⟩

def find (table : StateGroupTable) (id : Str) : Option PersistentStateGroup :=
  (table.byId id).bind fun position => table.rows[position]?

/-- `StateGroupTable::insert`: a row whose id is held is not added. -/
def insert (table : StateGroupTable) (group : PersistentStateGroup) : StateGroupTable :=
  if h : table.byId group.stateGroupId = none then
    { rows := table.rows ++ [group]
      byId := Function.update table.byId group.stateGroupId (some table.rows.length)
      byId_eq := by
        intro id
        rw [table.byId_eq] at h
        rw [findIdx?_append]
        by_cases hid : id = group.stateGroupId
        · subst hid
          rw [update_self, h]
          simp
        · rw [update_of_ne hid, table.byId_eq]
          simp [Ne.symm hid] }
  else table

lemma find_eq (table : StateGroupTable) (id : Str) :
    table.find id = table.rows.find? fun row => row.stateGroupId = id := by
  rw [find, table.byId_eq, find?_eq_bind_findIdx?_getElem?]

variable {table : StateGroupTable} {group : PersistentStateGroup}

lemma stateGroupId_of_find {id : Str}
    (h : table.find id = some group) : group.stateGroupId = id := by
  rw [find_eq] at h
  simpa using find?_some h

lemma find_eq_none {id : Str} :
    table.find id = none ↔ table.byId id = none := by
  rw [find_eq, table.byId_eq]
  simp

lemma find_insert (h : table.find group.stateGroupId = none) (id : Str) :
    (table.insert group).find id =
      if id = group.stateGroupId then some group else table.find id := by
  have hrows : (table.insert group).rows = table.rows ++ [group] := by
    rw [insert, dif_pos (find_eq_none.mp h)]
  rw [find_eq, hrows, find?_append]
  by_cases hid : id = group.stateGroupId
  · subst hid
    rw [← find_eq, h]
    simp
  · rw [if_neg hid, ← find_eq]
    simp [Ne.symm hid]

end StateGroupTable

/-- `StateGroupEntryTable`: the rows and the hash index from a group to its positions. -/
structure StateGroupEntryTable where
  rows : List StateGroupEntry
  byGroup : Str → List ℕ
  byGroup_lt : ∀ id, ∀ position ∈ byGroup id, position < rows.length
  byGroup_eq : ∀ id, ((byGroup id).filterMap fun position => rows[position]?) =
    rows.filter fun row => row.stateGroupId = id

variable (entries : List StateGroupEntry)

namespace StateGroupEntryTable

/-- The table without rows. -/
def empty : StateGroupEntryTable := ⟨[], fun _ => [], by simp, fun _ => rfl⟩

def entriesOf (table : StateGroupEntryTable) (id : Str) : List StateGroupEntry :=
  (table.byGroup id).filterMap fun position => table.rows[position]?

def insert (table : StateGroupEntryTable) (entry : StateGroupEntry) : StateGroupEntryTable where
  rows := table.rows ++ [entry]
  byGroup := Function.update table.byGroup entry.stateGroupId
    (table.byGroup entry.stateGroupId ++ [table.rows.length])
  byGroup_lt := by
    intro id position hposition
    rw [length_append, length_singleton]
    by_cases hid : id = entry.stateGroupId
    · subst hid
      rw [update_self, mem_append, mem_singleton] at hposition
      rcases hposition with h | rfl
      · have := table.byGroup_lt _ position h
        omega
      · omega
    · rw [update_of_ne hid] at hposition
      have := table.byGroup_lt _ position hposition
      omega
  byGroup_eq := by
    intro id
    have hold : ((table.byGroup id).filterMap fun position =>
        (table.rows ++ [entry])[position]?) = table.rows.filter fun row => row.stateGroupId = id := by
      rw [← table.byGroup_eq id]
      refine filterMap_congr fun position hposition => ?_
      exact getElem?_append_left (table.byGroup_lt id position hposition)
    by_cases hid : id = entry.stateGroupId
    · subst hid
      rw [update_self, filterMap_append, hold]
      simp
    · rw [update_of_ne hid, hold]
      simp [Ne.symm hid]

def insertAll (table : StateGroupEntryTable) (entries : List StateGroupEntry) :
    StateGroupEntryTable :=
  entries.foldl insert table

variable (table : StateGroupEntryTable)

lemma entriesOf_eq (id : Str) :
    table.entriesOf id = table.rows.filter fun row => row.stateGroupId = id :=
  table.byGroup_eq id

lemma rows_insertAll :
    (table.insertAll entries).rows = table.rows ++ entries := by
  induction entries generalizing table with
  | nil => simp [insertAll]
  | cons entry entries ih =>
    have hstep : table.insertAll (entry :: entries) = (table.insert entry).insertAll entries := rfl
    rw [hstep, ih]
    simp [insert]

end StateGroupEntryTable

/-- The part of `PersistentStore` that holds state groups. -/
structure StateGroupStore where
  stateGroups : StateGroupTable
  stateGroupState : StateGroupEntryTable

/-- The empty store. -/
def StateGroupStore.empty : StateGroupStore := ⟨.empty, .empty⟩

/-! ### Reading a group -/

def maxStateGroupDeltaDepth : ℕ := 100

/-- `state_group_entry_key` of an entry: type and state key with a NUL between them. -/
def stateGroupEntryKey (entry : StateGroupEntry) : Str := entry.eventType ++ 0 :: entry.stateKey

/-- The first loop of `read_state_group_full_state`: the chain of a group, newest first.
`remaining` is what `max_state_group_delta_depth` leaves for further parents. -/
def readChain (store : StateGroupStore) : (remaining : ℕ) → (visited : List Str) →
    (current : Str) → Option (List PersistentStateGroup)
  | remaining, visited, current =>
    if current ∈ visited then none
    else match store.stateGroups.find current with
      | none => none
      | some group =>
        match group.parentStateGroupId, remaining with
        | none, _ => some [group]
        | some _, 0 => none
        | some parent, remaining + 1 =>
          (readChain store remaining (current :: visited) parent).map (group :: ·)

/-- The entries of a chain, in the order the second loop of `read_state_group_full_state`
visits them. -/
def chainEntries (store : StateGroupStore) (chain : List PersistentStateGroup) :
    List StateGroupEntry :=
  chain.flatMap fun group => store.stateGroupState.entriesOf group.stateGroupId

def readStateGroupFullState (store : StateGroupStore) (stateGroupId : Str) :
    Option (List StateGroupEntry) :=
  (readChain store maxStateGroupDeltaDepth [] stateGroupId).map fun chain =>
    firstBy stateGroupEntryKey [] (chainEntries store chain)

/-! ### Writing a group -/

/-- `to_state_group_map`, read at a key. -/
def toStateGroupMap (entries : List StateGroupEntry) (key : Str) : Option Str :=
  (lookupBy stateGroupEntryKey entries key).map StateGroupEntry.eventId

lemma toStateGroupMap_append (a b : List StateGroupEntry) (key : Str) :
    toStateGroupMap (a ++ b) key = (toStateGroupMap a key).or (toStateGroupMap b key) := by
  simp [toStateGroupMap, lookupBy_append, Option.map_or]

lemma toStateGroupMap_firstBy (key : Str) :
    toStateGroupMap (firstBy stateGroupEntryKey [] entries) key = toStateGroupMap entries key := by
  rw [toStateGroupMap, lookupBy_firstBy not_mem_nil, toStateGroupMap]

/-- Equality of the maps of two entry lists. -/
def sameStateGroupMap (a b : List StateGroupEntry) : Bool :=
  (a ++ b).all fun entry =>
    toStateGroupMap a (stateGroupEntryKey entry) = toStateGroupMap b (stateGroupEntryKey entry)

/-- `PreparedStateGroup`, without its statements. -/
structure PreparedStateGroup where
  stateGroupId : Str
  group : Option PersistentStateGroup
  rows : List StateGroupEntry

/-- The rows of a delta: what the parent does not hold. -/
def deltaRows (parentFull fullState : List StateGroupEntry) : List StateGroupEntry :=
  fullState.filter fun entry =>
    toStateGroupMap parentFull (stateGroupEntryKey entry) ≠ some entry.eventId

/-- An entry as a row of a group. -/
def StateGroupEntry.inGroup (stateGroupId : Str) (entry : StateGroupEntry) : StateGroupEntry :=
  { entry with stateGroupId := stateGroupId }

/-- A new group over a parent it is a delta of, or a snapshot. -/
def newStateGroup (roomId newStateGroupId : Str) (parent : Option (Str × ℕ))
    (rows : List StateGroupEntry) : PreparedStateGroup where
  stateGroupId := newStateGroupId
  group := some
    { stateGroupId := newStateGroupId
      roomId := roomId
      parentStateGroupId := parent.map Prod.fst
      deltaDepth := (parent.map fun p => p.2 + 1).getD 0 }
  rows := rows.map (.inGroup newStateGroupId)

def prepareStateGroup (store : StateGroupStore) (roomId newStateGroupId : Str)
    (parentStateGroupId : Option Str) (fullState : List StateGroupEntry) :
    Option PreparedStateGroup :=
  match parentStateGroupId with
  | none => some (newStateGroup roomId newStateGroupId none fullState)
  | some parent =>
    match store.stateGroups.find parent, readStateGroupFullState store parent with
    | some parentGroup, some parentFull =>
      if sameStateGroupMap fullState parentFull then some ⟨parent, none, []⟩
      else if maxStateGroupDeltaDepth < parentGroup.deltaDepth + 1 ∨
          -- deltas never encode deletions
          ¬ parentFull.all fun entry =>
            (toStateGroupMap fullState (stateGroupEntryKey entry)).isSome then
        some (newStateGroup roomId newStateGroupId none fullState)
      else
        some (newStateGroup roomId newStateGroupId (some (parent, parentGroup.deltaDepth))
          (deltaRows parentFull fullState))
    | _, _ => none

def applyStateGroup (store : StateGroupStore) (prepared : PreparedStateGroup) : StateGroupStore :=
  match prepared.group with
  | none => store
  | some group =>
    ⟨store.stateGroups.insert group, store.stateGroupState.insertAll prepared.rows⟩

/-- A call of `create_or_reuse_state_group`, with the backend's answer to its transaction. -/
structure StateGroupCall where
  roomId : Str
  newStateGroupId : Str
  parentStateGroupId : Option Str
  fullState : List StateGroupEntry
  committed : Bool

/-- `create_or_reuse_state_group`: the group that holds the state, and the store.  A reused
parent writes nothing, so its transaction cannot fail. -/
def createOrReuseStateGroup (store : StateGroupStore) (call : StateGroupCall) :
    Option (Str × StateGroupStore) :=
  match prepareStateGroup store call.roomId call.newStateGroupId call.parentStateGroupId
      call.fullState with
  | none => none
  | some prepared =>
    if prepared.group.isSome && !call.committed then none
    else some (prepared.stateGroupId, applyStateGroup store prepared)

end Merovingian
