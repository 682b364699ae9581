import Merovingian.Lib.Bytes
import Merovingian.Lib.Positions

/-!
# The current-state table

The model of the rows `store.state` of `database/PersistentStore.cpp` with the two indexes over
them: `state_position_index`, from room, type and state key to a row, and `state_room_index`, from
a room to its rows.  The indexes are trusted while `state_indexed_rows` is the number of rows;
otherwise readers scan.

`StateTable` carries what every write keeps: a slot (room, type, state key) has one row, and
indexes that are in step are right.  So both readers return what a scan does
(`forEachRoomStateRow_eq`, `findCurrentStateEventId_eq`).  A write changes the state of one slot
(`currentState_assign`); only a reload of a room removes rows (`currentState_applyRoomSnapshot`).
The rows of `store.memberships` have a room index of the same kind.
-/

namespace Merovingian

/-- `PersistentStateEvent`: a row of the current state. -/
structure PersistentStateEvent where
  roomId : Str
  eventType : Str
  stateKey : Str
  eventId : Str
deriving DecidableEq, Repr

namespace PersistentStateEvent

/-- What `state_row_is` compares: room, type and state key. -/
def slot (row : PersistentStateEvent) : Str × Str × Str := (row.roomId, row.eventType, row.stateKey)

/-- `existing->event_id = state.event_id`. -/
def withEventId (eventId : Str) (row : PersistentStateEvent) : PersistentStateEvent :=
  { row with eventId := eventId }

@[simp] lemma slot_withEventId (eventId : Str) (row : PersistentStateEvent) :
    (row.withEventId eventId).slot = row.slot := rfl

lemma withEventId_of_slot_eq {row state : PersistentStateEvent} (h : row.slot = state.slot) :
    row.withEventId state.eventId = state := by
  obtain ⟨_, _, _, _⟩ := state
  obtain ⟨rfl, rfl, rfl⟩ := h
  rfl

end PersistentStateEvent

open PersistentStateEvent List Option

/-- `state_position_key`: the parts of a slot with a NUL between them. -/
def statePositionKey (slot : Str × Str × Str) : Str := slot.1 ++ 0 :: (slot.2.1 ++ 0 :: slot.2.2)

/-- The rows of `store.state` with their indexes. -/
structure StateTable where
  rows : List PersistentStateEvent
  positionIndex : Str → Option ℕ
  roomIndex : Str → List ℕ
  indexedRows : ℕ
  slots_nodup : (rows.map slot).Nodup
  indexedRows_le : indexedRows ≤ rows.length
  positionIndex_eq : indexedRows = rows.length →
    ∀ key, positionIndex key = (rows.map slot).findIdx? fun slot => statePositionKey slot = key
  roomIndex_eq : indexedRows = rows.length →
    ∀ roomId, roomIndex roomId = positions (fun slot => slot.1 = roomId) (rows.map slot)

namespace StateTable

/-- The table without rows. -/
def empty : StateTable where
  rows := []
  positionIndex _ := none
  roomIndex _ := []
  indexedRows := 0
  slots_nodup := nodup_nil
  indexedRows_le := le_refl 0
  positionIndex_eq _ _ := rfl
  roomIndex_eq _ _ := rfl

/-! ### Reading -/

/-- `for_each_room_state_row`: the rows it visits. -/
def forEachRoomStateRow (table : StateTable) (roomId : Str) : List PersistentStateEvent :=
  if table.indexedRows = table.rows.length ∧
      (table.roomIndex roomId).all fun position =>
        (table.rows[position]?).any fun row => row.roomId = roomId then
    (table.roomIndex roomId).filterMap fun position => table.rows[position]?
  else table.rows.filter fun row => row.roomId = roomId

/-- The pass over all rows at the end of `find_current_state_event_id`. -/
def scanFor (table : StateTable) (slot : Str × Str × Str) : Option Str :=
  (lookupBy PersistentStateEvent.slot table.rows slot).map PersistentStateEvent.eventId

def findCurrentStateEventId (table : StateTable) (slot : Str × Str × Str) : Option Str :=
  if table.indexedRows = table.rows.length then
    match table.positionIndex (statePositionKey slot) with
    | none => none
    | some position =>
      match table.rows[position]? with
      | none => table.scanFor slot
      | some row => if row.slot = slot then some row.eventId else table.scanFor slot
  else table.scanFor slot

variable (table : StateTable) (state : PersistentStateEvent)

/-- The rows of a room, by a scan. -/
theorem forEachRoomStateRow_eq (roomId : Str) :
    table.forEachRoomStateRow roomId = table.rows.filter fun row => row.roomId = roomId := by
  rw [forEachRoomStateRow]
  split
  · next h =>
    rw [table.roomIndex_eq h.1, positions_map]
    exact filterMap_positions _ table.rows
  · rfl

/-- The row of a slot, by a scan.  Two slots may have one joined key when an id holds a NUL; the
row that the index leads to is compared with the slot, so this costs a scan and no more. -/
theorem findCurrentStateEventId_eq (slot : Str × Str × Str) :
    table.findCurrentStateEventId slot = table.scanFor slot := by
  rw [findCurrentStateEventId]
  split
  · next hstep =>
    rw [table.positionIndex_eq hstep, findIdx?_map]
    cases hfind : table.rows.findIdx? _ with
    | none =>
      have hnone : lookupBy PersistentStateEvent.slot table.rows slot = none := by
        refine lookupBy_eq_none.mpr fun row hrow heq => ?_
        have := findIdx?_eq_none_iff.mp hfind row hrow
        simp [heq] at this
      simp [scanFor, hnone]
    | some position =>
      cases hrow : table.rows[position]? with
      | none => simp only [hrow]
      | some row =>
        simp only [hrow]
        split
        · next heq =>
          have hread := lookupBy_of_mem table.slots_nodup (mem_of_getElem? hrow)
          rw [scanFor, ← heq, hread]
          rfl
        · rfl
  · rfl

/-- The current state of a room as a map from type and state key to event id. -/
def currentState (table : StateTable) (roomId : Str) (slot : Str × Str) : Option Str :=
  table.scanFor (roomId, slot)

lemma currentState_eq_some {table : StateTable} {roomId eventId : Str} {slot : Str × Str} :
    table.currentState roomId slot = some eventId ↔
      ⟨roomId, slot.1, slot.2, eventId⟩ ∈ table.rows := by
  rw [currentState, scanFor, map_eq_some_iff]
  constructor
  · rintro ⟨row, hrow, rfl⟩
    have hkey := key_of_lookupBy hrow
    obtain ⟨rfl, rfl⟩ := hkey
    exact mem_of_lookupBy hrow
  · intro hrow
    exact ⟨_, lookupBy_of_mem table.slots_nodup hrow, rfl⟩

/-! ### Writing -/

/-- `store.state.push_back` and `note_state_row_appended`: an index that was in step stays in
step, one that was not stays out of step. -/
def append (table : StateTable) (state : PersistentStateEvent)
    (hnew : ∀ row ∈ table.rows, row.slot ≠ state.slot) : StateTable where
  rows := table.rows ++ [state]
  positionIndex :=
    if table.indexedRows = table.rows.length then
      -- `emplace` keeps a held key
      Function.update table.positionIndex (statePositionKey state.slot)
        ((table.positionIndex (statePositionKey state.slot)).or (some table.rows.length))
    else table.positionIndex
  roomIndex :=
    if table.indexedRows = table.rows.length then
      Function.update table.roomIndex state.roomId
        (table.roomIndex state.roomId ++ [table.rows.length])
    else table.roomIndex
  indexedRows :=
    if table.indexedRows = table.rows.length then table.rows.length + 1 else table.indexedRows
  slots_nodup := by
    rw [map_append, map_singleton, nodup_append]
    refine ⟨table.slots_nodup, nodup_singleton _, ?_⟩
    rintro slot hslot other hother rfl
    obtain ⟨row, hrow, rfl⟩ := mem_map.mp hslot
    exact hnew row hrow (mem_singleton.mp hother)
  indexedRows_le := by
    have := table.indexedRows_le
    rw [length_append, length_singleton]
    split <;> omega
  positionIndex_eq := by
    have hle := table.indexedRows_le
    intro hlen key
    rw [length_append, length_singleton] at hlen
    by_cases hstep : table.indexedRows = table.rows.length
    · rw [if_pos hstep, map_append, map_singleton, findIdx?_append,
        ← table.positionIndex_eq hstep key]
      by_cases hkey : key = statePositionKey state.slot
      · subst hkey
        simp
      · simp [Function.update_of_ne hkey, Ne.symm hkey]
    · rw [if_neg hstep] at hlen
      omega
  roomIndex_eq := by
    have hle := table.indexedRows_le
    intro hlen roomId
    rw [length_append, length_singleton] at hlen
    by_cases hstep : table.indexedRows = table.rows.length
    · rw [if_pos hstep, map_append, map_singleton, positions_concat,
        ← table.roomIndex_eq hstep roomId, length_map]
      by_cases hroom : roomId = state.roomId
      · subst hroom
        simp [slot]
      · simp [slot, Function.update_of_ne hroom, Ne.symm hroom]
    · rw [if_neg hstep] at hlen
      omega

/-- `existing->event_id = state.event_id` for the row at a position. -/
def replace (table : StateTable) (position : ℕ) (eventId : Str) : StateTable where
  rows := table.rows.modify position (withEventId eventId)
  positionIndex := table.positionIndex
  roomIndex := table.roomIndex
  indexedRows := table.indexedRows
  slots_nodup := by
    rw [map_modify_of_key (slot_withEventId eventId)]
    exact table.slots_nodup
  indexedRows_le := by
    rw [length_modify]
    exact table.indexedRows_le
  positionIndex_eq := by
    rw [length_modify, map_modify_of_key (slot_withEventId eventId)]
    exact table.positionIndex_eq
  roomIndex_eq := by
    rw [length_modify, map_modify_of_key (slot_withEventId eventId)]
    exact table.roomIndex_eq

/-- The write of `apply_current_state` and `apply_store_event_with_state`: the first row of the
slot gets the event, or a row is appended. -/
def assign (table : StateTable) (state : PersistentStateEvent) : StateTable :=
  match h : table.rows.findIdx? fun row => row.slot = state.slot with
  | some position => table.replace position state.eventId
  | none => table.append state fun row hrow => by
      simpa using findIdx?_eq_none_iff.mp h row hrow

lemma lookupBy_assign (slot : Str × Str × Str) :
    lookupBy PersistentStateEvent.slot (table.assign state).rows slot =
      if slot = state.slot then some state else lookupBy PersistentStateEvent.slot table.rows slot := by
  unfold assign
  split
  · next position h =>
    rw [replace, lookupBy_modify (slot_withEventId state.eventId) h]
    split
    · obtain ⟨row, hrow⟩ : ∃ row, lookupBy PersistentStateEvent.slot table.rows state.slot =
          some row := by
        refine ne_none_iff_exists'.mp fun hnone => ?_
        have hidx := findIdx?_eq_none_iff.mpr fun row hrow =>
          decide_eq_false (lookupBy_eq_none.mp hnone row hrow)
        rw [h] at hidx
        exact absurd hidx (some_ne_none _)
      rw [hrow, map_some, withEventId_of_slot_eq (key_of_lookupBy hrow)]
    · rfl
  · next h =>
    have hnone : lookupBy PersistentStateEvent.slot table.rows state.slot = none := by
      refine lookupBy_eq_none.mpr fun row hrow => ?_
      simpa using findIdx?_eq_none_iff.mp h row hrow
    rw [append, lookupBy_append, lookupBy_cons]
    by_cases hslot : slot = state.slot
    · simp [hslot, hnone]
    · simp [hslot, Ne.symm hslot]

/-- A write changes the state of its slot, in its room. -/
theorem currentState_assign (roomId : Str)
    (slot : Str × Str) : (table.assign state).currentState roomId slot =
      if (roomId, slot) = state.slot then some state.eventId
      else table.currentState roomId slot := by
  rw [currentState, scanFor, lookupBy_assign]
  split <;> rfl

/-- `store.state.push_back` of a loader: the indexes are left behind, and out of step. -/
def pushBack (table : StateTable) (state : PersistentStateEvent)
    (hnew : ∀ row ∈ table.rows, row.slot ≠ state.slot) : StateTable :=
  { table with
    rows := table.rows ++ [state]
    slots_nodup := (table.append state hnew).slots_nodup
    indexedRows_le := by
      have := table.indexedRows_le
      rw [length_append]
      omega
    positionIndex_eq := fun hlen => by
      have := table.indexedRows_le
      rw [length_append, length_singleton] at hlen
      omega
    roomIndex_eq := fun hlen => by
      have := table.indexedRows_le
      rw [length_append, length_singleton] at hlen
      omega }

/-- `rebuild_state_index` over the rows. -/
def rebuildStateIndex (rows : List PersistentStateEvent) (slots_nodup : (rows.map slot).Nodup) :
    StateTable where
  rows := rows
  positionIndex key := (rows.map slot).findIdx? fun slot => statePositionKey slot = key
  roomIndex roomId := positions (fun slot => slot.1 = roomId) (rows.map slot)
  indexedRows := rows.length
  slots_nodup := slots_nodup
  indexedRows_le := le_rfl
  positionIndex_eq _ _ := rfl
  roomIndex_eq _ _ := rfl

/-- A row that was only pushed is found by a scan, until the indexes are rebuilt. -/
example : let pushed := empty.pushBack ⟨"!r", "m.room.topic", [], "$t"⟩ (by simp [empty])
    pushed.positionIndex (statePositionKey ("!r", "m.room.topic", [])) = none ∧
      pushed.findCurrentStateEventId ("!r", "m.room.topic", []) = some "$t" ∧
      (rebuildStateIndex pushed.rows pushed.slots_nodup).positionIndex
        (statePositionKey ("!r", "m.room.topic", [])) = some 0 := by
  decide

/-- The part of `apply_room_snapshot` that is about the state: the rows of the room are erased,
those of the snapshot are pushed, and the indexes rebuilt.  The snapshot of a room that is gone has
no rows. -/
def applyRoomSnapshot (table : StateTable) (roomId : Str) (snapshot : List PersistentStateEvent)
    (hroom : ∀ row ∈ snapshot, row.roomId = roomId) (hnodup : (snapshot.map slot).Nodup) :
    StateTable :=
  rebuildStateIndex ((table.rows.filter fun row => row.roomId ≠ roomId) ++ snapshot) (by
    rw [map_append, nodup_append]
    refine ⟨table.slots_nodup.sublist (filter_sublist.map _), hnodup, ?_⟩
    rintro _ hkept _ hadded rfl
    obtain ⟨old, hold, rfl⟩ := mem_map.mp hkept
    obtain ⟨new, hnew, heq⟩ := mem_map.mp hadded
    have hother := of_decide_eq_true (mem_filter.mp hold).2
    exact hother ((congrArg Prod.fst heq).symm.trans (hroom new hnew)))

/-- A reload replaces the state of its room. -/
theorem currentState_applyRoomSnapshot {roomId other : Str} {slot : Str × Str}
    {snapshot : List PersistentStateEvent} (hroom : ∀ row ∈ snapshot, row.roomId = roomId)
    (hnodup : (snapshot.map PersistentStateEvent.slot).Nodup) :
    (table.applyRoomSnapshot roomId snapshot hroom hnodup).currentState other slot =
      if other = roomId then (lookupBy PersistentStateEvent.slot snapshot (roomId, slot)).map
        PersistentStateEvent.eventId
      else table.currentState other slot := by
  ext eventId
  rw [currentState_eq_some, applyRoomSnapshot, rebuildStateIndex, mem_append, mem_filter]
  split
  · next heq =>
    subst heq
    rw [map_eq_some_iff]
    constructor
    · rintro (⟨-, hne⟩ | hrow)
      · exact absurd rfl (of_decide_eq_true hne)
      · exact ⟨_, lookupBy_of_mem hnodup hrow, rfl⟩
    · rintro ⟨row, hrow, rfl⟩
      obtain ⟨rfl, rfl⟩ := key_of_lookupBy hrow
      exact .inr (mem_of_lookupBy hrow)
  · next hne =>
    rw [currentState_eq_some]
    exact ⟨fun h => h.elim And.left fun hrow => absurd (hroom _ hrow) hne,
      fun hrow => .inl ⟨hrow, decide_eq_true hne⟩⟩

end StateTable

/-! ### The memberships of a room -/

structure PersistentMembership where
  roomId : Str
  userId : Str
  membership : Str := "join"
  streamOrdering : ℕ := 0
deriving DecidableEq, Repr

/-- The rows of `store.memberships` with `membership_room_index`. -/
structure MembershipTable where
  rows : List PersistentMembership
  roomIndex : Str → List ℕ
  indexedRows : ℕ
  indexedRows_le : indexedRows ≤ rows.length
  roomIndex_eq : indexedRows = rows.length →
    ∀ roomId, roomIndex roomId = positions (fun row => row.roomId = roomId) rows

namespace MembershipTable

/-- `for_each_room_membership_row`: the rows it visits. -/
def forEachRoomMembershipRow (table : MembershipTable) (roomId : Str) :
    List PersistentMembership :=
  if table.indexedRows = table.rows.length ∧
      (table.roomIndex roomId).all fun position =>
        (table.rows[position]?).any fun row => row.roomId = roomId then
    (table.roomIndex roomId).filterMap fun position => table.rows[position]?
  else table.rows.filter fun row => row.roomId = roomId

/-- `rebuild_membership_index` over the rows. -/
def rebuildMembershipIndex (rows : List PersistentMembership) : MembershipTable where
  rows := rows
  roomIndex roomId := positions (fun row => row.roomId = roomId) rows
  indexedRows := rows.length
  indexedRows_le := le_rfl
  roomIndex_eq _ _ := rfl

/-- `store.memberships.push_back` and `note_membership_row_appended`. -/
def append (table : MembershipTable) (row : PersistentMembership) : MembershipTable where
  rows := table.rows ++ [row]
  roomIndex :=
    if table.indexedRows = table.rows.length then
      Function.update table.roomIndex row.roomId
        (table.roomIndex row.roomId ++ [table.rows.length])
    else table.roomIndex
  indexedRows :=
    if table.indexedRows = table.rows.length then table.rows.length + 1 else table.indexedRows
  indexedRows_le := by
    have := table.indexedRows_le
    rw [length_append, length_singleton]
    split <;> omega
  roomIndex_eq := by
    have hle := table.indexedRows_le
    intro hlen roomId
    rw [length_append, length_singleton] at hlen
    by_cases hstep : table.indexedRows = table.rows.length
    · rw [if_pos hstep, positions_concat, ← table.roomIndex_eq hstep roomId]
      by_cases hroom : roomId = row.roomId
      · subst hroom
        simp
      · simp [Function.update_of_ne hroom, Ne.symm hroom]
    · rw [if_neg hstep] at hlen
      omega

/-- The rows of a room, by a scan. -/
theorem forEachRoomMembershipRow_eq (table : MembershipTable) (roomId : Str) :
    table.forEachRoomMembershipRow roomId = table.rows.filter fun row => row.roomId = roomId := by
  rw [forEachRoomMembershipRow]
  split
  · next h =>
    rw [table.roomIndex_eq h.1]
    exact filterMap_positions _ table.rows
  · rfl

end MembershipTable

end Merovingian
