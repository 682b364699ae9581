import Merovingian.Database.EventTableIndexes

/-!
# The operations of the event table

Every operation keeps every index consistent with the rows.  The stream indexes of the rooms
are followed with an arbitrary order `tie` between rows with equal stream orderings: with `≠`
every operation keeps them, with `<` every operation but some modifications.
-/

namespace Merovingian

open EventTable List Function

namespace EventTable

variable {parseLossless : Str → Option Value} {roomId : Str}

/-! ### Consistent tables -/

/-- The ids of the rows are distinct, and the index finds them. -/
structure IdIndex (rows : List PersistentEvent) (byId : Str → Option ℕ) : Prop where
  nodup : (rows.map PersistentEvent.eventId).Nodup
  find : ∀ id p, byId id = some p ↔ RowAt rows (fun row => row.eventId = id) p

/-- Every room's stream index lists its rows by stream ordering, with `tie` between equal ones. -/
def RoomsOrdered (tie : ℕ → ℕ → Prop) (table : EventTable) : Prop :=
  ∀ roomId, IsIndex (StreamBefore tie table.rows) (RowAt table.rows fun row => row.roomId = roomId)
    (table.byRoomStream roomId)

/-- What every operation keeps. -/
structure Indexed (parseLossless : Str → Option Value) (table : EventTable) : Prop where
  ids : IdIndex table.rows table.byId
  stream : IsIndex (StreamBefore (· < ·) table.rows) (RowAt table.rows fun _ => True)
    table.streamOrder
  rooms : RoomsOrdered (· ≠ ·) table
  times : ∀ roomId, IsIndex TimeBefore (TimeRow table.rows roomId) (table.byRoomTime roomId)
  latest : ∀ roomId, table.roomLatestTs roomId = heldTs (latestOf table.rows roomId)
  relations : ∀ key, IsIndex (· ≠ ·)
    (RowAt table.rows fun row => relationKeyFor parseLossless row = some key)
    (table.relationChildren key)

lemma not_rowAt_nil {P : PersistentEvent → Prop} {p : ℕ} : ¬ RowAt [] P p := by
  rintro ⟨row, hrow, -⟩
  cases hrow

lemma roomsOrdered_empty (tie : ℕ → ℕ → Prop) : RoomsOrdered tie empty :=
  fun _ => .nil fun _ => not_rowAt_nil

lemma Indexed.empty : Indexed parseLossless empty where
  ids := ⟨nodup_nil, fun _ _ => ⟨fun h => absurd h (by simp [EventTable.empty]),
    fun h => absurd h not_rowAt_nil⟩⟩
  stream := .nil fun _ => not_rowAt_nil
  rooms := roomsOrdered_empty _
  times _ := .nil fun _ ⟨_, h⟩ => not_rowAt_nil h
  latest _ := by simp [EventTable.empty, latestOf, heldTs]
  relations _ := .nil fun _ => not_rowAt_nil

/-! ### Insertion -/

section Insert

variable {table : EventTable} {event : PersistentEvent} {rows : List PersistentEvent}
  {byId : Str → Option ℕ} {tie : ℕ → ℕ → Prop}

lemma IdIndex.concat (h : IdIndex rows byId) (hnew : byId event.eventId = none) :
    IdIndex (rows ++ [event]) (update byId event.eventId (some rows.length)) where
  nodup := by
    rw [map_append]
    refine h.nodup.append (nodup_singleton _) (disjoint_singleton.mpr fun hid => ?_)
    obtain ⟨row, hrow, hid⟩ := mem_map.mp hid
    obtain ⟨p, hp⟩ := mem_iff_getElem?.mp hrow
    cases hnew.symm.trans ((h.find event.eventId p).mpr ⟨row, hp, hid⟩)
  find := by
    intro id p
    rw [rowAt_concat, ← h.find]
    by_cases hid : id = event.eventId
    · subst hid
      rw [hnew]
      simp [eq_comm]
    · rw [update_of_ne hid]
      simp [Ne.symm hid]

lemma roomIndex_insert (h : IsIndex (StreamBefore tie table.rows)
      (RowAt table.rows fun row => row.roomId = roomId) (table.byRoomStream roomId))
    (htie : ∀ p < table.rows.length, tie p table.rows.length) :
    IsIndex (StreamBefore tie (table.rows ++ [event]))
      (RowAt (table.rows ++ [event]) fun row => row.roomId = roomId)
      (indexStream (table.rows ++ [event]) table.byRoomStream event table.rows.length roomId) := by
  by_cases hroom : roomId = event.roomId
  · subst hroom
    simp only [indexStream, update_self]
    exact streamIndex_insert h rfl htie
  · simp only [indexStream, update_of_ne hroom]
    exact streamIndex_skip h (Ne.symm hroom)

lemma relationIndex_insert {R : ℕ → ℕ → Prop} {key : RelationKey} (h : IsIndex R
      (RowAt table.rows fun row => relationKeyFor parseLossless row = some key)
      (table.relationChildren key)) (hR : ∀ p < table.rows.length, R p table.rows.length) :
    IsIndex R (RowAt (table.rows ++ [event]) fun row => relationKeyFor parseLossless row = some key)
      (indexRelation table.relationChildren table.rows.length (relationKeyFor parseLossless event)
        key) := by
  refine (relationIndex_index _ h fun p hp => hR p hp.lt).congr_mem fun p => ?_
  rw [rowAt_concat]

lemma Indexed.insert (h : Indexed parseLossless table) :
    Indexed parseLossless (table.insert parseLossless event).2 := by
  rw [EventTable.insert]
  split_ifs with hheld
  · exact h
  · rw [Option.not_isSome_iff_eq_none] at hheld
    exact
      { ids := h.ids.concat hheld
        stream := streamIndex_insert h.stream trivial fun p hp => hp
        rooms := fun roomId => roomIndex_insert (h.rooms roomId) fun p hp => ne_of_lt hp
        times := fun roomId => by
          refine (timeIndex_index event h.times ?_ roomId).congr_mem fun e => timeRow_concat.symm
          exact fun _ e he => ne_of_lt he.lt
        latest := raiseLatestTs_eq h.latest
        relations := fun key => relationIndex_insert (h.relations key) fun p hp => ne_of_lt hp }

lemma RoomsOrdered.applyInsert (h : RoomsOrdered (· < ·) table) :
    RoomsOrdered (· < ·) (table.insert parseLossless event).2 := by
  rw [insert]
  split
  · exact h
  · exact fun roomId => roomIndex_insert (h roomId) fun p hp => hp

/-- What the first loop of `insert_all` does. -/
lemma addRows_spec {roomLatestTs : Str → Option Int64} (events : List PersistentEvent)
    (hids : IdIndex rows byId)
    (hlatest : ∀ roomId, roomLatestTs roomId = heldTs (latestOf rows roomId)) :
    ∃ added byId' roomLatestTs',
      addRows events (rows, byId, roomLatestTs) = (rows ++ added, byId', roomLatestTs') ∧
      IdIndex (rows ++ added) byId' ∧
      ∀ roomId, roomLatestTs' roomId = heldTs (latestOf (rows ++ added) roomId) := by
  induction events generalizing rows byId roomLatestTs with
  | nil => exact ⟨[], byId, roomLatestTs, by simp [addRows], by simpa using hids, by simpa using hlatest⟩
  | cons event events ih =>
    rw [addRows]
    split_ifs with hheld
    · exact ih hids hlatest
    · rw [Option.not_isSome_iff_eq_none] at hheld
      obtain ⟨added, byId', roomLatestTs', hrows, hids', hlatest'⟩ :=
        ih (hids.concat hheld) (raiseLatestTs_eq hlatest)
      refine ⟨event :: added, byId', roomLatestTs', ?_, ?_, ?_⟩
      · rw [hrows, append_assoc, singleton_append]
      · rwa [append_assoc] at hids'
      · simpa [singleton_append] using hlatest'

lemma Indexed.insertAll (h : Indexed parseLossless table) (events : List PersistentEvent) :
    Indexed parseLossless (table.insertAll parseLossless events).2 := by
  obtain ⟨added, byId', roomLatestTs', hrows, hids, hlatest⟩ := addRows_spec events h.ids h.latest
  rw [EventTable.insertAll, hrows]
  exact
    { ids := hids
      stream := streamIndex_insertAll added h.stream fun p q hpq _ => hpq
      rooms := fun roomId =>
        streamIndex_insertAll added (h.rooms roomId) fun p q hpq _ => ne_of_lt hpq
      times := fun roomId => timeIndex_insertAll (h.times roomId)
      latest := hlatest
      relations := fun key =>
        relationIndex_insertAll (h.relations key) fun p q hpq _ => ne_of_lt hpq }

lemma RoomsOrdered.applyInsertAll (h : RoomsOrdered (· < ·) table)
    (hindexed : Indexed parseLossless table) (events : List PersistentEvent) :
    RoomsOrdered (· < ·) (table.insertAll parseLossless events).2 := by
  obtain ⟨added, byId', roomLatestTs', hrows, -, -⟩ :=
    addRows_spec events hindexed.ids hindexed.latest
  rw [insertAll, hrows]
  exact fun roomId => streamIndex_insertAll added (h roomId) fun p q hpq _ => hpq

end Insert

/-! ### Removal -/

section Erase

variable {table : EventTable} {rows : List PersistentEvent} {removed : List Bool}
  {tie : ℕ → ℕ → Prop}

lemma RoomsOrdered.erase (h : RoomsOrdered tie table) (hlen : removed.length = table.rows.length)
    (htie : ∀ p q p' q', tie p q → remap removed p = some p' → remap removed q = some q' →
      tie p' q') :
    RoomsOrdered tie (table.eraseMarked removed).2 :=
  fun roomId => streamIndex_erase (h roomId) hlen htie

/-- A room that loses no row keeps its timestamp. -/
lemma latestOf_unmarked (hlen : removed.length = rows.length)
    (hkept : ¬ (rows.zip removed).any fun row => row.2 && row.1.roomId = roomId) :
    latestOf (unmarked removed rows) roomId = latestOf rows roomId := by
  refine latestOf_congr fun bound => ⟨fun h row hrow hroom => h row ?_ hroom,
    fun h row hrow => h row ((unmarked_sublist removed rows).subset hrow)⟩
  obtain ⟨p, hp⟩ := mem_iff_getElem?.mp hrow
  -- the mark of the row is not set
  have hmark : removed[p]? = some false := by
    have hlt : p < removed.length := hlen ▸ (List.getElem?_eq_some_iff.mp hp).1
    have hpair : (row, removed[p]) ∈ rows.zip removed := by
      refine mem_iff_getElem?.mpr ⟨p, ?_⟩
      rw [getElem?_zip_eq_some]
      exact ⟨hp, getElem?_eq_getElem hlt⟩
    rw [getElem?_eq_getElem hlt]
    simp only [any_eq_true, not_exists, not_and] at hkept
    have := hkept _ hpair
    simpa [hroom] using this
  obtain ⟨q, hq⟩ := remap_eq_some_iff.mpr hmark
  exact mem_of_getElem? ((getElem?_unmarked hlen hq).trans hp)

lemma Indexed.eraseMarked (h : Indexed parseLossless table)
    (hlen : removed.length = table.rows.length) :
    Indexed parseLossless (table.eraseMarked removed).2 := by
  have hne : ∀ p q p' q', p ≠ q → remap removed p = some p' → remap removed q = some q' →
      p' ≠ q' := by
    rintro p q p' _ hpq hp hq rfl
    exact hpq (remap_injective hp hq)
  have hrooms : RoomsOrdered (· ≠ ·) (table.eraseMarked removed).2 := h.rooms.erase hlen hne
  exact
    { ids :=
        { nodup := h.ids.nodup.sublist ((unmarked_sublist removed table.rows).map _)
          find := by
            intro id q
            show (table.byId id).bind (remap removed) = some q ↔ _
            rw [Option.bind_eq_some_iff]
            simp only [h.ids.find]
            exact (rowAt_unmarked hlen).symm }
      stream := streamIndex_erase h.stream hlen fun p q p' q' hpq hp hq => remap_lt hp hq hpq
      rooms := hrooms
      times := fun roomId => timeIndex_erase (h.times roomId) hlen
      latest := by
        intro roomId
        show (if _ then _ else _) = _
        split
        · exact recomputeLatestTs_self (hrooms roomId).mem
        · rename_i hkept
          rw [h.latest]
          exact congrArg heldTs (latestOf_unmarked hlen hkept).symm
      relations := fun key => by
        refine ((h.relations key).filterMap (remap removed) hne).congr_mem fun p => ?_
        exact (rowAt_unmarked hlen).symm }

lemma Indexed.eraseIf (h : Indexed parseLossless table) (predicate : PersistentEvent → Bool) :
    Indexed parseLossless (table.eraseIf predicate).2 := by
  rw [EventTable.eraseIf]
  split
  · exact h.eraseMarked (length_map _)
  · exact h

lemma RoomsOrdered.applyEraseIf (h : RoomsOrdered (· < ·) table)
    (predicate : PersistentEvent → Bool) : RoomsOrdered (· < ·) (table.eraseIf predicate).2 := by
  rw [eraseIf]
  split
  · exact h.erase (length_map _) fun p q p' q' hpq hp hq => remap_lt hp hq hpq
  · exact h

end Erase

/-! ### Modification -/

section Modify

variable {table : EventTable} {position : ℕ} {mutation : PersistentEvent → PersistentEvent}
  {row target : PersistentEvent} {rows : List PersistentEvent} {tie : ℕ → ℕ → Prop}

lemma IdIndex.set {byId : Str → Option ℕ} (h : IdIndex rows byId)
    (hrow : rows[position]? = some row) (hid : target.eventId = row.eventId) :
    IdIndex (rows.set position target) byId where
  nodup := by
    have hmap : (rows.set position target).map PersistentEvent.eventId =
        rows.map PersistentEvent.eventId := by
      rw [map_set, hid, ← map_set, set_self hrow]
    rw [hmap]
    exact h.nodup
  find := by
    intro id p
    rw [h.find, rowAt_set_of_iff hrow (by rw [hid])]

/-- What a modification does to the stream index of each room, when the tie allows the target
after the rows of its new room with its stream ordering. -/
lemma RoomsOrdered.modify (h : RoomsOrdered tie table) (hirrefl : ∀ p, ¬ tie p p)
    (hrow : table.rows[position]? = some row) (htie : (mutated mutation row).roomId ≠ row.roomId →
      ∀ q, RowAt table.rows (fun other => other.roomId = (mutated mutation row).roomId) q →
        orderingAt table.rows q = orderingAt table.rows position → tie q position) :
    RoomsOrdered tie (table.modify parseLossless position mutation) := by
  intro roomId
  set target := mutated mutation row with htarget
  have hordering : target.streamOrdering = row.streamOrdering := rfl
  simp only [EventTable.modify, hrow, ← htarget]
  by_cases hmoved : target.roomId = row.roomId
  · simp only [hmoved, ne_eq]
    exact streamIndex_set (h roomId) hrow hordering (by rw [hmoved])
  · simp only [ne_eq, hmoved, not_false_eq_true, decide_true, if_true, indexStream, unindexStream]
    by_cases hnew : roomId = target.roomId
    · -- the room the row enters, which the removal has not touched
      subst hnew
      rw [update_self, update_of_ne hmoved]
      exact streamIndex_enter (h _) hrow hordering rfl (htie hmoved)
    · rw [update_of_ne hnew]
      by_cases hold : roomId = row.roomId
      · subst hold
        rw [update_self]
        exact streamIndex_leave (h _) hrow hordering hirrefl hmoved
      · rw [update_of_ne hold]
        refine streamIndex_set (h roomId) hrow hordering ?_
        exact iff_of_false (Ne.symm hnew) (Ne.symm hold)

/-- Replacing a row leaves the timestamps of rooms that its own timestamp does not change. -/
lemma latestOf_set (hrow : rows[position]? = some row)
    (h : ∀ bound, (target.roomId = roomId → latestTsOf target ≤ bound) ↔
      (row.roomId = roomId → latestTsOf row ≤ bound)) :
    latestOf (rows.set position target) roomId = latestOf rows roomId := by
  have hall : ∀ (l : List PersistentEvent) (P : PersistentEvent → Prop),
      (∀ row ∈ l, P row) ↔ ∀ p, ¬ RowAt l (fun row => ¬ P row) p := by
    intro l P
    constructor
    · rintro hP p ⟨row, hp, hnot⟩
      exact hnot (hP row (mem_of_getElem? hp))
    · intro hP row hmem
      obtain ⟨p, hp⟩ := mem_iff_getElem?.mp hmem
      exact by_contra fun hnot => hP p ⟨row, hp, hnot⟩
  refine latestOf_congr fun bound => ?_
  rw [hall, hall]
  exact forall_congr' fun p => not_congr (rowAt_set_of_iff hrow (not_congr (h bound)))

section ModifiedRow

variable (h : Indexed parseLossless table) (hrow : table.rows[position]? = some row)

include hrow

lemma rows_modify : (table.modify parseLossless position mutation).rows =
    table.rows.set position (mutated mutation row) := by
  simp [modify, hrow]

include h

lemma Indexed.modify_rooms : RoomsOrdered (· ≠ ·) (table.modify parseLossless position mutation) := by
  refine h.rooms.modify (fun p hp => hp rfl) hrow fun hmoved q hq _ => ?_
  rintro rfl
  exact hmoved ((rowAt_iff hrow).mp hq).symm

lemma Indexed.modify_times (roomId : Str) :
    IsIndex TimeBefore (TimeRow (table.modify parseLossless position mutation).rows roomId)
      ((table.modify parseLossless position mutation).byRoomTime roomId) := by
  have hlt := (List.getElem?_eq_some_iff.mp hrow).1
  simp only [modify, hrow]
  split
  · have hindex := timeIndex_index (mutated mutation row) (timeIndex_unindex h.times hrow)
      (fun _ e he => he.2) roomId
    exact hindex.congr_mem fun e => (timeRow_set hlt).symm
  · rename_i hsame
    simp only [not_or, decide_eq_true_eq, not_not] at hsame
    refine (h.times roomId).congr_mem fun e => ?_
    -- the row's own entry is read off the target just as well
    rw [timeRow_set hlt, hsame.1, hsame.2, ← timeRow_set hlt, set_self hrow]

lemma Indexed.modify_latest (roomId : Str) :
    (table.modify parseLossless position mutation).roomLatestTs roomId =
      heldTs (latestOf (table.modify parseLossless position mutation).rows roomId) := by
  have hrooms : RoomsOrdered (· ≠ ·) (table.modify parseLossless position mutation) :=
    h.modify_rooms hrow
  have hmem := fun room => (hrooms room).mem
  simp only [modify, hrow] at hmem ⊢
  split
  · by_cases hnew : roomId = (mutated mutation row).roomId
    · subst hnew
      exact recomputeLatestTs_self (hmem _)
    · rw [recomputeLatestTs_of_ne hnew]
      by_cases hold : roomId = row.roomId
      · subst hold
        exact recomputeLatestTs_self (hmem _)
      · -- neither the room the row left nor the one it entered
        rw [recomputeLatestTs_of_ne hold, h.latest]
        refine congrArg heldTs (latestOf_set hrow fun bound => ?_).symm
        exact iff_of_true (fun heq => absurd heq.symm hnew) fun heq => absurd heq.symm hold
  · rename_i hsame
    simp only [not_or, decide_eq_true_eq, not_not] at hsame
    rw [h.latest]
    exact congrArg heldTs (latestOf_set hrow fun bound => by rw [hsame.1, hsame.2]).symm

lemma Indexed.modify_relations (key : RelationKey) :
    IsIndex (· ≠ ·) (RowAt (table.modify parseLossless position mutation).rows
        fun row => relationKeyFor parseLossless row = some key)
      ((table.modify parseLossless position mutation).relationChildren key) := by
  simp only [modify, hrow]
  split
  · have hown : ∀ key, RowAt table.rows
        (fun row => relationKeyFor parseLossless row = some key) position →
        relationKeyFor parseLossless row = some key := fun key => (rowAt_iff hrow).mp
    have hindex := relationIndex_index (relationKeyFor parseLossless (mutated mutation row))
      (relationIndex_unindex h.relations hown key) fun _ hp => hp.2
    refine hindex.congr_mem fun p => ?_
    rw [rowAt_set (List.getElem?_eq_some_iff.mp hrow).1]
    tauto
  · rename_i hsame
    rw [not_not] at hsame
    exact (h.relations key).congr_mem fun p => (rowAt_set_of_iff hrow (by rw [hsame])).symm

end ModifiedRow

lemma modify_of_none (hrow : table.rows[position]? = none) :
    table.modify parseLossless position mutation = table := by
  rw [modify, hrow]

lemma Indexed.modify (h : Indexed parseLossless table) :
    Indexed parseLossless (table.modify parseLossless position mutation) := by
  cases hrow : table.rows[position]? with
  | none =>
    rw [modify_of_none hrow]
    exact h
  | some row =>
    refine ⟨?_, ?_, h.modify_rooms hrow, h.modify_times hrow, h.modify_latest hrow,
      h.modify_relations hrow⟩
    · simp only [EventTable.modify, hrow]
      exact h.ids.set hrow rfl
    · simp only [EventTable.modify, hrow]
      exact streamIndex_set h.stream hrow rfl Iff.rfl

end Modify

end EventTable

end Merovingian
