import Merovingian.Database.EventTableOperations
import Merovingian.Lib.Run

/-!
# Runs of the event table

After any sequence of operations from the empty table every index is consistent with the rows,
and the rooms are visited in the order of the whole table as long as every modification moves
rows in order: `MovesInOrder` excludes exactly the modifications after which they are not.
-/

namespace Merovingian

open List Option

namespace EventTable

variable {parseLossless : Str → Option Value}

/-! ### Sequences of operations -/

/-- The step of one operation. -/
def Step (parseLossless : Str → Option Value) (table : EventTable) (operation : Operation)
    (table' : EventTable) : Prop :=
  table' = table.apply parseLossless operation

/-- A modification moves no row to a room with a later row of its stream ordering. -/
def MovesInOrder (table : EventTable) : Operation → Prop
  | .modify position mutation => ∀ row, table.rows[position]? = some row →
      (mutated mutation row).roomId ≠ row.roomId → ∀ q other, table.rows[q]? = some other →
        other.roomId = (mutated mutation row).roomId →
        other.streamOrdering = row.streamOrdering → q < position
  | _ => True

section Runs

variable {table table' : EventTable} {operation : Operation} {operations : List Operation}
  {row : PersistentEvent} (roomId : Str)

lemma Indexed.apply (h : Indexed parseLossless table) (operation : Operation) :
    Indexed parseLossless (table.apply parseLossless operation) := by
  cases operation with
  | insert event => exact h.insert
  | insertAll events => exact h.insertAll events
  | eraseIf predicate => exact h.eraseIf predicate
  | modify position mutation => exact h.modify
  | extract | clear => exact .empty

lemma Indexed.run (h : Run (Step parseLossless) EventTable.empty operations table) :
    Indexed parseLossless table := by
  refine h.invariant (Indexed parseLossless) (fun _ => True) ?_ (fun _ _ => trivial) .empty
  rintro table operation _ - rfl hindexed
  exact hindexed.apply operation

lemma orderingAt_eq {rows : List PersistentEvent} {p : ℕ} (hrow : rows[p]? = some row) :
    orderingAt rows p = row.streamOrdering := by
  rw [orderingAt, hrow]
  rfl

lemma RoomsOrdered.apply (h : RoomsOrdered (· < ·) table) (hindexed : Indexed parseLossless table)
    (hmoves : MovesInOrder table operation) :
    RoomsOrdered (· < ·) (table.apply parseLossless operation) := by
  cases operation with
  | insert event => exact h.applyInsert
  | insertAll events => exact h.applyInsertAll hindexed events
  | eraseIf predicate => exact h.applyEraseIf predicate
  | extract | clear => exact roomsOrdered_empty _
  | modify position mutation =>
    show RoomsOrdered (· < ·) (table.modify parseLossless position mutation)
    cases hrow : table.rows[position]? with
    | none =>
      rw [modify_of_none hrow]
      exact h
    | some row =>
      refine h.modify (fun p => lt_irrefl p) hrow fun hmoved q hq hordering => ?_
      obtain ⟨other, hother, hroom⟩ := hq
      rw [orderingAt_eq hother, orderingAt_eq hrow] at hordering
      exact hmoves row hrow hmoved q other hother hroom hordering

lemma moved_listed_last {position : ℕ} {mutation : PersistentEvent → PersistentEvent}
    (hindexed : Indexed parseLossless table) (hrow : table.rows[position]? = some row)
    (hmoved : (mutated mutation row).roomId ≠ row.roomId) :
    IsIndex (StreamBefore (fun p q => p ≠ position ∧ p ≠ q)
        (table.modify parseLossless position mutation).rows)
      (RowAt (table.modify parseLossless position mutation).rows
        fun other => other.roomId = (mutated mutation row).roomId)
      ((table.modify parseLossless position mutation).byRoomStream
        (mutated mutation row).roomId) := by
  have hnot : ∀ p, RowAt table.rows (fun other => other.roomId = (mutated mutation row).roomId) p →
      p ≠ position := by
    rintro p hp rfl
    exact hmoved ((rowAt_iff hrow).mp hp).symm
  have hold : IsIndex (StreamBefore (fun p q => p ≠ position ∧ p ≠ q) table.rows)
      (RowAt table.rows fun other => other.roomId = (mutated mutation row).roomId)
      (table.byRoomStream (mutated mutation row).roomId) := by
    refine (hindexed.rooms _).congr (fun p q hp _ hpq => ?_) fun p => Iff.rfl
    rcases hpq with hlt | ⟨heq, hne⟩
    · exact .inl hlt
    · exact .inr ⟨heq, hnot p hp, hne⟩
  simp only [EventTable.modify, hrow, ne_eq, hmoved, not_false_eq_true, decide_true, if_true,
    indexStream, unindexStream]
  rw [Function.update_self, Function.update_of_ne hmoved]
  exact streamIndex_enter hold hrow rfl rfl fun q hq _ => ⟨hnot q hq, hnot q hq⟩

lemma movesInOrder_of_roomsOrdered (hindexed : Indexed parseLossless table)
    (h : RoomsOrdered (· < ·) (table.apply parseLossless operation)) :
    MovesInOrder table operation := by
  cases operation with
  | modify position mutation =>
    intro row hrow hmoved q other hother hroom hordering
    by_contra hge
    have hne : q ≠ position := by
      rintro rfl
      obtain rfl : row = other := Option.some.inj (hrow ▸ hother)
      exact hmoved hroom.symm
    have hlt := (List.getElem?_eq_some_iff.mp hrow).1
    have hroomOrder : RoomsOrdered (· < ·) (table.modify parseLossless position mutation) := h
    have hboth := (moved_listed_last hindexed hrow hmoved).and
      (hroomOrder (mutated mutation row).roomId)
    rw [rows_modify hrow] at hboth
    set rows := table.rows.set position (mutated mutation row)
    have hat : ∀ p, orderingAt rows p = orderingAt table.rows p := orderingAt_set hrow rfl
    have hequal : orderingAt rows q = orderingAt rows position := by
      rw [hat, hat, orderingAt_eq hother, orderingAt_eq hrow, hordering]
    have hold : RowAt rows (fun other => other.roomId = (mutated mutation row).roomId) q :=
      (rowAt_set hlt).mpr (.inr ⟨hne, other, hother, hroom⟩)
    have hnew : RowAt rows (fun other => other.roomId = (mutated mutation row).roomId) position :=
      (rowAt_set hlt).mpr (.inl ⟨rfl, rfl⟩)
    rcases hboth.rel_or_rel hold hnew hne with ⟨-, hstream⟩ | ⟨hlast, -⟩
    · rcases hstream with hlt | ⟨-, hlt⟩
      · exact absurd hequal (ne_of_lt hlt)
      · exact hge hlt
    · rcases hlast with hlt | ⟨-, hself, -⟩
      · exact absurd hequal.symm (ne_of_lt hlt)
      · exact hself rfl
  | _ => exact trivial

/-! ### What readers see -/

/-- Every index agrees with the rows, up to the order of a room's rows with equal stream
orderings. -/
structure Consistent (parseLossless : Str → Option Value) (table : EventTable) : Prop where
  /-- no two rows share an id -/
  ids : (table.rows.map PersistentEvent.eventId).Nodup
  find : ∀ id row, table.find id = some row ↔ row ∈ table.rows ∧ row.eventId = id
  /-- every row once -/
  stream : table.inStreamOrder.Perm table.rows
  /-- by stream ordering and then by the order of addition -/
  stream_sorted : table.streamOrder.Pairwise (StreamBefore (· < ·) table.rows)
  room : ∀ roomId, (table.roomInStreamOrder roomId).Perm
    (table.inStreamOrder.filter fun row => row.roomId = roomId)
  room_sorted : ∀ roomId, (table.roomInStreamOrder roomId).Pairwise
    fun row row' => row.streamOrdering ≤ row'.streamOrdering
  time : ∀ roomId entry, entry ∈ table.byRoomTime roomId ↔ ∃ position row,
    table.rows[position]? = some row ∧ row.roomId = roomId ∧ timeEntryFor row position = some entry
  time_sorted : ∀ roomId, (table.byRoomTime roomId).Pairwise fun e f => e.key < f.key
  relation : ∀ key position, position ∈ table.relationChildren key ↔ ∃ row,
    table.rows[position]? = some row ∧ relationKeyFor parseLossless row = some key
  relation_nodup : ∀ key, (table.relationChildren key).Nodup
  latest : ∀ roomId, IsGreatest {ts | ts = 0 ∨ ∃ row ∈ table.rows, row.roomId = roomId ∧
    topLevelInteger row.json "origin_server_ts" = some ts} (table.roomLatestOriginServerTs roomId)

/-- Every room's rows are visited in the order of the whole table. -/
def RoomsFollowStream (table : EventTable) : Prop :=
  ∀ roomId, table.roomInStreamOrder roomId =
    table.inStreamOrder.filter fun row => row.roomId = roomId

/-- The positions of a room's rows in the stream order. -/
def roomPositions (table : EventTable) (roomId : Str) : List ℕ :=
  table.streamOrder.filter fun p => table.rows[p]?.any fun row => row.roomId = roomId

lemma filterMap_roomPositions :
    ((table.roomPositions roomId).filterMap fun p => table.rows[p]?) =
      table.inStreamOrder.filter fun row => row.roomId = roomId := by
  rw [roomPositions, inStreamOrder, filterMap_filter, filter_filterMap]
  refine filterMap_congr fun p _ => ?_
  cases table.rows[p]? with
  | none => rfl
  | some row => by_cases hroom : row.roomId = roomId <;> simp [Option.filter]

section

variable (h : Indexed parseLossless table)

include h

lemma Indexed.roomPositions :
    IsIndex (StreamBefore (· < ·) table.rows) (RowAt table.rows fun row => row.roomId = roomId)
      (table.roomPositions roomId) := by
  refine (h.stream.filter _).congr_mem fun p => ?_
  rw [Option.any_eq_true]
  constructor
  · rintro ⟨-, row, hrow, hroom⟩
    exact ⟨row, hrow, of_decide_eq_true hroom⟩
  · rintro ⟨row, hrow, hroom⟩
    exact ⟨⟨row, hrow, trivial⟩, row, hrow, decide_eq_true hroom⟩

lemma Indexed.positions_inj {l m : List ℕ} (hl : ∀ p ∈ l, p < table.rows.length)
    (hm : ∀ p ∈ m, p < table.rows.length)
    (heq : (l.filterMap fun p => table.rows[p]?) = m.filterMap fun p => table.rows[p]?) :
    l = m := by
  have hback : ∀ l : List ℕ, (∀ p ∈ l, p < table.rows.length) →
      ((l.filterMap fun p => table.rows[p]?).filterMap fun row => table.byId row.eventId) = l := by
    intro l hl
    rw [filterMap_filterMap]
    calc (l.filterMap fun p => table.rows[p]?.bind fun row => table.byId row.eventId)
        = l.filterMap some := by
          refine filterMap_congr fun p hp => ?_
          obtain ⟨row, hrow, -⟩ := rowAt_true.mpr (hl p hp)
          rw [hrow]
          exact (h.ids.find _ p).mpr ⟨_, hrow, rfl⟩
      _ = l := filterMap_some
  rw [← hback l hl, heq, hback m hm]

lemma Indexed.roomsFollowStream_iff : table.RoomsFollowStream ↔ RoomsOrdered (· < ·) table := by
  have hlt : ∀ {l : List ℕ} {R} {roomId : Str},
      IsIndex R (RowAt table.rows fun row => row.roomId = roomId) l →
        ∀ p ∈ l, p < table.rows.length := fun hl p hp => ((hl.mem p).mp hp).lt
  constructor
  · intro hfollow roomId
    have heq := hfollow roomId
    rw [← filterMap_roomPositions] at heq
    rw [h.positions_inj (hlt (h.rooms roomId)) (hlt (h.roomPositions roomId)) heq]
    exact h.roomPositions roomId
  · intro hordered roomId
    have heq : table.byRoomStream roomId = table.roomPositions roomId :=
      (hordered roomId).unique (h.roomPositions roomId) (StreamBefore.asymm fun _ _ => lt_asymm)
    rw [roomInStreamOrder, heq, filterMap_roomPositions]

lemma Indexed.find_iff (id : Str) (row : PersistentEvent) :
    table.find id = some row ↔ row ∈ table.rows ∧ row.eventId = id := by
  rw [find, bind_eq_some_iff]
  constructor
  · rintro ⟨p, hid, hrow⟩
    exact ⟨mem_of_getElem? hrow, (rowAt_iff hrow).mp ((h.ids.find id p).mp hid)⟩
  · rintro ⟨hmem, hid⟩
    obtain ⟨p, hrow⟩ := mem_iff_getElem?.mp hmem
    exact ⟨p, (h.ids.find id p).mpr ⟨row, hrow, hid⟩, hrow⟩

lemma Indexed.stream_perm : table.inStreamOrder.Perm table.rows := by
  have hperm : table.streamOrder.Perm (range table.rows.length) := by
    refine (perm_ext_iff_of_nodup (h.stream.nodup (StreamBefore.irrefl fun p => lt_irrefl p))
      nodup_range).mpr fun p => ?_
    rw [h.stream.mem, rowAt_true, mem_range]
  calc table.inStreamOrder.Perm ((range table.rows.length).filterMap fun p => table.rows[p]?) :=
        hperm.filterMap _
    _ = table.rows := filterMap_range_getElem? table.rows

lemma Indexed.room_sorted :
    (table.roomInStreamOrder roomId).Pairwise
      fun row row' => row.streamOrdering ≤ row'.streamOrdering := by
  rw [roomInStreamOrder, pairwise_filterMap]
  refine (h.rooms roomId).pairwise.imp fun {p q} hpq row hrow row' hrow' => ?_
  rw [← orderingAt_eq hrow, ← orderingAt_eq hrow']
  exact hpq.le

lemma Indexed.room_perm :
    (table.roomInStreamOrder roomId).Perm
      (table.inStreamOrder.filter fun row => row.roomId = roomId) := by
  rw [← filterMap_roomPositions]
  refine Perm.filterMap _ ((perm_ext_iff_of_nodup ?_ ?_).mpr fun p => ?_)
  · exact (h.rooms roomId).nodup (StreamBefore.irrefl fun p hp => hp rfl)
  · exact (h.roomPositions roomId).nodup (StreamBefore.irrefl fun p => lt_irrefl p)
  · rw [(h.rooms roomId).mem, (h.roomPositions roomId).mem]

end

lemma latestOf_eq (rows : List PersistentEvent) (roomId : Str) : latestOf rows roomId = 0 ∨
    ∃ row ∈ rows, row.roomId = roomId ∧ latestTsOf row = latestOf rows roomId := by
  induction rows with
  | nil => exact .inl rfl
  | cons row rows ih =>
    have htail : latestOf rows roomId = 0 ∨ ∃ row' ∈ row :: rows, row'.roomId = roomId ∧
        latestTsOf row' = latestOf rows roomId := by
      rcases ih with ih | ⟨row', hmem, hrow'⟩
      · exact .inl ih
      · exact .inr ⟨row', mem_cons_of_mem _ hmem, hrow'⟩
    rw [latestOf_cons]
    split
    · rename_i hroom
      rcases max_choice (latestTsOf row) (latestOf rows roomId) with hmax | hmax
      · rw [hmax]
        exact .inr ⟨row, mem_cons_self, hroom, rfl⟩
      · rw [hmax]
        exact htail
    · exact htail

lemma topLevelInteger_of_latestTsOf (h : latestTsOf row ≠ 0) :
    topLevelInteger row.json "origin_server_ts" = some (latestTsOf row) := by
  rw [latestTsOf] at h ⊢
  split
  · rename_i ts hts
    rw [hts] at h ⊢
    simp only at h
    split at h
    · rename_i hpos
      rw [if_pos hpos]
    · exact absurd rfl h
  · rename_i hts
    rw [hts] at h
    exact absurd rfl h

lemma le_latestTsOf {ts : Int64} (h : topLevelInteger row.json "origin_server_ts" = some ts) :
    ts ≤ latestTsOf row := by
  rw [latestTsOf, h]
  simp only
  split
  · exact le_refl _
  · exact not_lt.mp ‹_›

lemma Indexed.latest_greatest (h : Indexed parseLossless table) (roomId : Str) :
    IsGreatest {ts | ts = 0 ∨ ∃ row ∈ table.rows, row.roomId = roomId ∧
      topLevelInteger row.json "origin_server_ts" = some ts}
      (table.roomLatestOriginServerTs roomId) := by
  have hlatest : table.roomLatestOriginServerTs roomId = latestOf table.rows roomId := by
    rw [roomLatestOriginServerTs, h.latest, heldTs]
    split
    · rfl
    · exact le_antisymm latestOf_nonneg (not_lt.mp ‹_›)
  rw [hlatest]
  constructor
  · by_cases hzero : latestOf table.rows roomId = 0
    · exact .inl hzero
    · obtain ⟨row, hmem, hroom, hrow⟩ := (latestOf_eq table.rows roomId).resolve_left hzero
      refine .inr ⟨row, hmem, hroom, ?_⟩
      rw [← hrow]
      exact topLevelInteger_of_latestTsOf (hrow ▸ hzero)
  · rintro ts (rfl | ⟨row, hmem, hroom, hts⟩)
    · exact latestOf_nonneg
    · exact (le_latestTsOf hts).trans ((latestOf_le.mp (le_refl _)).2 row hmem hroom)

lemma Indexed.consistent (h : Indexed parseLossless table) : Consistent parseLossless table where
  ids := h.ids.nodup
  find := h.find_iff
  stream := h.stream_perm
  stream_sorted := h.stream.pairwise
  room := h.room_perm
  room_sorted := h.room_sorted
  time roomId := (h.times roomId).mem
  time_sorted roomId := (h.times roomId).pairwise
  relation key := (h.relations key).mem
  relation_nodup key := (h.relations key).pairwise
  latest := h.latest_greatest

end Runs

/-- After any sequence of operations every index is consistent with the rows.  While every
modification so far moved rows in order, the rooms are visited in the order of the whole table,
and the next operation keeps that exactly when it moves rows in order too. -/
theorem indexes_consistent (parseLossless : Str → Option Value) :
    (∀ operations table, Run (Step parseLossless) empty operations table →
      table.Consistent parseLossless) ∧
    ∀ operations table,
      Run (fun t o t' => MovesInOrder t o ∧ Step parseLossless t o t') empty operations table →
        table.RoomsFollowStream ∧
        ∀ operation, (table.apply parseLossless operation).RoomsFollowStream ↔
          MovesInOrder table operation := by
  refine ⟨fun operations table h => (Indexed.run h).consistent, fun operations table h => ?_⟩
  have hboth : Indexed parseLossless table ∧ RoomsOrdered (· < ·) table := by
    refine h.invariant (fun t => Indexed parseLossless t ∧ RoomsOrdered (· < ·) t) (fun _ => True) ?_
      (fun _ _ => trivial) ⟨.empty, roomsOrdered_empty _⟩
    rintro t o _ - ⟨hmoves, rfl⟩ ⟨hindexed, hordered⟩
    exact ⟨hindexed.apply o, hordered.apply hindexed hmoves⟩
  obtain ⟨hindexed, hordered⟩ := hboth
  refine ⟨hindexed.roomsFollowStream_iff.mpr hordered, fun operation => ?_⟩
  rw [(hindexed.apply operation).roomsFollowStream_iff]
  exact ⟨movesInOrder_of_roomsOrdered hindexed, hordered.apply hindexed⟩

/-- Two rooms with a row each of the same stream ordering; the older row is moved to the room of
the newer one. -/
def exampleOperations : List Operation :=
  [.insert { eventId := "$a", roomId := "!a", streamOrdering := 5 },
    .insert { eventId := "$b", roomId := "!b", streamOrdering := 5 },
    .modify 0 fun row => { row with roomId := "!b" }]

theorem moved_row_out_of_order :
    ∃ table, Run (Step fun _ => none) empty exampleOperations table ∧
      (table.roomInStreamOrder "!b").map PersistentEvent.eventId = [lit "$b", lit "$a"] ∧
      (table.inStreamOrder.filter fun row => row.roomId = lit "!b").map PersistentEvent.eventId =
        [lit "$a", lit "$b"] := by
  refine ⟨_, .cons rfl (.cons rfl (.cons rfl (.nil _))), by decide, by decide⟩

/-! ### Bulk insertion -/

attribute [ext] EventTable

/-- `EventTable::insert` of one event after another, with the number of those that were added. -/
def insertEach (parseLossless : Str → Option Value) (table : EventTable) :
    List PersistentEvent → ℕ × EventTable
  | [] => (0, table)
  | event :: events =>
    let inserted := table.insert parseLossless event
    let rest := insertEach parseLossless inserted.2 events
    (inserted.1.toNat + rest.1, rest.2)

/-- The positions of a list in its order, and all others after them in ascending order. -/
def ListedBefore (l : List ℕ) (p q : ℕ) : Prop :=
  l.idxOf p < l.idxOf q ∨ l.idxOf p = l.idxOf q ∧ p < q

/-- A room's stream index and a relation's children list the rows in those orders. -/
structure Listed (parseLossless : Str → Option Value) (l m : List ℕ) (roomId : Str)
    (key : RelationKey) (table : EventTable) : Prop where
  room : IsIndex (StreamBefore (ListedBefore l) table.rows)
    (RowAt table.rows fun row => row.roomId = roomId) (table.byRoomStream roomId)
  relation : IsIndex (ListedBefore m)
    (RowAt table.rows fun row => relationKeyFor parseLossless row = some key)
    (table.relationChildren key)

section Bulk

variable {table table' : EventTable} {l m : List ℕ} {roomId : Str} {key : RelationKey}
  {n p q : ℕ}

lemma ListedBefore.asymm (p q : ℕ) (h : ListedBefore l p q) : ¬ ListedBefore l q p := by
  unfold ListedBefore at h ⊢
  omega

lemma listedBefore_of_le (hl : ∀ p ∈ l, p < n) (hpq : p < q) (hq : n ≤ q) : ListedBefore l p q := by
  have hnot : q ∉ l := fun hmem => hq.not_gt (hl q hmem)
  have hp : l.idxOf p ≤ l.length := idxOf_le_length
  rw [ListedBefore, idxOf_eq_length hnot]
  omega

lemma pairwise_listedBefore (h : l.Nodup) : l.Pairwise (ListedBefore l) := by
  refine pairwise_iff_getElem.mpr fun i j hi hj hij => .inl ?_
  rwa [h.idxOf_getElem, h.idxOf_getElem]

lemma Indexed.listed (h : Indexed parseLossless table) (roomId : Str) (key : RelationKey) :
    Listed parseLossless (table.byRoomStream roomId) (table.relationChildren key) roomId key
      table where
  room := by
    have hnodup := (h.rooms roomId).nodup (StreamBefore.irrefl fun _ => not_not_intro rfl)
    refine ⟨(h.rooms roomId).pairwise.imp₂ ?_ (pairwise_listedBefore hnodup), (h.rooms roomId).mem⟩
    rintro p q (hlt | ⟨heq, -⟩) hlisted
    · exact .inl hlt
    · exact .inr ⟨heq, hlisted⟩
  relation := ⟨pairwise_listedBefore (h.relations key).pairwise, (h.relations key).mem⟩

lemma Listed.unique (h : Listed parseLossless l m roomId key table)
    (h' : Listed parseLossless l m roomId key table') (hrows : table.rows = table'.rows) :
    table.byRoomStream roomId = table'.byRoomStream roomId ∧
      table.relationChildren key = table'.relationChildren key := by
  obtain ⟨hroom, hrelation⟩ := h
  rw [hrows] at hroom hrelation
  exact ⟨hroom.unique h'.room (StreamBefore.asymm ListedBefore.asymm),
    hrelation.unique h'.relation ListedBefore.asymm⟩

section Order

variable (hl : ∀ p ∈ l, p < n) (hm : ∀ p ∈ m, p < n) (hn : n ≤ table.rows.length)
  (h : Listed parseLossless l m roomId key table)

include hl hm hn h

lemma Listed.insertEach (events : List PersistentEvent) :
    Listed parseLossless l m roomId key (insertEach parseLossless table events).2 := by
  induction events generalizing table with
  | nil => exact h
  | cons event events ih =>
    rw [EventTable.insertEach, EventTable.insert]
    split_ifs
    · exact ih hn h
    · refine ih ?_ ⟨roomIndex_insert h.room fun p hp => listedBefore_of_le hl hp hn,
        relationIndex_insert h.relation fun p hp => listedBefore_of_le hm hp hn⟩
      rw [length_append]
      exact Nat.le_add_right_of_le hn

lemma Listed.insertAll (hindexed : Indexed parseLossless table) (events : List PersistentEvent) :
    Listed parseLossless l m roomId key (table.insertAll parseLossless events).2 := by
  obtain ⟨added, byId', roomLatestTs', hrows, -, -⟩ :=
    addRows_spec events hindexed.ids hindexed.latest
  rw [EventTable.insertAll, hrows]
  exact ⟨streamIndex_insertAll added h.room fun p q hpq hq =>
      listedBefore_of_le hl hpq (hn.trans hq),
    relationIndex_insertAll h.relation fun p q hpq hq => listedBefore_of_le hm hpq (hn.trans hq)⟩

end Order

/-- The first loop of `insert_all` adds the rows that the insertions add. -/
lemma addRows_eq (parseLossless : Str → Option Value) (events : List PersistentEvent) :
    addRows events (table.rows, table.byId, table.roomLatestTs) =
      ((insertEach parseLossless table events).2.rows,
        (insertEach parseLossless table events).2.byId,
        (insertEach parseLossless table events).2.roomLatestTs) := by
  induction events generalizing table with
  | nil => rfl
  | cons event events ih =>
    simp only [addRows, insertEach]
    rw [← ih, EventTable.insert]
    split_ifs
    · rfl
    · rfl

lemma length_insertEach (events : List PersistentEvent) :
    (insertEach parseLossless table events).2.rows.length =
      table.rows.length + (insertEach parseLossless table events).1 := by
  induction events generalizing table with
  | nil => rfl
  | cons event events ih =>
    simp only [insertEach]
    rw [ih, EventTable.insert]
    split_ifs
    · simp
    · simp [Nat.add_assoc]

lemma Indexed.insertEach (h : Indexed parseLossless table) (events : List PersistentEvent) :
    Indexed parseLossless (insertEach parseLossless table events).2 := by
  induction events generalizing table with
  | nil => exact h
  | cons event events ih => exact ih h.insert

end Bulk

/-- A bulk load leaves the table that inserting the events one by one leaves, with all of its
indexes, and counts the same rows. -/
theorem insertAll_eq_insertEach {operations : List Operation} {table : EventTable}
    (hrun : Run (Step parseLossless) empty operations table) (events : List PersistentEvent) :
    table.insertAll parseLossless events = table.insertEach parseLossless events := by
  have h := Indexed.run hrun
  have hall := h.insertAll events
  have heach := h.insertEach events
  have hrows : (table.insertAll parseLossless events).2.rows =
      (table.insertEach parseLossless events).2.rows := by
    rw [EventTable.insertAll, addRows_eq parseLossless]
  have hlisted : ∀ roomId key,
      (table.insertAll parseLossless events).2.byRoomStream roomId =
          (table.insertEach parseLossless events).2.byRoomStream roomId ∧
        (table.insertAll parseLossless events).2.relationChildren key =
          (table.insertEach parseLossless events).2.relationChildren key := by
    intro roomId key
    have hl : ∀ p ∈ table.byRoomStream roomId, p < table.rows.length := fun p hp =>
      (((h.rooms roomId).mem p).mp hp).lt
    have hm : ∀ p ∈ table.relationChildren key, p < table.rows.length := fun p hp =>
      (((h.relations key).mem p).mp hp).lt
    exact ((h.listed roomId key).insertAll hl hm le_rfl h events).unique
      ((h.listed roomId key).insertEach hl hm le_rfl events) hrows
  ext : 1
  · show (addRows events _).1.length - _ = _
    rw [addRows_eq parseLossless, length_insertEach, Nat.add_sub_cancel_left]
  · ext1
    · exact hrows
    · rw [EventTable.insertAll, addRows_eq parseLossless]
    · have hstream := hall.stream
      rw [hrows] at hstream
      exact hstream.unique heach.stream (StreamBefore.asymm fun _ _ => lt_asymm)
    · exact funext fun roomId => (hlisted roomId ⟨[], .thread⟩).1
    · funext roomId
      have htimes := hall.times roomId
      rw [hrows] at htimes
      exact htimes.unique (heach.times roomId) fun _ _ => lt_asymm
    · rw [EventTable.insertAll, addRows_eq parseLossless]
    · exact funext fun key => (hlisted [] key).2

theorem insertAll_eq_insertEach_moved :
    let events := [{ eventId := "$c", roomId := "!b", streamOrdering := 5 },
      { eventId := "$a", roomId := "!a" }, { eventId := "$c", roomId := "!a" }]
    ∃ table, Run (Step fun _ => none) empty exampleOperations table ∧
      table.insertAll (fun _ => none) events = table.insertEach (fun _ => none) events ∧
      (table.insertAll (fun _ => none) events).1 = 1 := by
  have hrun : Run (Step fun _ => none) empty exampleOperations _ :=
    .cons rfl (.cons rfl (.cons rfl (.nil _)))
  exact ⟨_, hrun, insertAll_eq_insertEach hrun _, by decide⟩

end EventTable

end Merovingian
