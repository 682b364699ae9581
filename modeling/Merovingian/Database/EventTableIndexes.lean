import Merovingian.Database.EventTable

/-!
# The indexes of the event table

Every index of the table is an `IsIndex` of the positions of some rows: the lemmas follow what
appending, replacing and removing rows does to positions, and then each index in turn.

Two rows may share a stream ordering.  The stream order of the whole table then keeps the order in
which they were added.  A room's stream order does so too, as long as no modification moves a row
to a room that holds a later row with its stream ordering.
-/

namespace Merovingian

open Function List TimeEntry Option

namespace EventTable

variable {parseLossless : Str → Option Value}

/-! ### Positions -/

/-- The row at a position has a property. -/
def RowAt (rows : List PersistentEvent) (P : PersistentEvent → Prop) (position : ℕ) : Prop :=
  ∃ row, rows[position]? = some row ∧ P row

/-- The order of positions by stream ordering, with `tie` between equal stream orderings. -/
def StreamBefore (tie : ℕ → ℕ → Prop) (rows : List PersistentEvent) (p q : ℕ) : Prop :=
  orderingAt rows p < orderingAt rows q ∨ orderingAt rows p = orderingAt rows q ∧ tie p q

section Positions

variable {rows added : List PersistentEvent} {event row target : PersistentEvent}
  {P : PersistentEvent → Prop} {p q position : ℕ} {removed : List Bool} {tie : ℕ → ℕ → Prop}

lemma RowAt.lt (h : RowAt rows P p) : p < rows.length := by
  obtain ⟨row, hrow, -⟩ := h
  exact (List.getElem?_eq_some_iff.mp hrow).1

lemma rowAt_true : RowAt rows (fun _ => True) p ↔ p < rows.length := by
  exact ⟨RowAt.lt, fun hp => ⟨rows[p], getElem?_eq_getElem hp, trivial⟩⟩

lemma rowAt_iff (hrow : rows[p]? = some row) : RowAt rows P p ↔ P row := by
  simp [RowAt, hrow]

lemma rowAt_append_of_lt (hp : p < rows.length) : RowAt (rows ++ added) P p ↔ RowAt rows P p := by
  rw [RowAt, getElem?_append_left hp, RowAt]

lemma rowAt_append : RowAt (rows ++ added) P p ↔
    RowAt rows P p ∨ rows.length ≤ p ∧ RowAt (rows ++ added) P p := by
  constructor
  · intro hp
    rcases Nat.lt_or_ge p rows.length with hlt | hge
    · exact .inl ((rowAt_append_of_lt hlt).mp hp)
    · exact .inr ⟨hge, hp⟩
  · rintro (hp | ⟨-, hp⟩)
    · exact (rowAt_append_of_lt hp.lt).mpr hp
    · exact hp

lemma rowAt_concat : RowAt (rows ++ [event]) P p ↔ (p = rows.length ∧ P event) ∨ RowAt rows P p := by
  have hlast : rows.length ≤ p ∧ RowAt (rows ++ [event]) P p ↔ p = rows.length ∧ P event := by
    constructor
    · rintro ⟨hge, hp⟩
      have hlt := hp.lt
      rw [length_append, length_singleton] at hlt
      obtain rfl : p = rows.length := by omega
      exact ⟨rfl, (rowAt_iff getElem?_concat_length).mp hp⟩
    · rintro ⟨rfl, hevent⟩
      exact ⟨le_rfl, (rowAt_iff getElem?_concat_length).mpr hevent⟩
  rw [rowAt_append, hlast, or_comm]

lemma rowAt_set (hposition : position < rows.length) :
    RowAt (rows.set position target) P p ↔
      (p = position ∧ P target) ∨ (p ≠ position ∧ RowAt rows P p) := by
  by_cases hp : p = position
  · subst hp
    rw [rowAt_iff (getElem?_set_self hposition)]
    simp
  · rw [RowAt, getElem?_set_ne (Ne.symm hp), ← RowAt]
    simp [hp]

lemma set_self (hrow : rows[position]? = some row) : rows.set position row = rows := by
  obtain ⟨hlt, rfl⟩ := List.getElem?_eq_some_iff.mp hrow
  exact set_getElem_self hlt

lemma rowAt_set_of_iff (hrow : rows[position]? = some row)
    (hP : P target ↔ P row) : RowAt (rows.set position target) P p ↔ RowAt rows P p := by
  have hlt := (List.getElem?_eq_some_iff.mp hrow).1
  rw [rowAt_set hlt, hP, ← rowAt_set hlt, set_self hrow]

lemma rowAt_unmarked (hlen : removed.length = rows.length) :
    RowAt (unmarked removed rows) P q ↔ ∃ p, RowAt rows P p ∧ remap removed p = some q := by
  constructor
  · intro h
    obtain ⟨p, hp⟩ := exists_remap hlen h.lt
    obtain ⟨row, hrow, hP⟩ := h
    rw [getElem?_unmarked hlen hp] at hrow
    exact ⟨p, ⟨row, hrow, hP⟩, hp⟩
  · rintro ⟨p, ⟨row, hrow, hP⟩, hp⟩
    exact ⟨row, by rw [getElem?_unmarked hlen hp, hrow], hP⟩

lemma orderingAt_append (hp : p < rows.length) :
    orderingAt (rows ++ added) p = orderingAt rows p := by
  rw [orderingAt, getElem?_append_left hp, orderingAt]

lemma orderingAt_set (hrow : rows[position]? = some row)
    (hordering : target.streamOrdering = row.streamOrdering) (p : ℕ) :
    orderingAt (rows.set position target) p = orderingAt rows p := by
  by_cases hp : p = position
  · subst hp
    rw [orderingAt, List.getElem?_set_self (List.getElem?_eq_some_iff.mp hrow).1, orderingAt, hrow]
    simp [hordering]
  · rw [orderingAt, getElem?_set_ne (Ne.symm hp), orderingAt]

lemma orderingAt_unmarked (hlen : removed.length = rows.length) (hp : remap removed p = some q) :
    orderingAt (unmarked removed rows) q = orderingAt rows p := by
  rw [orderingAt, getElem?_unmarked hlen hp, orderingAt]

lemma StreamBefore.le (h : StreamBefore tie rows p q) : orderingAt rows p ≤ orderingAt rows q := by
  rcases h with h | ⟨h, -⟩ <;> exact h.le

/-- Against a row with another stream ordering, or in the order of the tie, a row is before or
after as its stream ordering says. -/
lemma streamBefore_of_le (htie : tie p q) (hle : orderingAt rows p ≤ orderingAt rows q) :
    StreamBefore tie rows p q := by
  rcases hle.lt_or_eq with h | h
  · exact .inl h
  · exact .inr ⟨h, htie⟩

lemma StreamBefore.irrefl (htie : ∀ p, ¬ tie p p) (p : ℕ) : ¬ StreamBefore tie rows p p := by
  rintro (h | ⟨-, h⟩)
  · exact lt_irrefl _ h
  · exact htie p h

lemma StreamBefore.asymm (htie : ∀ p q, tie p q → ¬ tie q p) (p q : ℕ)
    (h : StreamBefore tie rows p q) : ¬ StreamBefore tie rows q p := by
  rintro (h' | ⟨heq, h'⟩)
  · exact absurd h.le (not_le.mpr h')
  · rcases h with h | ⟨-, h⟩
    · exact absurd heq (ne_of_gt h)
    · exact htie p q h h'

end Positions

/-! ### Stream orders -/

section StreamOrders

variable {rows : List PersistentEvent} {event row target : PersistentEvent}
  {P : PersistentEvent → Prop} {l : List ℕ} {position : ℕ} {removed : List Bool}
  {tie : ℕ → ℕ → Prop} (added : List PersistentEvent)

section

variable (h : IsIndex (StreamBefore tie rows) (RowAt rows P) l)

include h

lemma streamIndex_append :
    IsIndex (StreamBefore tie (rows ++ added)) (RowAt rows P) l := by
  refine h.congr (fun p q hp hq hpq => ?_) fun _ => Iff.rfl
  rwa [StreamBefore, orderingAt_append hp.lt, orderingAt_append hq.lt]

/-- A new row that does not belong to an index leaves it as it is. -/
lemma streamIndex_skip (hP : ¬ P event) :
    IsIndex (StreamBefore tie (rows ++ [event])) (RowAt (rows ++ [event]) P) l := by
  refine (streamIndex_append [event] h).congr_mem fun p => ?_
  rw [rowAt_concat, or_iff_right fun hnew => hP hnew.2]

lemma streamIndex_insert (hP : P event) (htie : ∀ p < rows.length, tie p rows.length) :
    IsIndex (StreamBefore tie (rows ++ [event])) (RowAt (rows ++ [event]) P)
      (insertNewest (orderingAt (rows ++ [event])) rows.length l) := by
  have hinsert := (streamIndex_append [event] h).insertNewest (orderingAt (rows ++ [event]))
    rows.length (fun p q hpq => hpq.le) (fun p hp hle => streamBefore_of_le (htie p hp.lt) hle)
    (fun p hp hlt => .inl hlt)
  refine hinsert.congr_mem fun p => ?_
  rw [rowAt_concat, and_iff_left hP]

end

lemma mem_addedWith [DecidablePred P] {firstAdded p : ℕ} :
    p ∈ addedWith rows firstAdded (fun row => P row) ↔ firstAdded ≤ p ∧ RowAt rows P p := by
  rw [addedWith, mem_filter, mem_range'_1, Option.any_eq_true]
  simp only [decide_eq_true_eq]
  constructor
  · rintro ⟨⟨hle, -⟩, hrow⟩
    exact ⟨hle, hrow⟩
  · rintro ⟨hle, hrow⟩
    have := RowAt.lt hrow
    exact ⟨⟨hle, by omega⟩, hrow⟩

lemma pairwise_addedWith {P : PersistentEvent → Bool} {firstAdded : ℕ} :
    (addedWith rows firstAdded P).Pairwise fun p q => p < q ∧ firstAdded ≤ q := by
  refine Pairwise.filter _ (Pairwise.imp_of_mem (fun _ hq hpq => ⟨hpq, ?_⟩) pairwise_lt_range')
  exact (mem_range'_1.mp hq).1

lemma streamIndex_insertAll [DecidablePred P] (h : IsIndex (StreamBefore tie rows) (RowAt rows P) l)
    (htie : ∀ p q, p < q → rows.length ≤ q → tie p q) :
    IsIndex (StreamBefore tie (rows ++ added)) (RowAt (rows ++ added) P)
      (stableMerge (orderingAt (rows ++ added)) l (stableSort (orderingAt (rows ++ added))
        (addedWith (rows ++ added) rows.length fun row => P row))) := by
  set positions := addedWith (rows ++ added) rows.length fun row => P row
  have hsorted : IsIndex (StreamBefore tie (rows ++ added)) (· ∈ positions)
      (stableSort (orderingAt (rows ++ added)) positions) :=
    isIndex_stableSort pairwise_addedWith (fun p q hpq => hpq.le)
      (fun p q hpq hle => streamBefore_of_le (htie p q hpq.1 hpq.2) hle) (fun p q _ hlt => .inl hlt)
  have hmerged := (streamIndex_append added h).stableMerge (orderingAt (rows ++ added)) hsorted
    (fun p q hpq => hpq.le) ?_ (fun p q _ _ hlt => .inl hlt)
  · refine hmerged.congr_mem fun p => ?_
    rw [mem_addedWith]
    exact rowAt_append.symm
  · intro p q hp hq hle
    have hadded := (mem_addedWith.mp hq).1
    exact streamBefore_of_le (htie p q (hp.lt.trans_le hadded) hadded) hle

variable (h : IsIndex (StreamBefore tie rows) (RowAt rows P) l)

include h

lemma streamIndex_erase (hlen : removed.length = rows.length)
    (htie : ∀ p q p' q', tie p q → remap removed p = some p' → remap removed q = some q' →
      tie p' q') :
    IsIndex (StreamBefore tie (unmarked removed rows)) (RowAt (unmarked removed rows) P)
      (l.filterMap (remap removed)) := by
  refine (h.filterMap (remap removed) ?_).congr_mem fun q => (rowAt_unmarked hlen).symm
  intro p q p' q' hpq hp hq
  rw [StreamBefore, orderingAt_unmarked hlen hp, orderingAt_unmarked hlen hq]
  rcases hpq with hlt | ⟨heq, hpq⟩
  · exact .inl hlt
  · exact .inr ⟨heq, htie p q p' q' hpq hp hq⟩

variable (hrow : rows[position]? = some row)
  (hordering : target.streamOrdering = row.streamOrdering)

include hrow hordering

lemma streamIndex_reordered :
    IsIndex (StreamBefore tie (rows.set position target)) (RowAt rows P) l := by
  refine h.congr (fun p q _ _ hpq => ?_) fun _ => Iff.rfl
  rwa [StreamBefore, orderingAt_set hrow hordering, orderingAt_set hrow hordering]

lemma streamIndex_set (hP : P target ↔ P row) :
    IsIndex (StreamBefore tie (rows.set position target)) (RowAt (rows.set position target) P) l := by
  refine (streamIndex_reordered h hrow hordering).congr_mem fun p => ?_
  rw [rowAt_set_of_iff hrow hP]

lemma streamIndex_leave (hirrefl : ∀ p, ¬ tie p p) (hP : ¬ P target) :
    IsIndex (StreamBefore tie (rows.set position target)) (RowAt (rows.set position target) P)
      (eraseAmong (orderingAt (rows.set position target)) row.streamOrdering position l) := by
  have hat : orderingAt (rows.set position target) position = row.streamOrdering := by
    rw [orderingAt_set hrow hordering, orderingAt, hrow]
    rfl
  have hsame := streamIndex_reordered h hrow hordering
  rw [← hat, eraseAmong_eq (hsame.pairwise.imp fun hpq => hpq.le)]
  refine (hsame.erase (StreamBefore.irrefl hirrefl) position).congr_mem fun p => ?_
  rw [rowAt_set (List.getElem?_eq_some_iff.mp hrow).1]
  simp [hP, and_comm]

lemma streamIndex_enter (hP : P target)
    (htie : ∀ q, RowAt rows P q → orderingAt rows q = orderingAt rows position → tie q position) :
    IsIndex (StreamBefore tie (rows.set position target)) (RowAt (rows.set position target) P)
      (insertNewest (orderingAt (rows.set position target)) position l) := by
  have hat : ∀ p, orderingAt (rows.set position target) p = orderingAt rows p :=
    orderingAt_set hrow hordering
  have hsame := streamIndex_reordered h hrow hordering
  have hinsert := hsame.insertNewest (orderingAt (rows.set position target)) position
    (fun p q hpq => hpq.le) ?_ (fun q _ hlt => .inl hlt)
  · refine hinsert.congr_mem fun p => ?_
    rw [rowAt_set (List.getElem?_eq_some_iff.mp hrow).1]
    by_cases hp : p = position
    · simp [hp, hP]
    · simp [hp]
  · intro q hq hle
    rcases hle.lt_or_eq with hlt | heq
    · exact .inl hlt
    · exact .inr ⟨heq, htie q hq (by rw [← hat q, ← hat position, heq])⟩

end StreamOrders

/-! ### The room-and-time index -/

section Times

variable {rows added : List PersistentEvent} {event row target : PersistentEvent}
  {byRoomTime : Str → List TimeEntry} {position : ℕ} {removed : List Bool} {e f : TimeEntry}
  {roomId : Str} {l : List TimeEntry}

/-- The entry of some row of the room. -/
def TimeRow (rows : List PersistentEvent) (roomId : Str) (entry : TimeEntry) : Prop :=
  ∃ position, RowAt rows (fun row => row.roomId = roomId ∧ timeEntryFor row position = some entry)
    position

/-- The order of the index. -/
def TimeBefore (e f : TimeEntry) : Prop := e.key < f.key

lemma timeEntryKey_injective : Injective key := by
  intro e f h
  simp only [key] at h
  cases e
  cases f
  simp_all

/-- Entries of different rows are never equal. -/
lemma timeBefore_of_le (hne : e.position ≠ f.position) (hle : e.key ≤ f.key) : TimeBefore e f := by
  refine lt_of_le_of_ne hle fun h => hne ?_
  rw [timeEntryKey_injective h]

lemma position_of_timeEntryFor (h : timeEntryFor row position = some e) : e.position = position := by
  rw [timeEntryFor] at h
  split at h
  · cases h
  · obtain ⟨ts, -, rfl⟩ := map_eq_some_iff.mp h
    rfl

lemma timeEntryFor_move {p : ℕ} (h : timeEntryFor row position = some e) :
    timeEntryFor row p = some { e with position := p } := by
  rw [timeEntryFor] at h ⊢
  split at h
  · cases h
  · rename_i hstatus
    obtain ⟨ts, hts, rfl⟩ := map_eq_some_iff.mp h
    rw [if_neg hstatus, hts]
    rfl

lemma RowAt.position_eq (h : RowAt rows
    (fun row => row.roomId = roomId ∧ timeEntryFor row position = some e) position) :
    e.position = position := by
  obtain ⟨row, -, -, hentry⟩ := h
  exact position_of_timeEntryFor hentry

lemma TimeRow.lt (h : TimeRow rows roomId e) : e.position < rows.length := by
  obtain ⟨position, hrow⟩ := h
  exact hrow.position_eq ▸ hrow.lt

/-- Adding the entry of a row that is not indexed yet. -/
lemma timeIndex_index {S : Str → TimeEntry → Prop} (target : PersistentEvent)
    (h : ∀ roomId, IsIndex TimeBefore (S roomId) (byRoomTime roomId))
    (hposition : ∀ roomId e, S roomId e → e.position ≠ position) (roomId : Str) :
    IsIndex TimeBefore
      (fun e => target.roomId = roomId ∧ timeEntryFor target position = some e ∨ S roomId e)
      (indexTime byRoomTime target position roomId) := by
  rw [indexTime]
  cases hentry : timeEntryFor target position with
  | none => exact (h roomId).congr_mem fun e => by simp
  | some entry =>
    have hat := position_of_timeEntryFor hentry
    have hinsert := (h target.roomId).insertNewest key entry (fun e f hef => le_of_lt hef)
      (fun e he hle => timeBefore_of_le (hat ▸ hposition _ e he) hle) (fun e _ hlt => hlt)
    refine .update h (fun hroom => ?_) fun hroom e => by simp [Ne.symm hroom]
    exact hinsert.congr_mem fun e => by simp [hroom, eq_comm]

lemma timeIndex_unindex (h : ∀ roomId, IsIndex TimeBefore (TimeRow rows roomId) (byRoomTime roomId))
    (hrow : rows[position]? = some row) (roomId : Str) :
    IsIndex TimeBefore (fun e => TimeRow rows roomId e ∧ e.position ≠ position)
      (unindexTime byRoomTime row.roomId (timeEntryFor row position) roomId) := by
  -- an entry at the position is the row's own, in the row's room
  have hown : ∀ e, TimeRow rows roomId e →
      (e.position = position ↔ row.roomId = roomId ∧ timeEntryFor row position = some e) := by
    rintro e ⟨p, hp⟩
    refine ⟨?_, fun h => position_of_timeEntryFor h.2⟩
    rintro rfl
    rw [← hp.position_eq] at hp
    exact (rowAt_iff hrow).mp hp
  cases hentry : timeEntryFor row position with
  | none =>
    refine (h roomId).congr_mem fun e => (and_iff_left_of_imp fun he hposition => ?_).symm
    exact absurd ((hown e he).mp hposition).2 (by simp [hentry])
  | some entry =>
    refine .update h (fun hroom => ?_) fun hroom e => (and_iff_left_of_imp fun he hposition =>
      hroom ((hown e he).mp hposition).1.symm).symm
    subst hroom
    rw [eraseLower_eq ((h _).pairwise.imp fun hef => le_of_lt hef) timeEntryKey_injective]
    refine ((h row.roomId).erase (fun _ => lt_irrefl _) entry).congr_mem fun e =>
      and_congr_right fun he => not_congr ?_
    rw [hown e he, hentry, some.injEq, and_iff_right rfl, eq_comm]

lemma timeRow_concat : TimeRow (rows ++ [event]) roomId e ↔
    event.roomId = roomId ∧ timeEntryFor event rows.length = some e ∨ TimeRow rows roomId e := by
  simp [TimeRow, rowAt_concat, exists_or]

lemma timeRow_set (hposition : position < rows.length) :
    TimeRow (rows.set position target) roomId e ↔
      target.roomId = roomId ∧ timeEntryFor target position = some e ∨
        TimeRow rows roomId e ∧ e.position ≠ position := by
  simp only [TimeRow, rowAt_set hposition, exists_or, exists_eq_left, ← exists_and_right]
  refine or_congr_right (exists_congr fun p => and_comm.trans (and_congr_right fun hp => ?_))
  rw [hp.position_eq]

lemma timeIndex_insertAll (h : IsIndex TimeBefore (TimeRow rows roomId) l) :
    IsIndex TimeBefore (TimeRow (rows ++ added) roomId) (stableMerge key l (stableSort key
        ((addedWith (rows ++ added) rows.length fun row => row.roomId = roomId).filterMap
          fun position => (rows ++ added)[position]?.bind fun row => timeEntryFor row position))) := by
  set times := (addedWith (rows ++ added) rows.length fun row => row.roomId = roomId).filterMap
    fun position => (rows ++ added)[position]?.bind fun row => timeEntryFor row position with htimes
  have hmem : ∀ e, e ∈ times ↔ ∃ p, rows.length ≤ p ∧ RowAt (rows ++ added)
      (fun row => row.roomId = roomId ∧ timeEntryFor row p = some e) p := by
    intro e
    rw [mem_filterMap]
    refine exists_congr fun p => ?_
    rw [mem_addedWith]
    constructor
    · rintro ⟨⟨hle, row, hrow, hroom⟩, hentry⟩
      rw [hrow] at hentry
      exact ⟨hle, row, hrow, hroom, hentry⟩
    · rintro ⟨hle, row, hrow, hroom, hentry⟩
      exact ⟨⟨hle, row, hrow, hroom⟩, by rw [hrow]; exact hentry⟩
  have hpairwise : times.Pairwise fun e f => e.position ≠ f.position := by
    rw [pairwise_filterMap]
    refine pairwise_addedWith.imp fun {p q} hpq e he f hf => ?_
    obtain ⟨row, -, he⟩ := bind_eq_some_iff.mp he
    obtain ⟨row', -, hf⟩ := bind_eq_some_iff.mp hf
    rw [position_of_timeEntryFor he, position_of_timeEntryFor hf]
    exact ne_of_lt hpq.1
  have hsorted : IsIndex TimeBefore (· ∈ times) (stableSort key times) :=
    isIndex_stableSort hpairwise (fun e f hef => le_of_lt hef)
      (fun e f hef hle => timeBefore_of_le hef hle) (fun e f _ hlt => hlt)
  have hmerged := h.stableMerge key hsorted (fun e f hef => le_of_lt hef) ?_
    (fun e f _ _ hlt => hlt)
  · refine hmerged.congr_mem fun e => ?_
    rw [hmem, TimeRow, ← exists_or]
    exact exists_congr fun p => rowAt_append.symm
  · intro e f he hf hle
    obtain ⟨p, hge, hp⟩ := (hmem f).mp hf
    have hlt := he.lt
    refine timeBefore_of_le ?_ hle
    rw [hp.position_eq]
    omega

lemma timeIndex_erase (h : IsIndex TimeBefore (TimeRow rows roomId) l)
    (hlen : removed.length = rows.length) :
    IsIndex TimeBefore (TimeRow (unmarked removed rows) roomId)
      (l.filterMap fun entry => (remap removed entry.position).map fun position =>
        { entry with position := position }) := by
  have hfilter := h.filterMap (Q := TimeBefore) (fun entry =>
    (remap removed entry.position).map fun position => { entry with position := position }) ?_
  · refine hfilter.congr_mem fun e => ?_
    constructor
    · rintro ⟨entry, ⟨p, row, hrow, hroom, hentry⟩, hmap⟩
      obtain ⟨q, hq, rfl⟩ := map_eq_some_iff.mp hmap
      rw [position_of_timeEntryFor hentry] at hq
      refine ⟨q, row, by rw [getElem?_unmarked hlen hq, hrow], hroom, ?_⟩
      exact timeEntryFor_move hentry
    · rintro ⟨q, hq⟩
      obtain ⟨p, ⟨row, hrow, hroom, hentry⟩, hp⟩ := (rowAt_unmarked hlen).mp hq
      refine ⟨{ e with position := p }, ⟨p, row, hrow, hroom, timeEntryFor_move hentry⟩, ?_⟩
      have hat := position_of_timeEntryFor hentry
      subst hat
      rw [hp]
      rfl
  · intro e f e' f' hef he hf
    obtain ⟨p, hp, rfl⟩ := map_eq_some_iff.mp he
    obtain ⟨q, hq, rfl⟩ := map_eq_some_iff.mp hf
    simp only [TimeBefore, key, Prod.Lex.toLex_lt_toLex] at hef ⊢
    have hposition : e.position < f.position → p < q := remap_lt hp hq
    tauto

end Times

/-! ### The relation index -/

section Relations

variable {children : RelationKey → List ℕ} {S : RelationKey → ℕ → Prop} {position : ℕ}
  {relation : Option RelationKey} {R : ℕ → ℕ → Prop}

lemma relationIndex_index {S : ℕ → Prop} {key : RelationKey} (relation : Option RelationKey)
    (h : IsIndex R S (children key)) (hposition : ∀ p, S p → R p position) :
    IsIndex R (fun p => p = position ∧ relation = some key ∨ S p)
      (indexRelation children position relation key) := by
  by_cases hkey : relation = some key
  · subst hkey
    rw [indexRelation, update_self]
    refine (h.append (.singleton position) ?_).congr_mem fun p => by simp [or_comm]
    rintro p q hp rfl
    exact hposition p hp
  · have hsame : indexRelation children position relation key = children key := by
      cases relation with
      | none => rfl
      | some own => exact update_of_ne (fun heq => hkey (congrArg some heq.symm)) _ _
    rw [hsame]
    exact h.congr_mem fun p => by simp [hkey]

lemma relationIndex_unindex (h : ∀ key, IsIndex (· ≠ ·) (S key) (children key))
    (hown : ∀ key, S key position → relation = some key) (key : RelationKey) :
    IsIndex (· ≠ ·) (fun p => S key p ∧ p ≠ position)
      (unindexRelation children position relation key) := by
  -- under any other key the position is not listed
  have hother : relation ≠ some key → ∀ p, S key p ↔ S key p ∧ p ≠ position := by
    refine fun hne p => (and_iff_left_of_imp ?_).symm
    rintro hp rfl
    exact hne (hown key hp)
  cases relation with
  | none => exact (h key).congr_mem (hother nofun)
  | some own =>
    refine .update h (fun hkey => ?_) fun hkey => hother (by simpa using Ne.symm hkey)
    subst hkey
    exact ((h key).filter (· ≠ position)).congr_mem fun p => by simp

lemma relationIndex_insertAll {rows added : List PersistentEvent} {l : List ℕ}
    {P : PersistentEvent → Prop} [DecidablePred P] (h : IsIndex R (RowAt rows P) l)
    (hR : ∀ p q, p < q → rows.length ≤ q → R p q) :
    IsIndex R (RowAt (rows ++ added) P)
      (l ++ addedWith (rows ++ added) rows.length fun row => P row) := by
  have hadded : IsIndex R (· ∈ addedWith (rows ++ added) rows.length fun row => P row)
      (addedWith (rows ++ added) rows.length fun row => P row) :=
    ⟨pairwise_addedWith.imp fun hpq => hR _ _ hpq.1 hpq.2, fun _ => Iff.rfl⟩
  refine (h.append hadded fun p q hp hq => ?_).congr_mem fun p => ?_
  · have hadded := (mem_addedWith.mp hq).1
    exact hR p q (hp.lt.trans_le hadded) hadded
  · rw [mem_addedWith]
    exact rowAt_append.symm

end Relations

/-! ### The latest timestamps -/

section Latest

variable {rows added : List PersistentEvent} {event row target : PersistentEvent}
  {byRoomStream : Str → List ℕ} {roomLatestTs : Str → Option Int64} {roomId : Str}
  (row : PersistentEvent)

/-- The greatest positive timestamp of a room's rows, or 0. -/
def latestOf (rows : List PersistentEvent) (roomId : Str) : Int64 :=
  rows.foldr (fun row latest => if row.roomId = roomId then max (latestTsOf row) latest else latest) 0

/-- How a room's timestamp is held: only when it is positive. -/
def heldTs (latest : Int64) : Option Int64 := if 0 < latest then some latest else none

lemma latestTsOf_nonneg : 0 ≤ latestTsOf row := by
  rw [latestTsOf]
  split
  · split
    exacts [le_of_lt ‹_›, le_rfl]
  · exact le_rfl

lemma latestOf_cons (rows : List PersistentEvent) (roomId : Str) :
    latestOf (row :: rows) roomId =
      if row.roomId = roomId then max (latestTsOf row) (latestOf rows roomId)
      else latestOf rows roomId := rfl

lemma latestOf_le {bound : Int64} :
    latestOf rows roomId ≤ bound ↔
      0 ≤ bound ∧ ∀ row ∈ rows, row.roomId = roomId → latestTsOf row ≤ bound := by
  induction rows with
  | nil => simp [latestOf]
  | cons row rows ih =>
    rw [latestOf_cons]
    split_ifs with hroom
    · rw [max_le_iff, ih, forall_mem_cons, and_left_comm, imp_iff_right hroom]
    · rw [ih, forall_mem_cons, and_iff_right fun h => absurd h hroom]

lemma latestOf_nonneg : 0 ≤ latestOf rows roomId := (latestOf_le.mp (le_refl _)).1

lemma recomputeLatestTs_self
    (hroom : ∀ p, p ∈ byRoomStream roomId ↔ RowAt rows (fun row => row.roomId = roomId) p) :
    recomputeLatestTs rows byRoomStream roomLatestTs roomId roomId =
      heldTs (latestOf rows roomId) := by
  have hfold : ∀ (positions : List ℕ) (start bound : Int64), positions.foldl
      (fun latest p => max latest ((rows[p]?.map latestTsOf).getD 0)) start ≤ bound ↔
      start ≤ bound ∧ ∀ p ∈ positions, (rows[p]?.map latestTsOf).getD 0 ≤ bound := by
    intro positions
    induction positions with
    | nil => simp
    | cons p positions ih =>
      intro start bound
      rw [foldl_cons, ih, max_le_iff, forall_mem_cons, and_assoc]
  have hlatest : (byRoomStream roomId).foldl
      (fun latest p => max latest ((rows[p]?.map latestTsOf).getD 0)) 0 = latestOf rows roomId := by
    refine eq_of_forall_ge_iff fun bound => ?_
    rw [hfold, latestOf_le]
    refine and_congr_right fun _ => ?_
    constructor
    · intro h row hrow hid
      obtain ⟨p, hp⟩ := mem_iff_getElem?.mp hrow
      have := h p ((hroom p).mpr ⟨row, hp, hid⟩)
      rwa [hp] at this
    · intro h p hp
      obtain ⟨row, hrow, hid⟩ := (hroom p).mp hp
      rw [hrow]
      exact h row (mem_of_getElem? hrow) hid
  rw [recomputeLatestTs, update_self, hlatest, heldTs]

lemma recomputeLatestTs_of_ne {other : Str} (hne : other ≠ roomId) :
    recomputeLatestTs rows byRoomStream roomLatestTs roomId other = roomLatestTs other :=
  update_of_ne hne _ _

lemma latestOf_congr {rows' : List PersistentEvent}
    (h : ∀ bound, (∀ row ∈ rows, row.roomId = roomId → latestTsOf row ≤ bound) ↔
      ∀ row ∈ rows', row.roomId = roomId → latestTsOf row ≤ bound) :
    latestOf rows roomId = latestOf rows' roomId := by
  refine eq_of_forall_ge_iff fun bound => ?_
  rw [latestOf_le, latestOf_le, h]

lemma latestOf_concat : latestOf (rows ++ [event]) roomId =
    if event.roomId = roomId then max (latestOf rows roomId) (latestTsOf event)
    else latestOf rows roomId := by
  refine eq_of_forall_ge_iff fun bound => ?_
  split_ifs with hroom <;>
    simp [latestOf_le, hroom, or_imp, forall_and, and_assoc]

lemma raiseLatestTs_eq (h : ∀ roomId, roomLatestTs roomId = heldTs (latestOf rows roomId))
    (roomId : Str) :
    raiseLatestTs roomLatestTs event roomId = heldTs (latestOf (rows ++ [event]) roomId) := by
  rw [latestOf_concat, raiseLatestTs]
  by_cases hpos : 0 < latestTsOf event
  · rw [if_pos hpos]
    by_cases hroom : event.roomId = roomId
    · subst hroom
      rw [update_self, if_pos rfl, h, heldTs, heldTs, if_pos (lt_max_of_lt_right hpos)]
      split
      · rfl
      · rename_i hzero
        have hlatest : latestOf rows event.roomId = 0 :=
          le_antisymm (not_lt.mp hzero) latestOf_nonneg
        rw [hlatest, getD_none, max_self, max_eq_right (le_of_lt hpos)]
    · rw [update_of_ne (Ne.symm hroom), if_neg hroom, h]
  · have hzero : latestTsOf event = 0 := le_antisymm (not_lt.mp hpos) (latestTsOf_nonneg event)
    rw [if_neg hpos, h, hzero, max_eq_left latestOf_nonneg, ite_self]

end Latest

end EventTable

end Merovingian
