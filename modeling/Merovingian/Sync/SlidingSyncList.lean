import Merovingian.Lib.Bytes
import Merovingian.Lib.Run

/-!
# The list of a sliding-sync connection

The model of the last step of `compute_room_list` of `sync/sliding_sync_room_list.cpp`, and of what
the handler of `homeserver/ClientServerRuntime.cpp` keeps of an answer.  The server omits the
operation of a range whose rooms equal a slice of the previous window, cut out by the lengths of the
ranges of the new request.  A slice is what the client holds in the range if the previous request
had the range in the same place, so a client that moves its ranges only where the slices differ
holds the list (`requested_ranges_current`).  Any other may not (`moved_range_stale`).
-/

namespace Merovingian

open List

/-- `SlidingSyncRange`, with the source's `end` as `last`. -/
structure SlidingSyncRange where
  start : ℕ
  last : ℕ
deriving DecidableEq, Repr

structure SlidingSyncOp where
  op : Str := "SYNC"
  range : SlidingSyncRange
  roomIds : List Str
deriving DecidableEq, Repr

structure RoomListResult where
  totalCount : ℕ
  windowedRoomIds : List Str
  ops : List SlidingSyncOp
deriving DecidableEq, Repr

/-- `sliding_sync_ranges_valid`: a range is not reversed, and ends before the next one starts. -/
def slidingSyncRangesValid : List SlidingSyncRange → Bool
  | [] => true
  | [range] => range.start ≤ range.last
  | range :: next :: ranges =>
    range.start ≤ range.last && range.last < next.start && slidingSyncRangesValid (next :: ranges)

/-- The loop over one range, which stops at the end of the list. -/
def rangeRooms (sorted : List Str) (range : SlidingSyncRange) : List Str :=
  (sorted.drop range.start).take (range.last + 1 - range.start)

/-- The window of an answer. -/
def windowRooms (sorted : List Str) (ranges : List SlidingSyncRange) : List Str :=
  ranges.flatMap (rangeRooms sorted)

/-- The operations of a first answer. -/
def makeSyncOps (sorted : List Str) (ranges : List SlidingSyncRange) : List SlidingSyncOp :=
  ranges.map fun range => { range, roomIds := rangeRooms sorted range }

/-- `len` of the loop over the ranges.  The parser takes no number above 2 ^ 53 - 1, so the
source's 64-bit sums do not wrap. -/
def SlidingSyncRange.len (range : SlidingSyncRange) : ℕ :=
  if range.start ≤ range.last then range.last - range.start + 1 else 0

/-- The loop of an incremental answer. -/
def changedOps (sorted prevWindow : List Str) : ℕ → List SlidingSyncRange → List SlidingSyncOp
  | _, [] => []
  | prevOffset, range :: ranges =>
    let currentSlice := rangeRooms sorted range
    let prevSlice := (prevWindow.drop prevOffset).take range.len
    let later := changedOps sorted prevWindow (prevOffset + range.len) ranges
    if currentSlice ≠ prevSlice then { range, roomIds := currentSlice } :: later else later

/-- The last step of `compute_room_list`, for the rooms of the list in their order. -/
def computeRoomList (sorted : List Str) (ranges : List SlidingSyncRange) (prevWindow : List Str) :
    RoomListResult where
  totalCount := sorted.length
  windowedRoomIds := windowRooms sorted ranges
  ops := if prevWindow = [] then makeSyncOps sorted ranges
    else changedOps sorted prevWindow 0 ranges

/-- `SlidingSyncPendingResponse`, for one list: what an answer leaves until it is acknowledged. -/
structure SlidingSyncPendingResponse where
  requestPos : Str
  responsePos : Str
  listPrevWindow : List Str
  listConfig : List SlidingSyncRange
deriving DecidableEq, Repr

/-- `SlidingSyncConnectionState`, for one list. -/
structure SlidingSyncConnectionState where
  listPrevWindow : List Str := []
  pendingResponse : Option SlidingSyncPendingResponse := none
deriving DecidableEq, Repr

/-- A request for the list, with the rooms of the list and the position when it is answered. -/
structure SlidingSyncRequest where
  pos : Option Str
  ranges : List SlidingSyncRange
  sorted : List Str
  newPos : Str

namespace SlidingSyncConnectionState

/-- A request without a position, or with that of the last answer, acknowledges the answer. -/
def acknowledge (conn : SlidingSyncConnectionState) (pos : Option Str) :
    SlidingSyncConnectionState :=
  match conn.pendingResponse with
  | none => conn
  | some pending =>
    let requestedPos := pos.getD []
    if pos = none ∨ requestedPos = pending.responsePos ∧ requestedPos ≠ pending.requestPos then
      ⟨pending.listPrevWindow, none⟩
    else conn

/-- The answer to a request, unless its ranges are refused. -/
def answer (conn : SlidingSyncConnectionState) (request : SlidingSyncRequest) :
    Option (SlidingSyncConnectionState × RoomListResult) :=
  if slidingSyncRangesValid request.ranges then
    let committed := conn.acknowledge request.pos
    let result := computeRoomList request.sorted request.ranges committed.listPrevWindow
    let nextState : SlidingSyncPendingResponse :=
      ⟨request.pos.getD [], request.newPos, result.windowedRoomIds, request.ranges⟩
    some ({ committed with pendingResponse := some nextState }, result)
  else none

end SlidingSyncConnectionState

/-! ### The client -/

/-- A client writes the rooms of an operation from the start of its range on. -/
def SlidingSyncOp.apply (client : ℕ → Option Str) (op : SlidingSyncOp) : ℕ → Option Str := fun i =>
  if op.range.start ≤ i then op.roomIds[i - op.range.start]?.or (client i) else client i

/-- A connection, and what its client holds. -/
structure SyncedList where
  connection : SlidingSyncConnectionState := {}
  client : ℕ → Option Str := fun _ => none

/-- A request, and its answer applied. -/
def SyncedList.exchange (list : SyncedList) (request : SlidingSyncRequest) : Option SyncedList :=
  (list.connection.answer request).map fun (connection, result) =>
    ⟨connection, result.ops.foldl SlidingSyncOp.apply list.client⟩

def SlidingSyncRange.Covers (range : SlidingSyncRange) (i : ℕ) : Prop :=
  range.start ≤ i ∧ i ≤ range.last

/-- The client holds the rooms of the list at every index of the ranges. -/
def Current (client : ℕ → Option Str) (sorted : List Str) (ranges : List SlidingSyncRange) : Prop :=
  ∀ range ∈ ranges, ∀ i, range.Covers i → i < sorted.length → client i = sorted[i]?

/-- The ranges, each with the place in the previous window where its slice starts. -/
def placed : ℕ → List SlidingSyncRange → List (ℕ × SlidingSyncRange)
  | _, [] => []
  | prevOffset, range :: ranges => (prevOffset, range) :: placed (prevOffset + range.len) ranges

/-- The request is compared with the window of the last answer, because it acknowledges the answer
or because the answer changed nothing; and unless that window was empty, each of its ranges was one
of the last request in the same place or has other rooms than the slice it is compared with. -/
def Continues (conn : SlidingSyncConnectionState) (request : SlidingSyncRequest) : Prop :=
  ∀ pending, conn.pendingResponse = some pending →
    (conn.acknowledge request.pos).listPrevWindow = pending.listPrevWindow ∧
    (pending.listPrevWindow ≠ [] → ∀ entry ∈ placed 0 request.ranges,
      entry ∈ placed 0 pending.listConfig ∨
        rangeRooms request.sorted entry.2 ≠
          (pending.listPrevWindow.drop entry.1).take entry.2.len)

variable {sorted old prevWindow : List Str} {range : SlidingSyncRange}
  {ranges : List SlidingSyncRange}
  {client : ℕ → Option Str} {i offset : ℕ} {op : SlidingSyncOp}

/-! ### Applying operations -/

lemma getElem?_rangeRooms (h : range.Covers i) :
    (rangeRooms sorted range)[i - range.start]? = sorted[i]? := by
  obtain ⟨hstart, hlast⟩ := h
  rw [rangeRooms, getElem?_take_of_lt (by omega), getElem?_drop, Nat.add_sub_cancel' hstart]

lemma apply_eq (client : ℕ → Option Str)
    (hop : op.roomIds = rangeRooms sorted op.range) (hi : i < sorted.length) :
    (op.range.Covers i → op.apply client i = sorted[i]?) ∧
      (¬ op.range.Covers i → op.apply client i = client i) := by
  rw [SlidingSyncOp.apply, hop]
  refine ⟨fun h => ?_, fun h => ?_⟩
  · rw [if_pos h.1, getElem?_rangeRooms h, getElem?_eq_getElem hi, Option.some_or]
  · split_ifs with hstart
    · have hlast : ¬ i ≤ op.range.last := fun hlast => h ⟨hstart, hlast⟩
      rw [rangeRooms, getElem?_take_eq_none (by omega), Option.none_or]
    · rfl

/-- Operations with the rooms of the list leave the client right where it was, and where one of
them covers the index. -/
lemma foldl_apply {ops : List SlidingSyncOp}
    (hops : ∀ op ∈ ops, op.roomIds = rangeRooms sorted op.range) (hi : i < sorted.length)
    (h : client i = sorted[i]? ∨ ∃ op ∈ ops, op.range.Covers i) :
    ops.foldl SlidingSyncOp.apply client i = sorted[i]? := by
  induction ops generalizing client with
  | nil => exact h.resolve_right fun ⟨op, hop, _⟩ => not_mem_nil hop
  | cons op ops ih =>
    obtain ⟨hcovered, hother⟩ := apply_eq client (hops op mem_cons_self) hi
    refine ih (fun op hop => hops op (mem_cons_of_mem _ hop)) ?_
    by_cases hop : op.range.Covers i
    · exact .inl (hcovered hop)
    · rw [hother hop]
      refine h.imp_right fun ⟨other, hmem, hcovers⟩ => ⟨other, ?_, hcovers⟩
      refine mem_of_ne_of_mem ?_ hmem
      rintro rfl
      exact hop hcovers

/-! ### The previous window -/

lemma valid_cons (h : slidingSyncRangesValid (range :: ranges) = true) :
    slidingSyncRangesValid ranges = true ∧ ∀ next ∈ ranges, range.last < next.start := by
  induction ranges generalizing range with
  | nil => exact ⟨rfl, fun _ hnext => absurd hnext not_mem_nil⟩
  | cons next ranges ih =>
    simp only [slidingSyncRangesValid, Bool.and_eq_true, decide_eq_true_eq] at h
    obtain ⟨⟨-, hlast⟩, hvalid⟩ := h
    have hstart : next.start ≤ next.last := by
      cases ranges with
      | nil => simpa [slidingSyncRangesValid] using hvalid
      | cons => simp_all [slidingSyncRangesValid]
    refine ⟨hvalid, fun other hother => ?_⟩
    rcases mem_cons.mp hother with rfl | hother
    · exact hlast
    · have := (ih hvalid).2 other hother
      omega

lemma len_eq (range : SlidingSyncRange) : range.len = range.last + 1 - range.start := by
  unfold SlidingSyncRange.len
  split_ifs <;> omega

/-- The slices of a window, cut out by the lengths of its ranges.  A range that the end of the list
cuts short is the last one with rooms. -/
lemma window_slices (old : List Str) (h : slidingSyncRangesValid (range :: ranges) = true) :
    (windowRooms old (range :: ranges)).take range.len = rangeRooms old range ∧
      (windowRooms old (range :: ranges)).drop range.len = windowRooms old ranges := by
  have hwindow : windowRooms old (range :: ranges) = rangeRooms old range ++ windowRooms old ranges :=
    flatMap_cons
  have hlength : (rangeRooms old range).length = min range.len (old.length - range.start) := by
    rw [rangeRooms, length_take, length_drop, len_eq]
  rw [hwindow]
  by_cases hfull : range.len ≤ old.length - range.start
  · rw [min_eq_left hfull] at hlength
    exact ⟨take_left' hlength, drop_left' hlength⟩
  · have hempty : windowRooms old ranges = [] := by
      refine flatMap_eq_nil_iff.mpr fun next hnext => ?_
      have hlast := (valid_cons h).2 next hnext
      rw [len_eq] at hfull
      rw [rangeRooms, drop_eq_nil_of_le (by omega), take_nil]
    rw [hempty, append_nil, take_of_length_le (by omega), drop_eq_nil_of_le (by omega)]
    exact ⟨rfl, rfl⟩

lemma exists_placed (offset : ℕ) (h : range ∈ ranges) :
    ∃ place, (place, range) ∈ placed offset ranges := by
  induction ranges generalizing offset with
  | nil => exact absurd h not_mem_nil
  | cons first ranges ih =>
    rcases mem_cons.mp h with rfl | h
    · exact ⟨offset, mem_cons_self⟩
    · exact (ih (offset + first.len) h).imp fun _ => mem_cons_of_mem _

lemma slice_of_placed (hvalid : slidingSyncRangesValid ranges = true)
    (hprev : prevWindow.drop offset = windowRooms old ranges)
    (h : (i, range) ∈ placed offset ranges) :
    (prevWindow.drop i).take range.len = rangeRooms old range ∧ range ∈ ranges := by
  induction ranges generalizing offset with
  | nil => exact absurd h not_mem_nil
  | cons first ranges ih =>
    obtain ⟨htake, hdrop⟩ := window_slices old hvalid
    rw [← hprev] at htake hdrop
    rcases mem_cons.mp h with heq | h
    · cases heq
      exact ⟨htake, mem_cons_self⟩
    · rw [drop_drop] at hdrop
      exact (ih (valid_cons hvalid).1 hdrop h).imp_right (mem_cons_of_mem _)

lemma changedOps_spec (h : (i, range) ∈ placed offset ranges) :
    (∃ op ∈ changedOps sorted prevWindow offset ranges, op.range = range) ∨
      rangeRooms sorted range = (prevWindow.drop i).take range.len := by
  induction ranges generalizing offset with
  | nil => exact absurd h not_mem_nil
  | cons first ranges ih =>
    simp only [changedOps]
    rcases mem_cons.mp h with heq | h
    · cases heq
      split_ifs with hchanged
      · exact .inl ⟨_, mem_cons_self, rfl⟩
      · exact .inr (not_not.mp hchanged)
    · refine (ih h).imp_left fun ⟨op, hop, heq⟩ => ⟨op, ?_, heq⟩
      split_ifs
      exacts [mem_cons_of_mem _ hop, hop]

lemma roomIds_of_mem_changedOps (h : op ∈ changedOps sorted prevWindow offset ranges) :
    op.roomIds = rangeRooms sorted op.range := by
  induction ranges generalizing offset with
  | nil => exact absurd h not_mem_nil
  | cons first ranges ih =>
    simp only [changedOps] at h
    split_ifs at h
    · rcases mem_cons.mp h with rfl | h
      exacts [rfl, ih h]
    · exact ih h

/-! ### Runs -/

/-- The client after an answer: a range without an operation is to have the rooms of a list that
the client holds there. -/
lemma current_computeRoomList (sorted old : List Str)
    (hheld : prevWindow ≠ [] → ∀ entry ∈ placed 0 ranges,
      rangeRooms sorted entry.2 = (prevWindow.drop entry.1).take entry.2.len →
        rangeRooms sorted entry.2 = rangeRooms old entry.2 ∧ Current client old [entry.2]) :
    Current ((computeRoomList sorted ranges prevWindow).ops.foldl SlidingSyncOp.apply client)
      sorted ranges := by
  intro range hrange i hcovers hi
  rw [computeRoomList]
  split_ifs with hempty
  · refine foldl_apply (fun op hop => ?_) hi (.inr ⟨_, mem_map_of_mem hrange, hcovers⟩)
    obtain ⟨range, -, rfl⟩ := mem_map.mp hop
    rfl
  · refine foldl_apply (fun op hop => roomIds_of_mem_changedOps hop) hi ?_
    obtain ⟨place, hplace⟩ := exists_placed 0 hrange
    rcases changedOps_spec hplace with ⟨op, hop, rfl⟩ | hslice
    · exact .inr ⟨op, hop, hcovers⟩
    · obtain ⟨hsame, hcurrent⟩ := hheld hempty _ hplace hslice
      have hroom : sorted[i]? = old[i]? := by
        rw [← getElem?_rangeRooms hcovers, hsame, getElem?_rangeRooms hcovers]
      have hold : i < old.length := by
        by_contra hlong
        rw [getElem?_eq_getElem hi, getElem?_eq_none (not_lt.mp hlong)] at hroom
        cases hroom
      exact .inl (hroom ▸ hcurrent range mem_cons_self i hcovers hold)

/-- The window of the last answer is that of a list the client holds on its ranges. -/
structure InSync (list : SyncedList) : Prop where
  fresh : list.connection.pendingResponse = none → list.connection.listPrevWindow = []
  held : ∀ pending, list.connection.pendingResponse = some pending →
    slidingSyncRangesValid pending.listConfig = true ∧
      ∃ old, pending.listPrevWindow = windowRooms old pending.listConfig ∧
        Current list.client old pending.listConfig

lemma InSync.exchange {list later : SyncedList} {request : SlidingSyncRequest} (h : InSync list)
    (hcontinues : Continues list.connection request) (hstep : list.exchange request = some later) :
    InSync later ∧ Current later.client request.sorted request.ranges := by
  rw [SyncedList.exchange, SlidingSyncConnectionState.answer] at hstep
  split_ifs at hstep with hvalid
  · cases hstep
    have hnow : Current ((computeRoomList request.sorted request.ranges
        (list.connection.acknowledge request.pos).listPrevWindow).ops.foldl SlidingSyncOp.apply
          list.client) request.sorted request.ranges := by
      cases hpending : list.connection.pendingResponse with
      | none =>
        refine current_computeRoomList _ [] fun hne => absurd ?_ hne
        rw [SlidingSyncConnectionState.acknowledge, hpending]
        exact h.fresh hpending
      | some pending =>
        obtain ⟨hwindow, hranges⟩ := hcontinues pending hpending
        obtain ⟨hconfig, old, hold, hcurrent⟩ := h.held pending hpending
        rw [hwindow]
        refine current_computeRoomList _ old fun hne entry hentry hslice => ?_
        -- the range was asked for in the same place
        have hkept := (hranges hne entry hentry).resolve_right (not_not.mpr hslice)
        have hdrop : pending.listPrevWindow.drop 0 = windowRooms old pending.listConfig := hold
        obtain ⟨hheld, hmem⟩ := slice_of_placed hconfig hdrop hkept
        refine ⟨hslice.trans hheld, fun range hrange => ?_⟩
        rw [mem_singleton.mp hrange]
        exact hcurrent entry.2 hmem
    refine ⟨⟨fun hnone => absurd hnone (Option.some_ne_none _), ?_⟩, hnow⟩
    rintro pending ⟨⟩
    exact ⟨hvalid, request.sorted, rfl, hnow⟩
  · cases hstep

/-- In every run of requests that continue the answers before them, the client holds after each
answer the rooms of the list at every index of the ranges it asked for. -/
theorem requested_ranges_current {requests : List SlidingSyncRequest} {list later : SyncedList}
    {request : SlidingSyncRequest}
    (hrun : Run (fun list request later => list.exchange request = some later ∧
      Continues list.connection request) {} requests list)
    (hstep : list.exchange request = some later) (hcontinues : Continues list.connection request) :
    ∀ range ∈ request.ranges, ∀ i, range.start ≤ i → i ≤ range.last → i < request.sorted.length →
      later.client i = request.sorted[i]? := by
  have hsync : InSync list := by
    refine hrun.invariant InSync (fun _ => True) (fun _ hstep h => ?_) (fun _ _ => trivial) ?_
    · exact (h.exchange hstep.2 hstep.1).1
    · exact ⟨fun _ => rfl, fun _ hnone => absurd hnone.symm (Option.some_ne_none _)⟩
  intro range hrange i hstart hlast hi
  exact (hsync.exchange hcontinues hstep).2 range hrange i ⟨hstart, hlast⟩ hi

/-- A first request, for two rooms. -/
def firstRequest : SlidingSyncRequest := ⟨none, [⟨0, 1⟩], ["a", "b"], "1"⟩

/-- The rooms change places. -/
theorem requested_ranges_current_swapped :
    ∃ list later : SyncedList, SyncedList.exchange {} firstRequest = some list ∧
      list.exchange ⟨some "1", [⟨0, 1⟩], ["b", "a"], "2"⟩ = some later ∧
      later.client 0 = some (lit "b") := by
  have hfirst : Continues {} firstRequest :=
    fun _ hpending => absurd hpending.symm (Option.some_ne_none _)
  obtain ⟨list, hlist⟩ : ∃ list, SyncedList.exchange {} firstRequest = some list := ⟨_, rfl⟩
  have hnext : Continues list.connection ⟨some "1", [⟨0, 1⟩], ["b", "a"], "2"⟩ := by
    cases hlist
    rintro pending ⟨⟩
    exact ⟨rfl, fun _ entry hentry => .inl hentry⟩
  obtain ⟨later, hlater⟩ : ∃ later, list.exchange ⟨some "1", [⟨0, 1⟩], ["b", "a"], "2"⟩ = some later :=
    ⟨_, rfl⟩
  exact ⟨list, later, hlist, hlater, requested_ranges_current (.cons ⟨hlist, hfirst⟩ (.nil _)) hlater
    hnext _ List.mem_cons_self 0 (by decide) (by decide) (by decide)⟩

/-- The rooms move to the place where the client moves its range.  The new slice equals that of the
old range, and no operation is sent. -/
theorem moved_range_stale :
    ∃ list later : SyncedList, SyncedList.exchange {} firstRequest = some list ∧
      list.exchange ⟨some "1", [⟨2, 3⟩], ["x", "y", "a", "b"], "2"⟩ = some later ∧
      later.client 2 = none :=
  ⟨_, _, rfl, rfl, rfl⟩

end Merovingian
