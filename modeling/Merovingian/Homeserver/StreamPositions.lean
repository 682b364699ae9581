import Mathlib.Order.Lattice.Nat
import Merovingian.Lib.Run

/-!
# Readers stay behind unfinished writes

Every event gets a stream ordering before it is stored, and a sync hands out a position that says
up to which ordering the client has read.  Orderings are allocated in order but finished in any
order: a writer that commits with `runtime.mutex` released reserves its ordering, and
`visible_stream_position` (`homeserver/HomeserverRuntime.cpp`) stays below every reservation
(`PendingStreamOrdering`, `PublishedStreamOrdering`).

The system is the sequence of critical sections under the mutex.  What a position stands for is the
frontier, the least ordering that is not done with; the code computes it from the counter and the
reservations (`visibleStreamPosition_succ`).  Since what is done with only grows, so do the
positions, and an event that is applied after a read lies above what was read
(`visibleStreamPosition_safe`).
-/

namespace Merovingian

open List

/-! ### The counter and the reservations -/

/-- The fields of `LocalDatabase` and of its store that orderings are allocated from.  The
multiset `pending_stream_orderings` is a list in ascending order; the `uint64_t` counters are
unbounded. -/
structure StreamOrderings where
  nextStreamOrdering : ℕ := 1
  pendingStreamOrderings : List ℕ := []
  eventStreamWatermark : ℕ := 0
deriving DecidableEq, Repr

namespace StreamOrderings

variable (database : StreamOrderings)

def visibleStreamPosition : ℕ :=
  let newest := database.nextStreamOrdering - 1
  match database.pendingStreamOrderings.head? with
  | none => newest
  | some oldestPending => if oldestPending = 0 then 0 else min newest (oldestPending - 1)

/-- `persist_event_stream_watermark`, whose outcome in the backend is ignored. -/
def persistEventStreamWatermark (watermark : ℕ) : StreamOrderings :=
  { database with eventStreamWatermark := watermark }

def allocateStreamOrderings (count : ℕ) : ℕ × StreamOrderings :=
  let first := database.nextStreamOrdering
  let advanced := { database with nextStreamOrdering := first + count }
  (first,
    if 0 < count then advanced.persistEventStreamWatermark (first + count - 1) else advanced)

def allocateStreamOrdering : ℕ × StreamOrderings :=
  let ordering := database.nextStreamOrdering
  (ordering, persistEventStreamWatermark { database with nextStreamOrdering := ordering + 1 } ordering)

/-- The constructor of `PendingStreamOrdering`. -/
def reserve (ordering : ℕ) : StreamOrderings :=
  { database with
    pendingStreamOrderings := database.pendingStreamOrderings.orderedInsert (· ≤ ·) ordering }

/-- The destructor of `PendingStreamOrdering`. -/
def release (ordering : ℕ) : StreamOrderings :=
  { database with pendingStreamOrderings := database.pendingStreamOrderings.erase ordering }

lemma allocateStreamOrdering_eq : database.allocateStreamOrdering =
    database.allocateStreamOrderings 1 := by
  simp [allocateStreamOrdering, allocateStreamOrderings]

@[simp] lemma allocateStreamOrderings_next (count : ℕ) :
    (database.allocateStreamOrderings count).2.nextStreamOrdering =
      database.nextStreamOrdering + count := by
  unfold allocateStreamOrderings
  split <;> rfl

@[simp] lemma allocateStreamOrderings_pending (count : ℕ) :
    (database.allocateStreamOrderings count).2.pendingStreamOrderings =
      database.pendingStreamOrderings := by
  unfold allocateStreamOrderings
  split <;> rfl

end StreamOrderings

/-! ### Critical sections -/

/-- The counters, with the threads' reservations and what became of the orderings. -/
structure StreamState where
  database : StreamOrderings
  /-- The orderings of the `PendingStreamOrdering` objects that are alive. -/
  reserved : List ℕ := []
  /-- The orderings of events that were applied to the store. -/
  applied : List ℕ := []
  /-- The orderings that were given up. -/
  abandoned : List ℕ := []

/-- A critical section of `runtime.mutex`.  One that allocates orderings reserves them, or has
applied or given them up when it ends; one that finishes a reserved ordering applies its event or
gives it up, and releases the reservation. -/
inductive StreamSection
  | reserve
  | reserveBatch (count : ℕ)
  | write (applied : Bool)
  | writeBatch (applied : List Bool)
  | finish (ordering : ℕ) (applied : Bool)
  | read (position : ℕ)

namespace StreamState

/-- The state after a restore, which leaves the counter above the newest stored ordering and the
watermark. -/
def restored (newest : ℕ) : StreamState where
  database := { nextStreamOrdering := newest + 1, eventStreamWatermark := newest }

/-- An event is applied, or its ordering is given up. -/
def settle (state : StreamState) (ordering : ℕ) : (applied : Bool) → StreamState
  | true => { state with applied := ordering :: state.applied }
  | false => { state with abandoned := ordering :: state.abandoned }

/-- Reservations for consecutive orderings. -/
def reserveFrom (state : StreamState) (first : ℕ) : (count : ℕ) → StreamState
  | 0 => state
  | count + 1 =>
    { state with
      database := state.database.reserve first
      reserved := first :: state.reserved }.reserveFrom (first + 1) count

/-- Consecutive orderings are settled. -/
def settleFrom (state : StreamState) (first : ℕ) : (applied : List Bool) → StreamState
  | [] => state
  | outcome :: rest => (state.settle first outcome).settleFrom (first + 1) rest

/-- The counters after an allocation. -/
def allocated (state : StreamState) (database : StreamOrderings) : StreamState :=
  { state with database := database }

/-- The effect of a critical section. -/
inductive Step : StreamState → StreamSection → StreamState → Prop
  | reserve (state : StreamState) :
      Step state .reserve ((state.allocated state.database.allocateStreamOrdering.2).reserveFrom
        state.database.allocateStreamOrdering.1 1)
  | reserveBatch (state : StreamState) (count : ℕ) :
      Step state (.reserveBatch count)
        ((state.allocated (state.database.allocateStreamOrderings count).2).reserveFrom
          (state.database.allocateStreamOrderings count).1 count)
  | write (state : StreamState) (outcome : Bool) :
      Step state (.write outcome)
        ((state.allocated state.database.allocateStreamOrdering.2).settle
          state.database.allocateStreamOrdering.1 outcome)
  | writeBatch (state : StreamState) (outcomes : List Bool) :
      Step state (.writeBatch outcomes)
        ((state.allocated (state.database.allocateStreamOrderings outcomes.length).2).settleFrom
          (state.database.allocateStreamOrderings outcomes.length).1 outcomes)
  | finish (state : StreamState) {ordering : ℕ} (hreserved : ordering ∈ state.reserved)
      (outcome : Bool) :
      Step state (.finish ordering outcome)
        { state.settle ordering outcome with
          database := state.database.release ordering
          reserved := state.reserved.erase ordering }
  | read (state : StreamState) : Step state (.read state.database.visibleStreamPosition) state

/-- An ordering that a reader need not wait for: it is of an earlier lifetime of the process, or its
event was applied or given up. -/
def Done (newest : ℕ) (state : StreamState) (ordering : ℕ) : Prop :=
  ordering ≤ newest ∨ ordering ∈ state.applied ∨ ordering ∈ state.abandoned

/-- The least ordering that is not done with. -/
noncomputable def frontier (newest : ℕ) (state : StreamState) : ℕ :=
  sInf { ordering | ¬ state.Done newest ordering }

/-! ### What is reserved is what is not done with -/

/-- The counter and the reservations account for every ordering. -/
structure Accounted (newest : ℕ) (state : StreamState) : Prop where
  sorted : state.database.pendingStreamOrderings.Pairwise (· ≤ ·)
  perm : state.database.pendingStreamOrderings.Perm state.reserved
  nodup : state.reserved.Nodup
  next : newest < state.database.nextStreamOrdering
  done_lt : ∀ ordering, state.Done newest ordering → ordering < state.database.nextStreamOrdering
  reserved_iff : ∀ ordering, ordering ∈ state.reserved ↔
    ordering < state.database.nextStreamOrdering ∧ ¬ state.Done newest ordering

variable {newest : ℕ} {state state' : StreamState} {ordering first : ℕ} {action : StreamSection}
  {outcomes : List Bool}

lemma done_settle {other : ℕ} {outcome : Bool} :
    (state.settle ordering outcome).Done newest other ↔
      other = ordering ∨ state.Done newest other := by
  cases outcome <;> simp [settle, Done] <;> tauto

lemma Accounted.restored (newest : ℕ) : Accounted newest (restored newest) where
  sorted := .nil
  perm := .nil
  nodup := .nil
  next := Nat.lt_succ_self _
  done_lt ordering h := by
    rcases h with h | h | h
    · exact Nat.lt_succ_of_le h
    · cases h
    · cases h
  reserved_iff ordering := by
    constructor
    · exact fun h => absurd h not_mem_nil
    · rintro ⟨hlt, hdone⟩
      exact absurd (.inl (Nat.le_of_lt_succ hlt)) hdone

/-- In the middle of an allocation: the orderings from `first` up to the counter are neither
reserved nor done with, and everything below is accounted for. -/
structure AccountedBelow (newest first : ℕ) (state : StreamState) : Prop where
  sorted : state.database.pendingStreamOrderings.Pairwise (· ≤ ·)
  perm : state.database.pendingStreamOrderings.Perm state.reserved
  nodup : state.reserved.Nodup
  next : newest < first
  done_lt : ∀ ordering, state.Done newest ordering → ordering < first
  reserved_iff : ∀ ordering, ordering ∈ state.reserved ↔
    ordering < first ∧ ¬ state.Done newest ordering

lemma Accounted.below {database : StreamOrderings} (h : Accounted newest state)
    (hpending : database.pendingStreamOrderings = state.database.pendingStreamOrderings) :
    AccountedBelow newest state.database.nextStreamOrdering (state.allocated database) where
  sorted := by
    rw [allocated, hpending]
    exact h.sorted
  perm := by
    rw [allocated, hpending]
    exact h.perm
  nodup := h.nodup
  next := h.next
  done_lt := h.done_lt
  reserved_iff := h.reserved_iff

section

variable (h : AccountedBelow newest first state)

include h

lemma AccountedBelow.accounted (hnext : state.database.nextStreamOrdering = first) :
    Accounted newest state := by
  subst hnext
  exact { h with }

lemma AccountedBelow.reserve :
    AccountedBelow newest (first + 1) { state with
        database := state.database.reserve first
        reserved := first :: state.reserved } where
  sorted := h.sorted.orderedInsert first _
  perm := (perm_orderedInsert _ _ _).trans (h.perm.cons first)
  nodup := nodup_cons.mpr
    ⟨fun hmem => absurd ((h.reserved_iff first).mp hmem).1 (Nat.lt_irrefl _), h.nodup⟩
  next := Nat.lt_succ_of_lt h.next
  done_lt ordering hdone := Nat.lt_succ_of_lt (h.done_lt ordering hdone)
  reserved_iff ordering := by
    rw [mem_cons, h.reserved_iff]
    constructor
    · rintro (rfl | ⟨hlt, hdone⟩)
      · exact ⟨Nat.lt_succ_self _, fun hdone => absurd (h.done_lt _ hdone) (Nat.lt_irrefl _)⟩
      · exact ⟨Nat.lt_succ_of_lt hlt, hdone⟩
    · rintro ⟨hlt, hdone⟩
      rcases Nat.lt_succ_iff_lt_or_eq.mp hlt with hlt | rfl
      · exact .inr ⟨hlt, hdone⟩
      · exact .inl rfl

lemma AccountedBelow.settle (outcome : Bool) :
    AccountedBelow newest (first + 1) (state.settle first outcome) := by
  have hsame : (state.settle first outcome).database = state.database ∧
      (state.settle first outcome).reserved = state.reserved := by cases outcome <;> exact ⟨rfl, rfl⟩
  refine ⟨hsame.1 ▸ h.sorted, hsame.1 ▸ hsame.2 ▸ h.perm, hsame.2 ▸ h.nodup,
    Nat.lt_succ_of_lt h.next, fun ordering hdone => ?_, fun ordering => ?_⟩
  · rcases done_settle.mp hdone with rfl | hdone
    · exact Nat.lt_succ_self _
    · exact Nat.lt_succ_of_lt (h.done_lt ordering hdone)
  · rw [hsame.2, h.reserved_iff, done_settle, not_or]
    constructor
    · rintro ⟨hlt, hdone⟩
      exact ⟨Nat.lt_succ_of_lt hlt, hlt.ne, hdone⟩
    · rintro ⟨hlt, hne, hdone⟩
      exact ⟨(Nat.lt_succ_iff_lt_or_eq.mp hlt).resolve_right hne, hdone⟩

end

lemma AccountedBelow.reserveFrom (count : ℕ) (h : AccountedBelow newest first state) :
    AccountedBelow newest (first + count) (state.reserveFrom first count) := by
  induction count generalizing state first with
  | zero => exact h
  | succ count ih => exact Nat.succ_add_eq_add_succ first count ▸ ih h.reserve

lemma AccountedBelow.settleFrom (outcomes : List Bool) (h : AccountedBelow newest first state) :
    AccountedBelow newest (first + outcomes.length) (state.settleFrom first outcomes) := by
  induction outcomes generalizing state first with
  | nil => exact h
  | cons outcome outcomes ih =>
    exact Nat.succ_add_eq_add_succ first outcomes.length ▸ ih (h.settle outcome)

lemma reserveFrom_next (first count : ℕ) :
    (state.reserveFrom first count).database.nextStreamOrdering =
      state.database.nextStreamOrdering := by
  induction count generalizing state first with
  | zero => rfl
  | succ count ih => exact ih _

lemma settle_database (ordering : ℕ) (outcome : Bool) :
    (state.settle ordering outcome).database = state.database := by
  cases outcome <;> rfl

lemma settleFrom_database (first : ℕ) (outcomes : List Bool) :
    (state.settleFrom first outcomes).database = state.database := by
  induction outcomes generalizing state first with
  | nil => rfl
  | cons outcome outcomes ih => exact (ih _).trans (settle_database _ _)

lemma Accounted.finish (h : Accounted newest state) (hreserved : ordering ∈ state.reserved)
    (outcome : Bool) :
    Accounted newest { state.settle ordering outcome with
        database := state.database.release ordering
        reserved := state.reserved.erase ordering } where
  sorted := h.sorted.sublist erase_sublist
  perm := h.perm.erase ordering
  nodup := h.nodup.erase ordering
  next := h.next
  done_lt other hdone := by
    rcases done_settle.mp hdone with rfl | hdone
    · exact ((h.reserved_iff _).mp hreserved).1
    · exact h.done_lt other hdone
  reserved_iff other := by
    show other ∈ state.reserved.erase ordering ↔ other < state.database.nextStreamOrdering ∧
      ¬ (state.settle ordering outcome).Done newest other
    rw [h.nodup.mem_erase_iff, h.reserved_iff, done_settle]
    tauto

lemma Accounted.step (h : Accounted newest state) (hstep : Step state action state') :
    Accounted newest state' := by
  cases hstep with
  | reserve =>
    rw [StreamOrderings.allocateStreamOrdering_eq]
    refine ((h.below (by simp)).reserveFrom 1).accounted ?_
    exact state.database.allocateStreamOrderings_next 1
  | reserveBatch count =>
    refine ((h.below (by simp)).reserveFrom count).accounted ?_
    rw [reserveFrom_next]
    exact state.database.allocateStreamOrderings_next count
  | write outcome =>
    rw [StreamOrderings.allocateStreamOrdering_eq]
    refine ((h.below (by simp)).settle outcome).accounted ?_
    rw [settle_database]
    exact state.database.allocateStreamOrderings_next 1
  | writeBatch outcomes =>
    refine ((h.below (by simp)).settleFrom outcomes).accounted ?_
    rw [settleFrom_database]
    exact state.database.allocateStreamOrderings_next outcomes.length
  | finish hreserved outcome => exact h.finish hreserved outcome
  | read => exact h

/-! ### What is done with only grows -/

lemma done_reserveFrom {count : ℕ} :
    (state.reserveFrom first count).Done newest ordering ↔ state.Done newest ordering := by
  induction count generalizing state first with
  | zero => exact Iff.rfl
  | succ count ih => exact ih

lemma done_settleFrom (h : state.Done newest ordering) :
    (state.settleFrom first outcomes).Done newest ordering := by
  induction outcomes generalizing state first with
  | nil => exact h
  | cons outcome outcomes ih => exact ih (done_settle.mpr (.inr h))

lemma Done.step (h : state.Done newest ordering) (hstep : Step state action state') :
    state'.Done newest ordering := by
  cases hstep with
  | reserve | reserveBatch => exact done_reserveFrom.mpr h
  | write | finish => exact done_settle.mpr (.inr h)
  | writeBatch => exact done_settleFrom h
  | read => exact h

lemma applied_settle {other : ℕ} {outcome : Bool}
    (h : other ∈ (state.settle ordering outcome).applied) :
    other = ordering ∨ other ∈ state.applied := by
  cases outcome with
  | true => exact mem_cons.mp h
  | false => exact .inr h

lemma applied_settleFrom (h : ordering ∈ (state.settleFrom first outcomes).applied) :
    first ≤ ordering ∨ ordering ∈ state.applied := by
  induction outcomes generalizing state first with
  | nil => exact .inr h
  | cons outcome outcomes ih =>
    rcases ih h with hle | hmem
    · exact .inl (Nat.le_of_succ_le hle)
    · exact (applied_settle hmem).imp_left fun heq => heq.ge

lemma applied_reserveFrom (first count : ℕ) :
    (state.reserveFrom first count).applied = state.applied := by
  induction count generalizing state first with
  | zero => rfl
  | succ count ih => exact ih _

section

variable (h : Accounted newest state)

include h

/-- What a section applies was not done with before. -/
lemma Accounted.applied_step (hstep : Step state action state')
    (happlied : ordering ∈ state'.applied) :
    ordering ∈ state.applied ∨ ¬ state.Done newest ordering := by
  have hfresh : ∀ {ordering}, state.database.nextStreamOrdering ≤ ordering →
      ¬ state.Done newest ordering := fun hle hdone => Nat.not_lt.mpr hle (h.done_lt _ hdone)
  cases hstep with
  | reserve | reserveBatch =>
    rw [applied_reserveFrom] at happlied
    exact .inl happlied
  | write outcome => exact (applied_settle happlied).symm.imp_right fun heq => hfresh heq.ge
  | writeBatch => exact (applied_settleFrom happlied).symm.imp_right hfresh
  | finish hreserved outcome =>
    refine (applied_settle happlied).symm.imp_right fun heq => ?_
    exact heq ▸ ((h.reserved_iff _).mp hreserved).2
  | read => exact .inl happlied

/-- What happens between two states of a run: the accounts are kept, what was done with stays so,
and what is applied was not done with. -/
structure Advances (newest : ℕ) (state later : StreamState) : Prop where
  accounted : Accounted newest later
  done : ∀ ordering, state.Done newest ordering → later.Done newest ordering
  applied : ∀ ordering ∈ later.applied, ordering ∈ state.applied ∨ ¬ state.Done newest ordering

lemma Advances.of_run {later : StreamState} {actions : List StreamSection}
    (hrun : Run Step state actions later) : Advances newest state later := by
  refine hrun.invariant (Advances newest state) (fun _ => True) (fun _ hstep hadvances => ?_)
    (fun _ _ => trivial) ⟨h, fun _ hdone => hdone, fun _ hmem => .inl hmem⟩
  refine ⟨hadvances.accounted.step hstep, fun ordering hdone => (hadvances.done _ hdone).step hstep,
    fun ordering hmem => ?_⟩
  rcases hadvances.accounted.applied_step hstep hmem with hmem | hopen
  · exact hadvances.applied ordering hmem
  · exact .inr fun hdone => hopen (hadvances.done ordering hdone)

/-! ### The position that is read -/

lemma visibleStreamPosition_succ :
    state.database.visibleStreamPosition + 1 = state.frontier newest := by
  refine (IsLeast.csInf_eq (s := { ordering | ¬ state.Done newest ordering }) ?_).symm
  rw [StreamOrderings.visibleStreamPosition]
  cases hhead : state.database.pendingStreamOrderings.head? with
  | none =>
    have hempty : state.reserved = [] := by
      rw [head?_eq_none_iff] at hhead
      exact nil_perm.mp (hhead ▸ h.perm)
    have hnext : state.database.nextStreamOrdering - 1 + 1 = state.database.nextStreamOrdering :=
      Nat.sub_add_cancel (Nat.one_le_of_lt h.next)
    simp only [hnext]
    refine ⟨fun hdone => absurd (h.done_lt _ hdone) (Nat.lt_irrefl _), fun ordering hdone => ?_⟩
    by_contra hlt
    have hmem := (h.reserved_iff ordering).mpr ⟨Nat.lt_of_not_le hlt, hdone⟩
    exact absurd (hempty ▸ hmem) not_mem_nil
  | some oldest =>
    obtain ⟨rest, hpending⟩ := head?_eq_some_iff.mp hhead
    obtain ⟨hlt, hopen⟩ := (h.reserved_iff oldest).mp
      (h.perm.mem_iff.mp (hpending ▸ mem_cons_self))
    have hpos : oldest ≠ 0 := fun hzero => hopen (.inl (hzero ▸ Nat.zero_le _))
    have hvisible : min (state.database.nextStreamOrdering - 1) (oldest - 1) + 1 = oldest := by
      omega
    simp only [hpos, if_false, hvisible]
    refine ⟨hopen, fun ordering hdone => ?_⟩
    by_cases hbelow : ordering < state.database.nextStreamOrdering
    · -- an ordering below the counter that is not done with is reserved, and the list is sorted
      have hmem := h.perm.mem_iff.mpr ((h.reserved_iff ordering).mpr ⟨hbelow, hdone⟩)
      rw [hpending] at hmem
      rcases mem_cons.mp hmem with rfl | hmem
      · exact le_rfl
      · exact (pairwise_cons.mp (hpending ▸ h.sorted)).1 ordering hmem
    · exact hlt.le.trans (Nat.le_of_not_lt hbelow)

lemma done_of_le_visibleStreamPosition
    (hle : ordering ≤ state.database.visibleStreamPosition) : state.Done newest ordering := by
  have hlt : ordering < state.frontier newest := by
    rw [← visibleStreamPosition_succ h]
    exact Nat.lt_succ_of_le hle
  exact not_not.mp fun hdone => Nat.notMem_of_lt_sInf hlt hdone

end

/-- More is done with, so the frontier is further on. -/
lemma frontier_le_frontier (h : Accounted newest state')
    (hdone : ∀ ordering, state.Done newest ordering → state'.Done newest ordering) :
    state.frontier newest ≤ state'.frontier newest := by
  have hnonempty : { ordering | ¬ state'.Done newest ordering }.Nonempty :=
    ⟨_, fun hmem => absurd (h.done_lt _ hmem) (Nat.lt_irrefl _)⟩
  exact Nat.sInf_le fun hmem => Nat.sInf_mem hnonempty (hdone _ hmem)

/-- After any critical sections, a read returns a position such that every allocated ordering up
to it has been applied or given up; no later read returns less, and every event that is applied
later has an ordering above it. -/
theorem visibleStreamPosition_safe {newest position : ℕ} {before after : List StreamSection}
    {state read later : StreamState} (hbefore : Run Step (restored newest) before state)
    (hread : Step state (.read position) read) (hafter : Run Step read after later) :
    (∀ ordering, newest < ordering → ordering < state.database.nextStreamOrdering →
      ordering ≤ position → ordering ∈ state.applied ∨ ordering ∈ state.abandoned) ∧
    (∀ position' read', Step later (.read position') read' → position ≤ position') ∧
    ∀ ordering ∈ later.applied, ordering ∉ state.applied → position < ordering := by
  cases hread
  have haccounted := (Advances.of_run (.restored newest) hbefore).accounted
  have hadvances := Advances.of_run haccounted hafter
  refine ⟨fun ordering hnew _ hle => ?_, fun position' read' hread' => ?_,
    fun ordering happlied hnot => ?_⟩
  · exact (done_of_le_visibleStreamPosition haccounted hle).resolve_left (Nat.not_le.mpr hnew)
  · cases hread'
    have hfrontier := frontier_le_frontier hadvances.accounted hadvances.done
    rw [← visibleStreamPosition_succ haccounted,
      ← visibleStreamPosition_succ hadvances.accounted] at hfrontier
    exact Nat.le_of_succ_le_succ hfrontier
  · have hopen := (hadvances.applied ordering happlied).resolve_left hnot
    exact Nat.lt_of_not_le fun hle => hopen (done_of_le_visibleStreamPosition haccounted hle)

/-- Two writers have reserved orderings, and the event of the second was applied. -/
def heldBack : StreamState where
  database := { nextStreamOrdering := 7, pendingStreamOrderings := [5], eventStreamWatermark := 6 }
  reserved := [5]
  applied := [6]

/-- The first writer has applied its event too. -/
def caughtUp : StreamState where
  database := { nextStreamOrdering := 7, pendingStreamOrderings := [], eventStreamWatermark := 6 }
  applied := [5, 6]

/-- A read while the second event is held back stays below the first. -/
theorem visibleStreamPosition_safe_heldBack :
    Step heldBack (.read 4) heldBack ∧
      ∀ ordering ∈ caughtUp.applied, ordering ∉ heldBack.applied → 4 < ordering := by
  have hbefore : Run Step (restored 4) [.reserveBatch 2, .finish 6 true] heldBack :=
    .cons (.reserveBatch _ 2) (.cons (.finish _ (by decide) true) (.nil _))
  have hread : Step heldBack (.read 4) heldBack := .read heldBack
  have hafter : Run Step heldBack [.finish 5 true] caughtUp :=
    .cons (.finish heldBack (by decide) true) (.nil _)
  exact ⟨hread, (visibleStreamPosition_safe hbefore hread hafter).2.2⟩

/-- Readers are not held back either: the position that is read is the last one up to which every
ordering has been applied or given up. -/
theorem le_visibleStreamPosition_iff {newest position : ℕ} {sections : List StreamSection}
    {state : StreamState} (hrun : Run Step (restored newest) sections state) :
    position ≤ state.database.visibleStreamPosition ↔
      ∀ ordering ≤ position, state.Done newest ordering := by
  have haccounted := (Advances.of_run (.restored newest) hrun).accounted
  refine ⟨fun hle ordering hordering =>
    done_of_le_visibleStreamPosition haccounted (hordering.trans hle), fun hdone => ?_⟩
  have hnonempty : { ordering | ¬ state.Done newest ordering }.Nonempty :=
    ⟨_, fun hmem => absurd (haccounted.done_lt _ hmem) (Nat.lt_irrefl _)⟩
  have hlt : position < state.frontier newest :=
    Nat.lt_of_not_le fun hle => Nat.sInf_mem hnonempty (hdone _ hle)
  rwa [← visibleStreamPosition_succ haccounted, Nat.lt_succ_iff] at hlt

/-- Nothing is left to wait for up to the last event. -/
theorem le_visibleStreamPosition_iff_caughtUp :
    6 ≤ caughtUp.database.visibleStreamPosition ∧
      ∀ ordering ≤ 6, caughtUp.Done 4 ordering := by
  have hrun : Run Step (restored 4) [.reserveBatch 2, .finish 6 true, .finish 5 true] caughtUp :=
    .cons (.reserveBatch _ 2) (.cons (.finish _ (by decide) true)
      (.cons (.finish _ (by decide) true) (.nil _)))
  exact ⟨by decide, (le_visibleStreamPosition_iff hrun).mp (by decide)⟩

end StreamState

end Merovingian
