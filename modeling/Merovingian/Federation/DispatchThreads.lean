import Merovingian.Federation.DispatchLedger

/-!
# The threads of the dispatcher

The invariant `DispatchBooks` joins the ledger with what the threads are doing: each destination has
at most one thread, and a thread holds a transaction for its own destination.  `take_next` keeps it,
because it takes the first transaction of a destination that has no thread (`next_spec`).
-/

namespace Merovingian

open List DispatchAttempt

namespace DispatchWorker

variable {config : DispatchWorkerConfig} {worker later : DispatchWorker} {entry : DispatchEntry}
  {attempt : DispatchAttempt} {stage : AttemptStage} {thread position : ℕ} {dueBy : UInt64}

/-- The transactions that threads hold. -/
def inFlight (worker : DispatchWorker) : List DispatchEntry :=
  worker.attempts.filterMap DispatchAttempt.entry

/-- What the threads have to do with `in_flight_destinations_`. -/
structure Threads (worker : DispatchWorker) : Prop where
  marked : ∀ destination, destination ∈ worker.inFlightDestinations ↔
    destination ∈ worker.attempts.map DispatchAttempt.destination
  single : (worker.attempts.map destination).Nodup
  own : ∀ attempt ∈ worker.attempts, ∀ entry, attempt.entry = some entry →
    entry.transaction.destination = attempt.destination
  /-- A thread that goes on as after a 2xx answer has one. -/
  answered : ∀ attempt ∈ worker.attempts, ∀ entry destination finishedAt,
    attempt.stage = .succeeded entry destination finishedAt → entry.ticket ∈ worker.confirmed

/-- What holds between two critical sections. -/
structure DispatchBooks (config : DispatchWorkerConfig) (worker : DispatchWorker) : Prop where
  balanced : Balanced config worker worker.inFlight
  covered : Covered worker worker.inFlight
  threads : Threads worker

lemma DispatchBooks.fresh (config : DispatchWorkerConfig) (store : Option FederationStore) :
    DispatchBooks config { store := store } where
  balanced := .fresh config store
  covered := fun _ _ haccept => absurd haccept not_mem_nil
  threads := ⟨by simp, .nil, by simp, by simp⟩

/-! ### Threads -/

lemma inFlight_perm (hget : worker.attempts[thread]? = some attempt) : worker.inFlight.Perm
    (attempt.entry.toList ++ (worker.attempts.eraseIdx thread).filterMap DispatchAttempt.entry) := by
  obtain ⟨hlt, rfl⟩ := List.getElem?_eq_some_iff.mp hget
  have hperm := (getElem_cons_eraseIdx_perm hlt).symm.filterMap entry
  cases hentry : worker.attempts[thread].entry <;> simpa [inFlight, hentry] using hperm

lemma inFlight_set_perm (hget : worker.attempts[thread]? = some attempt)
    (hattempts : later.attempts = worker.attempts.set thread { attempt with stage := stage }) :
    later.inFlight.Perm (stage.entry.toList ++
      (worker.attempts.eraseIdx thread).filterMap DispatchAttempt.entry) := by
  obtain ⟨hlt, -⟩ := List.getElem?_eq_some_iff.mp hget
  have hperm := (set_perm_cons_eraseIdx hlt
    { attempt with stage := stage }).filterMap entry
  rw [← hattempts] at hperm
  cases hentry : stage.entry <;> simpa [inFlight, entry, hentry] using hperm

namespace Threads

lemma setStage (h : Threads worker) (hget : worker.attempts[thread]? = some attempt)
    (hattempts : later.attempts = worker.attempts.set thread { attempt with stage := stage })
    (hmarks : later.inFlightDestinations = worker.inFlightDestinations)
    (hconfirmed : worker.confirmed ⊆ later.confirmed) (hown : ∀ entry, stage.entry = some entry →
      entry.transaction.destination = attempt.destination)
    (hanswered : ∀ entry destination finishedAt,
      stage = .succeeded entry destination finishedAt → entry.ticket ∈ later.confirmed) :
    Threads later := by
  have hmap : later.attempts.map destination =
      worker.attempts.map destination := by
    obtain ⟨hlt, rfl⟩ := List.getElem?_eq_some_iff.mp hget
    have hbound : thread < (worker.attempts.map destination).length := by
      simpa using hlt
    have hself := set_getElem_self hbound
    rw [getElem_map] at hself
    rw [hattempts, map_set]
    exact hself
  have hmem : ∀ other ∈ later.attempts, other ∈ worker.attempts ∨
      other = { attempt with stage := stage } := by
    rw [hattempts]
    exact fun other hother => mem_or_eq_of_mem_set hother
  constructor
  case marked =>
    rw [hmarks, hmap]
    exact h.marked
  case single =>
    rw [hmap]
    exact h.single
  case own =>
    intro other hother
    rcases hmem other hother with hold | rfl
    · exact h.own other hold
    · exact hown
  case answered =>
    intro other hother entry destination finishedAt hstage
    rcases hmem other hother with hold | rfl
    · exact hconfirmed (h.answered other hold entry destination finishedAt hstage)
    · exact hanswered entry destination finishedAt hstage

lemma take (h : Threads worker) (hfree : entry.transaction.destination ∉ worker.inFlightDestinations)
    (hattempts : later.attempts =
      worker.attempts ++ [⟨entry.transaction.destination, .taken entry⟩])
    (hmarks : later.inFlightDestinations =
      insert entry.transaction.destination worker.inFlightDestinations)
    (hconfirmed : later.confirmed = worker.confirmed) : Threads later := by
  constructor
  case marked =>
    intro destination
    rw [hmarks, hattempts, Finset.mem_insert, h.marked, map_append, mem_append,
      map_singleton, mem_singleton, or_comm]
  case single =>
    rw [hattempts, map_append, nodup_append']
    refine ⟨h.single, nodup_singleton _, fun destination hold hnew => ?_⟩
    obtain rfl := mem_singleton.mp hnew
    exact hfree ((h.marked _).mpr hold)
  case own =>
    rw [hattempts]
    refine forall_mem_append.mpr ⟨h.own, forall_mem_singleton.mpr ?_⟩
    rintro - ⟨⟩
    rfl
  case answered =>
    rw [hattempts, hconfirmed]
    refine forall_mem_append.mpr ⟨h.answered, forall_mem_singleton.mpr ?_⟩
    rintro - - - ⟨⟩

lemma leave (h : Threads worker) (hget : worker.attempts[thread]? = some attempt) :
    Threads (worker.leave thread attempt.destination) := by
  have hsub : worker.attempts.eraseIdx thread ⊆ worker.attempts :=
    (eraseIdx_sublist _ _).subset
  obtain ⟨hlt, rfl⟩ := List.getElem?_eq_some_iff.mp hget
  have hperm := (getElem_cons_eraseIdx_perm hlt).map destination
  have hnodup := hperm.symm.nodup h.single
  rw [map_cons, nodup_cons] at hnodup
  constructor
  case marked =>
    intro destination
    simp only [DispatchWorker.leave]
    rw [Finset.mem_erase, h.marked, ← hperm.mem_iff, map_cons, mem_cons]
    constructor
    · exact fun ⟨hne, hmem⟩ => hmem.resolve_left hne
    · exact fun hmem => ⟨fun hsame => hnodup.1 (hsame ▸ hmem), .inr hmem⟩
  case single => exact hnodup.2
  case own => exact fun other hother => h.own other (hsub hother)
  case answered => exact fun other hother => h.answered other (hsub hother)

end Threads

/-! ### `take_next` -/

/-- The first transaction of its destination, with nothing in flight there. -/
structure Ready (worker : DispatchWorker) (entry : DispatchEntry)
    (before after : List DispatchEntry) : Prop where
  queue : worker.queue = before ++ entry :: after
  free : entry.transaction.destination ∉ worker.inFlightDestinations
  oldest : ∀ other ∈ before, other.transaction.destination ≠ entry.transaction.destination

lemma nextReadyFrom_spec {queue : List DispatchEntry} {heldBack : Finset Str}
    (h : nextReadyFrom dueBy heldBack queue = some position) :
    ∃ before entry after, queue = before ++ entry :: after ∧ before.length = position ∧
      entry.transaction.destination ∉ heldBack ∧
      ∀ other ∈ before, other.transaction.destination ≠ entry.transaction.destination := by
  induction queue generalizing heldBack position with
  | nil => cases h
  | cons candidate queue ih =>
    unfold nextReadyFrom at h
    by_cases hheld : candidate.transaction.destination ∈ heldBack
    · rw [if_pos hheld] at h
      obtain ⟨position, hnext, rfl⟩ := Option.map_eq_some_iff.mp h
      obtain ⟨before, entry, after, rfl, rfl, hfree, holdest⟩ := ih hnext
      refine ⟨candidate :: before, entry, after, rfl, rfl, hfree, forall_mem_cons.mpr ⟨?_, holdest⟩⟩
      exact fun hsame => hfree (hsame ▸ hheld)
    rw [if_neg hheld] at h
    by_cases hdue : candidate.transaction.nextRetryTs ≤ dueBy
    · rw [if_pos hdue] at h
      cases h
      exact ⟨[], candidate, queue, rfl, rfl, hheld, by simp⟩
    · rw [if_neg hdue] at h
      obtain ⟨position, hnext, rfl⟩ := Option.map_eq_some_iff.mp h
      obtain ⟨before, entry, after, rfl, rfl, hfree, holdest⟩ := ih hnext
      rw [Finset.mem_insert, not_or] at hfree
      exact ⟨candidate :: before, entry, after, rfl, rfl, hfree.2,
        forall_mem_cons.mpr ⟨Ne.symm hfree.1, holdest⟩⟩

lemma next_spec (h : worker.next dueBy = some (position, entry)) :
    ∃ before after, before.length = position ∧ Ready worker entry before after := by
  obtain ⟨found, hfound, hget⟩ := Option.bind_eq_some_iff.mp h
  obtain ⟨other, hother, hpair⟩ := Option.map_eq_some_iff.mp hget
  obtain ⟨rfl, rfl⟩ := Prod.mk.inj hpair
  obtain ⟨before, first, after, hqueue, hlength, hfree, holdest⟩ := nextReadyFrom_spec hfound
  have hsame : first = other := by
    rw [hqueue, ← hlength, getElem?_append_right le_rfl, Nat.sub_self] at hother
    exact Option.some.inj hother
  subst hsame
  exact ⟨before, after, hlength, hqueue, hfree, holdest⟩

/-- What a top-up leaves alone. -/
structure SameThreads (worker later : DispatchWorker) : Prop where
  store : later.store = worker.store
  attempts : later.attempts = worker.attempts
  marks : later.inFlightDestinations = worker.inFlightDestinations
  accepted : later.accepted = worker.accepted
  confirmed : later.confirmed = worker.confirmed
  delivered : later.delivered = worker.delivered
  dropped : later.dropped = worker.dropped
  givenUp : later.givenUp = worker.givenUp

lemma SameThreads.refl (worker : DispatchWorker) : SameThreads worker worker :=
  ⟨rfl, rfl, rfl, rfl, rfl, rfl, rfl, rfl⟩

lemma topUp_spec (config : DispatchWorkerConfig) (worker : DispatchWorker) (remaining : ℕ) :
    SameThreads worker (worker.topUp config remaining) ∧
      ((worker.topUp config remaining).queue ++ (worker.topUp config remaining).pendingReplay).Perm
        (worker.queue ++ worker.pendingReplay) := by
  induction remaining generalizing worker with
  | zero => exact ⟨.refl worker, .refl _⟩
  | succ remaining ih =>
    unfold topUp
    cases hparked : worker.pendingReplay with
    | nil => exact ⟨.refl worker, by rw [hparked]⟩
    | cons row parked =>
      dsimp only
      split_ifs
      · exact ⟨.refl worker, by rw [hparked]⟩
      · obtain ⟨hsame, hperm⟩ := ih { worker with pendingReplay := parked ++ [row] }
        exact ⟨{ hsame with }, hperm.trans ((perm_append_singleton row parked).append_left _)⟩
      · obtain ⟨hsame, hperm⟩ := ih ({ worker with pendingReplay := parked }.pushQueueLocked row)
        refine ⟨{ hsame with }, hperm.trans ?_⟩
        rw [append_cons]
        exact .refl _

lemma Covered.topUp {flying : List DispatchEntry} (h : Covered worker flying) (remaining : ℕ) :
    Covered (worker.topUp config remaining) flying := by
  obtain ⟨hsame, hperm⟩ := topUp_spec config worker remaining
  refine h.of_subset (by rw [hsame.store]; exact Subset.refl _) hsame.accepted
    fun id _ hkept => ?_
  rw [keptIds, hsame.givenUp]
  exact (((hperm.append_right flying).map _).append_right _ |>.map _).mem_iff.mpr hkept

lemma DispatchBooks.takeNext (h : DispatchBooks config worker) (dueBy : UInt64) :
    DispatchBooks config (worker.takeNext config dueBy) := by
  unfold DispatchWorker.takeNext
  cases hnext : worker.next dueBy with
  | none => exact h
  | some found =>
    obtain ⟨position, entry⟩ := found
    obtain ⟨before, after, rfl, hready⟩ := next_spec hnext
    set taken := worker.take before.length entry
    obtain ⟨hsame, -⟩ := topUp_spec config taken taken.pendingReplay.length
    have hflying : (taken.topUp config taken.pendingReplay.length).inFlight =
        worker.inFlight ++ [entry] := by
      rw [inFlight, hsame.attempts]
      exact filterMap_append
    have hperm : (entry :: worker.inFlight).Perm
        (taken.topUp config taken.pendingReplay.length).inFlight := by
      rw [hflying]
      exact (perm_append_singleton entry worker.inFlight).symm
    constructor
    case balanced => exact ((h.balanced.take hready.queue).topUp _).perm hperm
    case covered => exact ((h.covered.take hready.queue).topUp _).perm hperm
    case threads => exact h.threads.take hready.free hsame.attempts hsame.marks hsame.confirmed

end DispatchWorker

end Merovingian
