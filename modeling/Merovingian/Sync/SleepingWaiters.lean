import Merovingian.Sync.SyncNotifier

/-!
# Nobody sleeps through a change

`publish` notifies a condition variable only where the counters say that somebody waits on it.
The invariant `SyncNotifier.Coherent` says that this passes over nobody: the counters count the
sleepers, and a sleeper that has not been signalled has nothing to see.  Every hold of the
notifier's mutex keeps it.
-/

namespace Merovingian

open WaitTarget List

namespace SyncNotifier

variable {notifier later : SyncNotifier} {target : WaitTarget} (count : ℕ → ℕ)

/-- The number of sleepers of a kind. -/
def sleeping (notifier : SyncNotifier) (test : WaitTarget → Bool) : ℕ :=
  notifier.sleepers.countP fun sleeper => test sleeper.target

/-- The counters count the sleepers, and a sleeper that was not signalled has nothing to see. -/
structure Coherent (notifier : SyncNotifier) : Prop where
  anyone : notifier.waitingAnyone = notifier.sleeping WaitTarget.isAnyone
  users : ∀ user, notifier.waiters user = notifier.sleeping (WaitTarget.isOf user)
  signalled : ∀ sleeper ∈ notifier.sleepers, sleeper.signalled = false →
    notifier.changed sleeper.target = false

namespace Coherent

lemma of_targets (h : notifier.Coherent) (hanyone : later.waitingAnyone = notifier.waitingAnyone)
    (hwaiters : ∀ user, later.waiters user = notifier.waiters user)
    (htargets : later.sleepers.map Sleeper.target = notifier.sleepers.map Sleeper.target)
    (hsignalled : ∀ sleeper ∈ later.sleepers, sleeper.signalled = false →
      later.changed sleeper.target = false) : later.Coherent := by
  have hsleeping : ∀ test, later.sleeping test = notifier.sleeping test := by
    intro test
    have hcount := congrArg (countP test) htargets
    rwa [countP_map, countP_map] at hcount
  refine ⟨?_, fun user => ?_, hsignalled⟩
  · rw [hanyone, h.anyone, hsleeping]
  · rw [hwaiters, h.users, hsleeping]

/-- An operation that leaves the counters alone and notifies every sleeper it may have changed
something for. -/
lemma of_notified (h : notifier.Coherent) (test : WaitTarget → Bool)
    (hanyone : later.waitingAnyone = notifier.waitingAnyone)
    (hwaiters : ∀ user, later.waiters user = notifier.waiters user)
    (hsleepers : later.sleepers = (notifier.notifyAll test).sleepers)
    (hchanged : ∀ sleeper ∈ notifier.sleepers, test sleeper.target = false →
      later.changed sleeper.target = notifier.changed sleeper.target) : later.Coherent := by
  refine h.of_targets hanyone hwaiters ?_ fun sleeper hmem hsignalled => ?_
  · rw [hsleepers, notifyAll, map_map]
    rfl
  · simp only [hsleepers, notifyAll, mem_map] at hmem
    obtain ⟨old, hold, rfl⟩ := hmem
    simp only [Bool.or_eq_false_iff] at hsignalled
    exact (hchanged old hold hsignalled.2).trans (h.signalled old hold hsignalled.1)

lemma of_eq (h : notifier.Coherent) (hanyone : later.waitingAnyone = notifier.waitingAnyone)
    (hwaiters : ∀ user, later.waiters user = notifier.waiters user)
    (hsleepers : later.sleepers = notifier.sleepers)
    (hchanged : ∀ target, later.changed target = notifier.changed target) : later.Coherent := by
  refine h.of_notified (fun _ => false) hanyone hwaiters ?_ fun _ _ _ => hchanged _
  simp [hsleepers, notifyAll]

end Coherent

lemma notifyAll_of_sleeping_eq_zero {test : WaitTarget → Bool} (h : notifier.sleeping test = 0) :
    notifier.notifyAll test = notifier := by
  have hnone : ∀ sleeper ∈ notifier.sleepers, test sleeper.target = false := by
    simpa [sleeping] using h
  have hmap : (notifier.notifyAll test).sleepers = notifier.sleepers := by
    refine (map_congr_left fun sleeper hmem => ?_).trans (map_id _)
    simp [hnone sleeper hmem]
  calc notifier.notifyAll test
      = { notifier with sleepers := (notifier.notifyAll test).sleepers } := rfl
    _ = notifier := by rw [hmap]

lemma elim_withEntry {field : UserWaiters → ℕ} (hfield : field {} = 0) (notifier : SyncNotifier)
    (user other : Str) : ((notifier.withEntry user).byUser other).elim 0 field =
      (notifier.byUser other).elim 0 field := by
  unfold withEntry
  split
  · rfl
  · next hnone =>
    by_cases h : other = user
    · subst h; simp [hnone, hfield]
    · simp [h]

lemma changed_congr (hgeneration : ∀ user, later.generation user = notifier.generation user)
    (hbroadcast : later.broadcastGeneration = notifier.broadcastGeneration)
    (hstream : later.streamOrdering = notifier.streamOrdering)
    (hsync : later.syncStreamId = notifier.syncStreamId) (target : WaitTarget) :
    later.changed target = notifier.changed target := by
  cases target with
  | positions => simp [changed, hstream, hsync]
  | cursor cursor => simp [changed, movedSince, hgeneration, hbroadcast]

section

variable (h : notifier.Coherent)

include h

lemma Coherent.withEntry (user : Str) : (notifier.withEntry user).Coherent := by
  refine h.of_eq ?_ (elim_withEntry rfl notifier user) ?_ (changed_congr
    (elim_withEntry rfl notifier user) ?_ ?_ ?_)
  all_goals
    unfold SyncNotifier.withEntry
    split <;> rfl

lemma Coherent.enter (target : WaitTarget) : (notifier.enter target).Coherent := by
  cases target with
  | positions => exact h
  | cursor cursor => exact h.withEntry cursor.user

lemma Coherent.publishUser (user : Str) : (notifier.publishUser user).Coherent := by
  unfold SyncNotifier.publishUser
  split
  · exact h
  · next entry hentry =>
    set moved : SyncNotifier := { notifier with
      byUser := Function.update notifier.byUser user
        (some { entry with generation := entry.generation + 1 }) } with hmoved
    -- with no waiter counted there is no sleeper of the user, so the two branches agree
    have hbranch : (if 0 < entry.waiters then moved.notifyAll (isOf user) else moved)
        = moved.notifyAll (isOf user) := by
      split_ifs with hcount
      · rfl
      · refine (notifyAll_of_sleeping_eq_zero ?_).symm
        have hwaiters := h.users user
        simp only [waiters, hentry] at hwaiters
        exact hwaiters.symm.trans (Nat.eq_zero_of_not_pos hcount)
    rw [hbranch]
    refine h.of_notified (isOf user) rfl (fun other => ?_) rfl fun sleeper _ hother => ?_
    · by_cases hsame : other = user
      · subst hsame; simp [waiters, hmoved, hentry]
      · simp [waiters, hmoved, hsame]
    · cases htarget : sleeper.target with
      | positions => rfl
      | cursor cursor =>
        have hne : cursor.user ≠ user := by simpa [htarget, isOf] using hother
        have hsame : (moved.notifyAll (isOf user)).generation cursor.user =
            notifier.generation cursor.user := by simp [generation, hmoved, hne]
        simp only [changed, movedSince, hsame]
        rfl

lemma Coherent.publishBroadcast : notifier.publishBroadcast.Coherent := by
  refine h.of_notified notifier.isOfWaiting rfl (fun _ => rfl) rfl fun sleeper hmem htest => ?_
  cases htarget : sleeper.target with
  | positions => rfl
  | cursor cursor =>
    -- a sleeper is counted, so its user has a waiter and is notified
    have hpos : 0 < notifier.sleeping (isOf cursor.user) :=
      countP_pos_iff.mpr ⟨sleeper, hmem, by simp [htarget, isOf]⟩
    have hzero : notifier.waiters cursor.user = 0 := by
      simpa [htarget, isOfWaiting] using htest
    exact absurd (h.users cursor.user) (by omega)

lemma Coherent.advancePositions (newStreamOrdering newSyncStreamId : ℕ) :
    (notifier.advancePositions newStreamOrdering newSyncStreamId).Coherent := by
  unfold SyncNotifier.advancePositions
  dsimp only
  set advanced : SyncNotifier := { notifier with
    streamOrdering := max notifier.streamOrdering newStreamOrdering
    syncStreamId := max notifier.syncStreamId newSyncStreamId } with hadvanced
  have hcursors : ∀ cursor, advanced.changed (.cursor cursor) = notifier.changed (.cursor cursor) :=
    fun _ => rfl
  split_ifs with hnotify
  · refine h.of_notified isAnyone rfl (fun _ => rfl) rfl fun sleeper _ hother => ?_
    cases htarget : sleeper.target with
    | positions => simp [htarget, isAnyone] at hother
    | cursor cursor => exact hcursors cursor
  · refine h.of_notified (fun _ => false) rfl (fun _ => rfl) ?_ fun sleeper hmem _ => ?_
    · simp [notifyAll, hadvanced]
    · cases htarget : sleeper.target with
      | cursor cursor => exact hcursors cursor
      | positions since sinceSync =>
        -- a sleeper is counted, so it is the positions that did not move
        have hpos : 0 < notifier.waitingAnyone := by
          rw [h.anyone]
          exact countP_pos_iff.mpr ⟨sleeper, hmem, by simp [htarget, isAnyone]⟩
        simp only [Bool.and_eq_true, Bool.or_eq_true, decide_eq_true_eq, hpos, and_true, not_or,
          not_lt] at hnotify
        simp [changed, hadvanced, max_eq_left hnotify.1, max_eq_left hnotify.2]

lemma Coherent.publish (newStreamOrdering newSyncStreamId : ℕ) (scope : Option (List Str)) :
    (notifier.publish newStreamOrdering newSyncStreamId scope).Coherent := by
  have hadvanced := h.advancePositions newStreamOrdering newSyncStreamId
  cases scope with
  | none => exact hadvanced.publishBroadcast
  | some users =>
    exact foldlRecOn users SyncNotifier.publishUser hadvanced fun _ h user _ => h.publishUser user

end

lemma waiters_countWaiter
    (hentry : ∀ cursor, target = .cursor cursor → (notifier.byUser cursor.user).isSome)
    (user : Str) : (notifier.countWaiter count target).waiters user =
      if target.isOf user then count (notifier.waiters user) else notifier.waiters user := by
  cases target with
  | positions => simp [countWaiter, isOf, waiters]
  | cursor cursor =>
    obtain ⟨entry, hentry⟩ := Option.isSome_iff_exists.mp (hentry cursor rfl)
    by_cases h : cursor.user = user
    · subst h; simp [countWaiter, isOf, waiters, hentry]
    · have h' : user ≠ cursor.user := fun hcon => h hcon.symm
      simp [countWaiter, isOf, waiters, h, h']

lemma sleepers_countWaiter (target : WaitTarget) :
    (notifier.countWaiter count target).sleepers = notifier.sleepers := by
  cases target <;> rfl

lemma changed_countWaiter (target other : WaitTarget) :
    (notifier.countWaiter count target).changed other = notifier.changed other := by
  cases target with
  | positions => exact changed_congr (fun _ => rfl) rfl rfl rfl other
  | cursor cursor =>
    have hgeneration : ∀ user, (notifier.countWaiter count (.cursor cursor)).generation user =
        notifier.generation user := by
      intro user
      by_cases h : user = cursor.user
      · subst h
        cases hentry : notifier.byUser cursor.user <;> simp [countWaiter, generation, hentry]
      · simp [countWaiter, generation, h]
    exact changed_congr hgeneration rfl rfl rfl other

/-- A waiter is counted, or counted no more, as it joins the sleepers or leaves them. -/
lemma Coherent.recounted (h : notifier.Coherent) (count : ℕ → ℕ)
    (hentry : ∀ cursor, target = .cursor cursor → (notifier.byUser cursor.user).isSome)
    {sleepers : List Sleeper} (hsleeping : ∀ test : WaitTarget → Bool,
      sleepers.countP (fun sleeper => test sleeper.target) =
        if test target then count (notifier.sleeping test) else notifier.sleeping test)
    (hsignalled : ∀ sleeper ∈ sleepers, sleeper.signalled = false →
      notifier.changed sleeper.target = false) :
    Coherent { notifier.countWaiter count target with sleepers := sleepers } where
  anyone := by
    rw [sleeping, hsleeping, ← h.anyone]
    cases target <;> simp [countWaiter, isAnyone]
  users user := by
    rw [sleeping, hsleeping, ← h.users]
    exact waiters_countWaiter count hentry user
  signalled sleeper hmem hfalse :=
    (changed_countWaiter count target sleeper.target).trans (hsignalled sleeper hmem hfalse)

lemma Coherent.waitForChange (h : notifier.Coherent) (target : WaitTarget) (block : Bool) :
    (notifier.waitForChange target block).2.Coherent := by
  have hentered := h.enter target
  have hentry : ∀ cursor, target = .cursor cursor →
      ((notifier.enter target).byUser cursor.user).isSome := by
    rintro cursor rfl
    exact isSome_withEntry notifier cursor.user
  unfold SyncNotifier.waitForChange
  dsimp only
  split_ifs with hchanged
  · exact hentered
  · exact hentered
  · refine hentered.recounted (· + 1) hentry (fun test => ?_) fun sleeper hmem hsignalled => ?_
    · rw [sleepers_countWaiter, countP_append, countP_singleton]
      split_ifs <;> rfl
    · rw [sleepers_countWaiter, mem_append, mem_singleton] at hmem
      rcases hmem with hmem | rfl
      · exact hentered.signalled sleeper hmem hsignalled
      · simpa using hchanged

lemma Coherent.wakeSleeper (h : notifier.Coherent) (index : ℕ) (timedOut : Bool) :
    (notifier.wakeSleeper index timedOut).2.Coherent := by
  unfold SyncNotifier.wakeSleeper
  split
  · exact h
  · next sleeper hindex =>
    obtain ⟨hlt, hget⟩ := List.getElem?_eq_some_iff.mp hindex
    have hperm : (sleeper :: notifier.sleepers.eraseIdx index).Perm notifier.sleepers := by
      rw [← hget]
      exact getElem_cons_eraseIdx_perm hlt
    split_ifs with hreturn
    · -- the thread returns and is counted no more
      have hentry : ∀ cursor, sleeper.target = .cursor cursor →
          (notifier.byUser cursor.user).isSome := by
        intro cursor hcursor
        have hpos : 0 < notifier.sleeping (isOf cursor.user) :=
          countP_pos_iff.mpr ⟨sleeper, hperm.mem_iff.mp mem_cons_self, by simp [hcursor, isOf]⟩
        rw [← h.users] at hpos
        cases hbyUser : notifier.byUser cursor.user with
        | none => simp [waiters, hbyUser] at hpos
        | some entry => rfl
      refine h.recounted (· - 1) hentry (fun test => ?_) fun other hmem hsignalled => ?_
      · have hcount := hperm.countP_eq fun sleeper => test sleeper.target
        rw [countP_cons] at hcount
        rw [sleepers_countWaiter, sleeping]
        split_ifs at hcount ⊢ <;> omega
      · rw [sleepers_countWaiter] at hmem
        exact h.signalled other (mem_of_mem_eraseIdx hmem) hsignalled
    · -- nothing changed: it sleeps on
      simp only [Bool.or_eq_true, not_or, Bool.not_eq_true] at hreturn
      refine h.of_targets rfl (fun _ => rfl) ?_ fun other hmem hsignalled => ?_
      · rw [map_set, ← hget, ← getElem_map Sleeper.target]
        · exact set_getElem_self _
        · simpa using hlt
      · rcases mem_or_eq_of_mem_set hmem with hmem | rfl
        · exact h.signalled other hmem hsignalled
        · exact hreturn.1

lemma coherent_fresh : ({} : SyncNotifier).Coherent :=
  ⟨rfl, fun _ => rfl, by simp⟩

end SyncNotifier

end Merovingian
