import Merovingian.Lib.Bytes

/-!
# The notifier of long-polls

The class of `sync/SyncNotifier.cpp`.  Everything it keeps is guarded by one mutex, so what a call
does is one function for each hold of the mutex: `publish` is one hold, `observe` is one, and a
`wait_for_change` is one when it enters and one each time its thread wakes up on its condition
variable and evaluates the predicate again.

A thread that is blocked is a `Sleeper`.  It may also wake up by itself or because its time is
over.  `waiting_` and `signals_sent_`, which only tests read, are left out.

No call takes a generation back (`Advances`), so a publish that concerns the user of a cursor is
seen by every later comparison with it: `Taken.movedPast_publish`, then `MovedPast.mono`.
-/

namespace Merovingian

/-- `WaitCursor`: where a user stands in the notifier's history. -/
structure WaitCursor where
  user : Str
  userGeneration : ℕ
  broadcastGeneration : ℕ
deriving DecidableEq, Repr

structure UserWaiters where
  waiters : ℕ := 0
  generation : ℕ := 0
deriving DecidableEq, Repr

/-- What a `wait_for_change` waits for: the two overloads. -/
inductive WaitTarget
  | positions (sinceStreamOrdering sinceSyncStreamId : ℕ)
  | cursor (cursor : WaitCursor)
deriving DecidableEq, Repr

namespace WaitTarget

/-- The waiters that named no user wait on `anyone_`. -/
def isAnyone : WaitTarget → Bool
  | .positions _ _ => true
  | .cursor _ => false

/-- The waiters of a user wait on the condition variable of that user. -/
def isOf (user : Str) : WaitTarget → Bool
  | .positions _ _ => false
  | .cursor taken => taken.user = user

end WaitTarget

/-- A thread blocked in `wait_for_change`. -/
structure Sleeper where
  target : WaitTarget
  /-- Its condition variable was notified since it went to sleep. -/
  signalled : Bool
deriving DecidableEq, Repr

/-- `SyncNotifier`, without the registry of parked polls, which has a mutex of its own.  The source
counts with `uint64_t`, and no run publishes that often. -/
structure SyncNotifier where
  byUser : Str → Option UserWaiters := fun _ => none
  streamOrdering : ℕ := 0
  syncStreamId : ℕ := 0
  broadcastGeneration : ℕ := 0
  waitingAnyone : ℕ := 0
  sleepers : List Sleeper := []

namespace SyncNotifier

/-- The generation of a user, `0` for a user without an entry. -/
def generation (notifier : SyncNotifier) (user : Str) : ℕ :=
  (notifier.byUser user).elim 0 UserWaiters.generation

/-- The number of waiters of a user, `0` for a user without an entry. -/
def waiters (notifier : SyncNotifier) (user : Str) : ℕ :=
  (notifier.byUser user).elim 0 UserWaiters.waiters

def movedSince (notifier : SyncNotifier) (cursor : WaitCursor) : Bool :=
  notifier.generation cursor.user ≠ cursor.userGeneration ||
    notifier.broadcastGeneration ≠ cursor.broadcastGeneration

/-- The predicate of a wait. -/
def changed (notifier : SyncNotifier) : WaitTarget → Bool
  | .positions sinceStreamOrdering sinceSyncStreamId =>
    sinceStreamOrdering < notifier.streamOrdering || sinceSyncStreamId < notifier.syncStreamId
  | .cursor cursor => notifier.movedSince cursor

/-- The map with an entry for this user: `find`, and `try_emplace` when there is none. -/
def withEntry (notifier : SyncNotifier) (user : Str) : SyncNotifier :=
  match notifier.byUser user with
  | some _ => notifier
  | none => { notifier with byUser := Function.update notifier.byUser user (some {}) }

def observe (notifier : SyncNotifier) (user : Str) : WaitCursor × SyncNotifier :=
  let entered := notifier.withEntry user
  (⟨user, entered.generation user, entered.broadcastGeneration⟩, entered)

/-- `notify_all` on the condition variable of the waits that pass the test. -/
def notifyAll (notifier : SyncNotifier) (test : WaitTarget → Bool) : SyncNotifier :=
  { notifier with
    sleepers := notifier.sleepers.map fun sleeper =>
      { sleeper with signalled := sleeper.signalled || test sleeper.target } }

/-- What `publish` does for one user of its scope. -/
def publishUser (notifier : SyncNotifier) (user : Str) : SyncNotifier :=
  match notifier.byUser user with
  -- a user with no entry has never observed: there is no cursor to miss this publish
  | none => notifier
  | some entry =>
    let moved := { notifier with
      byUser := Function.update notifier.byUser user
        (some { entry with generation := entry.generation + 1 }) }
    if 0 < entry.waiters then moved.notifyAll (WaitTarget.isOf user) else moved

/-- The waits on the condition variable of a user with waiters. -/
def isOfWaiting (notifier : SyncNotifier) : WaitTarget → Bool
  | .positions _ _ => false
  | .cursor cursor => 0 < notifier.waiters cursor.user

/-- What `publish` does without a scope. -/
def publishBroadcast (notifier : SyncNotifier) : SyncNotifier :=
  let moved := { notifier with broadcastGeneration := notifier.broadcastGeneration + 1 }
  moved.notifyAll moved.isOfWaiting

/-- What `publish` does with the positions. -/
def advancePositions (notifier : SyncNotifier) (newStreamOrdering newSyncStreamId : ℕ) :
    SyncNotifier :=
  let changed := notifier.streamOrdering < newStreamOrdering ||
    notifier.syncStreamId < newSyncStreamId
  let advanced := { notifier with
    streamOrdering := max notifier.streamOrdering newStreamOrdering
    syncStreamId := max notifier.syncStreamId newSyncStreamId }
  if changed && 0 < notifier.waitingAnyone then advanced.notifyAll WaitTarget.isAnyone
  else advanced

/-- The hold of the notifier's mutex in `publish`. -/
def publish (notifier : SyncNotifier) (newStreamOrdering newSyncStreamId : ℕ)
    (scope : Option (List Str)) : SyncNotifier :=
  let advanced := notifier.advancePositions newStreamOrdering newSyncStreamId
  match scope with
  | none => advanced.publishBroadcast
  | some users => users.foldl publishUser advanced

/-- One more or one less waiter on the condition variable of a wait. -/
def countWaiter (notifier : SyncNotifier) (count : ℕ → ℕ) : WaitTarget → SyncNotifier
  | .positions _ _ => { notifier with waitingAnyone := count notifier.waitingAnyone }
  | .cursor cursor =>
    { notifier with
      byUser := Function.update notifier.byUser cursor.user
        ((notifier.byUser cursor.user).map fun entry =>
          { entry with waiters := count entry.waiters }) }

/-- A wait on a cursor makes the entry of its user. -/
def enter (notifier : SyncNotifier) : WaitTarget → SyncNotifier
  | .positions _ _ => notifier
  | .cursor cursor => notifier.withEntry cursor.user

/-- `wait_for_change` up to its answer or to the moment its thread is blocked; `block` says that
the timeout is positive. -/
def waitForChange (notifier : SyncNotifier) (target : WaitTarget) (block : Bool) :
    Option Bool × SyncNotifier :=
  let entered := notifier.enter target
  if entered.changed target then (some true, entered)
  else if !block then (some false, entered)
  else
    let counted := entered.countWaiter (· + 1) target
    (none, { counted with sleepers := counted.sleepers ++ [⟨target, false⟩] })

/-- A blocked thread that runs again: it evaluates its predicate and returns, or goes back to
sleep when nothing changed and its time is not over. -/
def wakeSleeper (notifier : SyncNotifier) (index : ℕ) (timedOut : Bool) :
    Option Bool × SyncNotifier :=
  match notifier.sleepers[index]? with
  | none => (none, notifier)
  | some sleeper =>
    if notifier.changed sleeper.target || timedOut then
      let counted := notifier.countWaiter (· - 1) sleeper.target
      (some (notifier.changed sleeper.target),
        { counted with sleepers := counted.sleepers.eraseIdx index })
    else (none, { notifier with sleepers := notifier.sleepers.set index ⟨sleeper.target, false⟩ })

/-! ### What moves forward

No operation takes a generation or a position back, and no entry is ever erased. -/

variable {notifier later : SyncNotifier} {user : Str} {cursor : WaitCursor}

/-- The second state is later in the notifier's history than the first. -/
structure Advances (notifier later : SyncNotifier) : Prop where
  generation : ∀ user, notifier.generation user ≤ later.generation user
  broadcast : notifier.broadcastGeneration ≤ later.broadcastGeneration
  entry : ∀ user, (notifier.byUser user).isSome → (later.byUser user).isSome

namespace Advances

lemma refl (notifier : SyncNotifier) : notifier.Advances notifier :=
  ⟨fun _ => le_rfl, le_rfl, fun _ h => h⟩

lemma trans {last : SyncNotifier} (h : notifier.Advances later) (h' : later.Advances last) :
    notifier.Advances last :=
  ⟨fun user => (h.generation user).trans (h'.generation user), h.broadcast.trans h'.broadcast,
    fun user hentry => h'.entry user (h.entry user hentry)⟩

lemma of_update (user : Str) (entry : Option UserWaiters)
    (hbyUser : later.byUser = Function.update notifier.byUser user entry)
    (hgeneration : notifier.generation user ≤ entry.elim 0 UserWaiters.generation)
    (hentry : (notifier.byUser user).isSome → entry.isSome)
    (hbroadcast : notifier.broadcastGeneration ≤ later.broadcastGeneration) :
    notifier.Advances later := by
  refine ⟨fun other => ?_, hbroadcast, fun other hother => ?_⟩
  all_goals by_cases h : other = user
  · subst h
    simpa [SyncNotifier.generation, hbyUser] using hgeneration
  · simp [SyncNotifier.generation, hbyUser, h]
  · subst h
    simpa [hbyUser] using hentry hother
  · simpa [hbyUser, h] using hother

lemma of_byUser_eq (hbyUser : later.byUser = notifier.byUser)
    (hbroadcast : notifier.broadcastGeneration ≤ later.broadcastGeneration) :
    notifier.Advances later :=
  ⟨fun user => by simp [SyncNotifier.generation, hbyUser], hbroadcast,
    fun user h => by simpa [hbyUser] using h⟩

end Advances

section

variable (notifier : SyncNotifier) (test : WaitTarget → Bool)

@[simp] lemma byUser_notifyAll :
    (notifier.notifyAll test).byUser = notifier.byUser := rfl

@[simp] lemma broadcastGeneration_notifyAll :
    (notifier.notifyAll test).broadcastGeneration = notifier.broadcastGeneration := rfl

@[simp] lemma isSome_withEntry (user : Str) : ((notifier.withEntry user).byUser user).isSome := by
  unfold withEntry
  split <;> simp_all

lemma advances_withEntry (user : Str) : notifier.Advances (notifier.withEntry user) := by
  unfold withEntry
  split
  · exact .refl notifier
  · next hnone =>
    exact .of_update user (some {}) rfl (by simp [generation, hnone]) (by simp) le_rfl

lemma advances_publishUser (user : Str) : notifier.Advances (notifier.publishUser user) := by
  unfold publishUser
  split
  · exact .refl notifier
  · next entry hentry =>
    refine .of_update user (some { entry with generation := entry.generation + 1 }) ?_
      (by simp [generation, hentry]) (by simp) ?_
    all_goals dsimp only; split_ifs <;> simp

end

lemma advances_foldl_publishUser (users : List Str) (notifier : SyncNotifier) :
    notifier.Advances (users.foldl publishUser notifier) := by
  induction users generalizing notifier with
  | nil => exact .refl notifier
  | cons user users ih => exact (advances_publishUser notifier user).trans (ih _)

section

variable (notifier : SyncNotifier) (target : WaitTarget)

lemma advances_advancePositions (newStreamOrdering newSyncStreamId : ℕ) :
    notifier.Advances (notifier.advancePositions newStreamOrdering newSyncStreamId) := by
  refine .of_byUser_eq ?_ ?_
  all_goals unfold advancePositions; dsimp only; split_ifs <;> simp

lemma advances_publish (newStreamOrdering newSyncStreamId : ℕ) (scope : Option (List Str)) :
    notifier.Advances (notifier.publish newStreamOrdering newSyncStreamId scope) := by
  refine (advances_advancePositions notifier newStreamOrdering newSyncStreamId).trans ?_
  cases scope with
  | none => exact .of_byUser_eq rfl (Nat.le_succ _)
  | some users => exact advances_foldl_publishUser users _

lemma advances_countWaiter (count : ℕ → ℕ) (target : WaitTarget) :
    notifier.Advances (notifier.countWaiter count target) := by
  cases target with
  | positions => exact .of_byUser_eq rfl le_rfl
  | cursor cursor =>
    refine .of_update cursor.user _ rfl ?_ (by simp) le_rfl
    cases hentry : notifier.byUser cursor.user <;> simp [generation, hentry]

lemma advances_enter : notifier.Advances (notifier.enter target) := by
  cases target with
  | positions => exact .refl notifier
  | cursor cursor => exact advances_withEntry notifier cursor.user

lemma advances_waitForChange (block : Bool) :
    notifier.Advances (notifier.waitForChange target block).2 := by
  refine (advances_enter notifier target).trans ?_
  unfold waitForChange
  dsimp only
  split_ifs
  · exact .refl _
  · exact .refl _
  · exact (advances_countWaiter _ _ _).trans (.of_byUser_eq rfl le_rfl)

lemma advances_wakeSleeper (index : ℕ) (timedOut : Bool) :
    notifier.Advances (notifier.wakeSleeper index timedOut).2 := by
  unfold wakeSleeper
  split
  · exact .refl notifier
  · split_ifs
    · exact (advances_countWaiter _ _ _).trans (.of_byUser_eq rfl le_rfl)
    · exact .of_byUser_eq rfl le_rfl

end

/-! ### Cursors and publishes -/

/-- The scope of a publish concerns this user: it names them, or it is absent. -/
def Concerns (scope : Option (List Str)) (user : Str) : Prop :=
  ∀ users, scope = some users → user ∈ users

/-- The cursor was taken in the past of this state. -/
structure Taken (notifier : SyncNotifier) (cursor : WaitCursor) : Prop where
  generation : cursor.userGeneration ≤ notifier.generation cursor.user
  broadcast : cursor.broadcastGeneration ≤ notifier.broadcastGeneration
  entry : (notifier.byUser cursor.user).isSome

/-- One of the two generations has moved past the cursor. -/
def MovedPast (notifier : SyncNotifier) (cursor : WaitCursor) : Prop :=
  cursor.userGeneration < notifier.generation cursor.user ∨
    cursor.broadcastGeneration < notifier.broadcastGeneration

lemma Taken.mono (h : notifier.Taken cursor) (hadvances : notifier.Advances later) :
    later.Taken cursor :=
  ⟨h.generation.trans (hadvances.generation _), h.broadcast.trans hadvances.broadcast,
    hadvances.entry _ h.entry⟩

lemma MovedPast.mono (h : notifier.MovedPast cursor) (hadvances : notifier.Advances later) :
    later.MovedPast cursor :=
  h.imp (fun h => h.trans_le (hadvances.generation _)) fun h => h.trans_le hadvances.broadcast

lemma MovedPast.movedSince (h : notifier.MovedPast cursor) : notifier.movedSince cursor = true := by
  simp only [SyncNotifier.movedSince, Bool.or_eq_true, decide_eq_true_eq]
  exact h.imp Nat.ne_of_gt Nat.ne_of_gt

lemma generation_publishUser (h : (notifier.byUser user).isSome) :
    (notifier.publishUser user).generation user = notifier.generation user + 1 := by
  obtain ⟨entry, hentry⟩ := Option.isSome_iff_exists.mp h
  unfold publishUser
  simp only [hentry]
  split_ifs <;> simp [generation, hentry]

lemma generation_lt_foldl_publishUser {users : List Str} (hmem : user ∈ users)
    (h : (notifier.byUser user).isSome) :
    notifier.generation user < (users.foldl publishUser notifier).generation user := by
  induction users generalizing notifier with
  | nil => cases hmem
  | cons first users ih =>
    have hfirst := advances_publishUser notifier first
    rcases List.mem_cons.mp hmem with rfl | hmem
    · calc notifier.generation user < (notifier.publishUser user).generation user := by
            rw [generation_publishUser h]; exact Nat.lt_succ_self _
        _ ≤ _ := (advances_foldl_publishUser users _).generation user
    · exact (hfirst.generation user).trans_lt (ih hmem (hfirst.entry user h))

lemma Taken.movedPast_publish (h : notifier.Taken cursor) (newStreamOrdering newSyncStreamId : ℕ)
    {scope : Option (List Str)} (hscope : Concerns scope cursor.user) :
    (notifier.publish newStreamOrdering newSyncStreamId scope).MovedPast cursor := by
  have hadvanced := h.mono (advances_advancePositions notifier newStreamOrdering newSyncStreamId)
  cases scope with
  | none => exact .inr (Nat.lt_succ_of_le hadvanced.broadcast)
  | some users =>
    refine .inl (hadvanced.generation.trans_lt ?_)
    exact generation_lt_foldl_publishUser (hscope users rfl) hadvanced.entry

lemma MovedPast.waitForChange (h : notifier.MovedPast cursor) (block : Bool) :
    (notifier.waitForChange (.cursor cursor) block).1 = some true := by
  have hchanged : (notifier.enter (.cursor cursor)).changed (.cursor cursor) = true :=
    (h.mono (advances_enter notifier _)).movedSince
  simp [SyncNotifier.waitForChange, hchanged]

lemma MovedPast.wakeSleeper (h : notifier.MovedPast cursor) {index : ℕ} {signalled : Bool}
    (hindex : notifier.sleepers[index]? = some ⟨.cursor cursor, signalled⟩) (timedOut : Bool) :
    (notifier.wakeSleeper index timedOut).1 = some true := by
  have hchanged : notifier.changed (.cursor cursor) = true := h.movedSince
  simp [SyncNotifier.wakeSleeper, hindex, hchanged]

end SyncNotifier

end Merovingian
