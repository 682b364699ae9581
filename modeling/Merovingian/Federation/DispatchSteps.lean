import Merovingian.Federation.DispatchThreads

/-!
# Every critical section keeps the books of the dispatcher

The step lemmas of `DispatchBooks`: for the sections of `attempt`, by the stage the thread is in, for
`enqueue_batch` and for `replay_pending`.
-/

namespace Merovingian

open List DispatchWorker

namespace DispatchWorker

variable {config : DispatchWorkerConfig} {worker later : DispatchWorker} {entry : DispatchEntry}
  {rest : List DispatchEntry} {attempt : DispatchAttempt} {stage : AttemptStage} {thread : ℕ}

/-! ### `attempt` -/

section

variable (worker : DispatchWorker)

lemma storeIds_rememberDestinationLocked (destination : FederationDestination) (commits : Bool) :
    storeIds (worker.rememberDestinationLocked destination commits).store =
      storeIds worker.store := by
  unfold rememberDestinationLocked
  cases worker.store with
  | none => rfl
  | some store => simp [storeIds]

/-- What a critical section that ends an attempt leaves alone. -/
structure SameMarks (worker later : DispatchWorker) : Prop where
  attempts : later.attempts = worker.attempts
  marks : later.inFlightDestinations = worker.inFlightDestinations
  confirmed : later.confirmed = worker.confirmed

variable (entry : DispatchEntry)

lemma sameMarks_giveUp : SameMarks worker (worker.giveUp entry) := by
  rw [giveUp, releaseDestinationSlotLocked_eq]
  exact ⟨rfl, rfl, rfl⟩

lemma sameMarks_storeAndRequeue (commits : Bool) :
    SameMarks worker (worker.storeAndRequeue entry commits) := by
  unfold storeAndRequeue
  split
  · exact sameMarks_giveUp worker entry
  · exact ⟨rfl, rfl, rfl⟩

lemma sameMarks_reEnqueueWithBackoff (nowTs : UInt64) (commits : Bool) :
    SameMarks worker (worker.reEnqueueWithBackoff config entry nowTs commits) := by
  unfold reEnqueueWithBackoff
  dsimp only
  split_ifs
  · split
    · exact sameMarks_giveUp worker _
    · rw [drop, releaseDestinationSlotLocked_eq]
      exact ⟨rfl, rfl, rfl⟩
  · exact sameMarks_storeAndRequeue worker _ commits

end

lemma books_storeAndRequeue {again : DispatchEntry} (hbalanced : Balanced config worker (entry :: rest))
    (hcovered : Covered worker (entry :: rest)) (hticket : again.ticket = entry.ticket)
    (commits : Bool) : Balanced config (worker.storeAndRequeue again commits) rest ∧
      Covered (worker.storeAndRequeue again commits) rest := by
  unfold storeAndRequeue
  split
  · exact ⟨hbalanced.giveUp hticket, hcovered.giveUp hticket⟩
  · next store hstore =>
    have hstored : Balanced config { worker with store := store } (entry :: rest) :=
      { hbalanced with }
    exact ⟨hstored.requeueLocked hticket, hcovered.requeueLocked hticket hstore⟩

lemma books_reEnqueueWithBackoff (hbalanced : Balanced config worker (entry :: rest))
    (hcovered : Covered worker (entry :: rest)) (nowTs : UInt64) (commits : Bool) :
    Balanced config (worker.reEnqueueWithBackoff config entry nowTs commits) rest ∧
      Covered (worker.reEnqueueWithBackoff config entry nowTs commits) rest := by
  have hticket : (countRetry entry).ticket = entry.ticket := rfl
  unfold reEnqueueWithBackoff
  dsimp only
  split_ifs
  · split
    · exact ⟨hbalanced.giveUp hticket, hcovered.giveUp hticket⟩
    · next store hstore =>
      have hstored : Balanced config { worker with store := store } (entry :: rest) :=
        { hbalanced with }
      refine ⟨hstored.drop hticket, ?_⟩
      rw [drop, releaseDestinationSlotLocked_eq]
      exact hcovered.removed hstore rfl rfl rfl rfl rfl
  · refine books_storeAndRequeue hbalanced hcovered ?_ commits
    rfl

lemma recordSuccess_cases (worker : DispatchWorker) (entry : DispatchEntry)
    (destination : FederationDestination) (destinationCommits commits : Bool) :
    worker.recordSuccess entry destination destinationCommits commits =
        ((worker.rememberDestinationLocked destination destinationCommits).countFailed, false) ∨
      ∃ store, (worker.rememberDestinationLocked destination destinationCommits).deleteRow commits
          entry.transaction.transactionId = some store ∧
        worker.recordSuccess entry destination destinationCommits commits =
          ({ worker.rememberDestinationLocked destination destinationCommits with
            store := store }.deliver entry, true) := by
  unfold recordSuccess
  dsimp only
  split
  · exact .inl rfl
  · next store hstore => exact .inr ⟨store, hstore, rfl⟩

namespace DispatchBooks

lemma of_thread (h : DispatchBooks config worker) (hget : worker.attempts[thread]? = some attempt)
    (hentry : attempt.entry = some entry) :
    Balanced config worker (entry :: (worker.attempts.eraseIdx thread).filterMap
      DispatchAttempt.entry) ∧
    Covered worker (entry :: (worker.attempts.eraseIdx thread).filterMap DispatchAttempt.entry) := by
  have hperm := inFlight_perm hget
  rw [hentry] at hperm
  exact ⟨h.balanced.perm hperm, h.covered.perm hperm⟩

variable {middle : DispatchWorker} (batch : List OutboundTransaction)

lemma of_ended (h : DispatchBooks config worker) (hget : worker.attempts[thread]? = some attempt)
    (hmarks : SameMarks worker middle)
    (hbooks : Balanced config middle ((worker.attempts.eraseIdx thread).filterMap
      DispatchAttempt.entry) ∧
      Covered middle ((worker.attempts.eraseIdx thread).filterMap DispatchAttempt.entry)) :
    DispatchBooks config (middle.setStage thread attempt .ended) := by
  obtain ⟨hbalanced, hcovered⟩ := hbooks
  have hattempts : (middle.setStage thread attempt .ended).attempts =
      worker.attempts.set thread { attempt with stage := .ended } := by
    rw [setStage, hmarks.attempts]
  have hperm := (inFlight_set_perm hget hattempts).symm
  constructor
  case balanced =>
    refine Balanced.perm ?_ hperm
    exact { hbalanced with }
  case covered =>
    refine Covered.perm ?_ hperm
    exact hcovered
  case threads =>
    refine h.threads.setStage hget hattempts hmarks.marks ?_ (by rintro _ ⟨⟩) (by rintro _ _ _ ⟨⟩)
    exact fun ticket hticket => by rw [setStage, hmarks.confirmed]; exact hticket

lemma of_stage (h : DispatchBooks config worker) (hget : worker.attempts[thread]? = some attempt)
    (hentry : attempt.entry = some entry) (hattempts : middle.attempts = worker.attempts)
    (hmarks : middle.inFlightDestinations = worker.inFlightDestinations)
    (hconfirmed : worker.confirmed ⊆ middle.confirmed) (hstage : stage.entry = some entry)
    (hanswered : ∀ entry destination finishedAt,
      stage = .succeeded entry destination finishedAt → entry.ticket ∈ middle.confirmed)
    (hbooks : Balanced config worker worker.inFlight → Covered worker worker.inFlight →
      Balanced config middle worker.inFlight ∧ Covered middle worker.inFlight) :
    DispatchBooks config (middle.setStage thread attempt stage) := by
  obtain ⟨hbalanced, hcovered⟩ := hbooks h.balanced h.covered
  have hset : (middle.setStage thread attempt stage).attempts =
      worker.attempts.set thread { attempt with stage := stage } := by rw [setStage, hattempts]
  have hperm : worker.inFlight.Perm (middle.setStage thread attempt stage).inFlight := by
    have hbefore := inFlight_perm hget
    have hafter := inFlight_set_perm hget hset
    rw [hentry] at hbefore
    rw [hstage] at hafter
    exact hbefore.trans hafter.symm
  constructor
  case balanced =>
    refine Balanced.perm ?_ hperm
    exact { hbalanced with }
  case covered =>
    refine Covered.perm ?_ hperm
    exact hcovered
  case threads =>
    refine h.threads.setStage hget hset hmarks hconfirmed ?_ hanswered
    intro other hother
    obtain rfl := Option.some.inj (hstage.symm.trans hother)
    exact h.threads.own attempt (mem_of_getElem? hget) entry hentry

lemma look (h : DispatchBooks config worker) (hget : worker.attempts[thread]? = some attempt)
    (hentry : attempt.entry = some entry) (answer : AttemptAnswer) :
    DispatchBooks config (worker.look config thread attempt entry answer) := by
  obtain ⟨destination, known, hfound⟩ : ∃ destination known,
      worker.findOrCreateDestination entry.transaction.destination =
        (destination, { worker with destinations := known }) := by
    unfold findOrCreateDestination
    split
    · exact ⟨_, worker.destinations, rfl⟩
    · exact ⟨_, _, rfl⟩
  have hstage : (stageAfter config entry destination answer).entry = some entry := by
    unfold stageAfter
    dsimp only
    split_ifs <;> rfl
  unfold DispatchWorker.look
  rw [hfound]
  dsimp only
  generalize stageAfter config entry destination answer = stage at hstage
  refine h.of_stage hget hentry rfl rfl ?_ hstage ?_
    fun hbalanced hcovered => ⟨{ hbalanced with }, hcovered⟩
  · split
    · exact subset_append_left _ _
    · exact Subset.refl _
  · rintro entry destination finishedAt rfl
    exact mem_append_right _ mem_cons_self

lemma advance (h : DispatchBooks config worker) (hget : worker.attempts[thread]? = some attempt)
    (answer : AttemptAnswer) (destinationCommits commits : Bool) :
    DispatchBooks config
      (worker.advance config thread attempt answer destinationCommits commits) := by
  unfold DispatchWorker.advance
  cases hstage : attempt.stage with
  | taken entry => exact h.look hget (by rw [DispatchAttempt.entry, hstage]; rfl) answer
  | circuitOpen entry destination nowTs =>
    obtain ⟨hbalanced, hcovered⟩ := h.of_thread hget (by rw [DispatchAttempt.entry, hstage]; rfl)
    have hmarks := sameMarks_storeAndRequeue worker.countFailed (waitUntil entry
      (if nowTs < destination.retryAfterTs then destination.retryAfterTs
        else nowTs + computeBackoff entry.transaction.retryCount)) commits
    refine h.of_ended hget { hmarks with } ?_
    have hfailed : Covered worker.countFailed (entry :: (worker.attempts.eraseIdx thread).filterMap
      DispatchAttempt.entry) := hcovered
    refine books_storeAndRequeue hbalanced.countFailed hfailed ?_ commits
    rfl
  | failed entry destination failedAt =>
    refine h.of_stage hget (by rw [DispatchAttempt.entry, hstage]; rfl) rfl rfl
      (Subset.refl _) rfl (by rintro _ _ _ ⟨⟩) fun hbalanced hcovered => ?_
    have hremembered : Balanced config
        (worker.rememberDestinationLocked destination destinationCommits) worker.inFlight :=
      { hbalanced with }
    refine ⟨hremembered.countFailed, hcovered.of_subset ?_ rfl fun _ _ hkept => hkept⟩
    exact storeIds_rememberDestinationLocked worker destination destinationCommits ▸
      Subset.refl _
  | succeeded entry destination finishedAt =>
    have hentry : attempt.entry = some entry := by rw [DispatchAttempt.entry, hstage]; rfl
    obtain ⟨hbalanced, hcovered⟩ := h.of_thread hget hentry
    dsimp only
    set remembered := worker.rememberDestinationLocked destination destinationCommits
    have hids : storeIds remembered.store ⊆ storeIds worker.store :=
      storeIds_rememberDestinationLocked worker destination destinationCommits ▸
        Subset.refl _
    rcases worker.recordSuccess_cases entry destination destinationCommits commits with
      hrecorded | ⟨store, hstore, hrecorded⟩
    · rw [hrecorded]
      refine h.of_stage hget hentry rfl rfl (Subset.refl _) rfl (by rintro _ _ _ ⟨⟩)
        fun hbalanced hcovered => ?_
      have hremembered : Balanced config remembered worker.inFlight :=
        { hbalanced with }
      exact ⟨hremembered.countFailed, hcovered.of_subset hids rfl fun _ _ hkept => hkept⟩
    · rw [hrecorded]
      have hdelivered : SameMarks worker ({ remembered with store := store }.deliver entry) := by
        rw [deliver, releaseDestinationSlotLocked_eq]
        exact ⟨rfl, rfl, rfl⟩
      refine h.of_ended hget hdelivered ⟨?_, ?_⟩
      · refine Balanced.deliver ?_ rfl
        exact { hbalanced with }
      · have hremembered : Covered remembered (entry :: (worker.attempts.eraseIdx thread).filterMap
            DispatchAttempt.entry) := hcovered.of_subset hids rfl fun _ _ hkept => hkept
        rw [deliver, releaseDestinationSlotLocked_eq]
        exact hremembered.removed hstore rfl rfl rfl rfl rfl
  | retrying entry nowTs =>
    obtain ⟨hbalanced, hcovered⟩ := h.of_thread hget (by rw [DispatchAttempt.entry, hstage]; rfl)
    exact h.of_ended hget (sameMarks_reEnqueueWithBackoff worker entry nowTs commits)
      (books_reEnqueueWithBackoff hbalanced hcovered nowTs commits)
  | ended =>
    have hperm : worker.inFlight.Perm (worker.leave thread attempt.destination).inFlight := by
      have hall := inFlight_perm hget
      rw [DispatchAttempt.entry, hstage] at hall
      exact hall
    constructor
    case balanced =>
      refine Balanced.perm ?_ hperm
      exact { h.balanced with }
    case covered =>
      refine Covered.perm ?_ hperm
      exact h.covered
    case threads => exact h.threads.leave hget

/-! ### `enqueue_batch` and `replay_pending` -/

lemma foldl_acceptIntoQueue_spec (worker : DispatchWorker) :
    ∃ news : List DispatchEntry, news.map DispatchEntry.transaction = batch ∧
      (batch.foldl acceptIntoQueue worker).queue = worker.queue ++ news ∧
      (batch.foldl acceptIntoQueue worker).accepted =
        worker.accepted ++ news.map DispatchEntry.ticket ∧
      (batch.foldl acceptIntoQueue worker).store = worker.store ∧
      (batch.foldl acceptIntoQueue worker).pendingReplay = worker.pendingReplay ∧
      (batch.foldl acceptIntoQueue worker).givenUp = worker.givenUp ∧
      SameMarks worker (batch.foldl acceptIntoQueue worker) := by
  induction batch generalizing worker with
  | nil => exact ⟨[], rfl, by simp, by simp, rfl, rfl, rfl, rfl, rfl, rfl⟩
  | cons transaction batch ih =>
    obtain ⟨news, hnews, hqueue, haccepted, hstore, hparked, hgiven, hmarks⟩ :=
      ih (worker.acceptIntoQueue transaction)
    refine ⟨⟨worker.accepted.length, transaction⟩ :: news, by rw [map_cons, hnews], ?_, ?_, hstore,
      hparked, hgiven, hmarks.attempts, hmarks.marks, hmarks.confirmed⟩
    · rw [foldl_cons, hqueue]
      exact append_assoc _ _ _
    · rw [foldl_cons, haccepted]
      exact append_assoc _ _ _

end DispatchBooks

/-! ### The flags of `enqueue_batch` -/

lemma takeWithinBounds_sublist (config : DispatchWorkerConfig) (size : ℕ) (held : Str → ℕ)
    (members : List (OutboundTransaction × ℕ)) :
    (takeWithinBounds config size held members).1.Sublist members := by
  induction members generalizing size held with
  | nil => exact .slnil
  | cons member members ih =>
    unfold takeWithinBounds
    split_ifs
    · exact (ih size held).cons member
    · exact (ih _ _).cons_cons member

lemma filter_mem_positions {members chosen : List (OutboundTransaction × ℕ)}
    (hsub : chosen.Sublist members) (hnodup : (members.map Prod.snd).Nodup) :
    (members.filter fun member => decide (member.2 ∈ chosen.map Prod.snd)) = chosen := by
  induction hsub with
  | slnil => rfl
  | cons member hsub ih =>
    obtain ⟨hnew, hnodup⟩ := nodup_cons.mp hnodup
    rw [filter_cons_of_neg, ih hnodup]
    exact of_decide_eq_false (decide_eq_false fun h =>
      hnew ((hsub.map Prod.snd).subset (of_decide_eq_true h)))
  | @cons_cons chosen members member hsub ih =>
    obtain ⟨hnew, hnodup⟩ := nodup_cons.mp hnodup
    rw [filter_cons_of_pos (by simp)]
    refine congrArg (member :: ·) (Eq.trans (filter_congr fun other hother => ?_) (ih hnodup))
    have hne : other.2 ≠ member.2 := fun h => hnew (h ▸ mem_map_of_mem hother)
    simp [hne]

/-- `enqueue_batch` queues exactly the members it flags, each with its row where there is a
store. -/
lemma enqueueBatch_spec (config : DispatchWorkerConfig) (worker : DispatchWorker)
    (batch : List OutboundTransaction) (commits : Bool) :
    ∃ news : List DispatchEntry, news.map DispatchEntry.transaction =
        ((batch.zip (worker.enqueueBatch config batch commits).1).filter Prod.snd).map Prod.fst ∧
      (worker.enqueueBatch config batch commits).1.length = batch.length ∧
      (worker.enqueueBatch config batch commits).2.queue = worker.queue ++ news ∧
      (worker.enqueueBatch config batch commits).2.accepted =
        worker.accepted ++ news.map DispatchEntry.ticket ∧
      (∀ id, (id ∈ storeIds (worker.enqueueBatch config batch commits).2.store →
          id ∈ storeIds worker.store ∨
            id ∈ news.map fun entry => entry.transaction.transactionId) ∧
        (id ∈ storeIds worker.store →
          id ∈ storeIds (worker.enqueueBatch config batch commits).2.store) ∧
        (worker.store.isSome → id ∈ (news.map fun entry => entry.transaction.transactionId) →
          id ∈ storeIds (worker.enqueueBatch config batch commits).2.store)) ∧
      (worker.enqueueBatch config batch commits).2.pendingReplay = worker.pendingReplay ∧
      (worker.enqueueBatch config batch commits).2.givenUp = worker.givenUp ∧
      SameMarks worker (worker.enqueueBatch config batch commits).2 := by
  have hflags : ∀ chosen : List (OutboundTransaction × ℕ), chosen.Sublist batch.zipIdx →
      chosen.map Prod.fst = ((batch.zip ((range batch.length).map fun position =>
        decide (position ∈ chosen.map Prod.snd))).filter Prod.snd).map Prod.fst := by
    intro chosen hsub
    have hpairs : (batch.zip ((range batch.length).map fun position =>
        decide (position ∈ chosen.map Prod.snd))) =
          batch.zipIdx.map (Prod.map id fun position => decide (position ∈ chosen.map Prod.snd)) := by
      rw [zip_map_right, zipIdx_eq_zip_range', range_eq_range']
    have hnodup : (batch.zipIdx.map Prod.snd).Nodup := by
      rw [zipIdx_map_snd]
      exact nodup_range'
    rw [hpairs, filter_map, map_map]
    exact congrArg (map Prod.fst) (filter_mem_positions hsub hnodup).symm
  unfold enqueueBatch
  dsimp only
  split_ifs
  · exact ⟨[], hflags [] (nil_sublist _), by simp, by simp, by simp,
      fun id => ⟨.inl, fun h => h, by simp⟩, rfl, rfl, rfl, rfl, rfl⟩
  · exact ⟨[], hflags [] (nil_sublist _), by simp, by simp, by simp,
      fun id => ⟨.inl, fun h => h, by simp⟩, rfl, rfl, rfl, rfl, rfl⟩
  · split
    · exact ⟨[], hflags [] (nil_sublist _), by simp, by simp, by simp,
        fun id => ⟨.inl, fun h => h, by simp⟩, rfl, rfl, rfl, rfl, rfl⟩
    · next store hstore =>
      obtain ⟨news, hnews, hqueue, haccepted, hsame, hparked, hgiven, hmarks⟩ :=
        DispatchBooks.foldl_acceptIntoQueue_spec ((worker.taken config batch).1.map Prod.fst) _
      have hids : (news.map fun entry => entry.transaction.transactionId) =
          ((worker.taken config batch).1.map Prod.fst).map OutboundTransaction.transactionId := by
        rw [← hnews, map_map]
        rfl
      refine ⟨news, hnews.trans (hflags _ ?_), by simp, hqueue, haccepted, fun id => ?_, hparked,
        hgiven, { hmarks with }⟩
      · exact (takeWithinBounds_sublist ..).trans filter_sublist
      · rw [hsame, hids]
        exact mem_storeIds_storeBatch hstore

namespace DispatchBooks

section

variable (batch : List OutboundTransaction) (h : DispatchBooks config worker)

include h

lemma of_marks (hmarks : SameMarks worker later)
    (hbooks : Balanced config later worker.inFlight ∧ Covered later worker.inFlight) :
    DispatchBooks config later := by
  have hflying : later.inFlight = worker.inFlight := by rw [inFlight, hmarks.attempts]; rfl
  constructor
  case balanced => exact hflying ▸ hbooks.1
  case covered => exact hflying ▸ hbooks.2
  case threads =>
    obtain ⟨hmarked, hsingle, hown, hanswered⟩ := h.threads
    constructor
    · rw [hmarks.marks, hmarks.attempts]; exact hmarked
    · rw [hmarks.attempts]; exact hsingle
    · rw [hmarks.attempts]; exact hown
    · rw [hmarks.attempts, hmarks.confirmed]; exact hanswered

lemma enqueueBatch (commits : Bool) :
    DispatchBooks config (worker.enqueueBatch config batch commits).2 := by
  obtain ⟨news, -, -, hqueue, haccepted, hrows, hparked, hgiven, hmarks⟩ :=
    enqueueBatch_spec config worker batch commits
  refine h.of_marks hmarks ⟨?_, ?_⟩
  · unfold DispatchWorker.enqueueBatch
    dsimp only
    split_ifs
    · exact { h.balanced with }
    · exact { h.balanced with }
    · split
      · exact { h.balanced with }
      · refine Balanced.foldl_acceptIntoQueue _ worker.queue.length ?_
        exact { h.balanced with }
  · -- a row is an old one, or is written for a transaction that is queued now
    intro id hrow haccept
    rw [haccepted, map_append, mem_append, map_map] at haccept
    rw [mem_keptIds, hqueue, hparked, hgiven]
    have hnew : id ∈ news.map (fun entry => entry.transaction.transactionId) →
        ∃ entry, (entry ∈ worker.queue ++ news ∨ entry ∈ worker.pendingReplay ∨
          entry ∈ worker.inFlight) ∧ entry.transaction.transactionId = id := by
      intro hid
      obtain ⟨entry, hentry, rfl⟩ := mem_map.mp hid
      exact ⟨entry, .inl (mem_append_right _ hentry), rfl⟩
    rcases haccept with haccept | haccept
    · rcases (hrows id).1 hrow with hold | hid
      · refine (mem_keptIds.mp (h.covered id hold haccept)).imp_left ?_
        rintro ⟨entry, hplace, hid⟩
        exact ⟨entry, hplace.imp_left fun hplace => mem_append_left _ hplace, hid⟩
      · exact .inl (hnew hid)
    · exact .inl (hnew haccept)

lemma replayPending (commits : Str → Bool) :
    DispatchBooks config (worker.replayPending config commits) := by
  have hreplay : ∀ (rows : List OutboundTransaction) (worker : DispatchWorker),
      DispatchBooks config worker →
        DispatchBooks config (rows.foldl (replayRow config) worker) := by
    intro rows worker h
    induction rows generalizing worker with
    | nil => exact h
    | cons row rows ih =>
      refine ih _ (h.of_marks ?_ ⟨h.balanced.replayRow row, h.covered.replayRow row⟩)
      unfold replayRow
      split_ifs <;> exact ⟨rfl, rfl, rfl⟩
  have hexclude : ∀ (rows : List OutboundTransaction) (worker : DispatchWorker),
      DispatchBooks config worker →
        DispatchBooks config (rows.foldl (excludeRow commits) worker) := by
    intro rows worker h
    induction rows generalizing worker with
    | nil => exact h
    | cons row rows ih =>
      refine ih _ (h.of_marks ?_ ⟨?_, h.covered.excludeRow commits row⟩)
      · unfold excludeRow
        split <;> exact ⟨rfl, rfl, rfl⟩
      · unfold excludeRow
        split
        · exact h.balanced.countFailed
        · exact { h.balanced with }
  unfold DispatchWorker.replayPending
  split
  · exact h
  · refine hexclude _ _ (hreplay _ _ ?_)
    exact h.of_marks ⟨rfl, rfl, rfl⟩ ⟨{ h.balanced with }, h.covered⟩

lemma step {event : DispatchEvent} (hstep : DispatchEvent.Step config worker event later) :
    DispatchBooks config later := by
  rw [hstep]
  cases event with
  | enqueueBatch batch commits => exact h.enqueueBatch batch commits
  | takeNext dueBy => exact h.takeNext dueBy
  | advance thread answer destinationCommits commits =>
    dsimp only [DispatchEvent.after]
    cases hget : worker.attempts[thread]? with
    | none => exact h
    | some attempt => exact h.advance hget answer destinationCommits commits
  | replayPending commits => exact h.replayPending commits
  | requestShutdown =>
    exact h.of_marks ⟨rfl, rfl, rfl⟩ ⟨{ h.balanced with }, h.covered⟩

end

end DispatchBooks

end DispatchWorker

end Merovingian
