import Merovingian.Sync.LongPolls

/-!
# No wake-up of a long-poll is lost

A publish that concerns the user of a cursor moves past the cursor in its first critical section.
From then on (`Pending`) a comparison with the cursor finds that it has moved, and a poll parked
with it that still has an entry is either one the publish will find in its second section or one
whose park has not come to its end.  The main result, `longPoll_wakeups`, is for all orders of the
sections of the two calls.
-/

namespace Merovingian

open List Option

namespace LongPolls

variable {polls later : LongPolls} {event : LongPollEvent} {cursor : WaitCursor} {call : ℕ}

/-- The publish `call` has moved past the cursor, and a poll parked with the cursor that still
has an entry is one that the publish or its own park has yet to wake. -/
structure Pending (call : ℕ) (cursor : WaitCursor) (polls : LongPolls) : Prop where
  moved : polls.notifier.MovedPast cursor
  entries : ∀ entry ∈ polls.registry.entries, (entry.ticket, cursor) ∈ polls.parkedWith →
    (∃ publisher ∈ polls.publishing, publisher.call = call ∧
      SyncNotifier.Concerns publisher.scope cursor.user) ∨
    ∃ parker ∈ polls.parking, parker.ticket = entry.ticket ∧ parker.cursor = cursor

section

variable (h : Pending call cursor polls)

include h

/-- Where the generations only advance, entries only go and no call returns, nothing is lost. -/
lemma Pending.of_subset (hnotifier : polls.notifier.Advances later.notifier)
    (hentries : later.registry.entries ⊆ polls.registry.entries)
    (hparked : later.parkedWith = polls.parkedWith)
    (hpublishing : polls.publishing ⊆ later.publishing) (hparking : polls.parking ⊆ later.parking) :
    Pending call cursor later := by
  refine ⟨h.moved.mono hnotifier, fun entry hmem hcursor => ?_⟩
  rw [hparked] at hcursor
  rcases h.entries entry (hentries hmem) hcursor with ⟨publisher, hmem, hrest⟩ | ⟨parker, hmem, hrest⟩
  · exact .inl ⟨publisher, hpublishing hmem, hrest⟩
  · exact .inr ⟨parker, hparking hmem, hrest⟩

lemma Pending.of_registry (hentries : later.registry.entries ⊆ polls.registry.entries)
    (hlater : later = { polls with registry := later.registry }) : Pending call cursor later := by
  refine h.of_subset ?_ hentries ?_ ?_ ?_
  all_goals rw [hlater]
  · exact .refl _
  all_goals exact Subset.refl _

lemma Pending.publishWake (hsound : polls.Sound) (publisher : PublishCall) :
    Pending call cursor { polls with
      registry := wakeScope polls.registry publisher.scope
      publishing := polls.publishing.erase publisher } := by
  obtain ⟨hwoken, hleft⟩ := hsound.wakeScope publisher.scope
  refine ⟨h.moved, fun entry hmem hcursor => ?_⟩
  have hold := hwoken.only.entries hmem
  rcases h.entries entry hold hcursor with ⟨other, hother, hcall, hconcerns⟩ | hparker
  · by_cases hsame : other = publisher
    · -- the publish itself: it has just woken every poll of the user
      subst hsame
      rw [← hsound.users entry hold cursor hcursor] at hconcerns
      exact absurd hconcerns (hleft entry hmem)
    · exact .inl ⟨other, (mem_erase_of_ne hsame).mpr hother, hcall, hconcerns⟩
  · exact .inr hparker

lemma Pending.parkInsert (hsound : polls.Sound) (other : WaitCursor) (deadline : ℕ) :
    Pending call cursor (polls.parkInsert other deadline) := by
  rcases parkInsert_cases polls other deadline with heq | ⟨-, heq⟩ <;> rw [heq]
  · exact h
  refine ⟨h.moved, fun entry hmem hcursor => ?_⟩
  rcases mem_append.mp hmem with hmem | hmem
  · rcases mem_append.mp hcursor with hcursor | hcursor
    · rcases h.entries entry hmem hcursor with hpublisher | ⟨parker, hparker, hrest⟩
      · exact .inl hpublisher
      · exact .inr ⟨parker, mem_append_left _ hparker, hrest⟩
    · have hticket := (Prod.ext_iff.mp (mem_singleton.mp hcursor)).1
      exact absurd hticket (hsound.ticket_lt hmem).ne
  · obtain rfl := mem_singleton.mp hmem
    rcases mem_append.mp hcursor with hcursor | hcursor
    · exact absurd (hsound.known _ hcursor).2 (lt_irrefl _)
    · -- the new poll: its own park has still to compare
      have hsame : cursor = other := (Prod.ext_iff.mp (mem_singleton.mp hcursor)).2
      exact .inr ⟨⟨polls.registry.nextTicket, other, false⟩, by simp, rfl, hsame.symm⟩

lemma Pending.parkCompare (parker : ParkCall) : Pending call cursor (polls.parkCompare parker) := by
  have hcases : ∀ other ∈ polls.parking, other.cursor = cursor →
      ∃ left ∈ (polls.parkCompare parker).parking, left.ticket = other.ticket ∧
        left.cursor = cursor := by
    intro other hother hcursor
    unfold LongPolls.parkCompare
    by_cases hsame : other = parker
    · -- a comparison with the cursor finds that it has moved
      subst hsame
      rw [if_pos (by rw [hcursor]; exact h.moved.movedSince)]
      exact ⟨{ other with moved := true }, by simp, rfl, hcursor⟩
    · have hleft : other ∈ polls.parking.erase parker := (mem_erase_of_ne hsame).mpr hother
      split_ifs
      · exact ⟨other, mem_append_left _ hleft, rfl, hcursor⟩
      · exact ⟨other, hleft, rfl, hcursor⟩
  rw [parkCompare_eq]
  refine ⟨h.moved, fun entry hmem hcursor => ?_⟩
  rcases h.entries entry hmem hcursor with hpublisher | ⟨other, hother, hticket, hcursor⟩
  · exact .inl hpublisher
  · obtain ⟨left, hleft, hsame, hcursor⟩ := hcases other hother hcursor
    exact .inr ⟨left, hleft, hsame.trans hticket, hcursor⟩

lemma Pending.parkWake (hsound : polls.Sound) (parker : ParkCall) :
    Pending call cursor { polls with
      registry := polls.registry.wake parker.ticket
      parking := polls.parking.erase parker } := by
  obtain ⟨hwoken, hleft⟩ := hsound.registry.wake hsound.alert parker.ticket
  refine ⟨h.moved, fun entry hmem hcursor => ?_⟩
  rcases h.entries entry (hwoken.only.entries hmem) hcursor with
    hpublisher | ⟨other, hother, hticket, hcursor⟩
  · exact .inl hpublisher
  · have hne : other ≠ parker := by
      rintro rfl
      exact hleft entry hmem hticket.symm
    exact .inr ⟨other, (mem_erase_of_ne hne).mpr hother, hticket, hcursor⟩

lemma Pending.step (hsound : polls.Sound) (hstep : Step polls event later) :
    Pending call cursor later := by
  have hadvances := hstep.advances
  cases event with
  | observe _ | waitForChange _ _ | wakeSleeper _ _ =>
    cases hstep
    exact h.of_subset hadvances (Subset.refl _) rfl (Subset.refl _) (Subset.refl _)
  | publish newStreamOrdering newSyncStreamId scope =>
    cases hstep
    exact h.of_subset hadvances (Subset.refl _) rfl (subset_append_left _ _)
      (Subset.refl _)
  | publishWake publisher =>
    obtain ⟨-, heq⟩ := ite_none_right_eq_some.mp hstep
    cases heq
    exact h.publishWake hsound publisher
  | park other deadline =>
    cases hstep
    exact h.parkInsert hsound other deadline
  | parkCompare parker =>
    obtain ⟨-, heq⟩ := ite_none_right_eq_some.mp hstep
    cases heq
    exact h.parkCompare parker
  | parkWake parker =>
    obtain ⟨-, heq⟩ := ite_none_right_eq_some.mp hstep
    cases heq
    exact h.parkWake hsound parker
  | _ =>
    have hregistry := hsound.registryOnly hstep trivial
    exact h.of_registry hregistry.entries hregistry.rest

end

/-! ### Whole runs -/

variable {events : List LongPollEvent}

lemma Sound.run (h : polls.Sound) (hrun : Run Step polls events later) : later.Sound :=
  hrun.invariant Sound (fun _ => True) (fun _ hstep hsound => hsound.step hstep)
    (fun _ _ => trivial) h

lemma taken_run (hrun : Run Step polls events later) (h : polls.notifier.Taken cursor) :
    later.notifier.Taken cursor :=
  hrun.invariant (fun polls => polls.notifier.Taken cursor) (fun _ => True)
    (fun _ hstep htaken => htaken.mono hstep.advances) (fun _ _ => trivial) h

lemma Pending.run (h : Pending call cursor polls) (hsound : polls.Sound)
    (hrun : Run Step polls events later) : Pending call cursor later :=
  (hrun.invariant (fun polls => polls.Sound ∧ Pending call cursor polls) (fun _ => True)
    (fun _ hstep hboth => ⟨hboth.1.step hstep, hboth.2.step hboth.1 hstep⟩) (fun _ _ => trivial)
    ⟨hsound, h⟩).2

lemma pending_publish (h : polls.notifier.Taken cursor) {newStreamOrdering newSyncStreamId : ℕ}
    {scope : Option (List Str)} (hscope : SyncNotifier.Concerns scope cursor.user)
    (hstep : Step polls (.publish newStreamOrdering newSyncStreamId scope) later) :
    Pending polls.nextCall cursor later := by
  cases hstep
  refine ⟨h.movedPast_publish newStreamOrdering newSyncStreamId hscope, fun entry _ _ => .inl ?_⟩
  exact ⟨⟨polls.nextCall, scope⟩, by simp, rfl, hscope⟩

lemma Pending.handed (h : Pending call cursor polls) (hsound : polls.Sound) {ticket : ℕ}
    (hparked : (ticket, cursor) ∈ polls.parkedWith)
    (hpublished : ∀ publisher ∈ polls.publishing, publisher.call ≠ call)
    (hreturned : ∀ parker ∈ polls.parking, parker.ticket ≠ ticket)
    (hrunning : polls.registry.stopping = false) :
    ticket ∈ (polls.registry.handedOver ++ polls.registry.ready).map Prod.fst := by
  obtain ⟨hpos, hlt⟩ := hsound.known _ hparked
  have hmem := hsound.registry.mem_accounted hpos hlt
  simp only [ParkedPollRegistry.accounted, hsound.registry.undoomed hrunning, append_nil,
    mem_append] at hmem
  rw [map_append, mem_append]
  rcases hmem with hentry | hready | hhanded
  · -- an entry would still be somebody's to wake
    obtain ⟨entry, hmem, rfl⟩ := mem_map.mp hentry
    rcases h.entries entry hmem hparked with ⟨publisher, hpublisher, hcall, -⟩ |
      ⟨parker, hparker, hticket, -⟩
    · exact absurd hcall (hpublished publisher hpublisher)
    · exact absurd hticket (hreturned parker hparker)
  · exact .inr hready
  · exact .inl hhanded

end LongPolls

open LongPolls

/-- No wake-up is lost.

In every state that a run reaches: a thread blocked in `wait_for_change` that was not signalled
has nothing to see, the tables of the registry agree and keep to the caps (that of a user when it
is at least one, as the configuration asks), no poll is handed over twice, and a ready poll does
not find the registry thread asleep.

If a publish that concerns `user` takes the notifier's mutex after `observe user` returned
`cursor`, then in every later state every check of `wait_for_change cursor`, on entering and on
waking up, reports a change, and every poll parked with the cursor is handed over or ready once
the publish and the park have returned, unless the registry was stopped. -/
theorem longPoll_wakeups :
    (∀ events polls, Run Step {} events polls →
      (∀ sleeper ∈ polls.notifier.sleepers, sleeper.signalled = false →
        polls.notifier.changed sleeper.target = false) ∧
      polls.registry.Consistent ∧
      (polls.registry.handedOver.map Prod.fst).Nodup ∧ polls.registry.Alert ∧
      (1 ≤ polls.registry.limits.maxParkedPerUser → ∀ user,
        (polls.registry.ticketsOf user).length ≤ polls.registry.limits.maxParkedPerUser)) ∧
    (∀ before taken published polls user newStreamOrdering newSyncStreamId scope
        first second third publishing,
      Run Step {} first before → Step before (.observe user) taken →
      Run Step taken second published →
      Step published (.publish newStreamOrdering newSyncStreamId scope) publishing →
      SyncNotifier.Concerns scope user → Run Step publishing third polls →
      let cursor := (before.notifier.observe user).1
      (∀ block, (polls.notifier.waitForChange (.cursor cursor) block).1 = some true) ∧
      (∀ index signalled timedOut,
        polls.notifier.sleepers[index]? = some ⟨.cursor cursor, signalled⟩ →
        (polls.notifier.wakeSleeper index timedOut).1 = some true) ∧
      ∀ ticket, (ticket, cursor) ∈ polls.parkedWith →
        (∀ publisher ∈ polls.publishing, publisher.call ≠ published.nextCall) →
        (∀ parker ∈ polls.parking, parker.ticket ≠ ticket) →
        polls.registry.stopping = false →
        ticket ∈ (polls.registry.handedOver ++ polls.registry.ready).map Prod.fst) := by
  refine ⟨fun events polls hrun => ?_, ?_⟩
  · have hsound := sound_fresh.run hrun
    refine ⟨hsound.notifier.signalled, hsound.registry, hsound.registry.nodup_handedOver,
      hsound.alert, fun hlimit user => ?_⟩
    exact (hsound.registry.perUser user).trans_eq (max_eq_right hlimit)
  · intro before taken published polls user newStreamOrdering newSyncStreamId scope first second
      third publishing hfirst hobserve hsecond hpublish hscope hthird
    have hpublished := ((sound_fresh.run hfirst).step hobserve).run hsecond
    have htaken : published.notifier.Taken (before.notifier.observe user).1 := by
      refine taken_run hsecond ?_
      cases hobserve
      exact ⟨le_rfl, le_rfl, SyncNotifier.isSome_withEntry _ user⟩
    have hpending := (pending_publish htaken hscope hpublish).run (hpublished.step hpublish) hthird
    have hsound := (hpublished.step hpublish).run hthird
    refine ⟨hpending.moved.waitForChange, ?_, ?_⟩
    · intro index signalled timedOut hindex
      exact hpending.moved.wakeSleeper hindex timedOut
    · intro ticket hparked hcall hreturned hrunning
      exact hpending.handed hsound hparked hcall hreturned hrunning

/-- The state after some critical sections, each of which a thread can make. -/
def pollsAfter (polls : LongPolls) (events : List LongPollEvent) : LongPolls :=
  (events.foldlM LongPolls.step polls).getD polls

/-- The cursor of a user that nobody has published for. -/
def aliceCursor : WaitCursor := ⟨"@alice:example.org", 0, 0⟩

/-- A registry that runs with the default caps. -/
def parkingPolls : LongPolls := pollsAfter {} [.start {}]

/-- A poll of the user is parked after they observed. -/
def alicePolls : LongPolls :=
  pollsAfter parkingPolls [.observe "@alice:example.org", .park aliceCursor 100]

/-- A publish comes between the insert and the comparison of the park; both calls go on to their
end and the registry thread makes a pass. -/
def publishedPolls : LongPolls :=
  pollsAfter alicePolls [.publish 1 0 (some ["@alice:example.org"]),
    .parkCompare ⟨1, aliceCursor, false⟩, .publishWake ⟨0, some ["@alice:example.org"]⟩,
    .parkWake ⟨1, aliceCursor, true⟩, .runPass 5]

theorem longPoll_wakeups_between_insert_and_comparison :
    (publishedPolls.registry.handedOver.map Prod.fst).Nodup ∧
      (publishedPolls.notifier.waitForChange (.cursor aliceCursor) true).1 = some true ∧
      1 ∈ (publishedPolls.registry.handedOver ++ publishedPolls.registry.ready).map Prod.fst := by
  have hrun : ∀ {polls later : LongPolls} {events}, events.foldlM LongPolls.step polls = some later →
      Run Step polls events later := fun h => Run.of_foldlM (fun hstep => hstep) h
  have hstate := longPoll_wakeups.1 ([.start {}] ++ [.observe "@alice:example.org",
    .park aliceCursor 100] ++ [.publish 1 0 (some ["@alice:example.org"]),
    .parkCompare ⟨1, aliceCursor, false⟩, .publishWake ⟨0, some ["@alice:example.org"]⟩,
    .parkWake ⟨1, aliceCursor, true⟩, .runPass 5]) publishedPolls (hrun rfl)
  have hafter := longPoll_wakeups.2 parkingPolls
    (pollsAfter parkingPolls [.observe "@alice:example.org"]) alicePolls publishedPolls
    "@alice:example.org" 1 0 (some ["@alice:example.org"]) [.start {}] [.park aliceCursor 100]
    [.parkCompare ⟨1, aliceCursor, false⟩, .publishWake ⟨0, some ["@alice:example.org"]⟩,
      .parkWake ⟨1, aliceCursor, true⟩, .runPass 5]
    (pollsAfter alicePolls [.publish 1 0 (some ["@alice:example.org"])])
    (hrun rfl) rfl (hrun rfl) rfl (by rintro users ⟨⟩; simp) (hrun rfl)
  refine ⟨hstate.2.2.1, hafter.1 true, hafter.2.2 1 ?_ ?_ ?_ rfl⟩
  all_goals decide

/-- `request_stop` leaks no poll: once the registry is stopped, every ticket that was ever given is
that of a poll that was handed over or destroyed, and of one of them only. -/
theorem stopped_accounts {events : List LongPollEvent} {polls : LongPolls}
    (hrun : Run Step {} events polls) (hstopping : polls.registry.stopping = true) :
    (0 :: (polls.registry.handedOver.map Prod.fst ++ polls.registry.doomed)).Perm
      (range polls.registry.nextTicket) := by
  have hregistry := (sound_fresh.run hrun).registry
  obtain ⟨hentries, hready⟩ := hregistry.stopped hstopping
  simpa [ParkedPollRegistry.accounted, hentries, hready] using hregistry.accounts

/-- The registry stops while a poll is parked. -/
theorem stopped_accounts_parked : ∃ polls events, Run Step {} events polls ∧
    (0 :: (polls.registry.handedOver.map Prod.fst ++ polls.registry.doomed)).Perm
      (range polls.registry.nextTicket) ∧ polls.registry.doomed = [1] := by
  have hrun : Run Step {} [.start {}, .observe "@alice:example.org", .park aliceCursor 100,
    .requestStop] (pollsAfter alicePolls [.requestStop]) := Run.of_foldlM (fun hstep => hstep) rfl
  exact ⟨_, _, hrun, stopped_accounts hrun rfl, rfl⟩

end Merovingian
