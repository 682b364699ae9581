import Merovingian.Sync.ParkedPollRegistry

/-!
# The calls of the registry keep its tables

Each hold of the registry's mutex keeps `Consistent`, and leaves the registry thread awake when
there is a poll for it (`Alert`).  The calls that wake polls also leave no entry of what they woke:
`wakeUsers` none of its users, `wake` none with its ticket, `wakeAll` none at all.
-/

namespace Merovingian

open List

namespace ParkedPollRegistry

variable {registry later : ParkedPollRegistry} {entry : ParkedEntry} {user : Str}

/-! ### Waking polls -/

variable {state after : ParkedPollRegistry × Bool}

/-- Polls are made ready and the flag `woke` is raised; a flag that is down says that nothing
happened. -/
structure Wakes (state after : ParkedPollRegistry × Bool) : Prop where
  readied : Readied state.1 after.1
  idle : after.2 = false → after = state

namespace Wakes

lemma refl (state : ParkedPollRegistry × Bool) : Wakes state state := ⟨.refl, fun _ => rfl⟩

lemma trans {last : ParkedPollRegistry × Bool} (h : Wakes state after) (h' : Wakes after last) :
    Wakes state last := by
  refine ⟨h.readied.trans h'.readied, fun hidle => ?_⟩
  have hlast := h'.idle hidle
  exact hlast.trans (h.idle (hlast ▸ hidle))

lemma foldl {α : Type} {turn : ParkedPollRegistry × Bool → α → ParkedPollRegistry × Bool}
    (hturn : ∀ state a, Wakes state (turn state a)) (l : List α)
    (state : ParkedPollRegistry × Bool) : Wakes state (l.foldl turn state) := by
  induction l generalizing state with
  | nil => exact .refl state
  | cons a l ih => exact (hturn state a).trans (ih _)

end Wakes

lemma wakes_wakeTicket (state : ParkedPollRegistry × Bool) (ticket : ℕ) :
    Wakes state (wakeTicket state ticket) := by
  unfold wakeTicket
  split
  · exact .refl state
  · next entry hfind =>
    exact ⟨.single ⟨entry, mem_of_lookupBy hfind, .published, rfl⟩, by simp⟩

lemma wakes_wakeUser (state : ParkedPollRegistry × Bool) (user : Str) :
    Wakes state (wakeUser state user) := by
  unfold wakeUser
  split
  · exact .refl state
  · exact .foldl wakes_wakeTicket _ state

/-- A ticket that was woken has no entry any more. -/
lemma mem_entries_wakeTickets {tickets : List ℕ}
    (hmem : entry ∈ (tickets.foldl wakeTicket state).1.entries) :
    entry ∈ state.1.entries ∧ entry.ticket ∉ tickets := by
  induction tickets generalizing state with
  | nil => exact ⟨hmem, not_mem_nil⟩
  | cons ticket tickets ih =>
    obtain ⟨hstep, hrest⟩ := ih hmem
    rw [mem_cons, not_or]
    unfold wakeTicket at hstep
    split at hstep
    · next hnone => exact ⟨hstep, lookupBy_eq_none.mp hnone entry hstep, hrest⟩
    · next found hfound =>
      obtain ⟨hold, hne⟩ := mem_filter.mp hstep
      refine ⟨hold, ?_, hrest⟩
      rw [← key_of_lookupBy hfound]
      simpa using hne

/-- A user that was woken has no entry any more. -/
lemma Consistent.ne_of_mem_wakeUser (h : state.1.Consistent)
    (hmem : entry ∈ (wakeUser state user).1.entries) : entry.user ≠ user := by
  rintro rfl
  unfold wakeUser at hmem
  split at hmem
  · next hnone =>
    rw [h.byUser_of_mem hmem] at hnone
    cases hnone
  · next tickets htickets =>
    obtain ⟨hold, hticket⟩ := mem_entries_wakeTickets hmem
    rw [h.byUser_of_mem hold, Option.some.injEq] at htickets
    refine hticket ?_
    rw [← htickets]
    exact mem_map_of_mem (mem_filter.mpr ⟨hold, by simp⟩)

lemma Consistent.notMem_of_mem_foldl_wakeUser (h : state.1.Consistent) {users : List Str}
    (hmem : entry ∈ (users.foldl wakeUser state).1.entries) : entry.user ∉ users := by
  induction users generalizing state with
  | nil => exact not_mem_nil
  | cons user users ih =>
    have hstep := (wakes_wakeUser state user).readied
    have hrest := (Wakes.foldl wakes_wakeUser users (wakeUser state user)).readied
    have hne := h.ne_of_mem_wakeUser ((onlyReadies_of_readied hrest).entries hmem)
    simp [hne, ih (h.readied hstep) hmem]

/-- What a call that wakes polls does, whichever it is. -/
structure Woken (registry later : ParkedPollRegistry) : Prop where
  consistent : later.Consistent
  alert : later.Alert
  only : registry.OnlyReadies later

section

variable (h : registry.Consistent)

include h

lemma woken_refl (halert : registry.Alert) : registry.Woken registry :=
  ⟨h, halert, .refl registry⟩

lemma woken_of_readied (hreadied : Readied registry later) : registry.Woken later.notifyThread :=
  ⟨(h.readied hreadied).notified, alert_notifyThread later,
    (onlyReadies_of_readied hreadied).notifyThread⟩

lemma Consistent.wakeUsers (halert : registry.Alert) (users : List Str) :
    registry.Woken (registry.wakeUsers users) ∧
      ∀ entry ∈ (registry.wakeUsers users).entries, entry.user ∉ users := by
  unfold ParkedPollRegistry.wakeUsers
  split_ifs with hempty
  · exact ⟨woken_refl h halert, by simp [hempty]⟩
  · have hwakes := Wakes.foldl wakes_wakeUser users (registry, false)
    have hleft : ∀ entry ∈ (users.foldl wakeUser (registry, false)).1.entries, entry.user ∉ users :=
      fun entry hmem => Consistent.notMem_of_mem_foldl_wakeUser h hmem
    dsimp only
    split_ifs with hwoke
    · exact ⟨woken_of_readied h hwakes.readied, hleft⟩
    · have hsame := hwakes.idle (by simpa using hwoke)
      refine ⟨?_, hleft⟩
      rw [hsame]
      exact woken_refl h halert

lemma Consistent.wake (halert : registry.Alert) (ticket : ℕ) :
    registry.Woken (registry.wake ticket) ∧
      ∀ entry ∈ (registry.wake ticket).entries, entry.ticket ≠ ticket := by
  unfold ParkedPollRegistry.wake
  split
  · next hnone => exact ⟨woken_refl h halert, lookupBy_eq_none.mp hnone⟩
  · next found hfound =>
    refine ⟨woken_of_readied h (.single ⟨found, mem_of_lookupBy hfound, .published, rfl⟩), ?_⟩
    intro entry hmem
    have hne := (mem_filter.mp hmem).2
    rw [← key_of_lookupBy hfound]
    simpa using hne

lemma Consistent.of_cleared (hentries : later.entries = []) (hbyUser : later.byUser = fun _ => none)
    (hdeadlines : later.deadlines = []) (hnext : later.nextTicket = registry.nextTicket)
    (haccounts : later.accounted.Perm registry.accounted)
    (hstopped : later.stopping = true → later.ready = [])
    (hundoomed : later.stopping = false → later.doomed = []) : later.Consistent where
  accounts := by rw [hnext]; exact (haccounts.cons 0).trans h.accounts
  users := fun user => by simp [hbyUser, kept, ticketsOf, hentries]
  deadlines := by simp [hdeadlines, hentries]
  ordered := by simp [hdeadlines]
  total := by simp [hentries]
  perUser := fun user => by simp [ticketsOf, hentries]
  unstarted := fun _ => hentries
  stopped := fun hstopping => ⟨hentries, hstopped hstopping⟩
  undoomed := hundoomed

lemma Consistent.wakeAll (halert : registry.Alert) :
    registry.Woken registry.wakeAll ∧ registry.wakeAll.entries = [] := by
  unfold ParkedPollRegistry.wakeAll
  split_ifs with hempty
  · exact ⟨woken_refl h halert, hempty⟩
  · have hrunning : registry.stopping = false := by
      by_contra hcon
      exact hempty (h.stopped (by simpa using hcon)).1
    refine ⟨⟨h.of_cleared rfl rfl rfl rfl ?_ ?_ h.undoomed, alert_notifyThread _, ?_⟩, rfl⟩
    · -- the tickets of the entries move to the ready list
      have hready : (registry.entries.map fun entry => (entry.ticket, WakeReason.published)).map
          Prod.fst = registry.entries.map ParkedEntry.ticket := by simp
      simp only [accounted, notifyThread, map_append, hready]
      rw [← append_assoc (registry.entries.map ParkedEntry.ticket)]
      exact perm_append_comm.append_right _
    · intro hstopping
      exact absurd hstopping (by simp [notifyThread, hrunning])
    · exact ⟨nil_subset _, rfl, rfl, rfl, rfl, rfl, fun h => Bool.noConfusion h⟩

lemma Consistent.requestStop : registry.requestStop.Consistent := by
  refine h.of_cleared rfl rfl rfl rfl ?_ (fun _ => rfl) (fun h => Bool.noConfusion h)
  simp only [ParkedPollRegistry.requestStop, accounted, notifyThread, map_nil, nil_append,
    append_assoc]
  -- the tickets of the entries and of the ready list come last
  set entries := registry.entries.map ParkedEntry.ticket
  rw [← append_assoc, ← append_assoc entries]
  exact perm_append_comm

end

/-! ### Taking a poll in -/

lemma park_cases (registry : ParkedPollRegistry) (user : Str) (deadline : ℕ) :
    (∃ message, registry.park user deadline = (.refused message, registry)) ∨
      registry.started = true ∧ registry.stopping = false ∧
        registry.entries.length < registry.limits.maxParked ∧
        (∀ tickets, registry.byUser user = some tickets →
          tickets.length < registry.limits.maxParkedPerUser) ∧
        registry.park user deadline =
          (⟨true, registry.nextTicket, []⟩, registry.insertEntry user deadline) := by
  unfold park
  split_ifs with hrunning htotal hperUser
  iterate 3 exact .inl ⟨_, rfl⟩
  simp only [Bool.or_eq_true, Bool.not_eq_true', not_or, Bool.not_eq_false,
    Bool.not_eq_true] at hrunning
  refine .inr ⟨hrunning.1, hrunning.2, not_le.mp htotal, fun tickets htickets => ?_, rfl⟩
  simpa [htickets] using hperUser

lemma ticketsOf_insertEntry (registry : ParkedPollRegistry) (user other : Str) (deadline : ℕ) :
    (registry.insertEntry user deadline).ticketsOf other =
      registry.ticketsOf other ++ if user = other then [registry.nextTicket] else [] := by
  by_cases h : user = other <;>
    simp [insertEntry, notifyThread, ticketsOf, h]

lemma Consistent.insertEntry (h : registry.Consistent) (deadline : ℕ)
    (hstarted : registry.started = true) (hrunning : registry.stopping = false)
    (htotal : registry.entries.length < registry.limits.maxParked)
    (hperUser : ∀ tickets, registry.byUser user = some tickets →
      tickets.length < registry.limits.maxParkedPerUser) :
    (registry.insertEntry user deadline).Consistent := by
  -- the user's list before the call, whether or not the table has it
  have hlist : (registry.byUser user).getD [] = registry.ticketsOf user := by
    rw [h.users, kept]
    split_ifs with hnil
    · exact hnil.symm
    · rfl
  constructor
  case accounts =>
    have haccounted : (registry.insertEntry user deadline).accounted.Perm
        (registry.accounted ++ [registry.nextTicket]) := by
      simp only [accounted, ParkedPollRegistry.insertEntry, notifyThread,
        map_append, append_assoc]
      refine Perm.append_left _ (perm_append_comm.trans ?_)
      simp only [append_assoc]
      exact .refl _
    have hnext : (registry.insertEntry user deadline).nextTicket = registry.nextTicket + 1 := rfl
    rw [hnext, range_succ]
    exact (haccounted.cons 0).trans (h.accounts.append_right _)
  case users =>
    intro other
    rw [ticketsOf_insertEntry]
    by_cases hsame : user = other
    · subst hsame
      simp [ParkedPollRegistry.insertEntry, notifyThread, hlist, kept]
    · have hsame' : other ≠ user := fun hcon => hsame hcon.symm
      simp [ParkedPollRegistry.insertEntry, notifyThread, hsame, hsame', h.users]
  case deadlines =>
    have hentries : (registry.insertEntry user deadline).entries =
        registry.entries ++ [⟨registry.nextTicket, user, deadline⟩] := rfl
    rw [hentries, map_append]
    refine (perm_orderedInsert _ _ _).trans ?_
    exact (h.deadlines.cons _).trans (perm_append_singleton _ _).symm
  case ordered =>
    refine pairwise_orderedInsert h.ordered (fun b c hbc hab => hab.trans_le hbc)
      (fun b _ hab => le_of_lt hab) (fun b _ hab => not_lt.mp hab)
  case total =>
    simpa [ParkedPollRegistry.insertEntry, notifyThread] using htotal
  case perUser =>
    intro other
    rw [ticketsOf_insertEntry]
    by_cases hsame : user = other
    · subst hsame
      by_cases hnil : registry.ticketsOf user = []
      · -- the first poll of a user is not held against the cap
        simp [hnil]
      · have hlt := hperUser (registry.ticketsOf user) (by rw [h.users, kept, if_neg hnil])
        simpa [notifyThread] using .inr hlt
    · rw [if_neg hsame, append_nil]
      exact h.perUser other
  case unstarted => exact fun hcon => Bool.noConfusion (hstarted.symm.trans hcon)
  case stopped => exact fun hcon => Bool.noConfusion (hrunning.symm.trans hcon)
  case undoomed => exact h.undoomed

lemma Consistent.park (h : registry.Consistent) (user : Str) (deadline : ℕ) :
    (registry.park user deadline).2.Consistent := by
  rcases park_cases registry user deadline with ⟨_, heq⟩ | ⟨hstarted, hrunning, htotal, hper, heq⟩ <;>
    rw [heq]
  · exact h
  · exact h.insertEntry deadline hstarted hrunning htotal hper

lemma Alert.park (h : registry.Alert) (user : Str) (deadline : ℕ) :
    (registry.park user deadline).2.Alert := by
  rcases park_cases registry user deadline with ⟨_, heq⟩ | ⟨-, -, -, -, heq⟩ <;> rw [heq]
  · exact h
  · exact alert_notifyThread _

lemma Consistent.start (h : registry.Consistent) (limits : ParkedPollLimits) :
    (registry.start limits).2.Consistent := by
  unfold ParkedPollRegistry.start
  split_ifs with hstarted
  · exact h
  · simp only [Bool.or_eq_true, not_or, Bool.not_eq_true] at hstarted
    have hnil := h.unstarted hstarted.1
    refine ⟨h.accounts, h.users, h.deadlines, h.ordered, by simp [hnil],
      fun user => by simp [ticketsOf, hnil], fun _ => hnil, h.stopped, h.undoomed⟩

/-! ### The registry thread -/

lemma Consistent.expire (h : registry.Consistent) (now : ℕ) {fuel : ℕ}
    (hfuel : registry.deadlines.length ≤ fuel) :
    ∃ expired, registry.expire now fuel = some expired ∧ Readied registry expired := by
  induction fuel generalizing registry with
  | zero => exact ⟨registry, rfl, .refl⟩
  | succ fuel ih =>
    unfold ParkedPollRegistry.expire
    cases hdeadlines : registry.deadlines with
    | nil => exact ⟨registry, rfl, .refl⟩
    | cons slot rest =>
      obtain ⟨deadline, ticket⟩ := slot
      dsimp only
      split_ifs
      · have hslot : (deadline, ticket) ∈ registry.entries.map ParkedEntry.slot :=
          h.deadlines.mem_iff.mp (by simp [hdeadlines])
        obtain ⟨entry, hmem, heq⟩ := mem_map.mp hslot
        obtain ⟨rfl, rfl⟩ : entry.deadline = deadline ∧ entry.ticket = ticket :=
          Prod.ext_iff.mp heq
        have hstep := h.makeReady hmem .deadline
        have hshorter : (registry.makeReady entry .deadline).deadlines.length ≤ fuel := by
          have hrest : (registry.makeReady entry .deadline).deadlines = rest := by
            simp only [ParkedPollRegistry.makeReady, hdeadlines]
            exact erase_cons_head entry.slot rest
          rw [hrest]
          simpa [hdeadlines] using hfuel
        obtain ⟨expired, hexpired, hreadied⟩ := ih hstep hshorter
        refine ⟨expired, ?_, .head ⟨entry, hmem, .deadline, rfl⟩ hreadied⟩
        rw [h.find_of_mem hmem]
        exact hexpired
      · exact ⟨registry, rfl, .refl⟩

lemma Consistent.runPass (h : registry.Consistent) (halert : registry.Alert) (now : ℕ)
    (hbatch : registry.batch = []) :
    ∃ later, registry.runPass now = some later ∧ later.Consistent ∧ later.Alert ∧
      later.entries ⊆ registry.entries ∧ later.nextTicket = registry.nextTicket := by
  unfold ParkedPollRegistry.runPass
  split_ifs with hstopping
  · exact ⟨registry, rfl, h, halert, Subset.refl _, rfl⟩
  obtain ⟨expired, hexpired, hreadied⟩ := h.expire now le_rfl
  have hconsistent := h.readied hreadied
  have honly := onlyReadies_of_readied hreadied
  refine ⟨_, by rw [hexpired]; rfl, ?_⟩
  dsimp only
  split_ifs with hready
  · -- the ready list becomes the batch
    refine ⟨{ hconsistent with accounts := ?_, stopped := ?_ }, fun _ => rfl,
      honly.entries, honly.nextTicket⟩
    · have haccounted : accounted { expired with batch := expired.ready, ready := [], asleep := false }
          |>.Perm expired.accounted := by
        have hnone : expired.batch = [] := honly.batch.trans hbatch
        simp only [accounted, handedOver, hnone, append_nil, map_nil, nil_append, map_append]
        refine Perm.append_left _ ?_
        rw [← append_assoc]
        exact perm_append_comm.append_right _
      exact (haccounted.cons 0).trans hconsistent.accounts
    · exact fun hcon => ⟨(hconsistent.stopped hcon).1, rfl⟩
  · refine ⟨{ hconsistent with }, fun hcon => absurd hcon hready, honly.entries,
      honly.nextTicket⟩

lemma handedOver_resumeNext (registry : ParkedPollRegistry) :
    registry.resumeNext.handedOver = registry.handedOver := by
  unfold resumeNext
  split
  · rfl
  · next next rest hbatch => simp [handedOver, hbatch]

lemma Consistent.resumeNext (h : registry.Consistent) : registry.resumeNext.Consistent := by
  have hhanded := handedOver_resumeNext registry
  unfold ParkedPollRegistry.resumeNext at hhanded ⊢
  split at hhanded
  · exact h
  · refine { h with accounts := ?_ }
    have haccounts := h.accounts
    simp only [accounted, hhanded] at haccounts ⊢
    exact haccounts

end ParkedPollRegistry

end Merovingian
