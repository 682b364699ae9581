import Merovingian.Lib.Keyed
import Merovingian.Lib.SortedIndex
import Merovingian.Lib.Bytes

/-!
# The registry of parked long-polls

The class of `sync/ParkedPollRegistry.cpp`: the polls that have nothing to return, held without a
thread each.  One mutex guards it; what a call does under the mutex is one function here.  A poll
is known by the ticket it was given, so the lists `ready`, `batch`, `resumed` and `doomed` say
where the poll of a ticket went: waiting for the registry thread, taken by the thread out of
`m_ready` for the callback, handed to the callback, destroyed by `request_stop`.

The tables are three: the entries by ticket, the tickets of each user, the deadlines in order.
`Consistent` says that they name the same tickets and that every ticket ever given is accounted for
exactly once.  What wakes polls one by one is a sequence of `makeReady` (`Readied`).  `wake_all`
and `request_stop` take the entries in the order they were made; nothing depends on it.
-/

namespace Merovingian

open List Function

structure ParkedPollLimits where
  maxParked : ℕ := 1024
  maxParkedPerUser : ℕ := 4
deriving DecidableEq, Repr

inductive WakeReason
  | published
  | deadline
deriving DecidableEq, Repr

structure ParkOutcome where
  parked : Bool
  ticket : ℕ
  refusal : Str
deriving DecidableEq, Repr

def ParkOutcome.refused (message : Str) : ParkOutcome := ⟨false, 0, message⟩

/-- `ParkedPollRegistry::Entry` with its ticket; the iterator into the deadlines is the pair it
points to. -/
structure ParkedEntry where
  ticket : ℕ
  user : Str
  deadline : ℕ
deriving DecidableEq, Repr

/-- The pair of the deadline map that an entry points to. -/
def ParkedEntry.slot (entry : ParkedEntry) : ℕ × ℕ := (entry.deadline, entry.ticket)

structure ParkedPollRegistry where
  limits : ParkedPollLimits := {}
  started : Bool := false
  stopping : Bool := false
  nextTicket : ℕ := 1
  entries : List ParkedEntry := []
  byUser : Str → Option (List ℕ) := fun _ => none
  deadlines : List (ℕ × ℕ) := []
  ready : List (ℕ × WakeReason) := []
  /-- What the registry thread took out of `ready` and has not handed over yet. -/
  batch : List (ℕ × WakeReason) := []
  /-- The polls handed to the resume callback, in order. -/
  resumed : List (ℕ × WakeReason) := []
  /-- The polls destroyed by `request_stop`. -/
  doomed : List ℕ := []
  /-- The registry thread is blocked on `m_signal` and was not notified since. -/
  asleep : Bool := false

namespace ParkedPollRegistry

variable (registry : ParkedPollRegistry)

def start (limits : ParkedPollLimits) : Bool × ParkedPollRegistry :=
  if registry.started || registry.stopping then (false, registry)
  else (true, { registry with limits := limits, started := true })

/-- `m_signal.notify_all()`. -/
def notifyThread : ParkedPollRegistry :=
  { registry with asleep := false }

/-- `request_stop`, up to the join of the thread. -/
def requestStop : ParkedPollRegistry :=
  notifyThread { registry with
    stopping := true
    doomed := registry.doomed ++ registry.entries.map ParkedEntry.ticket ++
      registry.ready.map Prod.fst
    entries := []
    byUser := fun _ => none
    deadlines := []
    ready := [] }

/-- The registry after a poll was taken in. -/
def insertEntry (user : Str) (deadline : ℕ) : ParkedPollRegistry :=
  let ticket := registry.nextTicket
  notifyThread { registry with
    nextTicket := ticket + 1
    byUser := Function.update registry.byUser user
      (some ((registry.byUser user).getD [] ++ [ticket]))
    deadlines := insertUpper Prod.fst (deadline, ticket) registry.deadlines
    entries := registry.entries ++ [⟨ticket, user, deadline⟩] }

def park (user : Str) (deadline : ℕ) :
    ParkOutcome × ParkedPollRegistry :=
  if !registry.started || registry.stopping then
    (.refused "parking is not running", registry)
  else if registry.limits.maxParked ≤ registry.entries.length then
    (.refused "too many parked long-polls", registry)
  else if (registry.byUser user).any fun tickets =>
      registry.limits.maxParkedPerUser ≤ tickets.length then
    (.refused "too many parked long-polls for this user", registry)
  else (⟨true, registry.nextTicket, []⟩, registry.insertEntry user deadline)

/-- A list of tickets as the table of users keeps it: an empty one is erased. -/
def kept (tickets : List ℕ) : Option (List ℕ) := if tickets = [] then none else some tickets

/-- `make_ready_locked`. -/
def makeReady (entry : ParkedEntry) (reason : WakeReason) :
    ParkedPollRegistry :=
  { registry with
    deadlines := registry.deadlines.erase entry.slot
    byUser := match registry.byUser entry.user with
      | none => registry.byUser
      | some tickets =>
        Function.update registry.byUser entry.user (kept (tickets.filter (· ≠ entry.ticket)))
    ready := registry.ready ++ [(entry.ticket, reason)]
    entries := registry.entries.filter fun other => other.ticket ≠ entry.ticket }

/-- The entry of a ticket, `m_entries.find`. -/
def find (ticket : ℕ) : Option ParkedEntry :=
  lookupBy ParkedEntry.ticket registry.entries ticket

/-- The body of the loop over the tickets of a user in `wake_users`, with its flag `woke`. -/
def wakeTicket (state : ParkedPollRegistry × Bool) (ticket : ℕ) : ParkedPollRegistry × Bool :=
  match state.1.find ticket with
  | none => state
  | some entry => (state.1.makeReady entry .published, true)

/-- The body of the loop over the users in `wake_users`. -/
def wakeUser (state : ParkedPollRegistry × Bool) (user : Str) : ParkedPollRegistry × Bool :=
  match state.1.byUser user with
  | none => state
  | some tickets => tickets.foldl wakeTicket state

def wakeUsers (users : List Str) : ParkedPollRegistry :=
  if registry.entries = [] then registry
  else
    let state := users.foldl wakeUser (registry, false)
    if state.2 then state.1.notifyThread else state.1

def wakeAll : ParkedPollRegistry :=
  if registry.entries = [] then registry
  else notifyThread { registry with
    ready := registry.ready ++ registry.entries.map fun entry => (entry.ticket, .published)
    entries := []
    byUser := fun _ => none
    deadlines := [] }

def wake (ticket : ℕ) : ParkedPollRegistry :=
  match registry.find ticket with
  | none => registry
  | some entry => (registry.makeReady entry .published).notifyThread

/-- The inner loop of `run`: the polls whose deadline is over.  It reads the entry of the first
deadline without a test that there is one; `none` is that read going wrong. -/
def expire (now : ℕ) : ℕ → ParkedPollRegistry → Option ParkedPollRegistry
  | 0, registry => some registry
  | fuel + 1, registry =>
    match registry.deadlines with
    | [] => some registry
    | (deadline, ticket) :: _ =>
      if deadline ≤ now then
        match registry.find ticket with
        | none => none
        | some entry => expire now fuel (registry.makeReady entry .deadline)
      else some registry

/-- One pass of the loop of `run` while it holds the mutex: it ends with a batch to hand over, or
with the thread blocked on `m_signal`. -/
def runPass (now : ℕ) : Option ParkedPollRegistry :=
  if registry.stopping then some registry
  else (registry.expire now registry.deadlines.length).map fun expired =>
    if expired.ready ≠ [] then { expired with batch := expired.ready, ready := [], asleep := false }
    else { expired with asleep := true }

/-- The registry thread hands the next poll of its batch to the callback, with no lock held. -/
def resumeNext : ParkedPollRegistry :=
  match registry.batch with
  | [] => registry
  | next :: rest => { registry with batch := rest, resumed := registry.resumed ++ [next] }

/-! ### The three tables -/

/-- The tickets of the entries of a user, in the order they were made. -/
def ticketsOf (user : Str) : List ℕ :=
  (registry.entries.filter fun entry => entry.user = user).map ParkedEntry.ticket

/-- The polls the registry thread has taken for the callback, in the order of their turn. -/
def handedOver : List (ℕ × WakeReason) :=
  registry.resumed ++ registry.batch

/-- Every ticket that was given out, by where its poll is. -/
def accounted : List ℕ :=
  registry.entries.map ParkedEntry.ticket ++ (registry.ready.map Prod.fst ++
    (registry.handedOver.map Prod.fst ++ registry.doomed))

/-- What holds whenever the registry's mutex is free. -/
structure Consistent : Prop where
  /-- Ticket `0` is never given; every other ticket below the next one is in one place. -/
  accounts : (0 :: registry.accounted).Perm (List.range registry.nextTicket)
  users : ∀ user, registry.byUser user = kept (registry.ticketsOf user)
  deadlines : registry.deadlines.Perm (registry.entries.map ParkedEntry.slot)
  ordered : registry.deadlines.Pairwise fun first second => first.1 ≤ second.1
  total : registry.entries.length ≤ registry.limits.maxParked
  perUser : ∀ user, (registry.ticketsOf user).length ≤ max 1 registry.limits.maxParkedPerUser
  unstarted : registry.started = false → registry.entries = []
  stopped : registry.stopping = true → registry.entries = [] ∧ registry.ready = []
  undoomed : registry.stopping = false → registry.doomed = []

/-- A poll that waits for the registry thread does not find it asleep. -/
def Alert : Prop := registry.ready ≠ [] → registry.asleep = false

variable {registry} {later : ParkedPollRegistry} {entry : ParkedEntry} {user : Str}

lemma consistent_fresh : ({} : ParkedPollRegistry).Consistent where
  accounts := by decide
  users := fun _ => rfl
  deadlines := .nil
  ordered := .nil
  total := Nat.zero_le _
  perUser := fun _ => Nat.zero_le _
  unstarted := fun _ => rfl
  stopped := fun _ => ⟨rfl, rfl⟩
  undoomed := fun _ => rfl

namespace Consistent

section

variable (h : registry.Consistent) {ticket : ℕ}

include h

/-- No ticket is in two places. -/
lemma nodup_accounted : registry.accounted.Nodup :=
  (nodup_cons.mp (h.accounts.nodup_iff.mpr nodup_range)).2

lemma nodup_tickets : (registry.entries.map ParkedEntry.ticket).Nodup :=
  (nodup_append.mp h.nodup_accounted).1

/-- No poll is handed over twice. -/
lemma nodup_handedOver : (registry.handedOver.map Prod.fst).Nodup :=
  (nodup_append.mp (nodup_append.mp (nodup_append.mp h.nodup_accounted).2.1).2.1).1

lemma find_of_mem (hmem : entry ∈ registry.entries) : registry.find entry.ticket = some entry :=
  lookupBy_of_mem h.nodup_tickets hmem

lemma byUser_of_mem (hmem : entry ∈ registry.entries) :
    registry.byUser entry.user = some (registry.ticketsOf entry.user) := by
  have hticket : entry.ticket ∈ registry.ticketsOf entry.user :=
    mem_map_of_mem (mem_filter.mpr ⟨hmem, by simp⟩)
  rw [h.users, kept, if_neg (ne_nil_of_mem hticket)]

lemma mem_accounted (hpos : 0 < ticket) (hlt : ticket < registry.nextTicket) :
    ticket ∈ registry.accounted := by
  have hmem := h.accounts.mem_iff.mpr (mem_range.mpr hlt)
  exact (mem_cons.mp hmem).resolve_left hpos.ne'

lemma lt_nextTicket (hmem : ticket ∈ registry.accounted) :
    ticket < registry.nextTicket :=
  mem_range.mp (h.accounts.mem_iff.mp (mem_cons_of_mem _ hmem))

end

end Consistent

/-! ### Making a poll ready -/

lemma ticketsOf_makeReady_self (registry : ParkedPollRegistry) (entry : ParkedEntry)
    (reason : WakeReason) (user : Str) : (registry.makeReady entry reason).ticketsOf user =
      (registry.ticketsOf user).filter (· ≠ entry.ticket) := by
  simp only [ticketsOf, makeReady, filter_map, filter_filter]
  congr 1
  exact filter_congr fun other _ => Bool.and_comm _ _

lemma ticketsOf_makeReady_of_ne (h : registry.Consistent) (hmem : entry ∈ registry.entries)
    (reason : WakeReason) (hne : user ≠ entry.user) :
    (registry.makeReady entry reason).ticketsOf user = registry.ticketsOf user := by
  rw [ticketsOf_makeReady_self]
  refine filter_eq_self.mpr fun ticket hticket => ?_
  obtain ⟨other, hother, rfl⟩ := mem_map.mp hticket
  obtain ⟨hother, huser⟩ := mem_filter.mp hother
  have hentries : other.ticket = entry.ticket → other = entry :=
    fun hsame => inj_on_of_nodup_map h.nodup_tickets hother hmem hsame
  simp only [decide_eq_true_eq] at huser ⊢
  rintro hsame
  exact hne (by rw [← huser, hentries hsame])

lemma Consistent.makeReady (h : registry.Consistent) (hmem : entry ∈ registry.entries)
    (reason : WakeReason) : (registry.makeReady entry reason).Consistent := by
  have hperm : (entry :: (registry.makeReady entry reason).entries).Perm registry.entries :=
    cons_filter_ne_perm h.nodup_tickets hmem
  constructor
  case accounts =>
    -- the ticket of the entry moves from the entries to the ready list
    refine Perm.trans (Perm.cons 0 ?_) h.accounts
    have hready : (registry.makeReady entry reason).accounted =
        (registry.makeReady entry reason).entries.map ParkedEntry.ticket ++
          (registry.ready.map Prod.fst ++ entry.ticket ::
            (registry.handedOver.map Prod.fst ++ registry.doomed)) := by
      simp [accounted, handedOver, ParkedPollRegistry.makeReady]
    rw [hready, accounted, ← append_assoc]
    refine perm_middle.trans ?_
    simpa only [map_cons, cons_append, append_assoc] using
      (hperm.map ParkedEntry.ticket).append_right (registry.ready.map Prod.fst ++
        (registry.handedOver.map Prod.fst ++ registry.doomed))
  case users =>
    intro user
    have hbyUser : (registry.makeReady entry reason).byUser =
        Function.update registry.byUser entry.user
          (kept ((registry.ticketsOf entry.user).filter (· ≠ entry.ticket))) := by
      simp [ParkedPollRegistry.makeReady, h.byUser_of_mem hmem]
    rw [hbyUser]
    by_cases hsame : user = entry.user
    · subst hsame
      rw [update_self, ticketsOf_makeReady_self]
    · rw [update_of_ne hsame, ticketsOf_makeReady_of_ne h hmem reason hsame, h.users]
  case deadlines =>
    have hslots := (hperm.map ParkedEntry.slot).symm
    have herase := (h.deadlines.trans hslots).erase entry.slot
    rwa [map_cons, erase_cons_head] at herase
  case ordered => exact h.ordered.sublist erase_sublist
  case total => exact (length_filter_le _ _).trans h.total
  case perUser =>
    intro user
    rw [ticketsOf_makeReady_self]
    exact (length_filter_le _ _).trans (h.perUser user)
  case unstarted =>
    intro hstarted
    rw [h.unstarted hstarted] at hmem
    cases hmem
  case stopped =>
    intro hstopping
    rw [(h.stopped hstopping).1] at hmem
    cases hmem
  case undoomed => exact h.undoomed

/-- One poll is made ready. -/
def ReadyStep (registry later : ParkedPollRegistry) : Prop :=
  ∃ entry ∈ registry.entries, ∃ reason, later = registry.makeReady entry reason

/-- Any number of polls are made ready, one after the other. -/
abbrev Readied : ParkedPollRegistry → ParkedPollRegistry → Prop :=
  Relation.ReflTransGen ReadyStep

lemma Consistent.readied (h : registry.Consistent) (hreadied : Readied registry later) :
    later.Consistent := by
  induction hreadied with
  | refl => exact h
  | tail _ hstep ih =>
    obtain ⟨entry, hmem, reason, rfl⟩ := hstep
    exact ih.makeReady hmem reason

/-- What a call that makes polls ready leaves alone. -/
structure OnlyReadies (registry later : ParkedPollRegistry) : Prop where
  entries : later.entries ⊆ registry.entries
  stopping : later.stopping = registry.stopping
  started : later.started = registry.started
  nextTicket : later.nextTicket = registry.nextTicket
  batch : later.batch = registry.batch
  resumed : later.resumed = registry.resumed
  asleep : later.asleep = true → registry.asleep = true

lemma OnlyReadies.refl (registry : ParkedPollRegistry) : registry.OnlyReadies registry :=
  ⟨Subset.refl _, rfl, rfl, rfl, rfl, rfl, id⟩

lemma OnlyReadies.notifyThread (h : registry.OnlyReadies later) :
    registry.OnlyReadies later.notifyThread :=
  { h with asleep := fun h => Bool.noConfusion h }

lemma onlyReadies_of_readied (h : Readied registry later) : registry.OnlyReadies later := by
  induction h with
  | refl => exact .refl registry
  | tail _ hstep ih =>
    obtain ⟨entry, -, reason, rfl⟩ := hstep
    exact { ih with entries := fun other hother => ih.entries (mem_filter.mp hother).1 }

lemma Consistent.notified (h : registry.Consistent) : registry.notifyThread.Consistent :=
  { h with }

@[simp] lemma alert_notifyThread (registry : ParkedPollRegistry) : registry.notifyThread.Alert :=
  fun _ => rfl

end ParkedPollRegistry

end Merovingian
