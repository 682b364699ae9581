import Merovingian.Lib.Run
import Merovingian.Sync.SleepingWaiters
import Merovingian.Sync.ParkedPollCalls

/-!
# Long-polls and the threads that wake them

The notifier and its registry as the threads of the server see them.  The two mutexes are never
held together, so a publish is two critical sections, first the notifier's and then the registry's,
and a park is up to three: the registry's insert, the notifier's comparison with the cursor, and
the registry's wake when the cursor has moved.  A run is any sequence of critical sections, of any
number of threads; what a call still has to do is kept in `publishing` and `parking`.
`LongPolls.Sound` holds in every state.
-/

namespace Merovingian

open SyncNotifier Option ParkedPollRegistry List

/-- A `publish` between its two critical sections. -/
structure PublishCall where
  call : ℕ
  scope : Option (List Str)
deriving DecidableEq, Repr

/-- A `SyncNotifier::park` whose poll was taken in; `moved` says that the comparison was made and
found that the cursor has moved. -/
structure ParkCall where
  ticket : ℕ
  cursor : WaitCursor
  moved : Bool
deriving DecidableEq, Repr

/-- The notifier, its registry and the calls that are under way. -/
structure LongPolls where
  notifier : SyncNotifier := {}
  registry : ParkedPollRegistry := {}
  nextCall : ℕ := 0
  publishing : List PublishCall := []
  parking : List ParkCall := []
  /-- The cursor each poll was parked with, by ticket. -/
  parkedWith : List (ℕ × WaitCursor) := []

/-- One critical section of some thread. -/
inductive LongPollEvent
  | observe (user : Str)
  | waitForChange (target : WaitTarget) (block : Bool)
  | wakeSleeper (index : ℕ) (timedOut : Bool)
  | publish (newStreamOrdering newSyncStreamId : ℕ) (scope : Option (List Str))
  | publishWake (call : PublishCall)
  | park (cursor : WaitCursor) (deadline : ℕ)
  | parkCompare (call : ParkCall)
  | parkWake (call : ParkCall)
  | wakeUsers (users : List Str)
  | wakeAll
  | wake (ticket : ℕ)
  | start (limits : ParkedPollLimits)
  | runPass (now : ℕ)
  | resumeNext
  | requestStop
deriving Repr

namespace LongPolls

/-- The registry's half of `publish`. -/
def wakeScope (registry : ParkedPollRegistry) : Option (List Str) → ParkedPollRegistry
  | some users => registry.wakeUsers users
  | none => registry.wakeAll

/-- The registry's insert of a park. -/
def parkInsert (polls : LongPolls) (cursor : WaitCursor) (deadline : ℕ) : LongPolls :=
  let result := polls.registry.park cursor.user deadline
  if result.1.parked then
    { polls with
      registry := result.2
      parking := polls.parking ++ [⟨result.1.ticket, cursor, false⟩]
      parkedWith := polls.parkedWith ++ [(result.1.ticket, cursor)] }
  else { polls with registry := result.2 }

/-- The notifier's comparison of a park: the call goes on to wake its poll, or returns. -/
def parkCompare (polls : LongPolls) (call : ParkCall) : LongPolls :=
  if polls.notifier.movedSince call.cursor then
    { polls with parking := polls.parking.erase call ++ [{ call with moved := true }] }
  else { polls with parking := polls.parking.erase call }

/-- What a critical section does; `none` where no thread can make it. -/
def step (polls : LongPolls) : LongPollEvent → Option LongPolls
  | .observe user => some { polls with notifier := (polls.notifier.observe user).2 }
  | .waitForChange target block =>
    some { polls with notifier := (polls.notifier.waitForChange target block).2 }
  | .wakeSleeper index timedOut =>
    some { polls with notifier := (polls.notifier.wakeSleeper index timedOut).2 }
  | .publish newStreamOrdering newSyncStreamId scope =>
    some { polls with
      notifier := polls.notifier.publish newStreamOrdering newSyncStreamId scope
      publishing := polls.publishing ++ [⟨polls.nextCall, scope⟩]
      nextCall := polls.nextCall + 1 }
  | .publishWake call =>
    if call ∈ polls.publishing then
      some { polls with
        registry := wakeScope polls.registry call.scope
        publishing := polls.publishing.erase call }
    else none
  | .park cursor deadline => some (polls.parkInsert cursor deadline)
  | .parkCompare call =>
    if call ∈ polls.parking ∧ call.moved = false then some (polls.parkCompare call) else none
  | .parkWake call =>
    if call ∈ polls.parking ∧ call.moved = true then
      some { polls with
        registry := polls.registry.wake call.ticket
        parking := polls.parking.erase call }
    else none
  | .wakeUsers users => some { polls with registry := polls.registry.wakeUsers users }
  | .wakeAll => some { polls with registry := polls.registry.wakeAll }
  | .wake ticket => some { polls with registry := polls.registry.wake ticket }
  | .start limits => some { polls with registry := (polls.registry.start limits).2 }
  | .runPass now =>
    -- the registry thread exists and has handed over its last batch
    if polls.registry.started = true ∧ polls.registry.batch = [] then
      (polls.registry.runPass now).map fun registry => { polls with registry := registry }
    else none
  | .resumeNext => some { polls with registry := polls.registry.resumeNext }
  | .requestStop => some { polls with registry := polls.registry.requestStop }

/-- The step relation of the system. -/
def Step (polls : LongPolls) (event : LongPollEvent) (later : LongPolls) : Prop :=
  polls.step event = some later

/-! ### What holds in every state -/

variable {polls later : LongPolls} {event : LongPollEvent} {cursor : WaitCursor} {call : ℕ}

/-- What holds in every state that a run reaches. -/
structure Sound (polls : LongPolls) : Prop where
  notifier : polls.notifier.Coherent
  registry : polls.registry.Consistent
  alert : polls.registry.Alert
  known : ∀ parked ∈ polls.parkedWith, 0 < parked.1 ∧ parked.1 < polls.registry.nextTicket
  users : ∀ entry ∈ polls.registry.entries, ∀ cursor, (entry.ticket, cursor) ∈ polls.parkedWith →
    entry.user = cursor.user

lemma sound_fresh : ({} : LongPolls).Sound :=
  ⟨coherent_fresh, consistent_fresh, fun h => absurd rfl h,
    by simp, by simp⟩

section

variable (h : polls.Sound)

include h

lemma Sound.of_notifier (hnotifier : later.notifier.Coherent)
    (hregistry : later.registry = polls.registry) (hparked : later.parkedWith = polls.parkedWith) :
    later.Sound :=
  ⟨hnotifier, hregistry ▸ h.registry, hregistry ▸ h.alert, by rw [hregistry, hparked]; exact h.known,
    by rw [hregistry, hparked]; exact h.users⟩

/-- A step of the registry that takes no poll in. -/
lemma Sound.of_registry (hnotifier : later.notifier = polls.notifier)
    (hconsistent : later.registry.Consistent) (halert : later.registry.Alert)
    (hentries : later.registry.entries ⊆ polls.registry.entries)
    (hnext : later.registry.nextTicket = polls.registry.nextTicket)
    (hparked : later.parkedWith = polls.parkedWith) : later.Sound :=
  ⟨hnotifier ▸ h.notifier, hconsistent, halert, by rw [hnext, hparked]; exact h.known,
    fun entry hmem cursor hcursor => h.users entry (hentries hmem) cursor (hparked ▸ hcursor)⟩

lemma Sound.of_woken (hnotifier : later.notifier = polls.notifier)
    (hwoken : polls.registry.Woken later.registry) (hparked : later.parkedWith = polls.parkedWith) :
    later.Sound :=
  h.of_registry hnotifier hwoken.consistent hwoken.alert hwoken.only.entries hwoken.only.nextTicket
    hparked

/-- The second critical section of a publish leaves no entry of a user it concerns. -/
lemma Sound.wakeScope (scope : Option (List Str)) :
    polls.registry.Woken (wakeScope polls.registry scope) ∧
      ∀ entry ∈ (wakeScope polls.registry scope).entries, ¬ Concerns scope entry.user := by
  cases scope with
  | none =>
    obtain ⟨hwoken, hnone⟩ := h.registry.wakeAll h.alert
    refine ⟨hwoken, fun entry hmem => ?_⟩
    rw [LongPolls.wakeScope, hnone] at hmem
    cases hmem
  | some users =>
    obtain ⟨hwoken, hleft⟩ := h.registry.wakeUsers h.alert users
    exact ⟨hwoken, fun entry hmem hconcerns => hleft entry hmem (hconcerns users rfl)⟩

end

/-- What the insert of a park does: it is refused and nothing happens, or there is one more
entry, with the next ticket. -/
lemma parkInsert_cases (polls : LongPolls) (cursor : WaitCursor) (deadline : ℕ) :
    polls.parkInsert cursor deadline = polls ∨
      polls.registry.insertEntry cursor.user deadline =
          (polls.registry.park cursor.user deadline).2 ∧
        polls.parkInsert cursor deadline = { polls with
          registry := polls.registry.insertEntry cursor.user deadline
          parking := polls.parking ++ [⟨polls.registry.nextTicket, cursor, false⟩]
          parkedWith := polls.parkedWith ++ [(polls.registry.nextTicket, cursor)] } := by
  unfold parkInsert
  rcases park_cases polls.registry cursor.user deadline with
    ⟨message, heq⟩ | ⟨-, -, -, -, heq⟩ <;> rw [heq]
  · exact .inl rfl
  · exact .inr ⟨rfl, rfl⟩

lemma parkCompare_eq (polls : LongPolls) (call : ParkCall) :
    polls.parkCompare call = { polls with parking := (polls.parkCompare call).parking } := by
  unfold parkCompare
  split_ifs <;> rfl

lemma Sound.ticket_lt (h : polls.Sound) {entry : ParkedEntry}
    (hmem : entry ∈ polls.registry.entries) : entry.ticket < polls.registry.nextTicket :=
  h.registry.lt_nextTicket (mem_append_left _ (mem_map_of_mem hmem))

lemma Sound.parkInsert (h : polls.Sound) (cursor : WaitCursor) (deadline : ℕ) :
    (polls.parkInsert cursor deadline).Sound := by
  rcases parkInsert_cases polls cursor deadline with heq | ⟨hregistry, heq⟩ <;> rw [heq]
  · exact h
  constructor
  case notifier => exact h.notifier
  case registry => exact hregistry ▸ h.registry.park cursor.user deadline
  case alert => exact hregistry ▸ h.alert.park cursor.user deadline
  case known =>
    intro parked hmem
    rcases mem_append.mp hmem with hmem | hmem
    · exact ⟨(h.known parked hmem).1, Nat.lt_succ_of_lt (h.known parked hmem).2⟩
    · have hpos : 0 < polls.registry.nextTicket := by
        have hzero := h.registry.accounts.mem_iff.mp mem_cons_self
        exact mem_range.mp hzero
      rw [mem_singleton.mp hmem]
      exact ⟨hpos, Nat.lt_succ_self _⟩
  case users =>
    intro entry hmem other hother
    rcases mem_append.mp hmem with hmem | hmem
    · -- an older entry has another ticket than the new poll
      have hne := (h.ticket_lt hmem).ne
      rcases mem_append.mp hother with hother | hother
      · exact h.users entry hmem other hother
      · exact absurd (Prod.ext_iff.mp (mem_singleton.mp hother)).1 hne
    · obtain rfl := mem_singleton.mp hmem
      rcases mem_append.mp hother with hother | hother
      · exact absurd (h.known _ hother).2 (lt_irrefl _)
      · have hsame : other = cursor := (Prod.ext_iff.mp (mem_singleton.mp hother)).2
        rw [hsame]

/-- No critical section takes a generation back. -/
lemma Step.advances (hstep : Step polls event later) : polls.notifier.Advances later.notifier := by
  cases event with
  | observe user =>
    cases hstep
    exact advances_withEntry polls.notifier user
  | waitForChange target block =>
    cases hstep
    exact advances_waitForChange polls.notifier target block
  | wakeSleeper index timedOut =>
    cases hstep
    exact advances_wakeSleeper polls.notifier index timedOut
  | publish newStreamOrdering newSyncStreamId scope =>
    cases hstep
    exact advances_publish polls.notifier newStreamOrdering newSyncStreamId scope
  | publishWake publisher | parkWake parker =>
    obtain ⟨-, heq⟩ := ite_none_right_eq_some.mp hstep
    cases heq
    exact .refl _
  | park cursor deadline =>
    cases hstep
    rcases parkInsert_cases polls cursor deadline with heq | ⟨-, heq⟩ <;> rw [heq] <;> exact .refl _
  | parkCompare parker =>
    obtain ⟨-, heq⟩ := ite_none_right_eq_some.mp hstep
    cases heq
    rw [parkCompare_eq]
    exact .refl _
  | runPass now =>
    obtain ⟨-, hmap⟩ := ite_none_right_eq_some.mp hstep
    obtain ⟨registry, -, rfl⟩ := map_eq_some_iff.mp hmap
    exact .refl _
  | wakeUsers _ | wakeAll | wake _ | start _ | resumeNext | requestStop =>
    cases hstep
    exact .refl _

/-- A critical section of the registry alone, but for the ones of a publish and of a park. -/
def OfRegistry : LongPollEvent → Prop
  | .wakeUsers _ | .wakeAll | .wake _ | .start _ | .runPass _ | .resumeNext | .requestStop => True
  | _ => False

/-- What such a section does. -/
structure RegistryOnly (polls later : LongPolls) : Prop where
  consistent : later.registry.Consistent
  alert : later.registry.Alert
  entries : later.registry.entries ⊆ polls.registry.entries
  nextTicket : later.registry.nextTicket = polls.registry.nextTicket
  rest : later = { polls with registry := later.registry }

lemma RegistryOnly.of_woken {registry : ParkedPollRegistry} (h : polls.registry.Woken registry) :
    RegistryOnly polls { polls with registry := registry } :=
  ⟨h.consistent, h.alert, h.only.entries, h.only.nextTicket, rfl⟩

lemma Sound.registryOnly (h : polls.Sound) (hstep : Step polls event later)
    (hevent : OfRegistry event) : RegistryOnly polls later := by
  cases event with
  | wakeUsers users =>
    cases hstep
    exact .of_woken (h.registry.wakeUsers h.alert users).1
  | wakeAll =>
    cases hstep
    exact .of_woken (h.registry.wakeAll h.alert).1
  | wake ticket =>
    cases hstep
    exact .of_woken (h.registry.wake h.alert ticket).1
  | start limits =>
    cases hstep
    refine ⟨h.registry.start limits, ?_, ?_, ?_, rfl⟩
    all_goals dsimp only; unfold start; split_ifs
    · exact h.alert
    · exact h.alert
    all_goals simp
  | runPass now =>
    obtain ⟨⟨-, hbatch⟩, hmap⟩ := ite_none_right_eq_some.mp hstep
    obtain ⟨registry, hregistry, rfl⟩ := map_eq_some_iff.mp hmap
    obtain ⟨same, hsame, hconsistent, halert, hentries, hnext⟩ :=
      h.registry.runPass h.alert now hbatch
    obtain rfl := some.inj (hsame.symm.trans hregistry)
    exact ⟨hconsistent, halert, hentries, hnext, rfl⟩
  | resumeNext =>
    cases hstep
    refine ⟨h.registry.resumeNext, ?_, ?_, ?_, rfl⟩
    all_goals dsimp only; unfold resumeNext; split
    · exact h.alert
    · exact h.alert
    all_goals simp
  | requestStop =>
    cases hstep
    exact ⟨h.registry.requestStop, fun _ => rfl, nil_subset _, rfl, rfl⟩
  | _ => exact hevent.elim

lemma Sound.step (h : polls.Sound) (hstep : Step polls event later) : later.Sound := by
  cases event with
  | observe user =>
    cases hstep
    exact h.of_notifier (h.notifier.withEntry user) rfl rfl
  | waitForChange target block =>
    cases hstep
    exact h.of_notifier (h.notifier.waitForChange target block) rfl rfl
  | wakeSleeper index timedOut =>
    cases hstep
    exact h.of_notifier (h.notifier.wakeSleeper index timedOut) rfl rfl
  | publish newStreamOrdering newSyncStreamId scope =>
    cases hstep
    exact h.of_notifier (h.notifier.publish newStreamOrdering newSyncStreamId scope) rfl rfl
  | publishWake publisher =>
    obtain ⟨-, heq⟩ := ite_none_right_eq_some.mp hstep
    cases heq
    exact h.of_woken rfl (h.wakeScope publisher.scope).1 rfl
  | park cursor deadline =>
    cases hstep
    exact h.parkInsert cursor deadline
  | parkCompare parker =>
    obtain ⟨-, heq⟩ := ite_none_right_eq_some.mp hstep
    cases heq
    rw [parkCompare_eq]
    exact h.of_notifier h.notifier rfl rfl
  | parkWake parker =>
    obtain ⟨-, heq⟩ := ite_none_right_eq_some.mp hstep
    cases heq
    exact h.of_woken rfl (h.registry.wake h.alert parker.ticket).1 rfl
  | _ =>
    have hregistry := h.registryOnly hstep trivial
    refine h.of_registry ?_ hregistry.consistent hregistry.alert hregistry.entries
      hregistry.nextTicket ?_
    all_goals rw [hregistry.rest]

end LongPolls

end Merovingian
