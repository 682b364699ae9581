import Merovingian.Database.DeviceListChanges
import Merovingian.Lib.Run

/-!
# No device-list change is missed

`collect_device_list_delta` of `sync/DeviceListDelta.cpp` answers which subjects of an observer
changed, and which left, within a window of the sync stream.  A client reads one window after the
other while changes are recorded.  A newer change replaces the row of an older one, so a subject
can vanish from a window that was not read yet; it then is in a later window, with its latest type.

`deviceListDelta_complete` says that this is enough: once the position of the latest change is
within the windows read, the last answer that names the subject names it with the type of that
change.  No window may reach beyond the counter of the stream (`deviceListDelta_ahead`).
-/

namespace Merovingian

open PersistentDeviceListChange List Bool

structure DeviceListDelta where
  changed : List Str := []
  left : List Str := []
  maxStreamId : ℕ := 0
deriving DecidableEq, Repr

/-! ### Collecting a window -/

section Collect

variable (user : Str) (fromSyncStreamId toSyncStreamId : ℕ)

/-- The change is one of the observer, within the window. -/
def PersistentDeviceListChange.within (change : PersistentDeviceListChange) : Bool :=
  change.observerUserId = user && fromSyncStreamId < change.streamId &&
    change.streamId ≤ toSyncStreamId

/-- The entry of `latest_by_subject` for a change. -/
def subjectEntry (change : PersistentDeviceListChange) : Str × ℕ × Bool :=
  (change.subjectUserId, change.streamId, change.changeType = lit "left")

/-- A change replaces the entry of an earlier one. -/
def supersede (change : PersistentDeviceListChange) (existing : Str × ℕ × Bool) :
    Str × ℕ × Bool :=
  if existing.2.1 ≤ change.streamId then subjectEntry change else existing

/-- A turn of the loop. -/
def noteChange (latestBySubject : List (Str × ℕ × Bool)) (change : PersistentDeviceListChange) :
    List (Str × ℕ × Bool) :=
  upsertBy Prod.fst change.subjectUserId (subjectEntry change) (supersede change) latestBySubject

/-- The map `latest_by_subject` after the loop, in the order of its keys. -/
def latestBySubject (changes : List PersistentDeviceListChange) : List (Str × ℕ × Bool) :=
  ((changes.filter (within user fromSyncStreamId toSyncStreamId)).foldl noteChange []).insertionSort
    fun a b => a.1 ≤ b.1

def collectDeviceListDelta (changes : List PersistentDeviceListChange) : DeviceListDelta :=
  let latest := latestBySubject user fromSyncStreamId toSyncStreamId changes
  { changed := (latest.filter fun entry => !entry.2.2).map Prod.fst
    left := (latest.filter fun entry => entry.2.2).map Prod.fst
    maxStreamId := (changes.filter (within user fromSyncStreamId toSyncStreamId)).foldl
      (fun greatest change => max greatest change.streamId) fromSyncStreamId }

/-- The answer names a subject with this type of change. -/
def DeviceListDelta.names (delta : DeviceListDelta) (subject changeType : Str) : Prop :=
  if changeType = lit "left" then subject ∈ delta.left else subject ∈ delta.changed

variable {user fromSyncStreamId toSyncStreamId} {changes : List PersistentDeviceListChange}
  {subject : Str} (change : PersistentDeviceListChange)

lemma fst_subjectEntry :
    (subjectEntry change).1 = change.subjectUserId := rfl

lemma fst_supersede (existing : Str × ℕ × Bool) (h : existing.1 = change.subjectUserId) :
    (supersede change existing).1 = change.subjectUserId := by
  unfold supersede
  split_ifs
  exacts [rfl, h]

section

variable (changes : List PersistentDeviceListChange)

lemma nodup_latestBySubject :
    ((latestBySubject user fromSyncStreamId toSyncStreamId changes).map Prod.fst).Nodup := by
  refine ((perm_insertionSort _ _).map _).nodup_iff.mpr ?_
  refine foldlRecOn (motive := fun latest => (map Prod.fst latest).Nodup) _ _ nodup_nil ?_
  exact fun _ h row _ => nodup_upsertBy (fst_subjectEntry row) (fst_supersede row) h

/-- No subject is both changed and left. -/
lemma not_changed_and_left (subject : Str) :
    ¬ (subject ∈ (collectDeviceListDelta user fromSyncStreamId toSyncStreamId changes).changed ∧
      subject ∈ (collectDeviceListDelta user fromSyncStreamId toSyncStreamId changes).left) := by
  rintro ⟨hchanged, hleft⟩
  obtain ⟨entry, hentry, hsubject⟩ := mem_map.mp hchanged
  obtain ⟨entry', hentry', rfl⟩ := mem_map.mp hleft
  obtain ⟨hmem, hnotLeft⟩ := mem_filter.mp hentry
  obtain ⟨hmem', hisLeft⟩ := mem_filter.mp hentry'
  obtain rfl := inj_on_of_nodup_map (nodup_latestBySubject changes) hmem hmem' hsubject
  simp [hisLeft] at hnotLeft

end

section

variable (hnodup : (changes.map pair).Nodup)

include hnodup

lemma mem_latestBySubject_iff {entry : Str × ℕ × Bool} :
    entry ∈ latestBySubject user fromSyncStreamId toSyncStreamId changes ↔
      ∃ change ∈ changes, within user fromSyncStreamId toSyncStreamId change = true ∧
        entry = subjectEntry change := by
  set window := changes.filter (within user fromSyncStreamId toSyncStreamId)
  have hsubjects : (window.map subjectUserId).Nodup := by
    refine Nodup.of_map (fun subject => (user, subject)) ?_
    have hpairs : window.map pair =
        (window.map subjectUserId).map fun subject => (user, subject) := by
      rw [map_map]
      refine map_congr_left fun change hchange => ?_
      have hwithin := (mem_filter.mp hchange).2
      simp only [within, and_eq_true, decide_eq_true_eq] at hwithin
      exact Prod.ext hwithin.1.1 rfl
    rw [← hpairs]
    exact hnodup.sublist (filter_sublist.map _)
  have hlookup : lookupBy Prod.fst (window.foldl noteChange []) entry.1 =
      (lookupBy subjectUserId window entry.1).map subjectEntry := by
    refine (lookupBy_foldl_upsertBy fst_subjectEntry fst_supersede hsubjects [] entry.1).trans ?_
    cases lookupBy subjectUserId window entry.1 <;> rfl
  have hperm := perm_insertionSort (fun a b : Str × ℕ × Bool => a.1 ≤ b.1)
    (window.foldl noteChange [])
  have hread : entry ∈ latestBySubject user fromSyncStreamId toSyncStreamId changes ↔
      lookupBy Prod.fst (window.foldl noteChange []) entry.1 = some entry := by
    rw [lookupBy_eq_some ((hperm.map _).nodup_iff.mp (nodup_latestBySubject changes)),
      latestBySubject, hperm.mem_iff]
    exact (and_iff_left rfl).symm
  simp only [hread, hlookup, Option.map_eq_some_iff, lookupBy_eq_some hsubjects, window, mem_filter]
  constructor
  · rintro ⟨change, ⟨⟨hchange, hwithin⟩, -⟩, rfl⟩
    exact ⟨change, hchange, hwithin, rfl⟩
  · rintro ⟨change, hchange, hwithin, rfl⟩
    exact ⟨change, ⟨⟨hchange, hwithin⟩, rfl⟩, rfl⟩

lemma mem_subjects_iff (p : Bool → Bool) :
    subject ∈ ((latestBySubject user fromSyncStreamId toSyncStreamId changes).filter
        fun entry => p entry.2.2).map Prod.fst ↔
      ∃ change ∈ changes, within user fromSyncStreamId toSyncStreamId change = true ∧
        change.subjectUserId = subject ∧ p (change.changeType = lit "left") = true := by
  simp only [mem_map, mem_filter, mem_latestBySubject_iff hnodup]
  constructor
  · rintro ⟨entry, ⟨⟨change, hchange, hwithin, rfl⟩, hleft⟩, rfl⟩
    exact ⟨change, hchange, hwithin, rfl, hleft⟩
  · rintro ⟨change, hchange, hwithin, rfl, hleft⟩
    exact ⟨subjectEntry change, ⟨⟨change, hchange, hwithin, rfl⟩, hleft⟩, rfl⟩

lemma mem_left_iff :
    subject ∈ (collectDeviceListDelta user fromSyncStreamId toSyncStreamId changes).left ↔
      ∃ change ∈ changes, within user fromSyncStreamId toSyncStreamId change = true ∧
        change.subjectUserId = subject ∧ change.changeType = lit "left" := by
  refine (mem_subjects_iff hnodup fun left => left).trans ?_
  simp only [decide_eq_true_eq]

lemma mem_changed_iff :
    subject ∈ (collectDeviceListDelta user fromSyncStreamId toSyncStreamId changes).changed ↔
      ∃ change ∈ changes, within user fromSyncStreamId toSyncStreamId change = true ∧
        change.subjectUserId = subject ∧ change.changeType ≠ lit "left" := by
  refine (mem_subjects_iff hnodup fun left => !left).trans ?_
  simp only [not_eq_true', decide_eq_false_iff_not]

end

end Collect

/-! ### A client that reads -/

/-- A window that was read, and its answer. -/
structure DeviceListAnswer where
  since : ℕ
  upper : ℕ
  delta : DeviceListDelta

/-- The store, the changes that were recorded (newest first), and a client: its position and the
answers it got (newest first). -/
structure DeviceListFeed where
  store : DeviceListStore := {}
  recorded : List PersistentDeviceListChange := []
  position : ℕ
  answers : List DeviceListAnswer := []

/-- What happens: a call of `record_device_list_changes`, an allocation for another row of the sync
stream, or a read of the next window. -/
inductive DeviceListAction
  | record (changes : List PersistentDeviceListChange) (commits : Bool)
  | allocate
  | read (upper : ℕ)

namespace DeviceListFeed

/-- An action as a step, for a client of this observer. -/
inductive Step (user : Str) : DeviceListFeed → DeviceListAction → DeviceListFeed → Prop
  | record (feed : DeviceListFeed) {changes : List PersistentDeviceListChange} {commits : Bool}
      {result : Option Bool} {store : DeviceListStore}
      (hcall : recordDeviceListChanges commits changes feed.store = (result, store)) :
      Step user feed (.record changes commits)
        { feed with
          store := store
          recorded := DeviceListStore.recordedAfter result store changes feed.recorded }
  | allocate (feed : DeviceListFeed) {streamId : ℕ}
      (hcall : allocateSyncStreamId feed.store.nextSyncStreamId = some streamId) :
      Step user feed .allocate { feed with store := { feed.store with nextSyncStreamId := streamId } }
  | read (feed : DeviceListFeed) {upper : ℕ} (hupper : feed.position ≤ upper) :
      Step user feed (.read upper)
        { feed with
          position := upper
          answers := ⟨feed.position, upper, collectDeviceListDelta user feed.position upper
            feed.store.deviceListChanges⟩ :: feed.answers }

/-- The window does not reach beyond the stream. -/
def Reached (feed : DeviceListFeed) : DeviceListAction → Prop
  | .read upper => upper ≤ feed.store.nextSyncStreamId
  | _ => True

/-- A step of a client that reads up to positions the stream has reached. -/
def ReachedStep (user : Str) (feed : DeviceListFeed) (action : DeviceListAction)
    (feed' : DeviceListFeed) : Prop :=
  Step user feed action feed' ∧ feed.Reached action

/-- The last answer that names the subject of a change names it with the type of the change, and
its window holds the change. -/
def Reported (answers : List DeviceListAnswer) (change : PersistentDeviceListChange) : Prop :=
  ∃ newer answer older, answers = newer ++ answer :: older ∧ answer.since < change.streamId ∧
    change.streamId ≤ answer.upper ∧ answer.delta.names change.subjectUserId change.changeType ∧
    ∀ later ∈ newer, change.subjectUserId ∉ later.delta.changed ∧
      change.subjectUserId ∉ later.delta.left

/-- What holds while the client reads. -/
structure Complete (user : Str) (since : ℕ) (feed : DeviceListFeed) : Prop where
  recorded : feed.store.Recorded feed.recorded
  position : feed.position ≤ feed.store.nextSyncStreamId ∨ feed.position = since
  reported : ∀ change ∈ feed.store.deviceListChanges, change.observerUserId = user →
    since < change.streamId → change.streamId ≤ feed.position → Reported feed.answers change
  answers : ∀ answer ∈ feed.answers, ∀ subject,
    ¬ (subject ∈ answer.delta.changed ∧ subject ∈ answer.delta.left)

variable {user : Str} {since : ℕ} {feed feed' : DeviceListFeed}

lemma Complete.start (user : Str) (since : ℕ) : Complete user since { position := since } where
  recorded := .empty
  position := .inr rfl
  reported _ h := absurd h not_mem_nil
  answers _ h := absurd h not_mem_nil

/-- A row whose position was read already is in no later window, and no later window names its
subject. -/
lemma not_named_of_read (hnodup : (feed.store.deviceListChanges.map pair).Nodup)
    {change : PersistentDeviceListChange} (hchange : change ∈ feed.store.deviceListChanges)
    (hobserver : change.observerUserId = user) (hread : change.streamId ≤ feed.position)
    (upper : ℕ) :
    change.subjectUserId ∉ (collectDeviceListDelta user feed.position upper
        feed.store.deviceListChanges).changed ∧
      change.subjectUserId ∉ (collectDeviceListDelta user feed.position upper
        feed.store.deviceListChanges).left := by
  have hnone : ∀ other ∈ feed.store.deviceListChanges,
      within user feed.position upper other = true → other.subjectUserId ≠ change.subjectUserId := by
    intro other hother hwithin hsubject
    simp only [within, and_eq_true, decide_eq_true_eq] at hwithin
    have hpair : other.pair = change.pair := Prod.ext (hwithin.1.1.trans hobserver.symm) hsubject
    obtain rfl := inj_on_of_nodup_map hnodup hother hchange hpair
    exact absurd hwithin.1.2 (Nat.not_lt.mpr hread)
  rw [mem_left_iff hnodup, mem_changed_iff hnodup]
  constructor <;> rintro ⟨other, hother, hwithin, hsubject, -⟩ <;>
    exact hnone other hother hwithin hsubject

section

variable (h : Complete user since feed)

include h

lemma Complete.read {upper : ℕ} (hreached : upper ≤ feed.store.nextSyncStreamId) :
    Complete user since { feed with
        position := upper
        answers := ⟨feed.position, upper, collectDeviceListDelta user feed.position upper
          feed.store.deviceListChanges⟩ :: feed.answers } where
  recorded := h.recorded
  position := .inl hreached
  reported change hchange hobserver hsince hread := by
    by_cases hbefore : change.streamId ≤ feed.position
    · -- the answer was given before, and the new one does not name the subject
      obtain ⟨newer, answer, older, hanswers, hlower, hhigher, hnames, hnewer⟩ :=
        h.reported change hchange hobserver hsince hbefore
      refine ⟨_ :: newer, answer, older, by rw [hanswers]; rfl, hlower, hhigher, hnames,
        forall_mem_cons.mpr ⟨?_, hnewer⟩⟩
      exact not_named_of_read h.recorded.nodup hchange hobserver hbefore upper
    · have hwithin : within user feed.position upper change = true := by
        simp only [within, and_eq_true, decide_eq_true_eq]
        exact ⟨⟨hobserver, Nat.lt_of_not_le hbefore⟩, hread⟩
      refine ⟨[], _, feed.answers, rfl, Nat.lt_of_not_le hbefore, hread, ?_,
        fun _ hlater => absurd hlater not_mem_nil⟩
      unfold DeviceListDelta.names
      split_ifs with hleft
      · exact (mem_left_iff h.recorded.nodup).mpr ⟨change, hchange, hwithin, rfl, hleft⟩
      · exact (mem_changed_iff h.recorded.nodup).mpr ⟨change, hchange, hwithin, rfl, hleft⟩
  answers answer hanswer subject := by
    rcases mem_cons.mp hanswer with rfl | hanswer
    · exact not_changed_and_left _ subject
    · exact h.answers answer hanswer subject

lemma Complete.record {changes : List PersistentDeviceListChange}
    {commits : Bool} {result : Option Bool} {store : DeviceListStore}
    (hcall : recordDeviceListChanges commits changes feed.store = (result, store)) :
    Complete user since { feed with
        store := store
        recorded := DeviceListStore.recordedAfter result store changes feed.recorded } where
  recorded := h.recorded.record hcall
  position := by
    refine h.position.imp_left fun hle => hle.trans ?_
    rcases DeviceListStore.recordDeviceListChanges_cases hcall with ⟨rfl, -⟩ | ⟨-, rfl⟩ |
      ⟨-, -, hnext, -⟩
    · exact le_rfl
    · exact Nat.le_succ _
    · exact hnext ▸ Nat.le_succ _
  reported change hchange hobserver hsince hread := by
    rcases DeviceListStore.recordDeviceListChanges_cases hcall with ⟨rfl, -⟩ | ⟨-, rfl⟩ |
      ⟨-, -, -, hrows, -⟩
    · exact h.reported change hchange hobserver hsince hread
    · exact h.reported change hchange hobserver hsince hread
    · simp only [hrows] at hchange
      rcases mem_append.mp hchange with hchange | hchange
      · exact h.reported change (mem_filter.mp hchange).1 hobserver hsince hread
      · -- the position of a new row is above the windows that were read
        obtain ⟨original, -, rfl⟩ := mem_map.mp hchange
        have hid : feed.store.nextSyncStreamId + 1 ≤ feed.position := hread
        rcases h.position with hposition | hposition
        · exact absurd (hid.trans hposition) (Nat.not_succ_le_self _)
        · exact absurd (hposition ▸ hread) (Nat.not_le.mpr hsince)
  answers := h.answers

lemma Complete.step {action : DeviceListAction}
    (hstep : ReachedStep user feed action feed') : Complete user since feed' := by
  obtain ⟨hstep, hreached⟩ := hstep
  cases hstep with
  | record hcall => exact h.record hcall
  | allocate hcall =>
    rw [allocateSyncStreamId] at hcall
    split_ifs at hcall
    cases hcall
    exact ⟨h.recorded.skip, h.position.imp_left Nat.le_succ_of_le, h.reported, h.answers⟩
  | read => exact h.read hreached

end

/-- For every run of calls and reads from the empty store: the latest change of each subject whose
position is within the windows read was reported, and the last answer that names the subject has
its type; no answer names a subject as changed and as left; and each pair has one row, its latest
change, in memory and in the table. -/
theorem deviceListDelta_complete {user : Str} {since : ℕ} {actions : List DeviceListAction}
    {feed : DeviceListFeed} (hrun : Run (ReachedStep user) { position := since } actions feed) :
    (∀ subject change, lookupBy pair feed.recorded (user, subject) = some change →
      since < change.streamId → change.streamId ≤ feed.position → Reported feed.answers change) ∧
    (∀ answer ∈ feed.answers, ∀ subject,
      ¬ (subject ∈ answer.delta.changed ∧ subject ∈ answer.delta.left)) ∧
    (feed.store.deviceListChanges.map pair).Nodup ∧
    (∀ p, lookupBy pair feed.store.deviceListChanges p = lookupBy pair feed.recorded p) ∧
    feed.store.table = feed.store.deviceListChanges := by
  have h := hrun.invariant (Complete user since) (fun _ => True) (fun _ hstep h => h.step hstep)
    (fun _ _ => trivial) (.start user since)
  refine ⟨fun subject change hlatest hsince hread => ?_, h.answers, h.recorded.nodup,
    h.recorded.latest, h.recorded.table⟩
  rw [← h.recorded.latest] at hlatest
  have hpair : change.pair = (user, subject) := key_of_lookupBy hlatest
  exact h.reported change (mem_of_lookupBy hlatest) (congrArg Prod.fst hpair) hsince hread

/-! ### Two clients -/

/-- A change of one subject, for one observer. -/
def subjectChange (streamId : ℕ) (changeType : Str) : PersistentDeviceListChange where
  streamId := streamId
  observerUserId := "@o"
  subjectUserId := "@s"
  changeType := changeType

/-- The store that holds one change. -/
def storeOf (change : PersistentDeviceListChange) : DeviceListStore where
  nextSyncStreamId := change.streamId
  deviceListChanges := [change]
  table := [change]

/-- A subject changed, this was read, then the subject left, and this was read. -/
def replacedFeed : DeviceListFeed where
  store := storeOf (subjectChange 2 "left")
  recorded := [subjectChange 2 "left", subjectChange 1 "changed"]
  position := 2
  answers :=
    [⟨1, 2, collectDeviceListDelta "@o" 1 2 [subjectChange 2 "left"]⟩,
      ⟨0, 1, collectDeviceListDelta "@o" 0 1 [subjectChange 1 "changed"]⟩]

/-- The last answer that names the subject says that it left. -/
theorem deviceListDelta_complete_replaced :
    Reported replacedFeed.answers (subjectChange 2 "left") := by
  have hchanged : recordDeviceListChanges true [subjectChange 0 "changed"] {} =
      (some true, storeOf (subjectChange 1 "changed")) := by decide
  have hleft : recordDeviceListChanges true [subjectChange 0 "left"]
      (storeOf (subjectChange 1 "changed")) = (some true, storeOf (subjectChange 2 "left")) := by
    decide
  have hrun : Run (ReachedStep "@o") { position := 0 }
      [.record [subjectChange 0 "changed"] true, .read 1, .record [subjectChange 0 "left"] true,
        .read 2] replacedFeed :=
    .cons ⟨.record _ hchanged, trivial⟩ (.cons ⟨.read _ (by decide), Nat.le_refl 1⟩
      (.cons ⟨.record _ hleft, trivial⟩ (.cons ⟨.read _ (by decide), Nat.le_refl 2⟩ (.nil _))))
  exact (deviceListDelta_complete hrun).1 "@s" _ (by decide) (by decide) (by decide)

/-- A client that read up to position 5 before the stream was there, and then up to 6. -/
def aheadFeed : DeviceListFeed where
  store := storeOf (subjectChange 1 "changed")
  recorded := [subjectChange 1 "changed"]
  position := 6
  answers :=
    [⟨5, 6, collectDeviceListDelta "@o" 5 6 [subjectChange 1 "changed"]⟩,
      ⟨0, 5, collectDeviceListDelta "@o" 0 5 []⟩]

/-- The change at position 1 is within the windows that were read, and no answer names it. -/
theorem deviceListDelta_ahead :
    Run (Step "@o") { position := 0 }
        [.read 5, .record [subjectChange 0 "changed"] true, .read 6] aheadFeed ∧
      lookupBy pair aheadFeed.recorded ("@o", "@s") = some (subjectChange 1 "changed") ∧
      1 ≤ aheadFeed.position ∧
      ∀ answer ∈ aheadFeed.answers, answer.delta.changed = [] ∧ answer.delta.left = [] := by
  have hchanged : recordDeviceListChanges true [subjectChange 0 "changed"] {} =
      (some true, storeOf (subjectChange 1 "changed")) := by decide
  exact ⟨.cons (.read _ (by decide)) (.cons (.record _ hchanged)
    (.cons (.read _ (by decide)) (.nil _))), by decide, by decide, by decide⟩

end DeviceListFeed

end Merovingian
