import Merovingian.Events.Redaction
import Merovingian.Sync.HistoryVisibility

/-!
# What a server may read of a room

The model of `ServerEventFilter` of `federation/event_query.cpp`: which events of a room a
requesting server may read in full, and the redaction it gets instead of the others.  The
decision is taken from the state that was recorded for the event.

An object of the class serves one request and keeps a verdict for each state group; its methods
are computations over these tables.
-/

namespace Merovingian

/-! ### The version of a room -/

section RoomVersion

-- `canonicaljson::parse_lossless`
variable (parseLossless : Str → Option Value)

def declaredRoomVersion (createEvent : Object) : Str :=
  match objectMemberAsObject createEvent "content" with
  | none => "1"
  | some content =>
    match objectMember content "room_version" with
    | none => "1"
    | some version =>
      match version.asString with
      | none => "1"
      | some version => if version = [] then "1" else version

def storedCreateRoomVersion (createEventJson : Str) : Str :=
  match (parseLossless createEventJson).bind Value.asObject with
  | none => "1"
  | some object => declaredRoomVersion object

def storedRoomVersion (store : PersistentStore) (roomId : Str) : Option Str :=
  (store.state.findCurrentStateEventId (roomId, "m.room.create", [])).map fun createId =>
    match store.events.find createId with
    | none => lit "1"
    | some event => storedCreateRoomVersion parseLossless event.json

def storedRoomVersionPolicy (store : PersistentStore) (roomId : Str) : Option RoomVersionPolicy :=
  (storedRoomVersion parseLossless store roomId).bind findRoomVersionPolicy

end RoomVersion

/-! ### Users of a server -/

/-- `user_id_server_name`: what follows the first colon. -/
def userIdServerName (userId : Str) : Str :=
  if userId.length < 2 ∨ userId.head? ≠ some 64 then []
  else (userId.dropWhile fun c => c ≠ 58).drop 1

/-- `ServerVisibility`, which has the values of `HistoryVisibilityValue`. -/
abbrev ServerVisibility := HistoryVisibilityValue

def parseServerVisibility (value : Str) : ServerVisibility := parseHistoryVisibility value

/-! ### The filter -/

/-- What a `ServerEventFilter` is made for, with the environment it runs in: the parser, and the
printer of numbers of `serialize_canonical`. -/
structure ServerEventFilter where
  store : PersistentStore
  origin : Str
  parseLossless : Str → Option Value
  formatDouble : Double → Str

namespace ServerEventFilter

structure GroupView where
  valid : Bool := false
  visibility : ServerVisibility := .shared
  originJoined : Bool := false
  originInvitedOrJoined : Bool := false
deriving DecidableEq, Repr

/-- The tables of the object. -/
structure Caches where
  groupViews : Str → Option GroupView := fun _ => none
  policies : Str → Option (Option RoomVersionPolicy) := fun _ => none

/-- `group_views_`. -/
def Caches.groupViewsTable : TableIn Caches Str GroupView :=
  ⟨Caches.groupViews, fun caches entries => { caches with groupViews := entries }⟩

/-- `policies_`. -/
def Caches.policiesTable : TableIn Caches Str (Option RoomVersionPolicy) :=
  ⟨Caches.policies, fun caches entries => { caches with policies := entries }⟩

open Caches

variable (filter : ServerEventFilter)

def findEvent (eventId : Str) : Option PersistentEvent := filter.store.events.find eventId

def groupOf (eventId : Str) : Option Str := filter.store.eventStateGroups.stateGroupOf eventId

/-- `ServerEventFilter::lookup_in_group`, which is `lookup_state_in_group`. -/
def lookupInGroup (groupId eventType stateKey : Str) : GroupLookup :=
  lookupStateInGroup filter.store.groups groupId (eventType, stateKey)

/-- How a pass over the entries of a group ends: at a member event that is not held, at a join, or
at the end with the keys that shadow those of older groups. -/
inductive Scan
  | failed (view : GroupView)
  | joined (view : GroupView)
  | more (shadowed : List Str) (view : GroupView)
deriving DecidableEq, Repr

/-- The inner loop of `scan_origin_membership`. -/
def scanEntries : (shadowed : List Str) → (view : GroupView) → List StateGroupEntry → Scan
  | shadowed, view, [] => .more shadowed view
  | shadowed, view, entry :: entries =>
    if entry.eventType ≠ memberType ∨ userIdServerName entry.stateKey ≠ filter.origin ∨
        entry.stateKey ∈ shadowed then
      scanEntries shadowed view entries
    else
      match filter.findEvent entry.eventId with
      | none => .failed view
      | some memberEvent =>
        let membership := contentStringOf filter.parseLossless memberEvent.json "membership"
        if membership = some "join" then
          .joined { view with originJoined := true, originInvitedOrJoined := true }
        else if membership = some "invite" then
          scanEntries (entry.stateKey :: shadowed) { view with originInvitedOrJoined := true } entries
        else scanEntries (entry.stateKey :: shadowed) view entries

/-- The outer loop of `scan_origin_membership`.  `remaining` is what
`max_state_group_delta_depth` leaves for further parents. -/
def scanFrom : (remaining : ℕ) → (visited : List Str) → (current : Str) → (shadowed : List Str) →
    (view : GroupView) → Bool × GroupView
  | remaining, visited, current, shadowed, view =>
    if current ∈ visited then (false, view)
    else
      match filter.store.groups.stateGroups.find current with
      | none => (false, view)
      | some group =>
        match filter.scanEntries shadowed view
          (filter.store.groups.stateGroupState.entriesOf current) with
        | .failed view => (false, view)
        | .joined view => (true, view)
        | .more shadowed view =>
          match group.parentStateGroupId with
          | none => (true, view)
          | some parent =>
            match remaining with
            | 0 => (false, view)
            | remaining + 1 => scanFrom remaining (current :: visited) parent shadowed view

def scanOriginMembership (groupId : Str) (view : GroupView) : Bool × GroupView :=
  filter.scanFrom maxStateGroupDeltaDepth [] groupId [] view

/-- The visibility part of `view_of_group`. -/
def visibilityView : GroupLookup → GroupView
  | .found eventId =>
    match filter.findEvent eventId with
    -- the group names an event this store does not hold
    | none => { valid := false }
    | some event =>
      { valid := true
        visibility := ((contentStringOf filter.parseLossless event.json "history_visibility").map
          parseServerVisibility).getD .shared }
  | _ => { valid := true }

/-- What `view_of_group` computes for a group it has no view of. -/
def computeView (groupId : Str) : GroupView :=
  let visibilityEvent := filter.lookupInGroup groupId historyVisibilityType []
  if visibilityEvent = .broken then {}
  else
    let view := filter.visibilityView visibilityEvent
    if view.valid ∧ (view.visibility = .invited ∨ view.visibility = .joined) then
      let scanned := filter.scanOriginMembership groupId view
      { scanned.2 with valid := scanned.1 }
    else view

def viewOfGroup (groupId : Str) : StateM Caches GroupView :=
  memo groupViewsTable groupId (pure (filter.computeView groupId))

def policyFor (roomId : Str) : StateM Caches (Option RoomVersionPolicy) :=
  memo policiesTable roomId
    (pure (storedRoomVersionPolicy filter.parseLossless filter.store roomId))

/-- The verdict that a view gives. -/
def GroupView.visible (view : GroupView) : Bool :=
  if !view.valid then false
  else
    match view.visibility with
    | .worldReadable => true
    | .shared => true
    | .invited => view.originInvitedOrJoined
    | .joined => view.originJoined

def canSee (event : PersistentEvent) : StateM Caches Bool :=
  if filter.origin = [] then pure false
  else
    match filter.groupOf event.eventId with
    | none => pure false
    | some groupId => do
      let view ← filter.viewOfGroup groupId
      pure view.visible

/-- The redaction of an event that may not be read in full. -/
def redactedFor (event : PersistentEvent) (parsed : Value) : StateM Caches (Option Value) := do
  match ← filter.policyFor event.roomId with
  | none => pure none
  | some policy => pure (redactEvent parsed policy).toOption

def valueFor (event : PersistentEvent) : StateM Caches (Option Value) :=
  match filter.parseLossless event.json with
  | none => pure none
  | some parsed => do
    let visible ← filter.canSee event
    if visible then pure (some parsed) else filter.redactedFor event parsed

def serializeCanonical (value : Value) : SerializeResult :=
  serializeValue (some filter.formatDouble) value

def jsonFor (event : PersistentEvent) : StateM Caches (Option Str) := do
  let visible ← filter.canSee event
  if visible then pure (some event.json)
  else do
    let redacted ← filter.valueFor event
    pure (redacted.bind fun value => (filter.serializeCanonical value).toOption)

/-! ### A request -/

/-- A question to the object. -/
inductive Question
  | canSee (event : PersistentEvent)
  | valueFor (event : PersistentEvent)
  | jsonFor (event : PersistentEvent)

/-- The tables after a question. -/
def ask (caches : Caches) : Question → Caches
  | .canSee event => ((filter.canSee event).run caches).2
  | .valueFor event => ((filter.valueFor event).run caches).2
  | .jsonFor event => ((filter.jsonFor event).run caches).2

/-- The answer of `can_see` after other questions of the same request. -/
def canSeeAfter (questions : List Question) (event : PersistentEvent) : Bool :=
  ((filter.canSee event).run (questions.foldl filter.ask {})).1

/-! ### The verdict without the tables -/

/-- The server may read an event in full. -/
def sees (event : PersistentEvent) : Bool :=
  if filter.origin = [] then false
  else
    match filter.groupOf event.eventId with
    | none => false
    | some groupId => (filter.computeView groupId).visible

/-- The redaction of an event. -/
def redaction (event : PersistentEvent) (parsed : Value) : Option Value :=
  (storedRoomVersionPolicy filter.parseLossless filter.store event.roomId).bind fun policy =>
    (redactEvent parsed policy).toOption

/-- What the server gets of an event. -/
def shown (event : PersistentEvent) : Option Value :=
  (filter.parseLossless event.json).bind fun parsed =>
    if filter.sees event then some parsed else filter.redaction event parsed

/-- What the server gets of an event, as text. -/
def shownText (event : PersistentEvent) : Option Str :=
  if filter.sees event then some event.json
  else (filter.shown event).bind fun value => (filter.serializeCanonical value).toOption

/-- The tables hold the values they stand for. -/
structure Coherent (caches : Caches) : Prop where
  groupViews : ∀ groupId view, caches.groupViews groupId = some view →
    view = filter.computeView groupId
  policies : ∀ roomId policy, caches.policies roomId = some policy →
    policy = storedRoomVersionPolicy filter.parseLossless filter.store roomId

variable {filter} (event : PersistentEvent)

lemma Coherent.initial : filter.Coherent {} := by
  constructor <;> · intros; contradiction

lemma yields_viewOfGroup (groupId : Str) :
    Yields filter.Coherent (filter.viewOfGroup groupId) (filter.computeView groupId) :=
  .memo (.pure _) (fun _ _ h hheld => h.groupViews _ _ hheld)
    fun _ h => { h with groupViews := forall_emplaceIn h.groupViews }

lemma yields_policyFor (roomId : Str) :
    Yields filter.Coherent (filter.policyFor roomId)
      (storedRoomVersionPolicy filter.parseLossless filter.store roomId) :=
  .memo (.pure _) (fun _ _ h hheld => h.policies _ _ hheld)
    fun _ h => { h with policies := forall_emplaceIn h.policies }

lemma yields_canSee :
    Yields filter.Coherent (filter.canSee event) (filter.sees event) := by
  refine .ite (fun _ => .pure _) fun _ => ?_
  cases filter.groupOf event.eventId with
  | none => exact .pure _
  | some groupId => exact (yields_viewOfGroup groupId).bind (.pure _)

lemma yields_valueFor :
    Yields filter.Coherent (filter.valueFor event) (filter.shown event) := by
  rw [valueFor, shown]
  cases filter.parseLossless event.json with
  | none => exact .pure _
  | some parsed =>
    refine (yields_canSee event).bind (.ite (fun _ => .pure _) fun _ => ?_)
    refine (yields_policyFor event.roomId).bind ?_
    rw [redaction]
    cases storedRoomVersionPolicy filter.parseLossless filter.store event.roomId <;> exact .pure _

lemma yields_jsonFor :
    Yields filter.Coherent (filter.jsonFor event) (filter.shownText event) :=
  (yields_canSee event).bind (.ite (fun _ => .pure _) fun _ => (yields_valueFor event).bind (.pure _))

lemma Coherent.ask {caches : Caches} (h : filter.Coherent caches) (question : Question) :
    filter.Coherent (filter.ask caches question) := by
  cases question with
  | canSee event => exact (yields_canSee event caches h).2
  | valueFor event => exact (yields_valueFor event caches h).2
  | jsonFor event => exact (yields_jsonFor event caches h).2

/-- Whatever was asked before, the verdict is the same. -/
theorem canSeeAfter_eq (filter : ServerEventFilter) (questions : List Question)
    (event : PersistentEvent) : filter.canSeeAfter questions event = filter.sees event := by
  have hcoherent := List.foldlRecOn questions filter.ask Coherent.initial
    fun _ h question _ => h.ask question
  exact (yields_canSee event _ hcoherent).1

end ServerEventFilter

end Merovingian
