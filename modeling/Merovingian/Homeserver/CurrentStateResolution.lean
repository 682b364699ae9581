import Merovingian.Events.StateResolutionOrder
import Merovingian.Homeserver.CurrentStateCache

/-!
# When the current state is the resolution

Where no type holds a NUL, what `recompute_current_state` and `store_event_with_bookkeeping` leave
is the resolution of the forward extremities exactly when the resolution names one event for each
slot and every slot that had a row, or gets one from the event itself, is a slot of it
(`currentState_eq_resolution_iff`).  A fork whose resolution drops a key is where it is not.
-/

namespace Merovingian

section Main

variable (parseLossless : Str → Option Value) (formatDouble : Double → Str) (sodium : Sodium)
  (ω : IterationOrder) (store : PersistentStore) (policy : RoomVersionPolicy)
  (limits : StateResolutionLimits)

/-- After an event is stored, or the current state is recomputed, without a refusal, the rows of
the room are the resolution of its forward extremities exactly when the resolution names one
event for each slot and has an entry in every slot that had a row or gets the event's own. -/
theorem currentState_eq_resolution_iff (hrows : ∀ row ∈ store.state.rows, 0 ∉ row.eventType) :
    (∀ event state membership bookkeeping committed result store',
      (∀ row ∈ state, 0 ∉ row.eventType) →
      storeEventWithBookkeeping parseLossless formatDouble sodium ω store policy event state
        membership bookkeeping limits committed = (result, store') →
      result.ok = true → result.resolutionRefused = false →
      ∃ groupId entries, findEventStateGroup store' event.eventId = some groupId ∧
        pendingResolution parseLossless sodium ω store policy event groupId bookkeeping.stateAfter
          limits (findForwardExtremities store' event.roomId) = ⟨entries, none⟩ ∧
        (NulFreeTypes entries →
          (IsResolution store'.state event.roomId entries ↔
            OneEventPerSlot entries ∧
            Covers entries (stateWithOwnRow store.state event.roomId state)))) ∧
    (∀ roomId committed result store',
      recomputeCurrentState parseLossless sodium ω store roomId policy limits committed =
        (result, store') → result.status = .resolved →
      ∃ entries,
        roomResolution parseLossless sodium ω store' roomId policy limits = ⟨entries, none⟩ ∧
        (NulFreeTypes entries →
          (IsResolution store'.state roomId entries ↔
            OneEventPerSlot entries ∧ Covers entries (store.state.currentState roomId)))) := by
  constructor
  · intro event state membership bookkeeping committed result store' hown h hok hrefused
    obtain ⟨hids, groupId, ⟨entries, refusal⟩, hgroup, hpending, hreported, hstate⟩ :=
      storeEventWithBookkeeping_overlay h hok
    rw [hrefused, eq_comm, Option.isSome_eq_false_iff, Option.isNone_iff_eq_none] at hreported
    obtain rfl : refusal = none := hreported
    refine ⟨groupId, entries, hgroup, hpending, fun hnul => ?_⟩
    -- nothing was overlooked
    have haccounted := accounted_changed hnul fun entry hentry =>
      lookup_currentWithOwnRow hrows (fun row hrow => ⟨hown row hrow, hids row hrow⟩)
        (hnul entry hentry)
    rw [isResolution_iff (fun _ => mem_of_mem_changed) hstate, and_iff_left haccounted]
  · intro roomId committed result store' h hresolved
    obtain ⟨entries, hentries, hstate⟩ := recomputeCurrentState_overlay h hresolved
    refine ⟨entries, hentries, fun hnul => ?_⟩
    have hsub : ∀ entry ∈ differing (currentEntries store.state roomId) entries, entry ∈ entries :=
      fun _ => List.mem_of_mem_filter
    have haccounted : Accounted entries (differing (currentEntries store.state roomId) entries)
        (store.state.currentState roomId) :=
      accounted_differing fun entry hentry => lookup_currentEntries hrows (hnul entry hentry) _
    rw [isResolution_iff hsub hstate, and_iff_left haccounted]

end Main

variable {entries : List StateGroupEntry} {table : StateTable} {roomId : Str}

/-- Rows and entries without NUL in their types: storing an event overlooks nothing. -/
theorem accounted_store {store : PersistentStore} {event : PersistentEvent}
    {state : Option PersistentStateEvent} (hrows : ∀ row ∈ store.state.rows, 0 ∉ row.eventType)
    (hstate : ∀ row ∈ state, 0 ∉ row.eventType ∧ row.eventId = event.eventId)
    (hnul : NulFreeTypes entries) :
    Accounted entries (changed (currentWithOwnRow store event state) entries)
      (stateWithOwnRow store.state event.roomId state) :=
  accounted_changed hnul fun entry hentry =>
    lookup_currentWithOwnRow hrows hstate (hnul entry hentry)

/-! ### A topic that the resolution drops -/

/-- A state event of a room. -/
structure RoomEvent where
  eventId : Str
  eventType : Str
  stateKey : Str
  sender : Str
  authEvents : List Str
  prevEvents : List Str
  content : Object

namespace RoomEvent

/-- Its JSON, with the members in canonical order. -/
def value (event : RoomEvent) : Value :=
  .obj [("auth_events", .arr (event.authEvents.map Value.str)), ("content", .obj event.content),
    ("prev_events", .arr (event.prevEvents.map Value.str)), ("room_id", .str "!r:x"),
    ("sender", .str event.sender), ("state_key", .str event.stateKey),
    ("type", .str event.eventType)]

/-- Its text. -/
def json (event : RoomEvent) : Str := (serializeCanonicalStrict event.value).toOption.getD []

/-- The row it is stored as. -/
def persistent (event : RoomEvent) : PersistentEvent :=
  { eventId := event.eventId
    roomId := "!r:x"
    senderUserId := event.sender
    json := event.json
    prevEventIds := event.prevEvents
    authEventIds := event.authEvents }

/-- Its row in the current state. -/
def stateRow (event : RoomEvent) : PersistentStateEvent :=
  ⟨"!r:x", event.eventType, event.stateKey, event.eventId⟩

/-- Its entry in a state. -/
def entry (event : RoomEvent) : StateGroupEntry :=
  ⟨[], event.eventType, event.stateKey, event.eventId⟩

/-- The create event. -/
def create : RoomEvent :=
  ⟨"$create", "m.room.create", [], "@a:x", [], [], [("room_version", .str "11")]⟩

/-- The creator joins. -/
def creatorJoin : RoomEvent :=
  ⟨"$a", "m.room.member", "@a:x", "@a:x", ["$create"], ["$create"], [("membership", .str "join")]⟩

/-- The second user gets the power to set the topic. -/
def powerLevels : RoomEvent :=
  ⟨"$power", "m.room.power_levels", [], "@a:x", ["$create", "$a"], ["$a"],
    [("users", .obj [("@a:x", .int 100), ("@b:x", .int 50)])]⟩

/-- The room is made public. -/
def joinRules : RoomEvent :=
  ⟨"$rules", "m.room.join_rules", [], "@a:x", ["$create", "$power", "$a"], ["$power"],
    [("join_rule", .str "public")]⟩

/-- The second user joins. -/
def guestJoin : RoomEvent :=
  ⟨"$b", "m.room.member", "@b:x", "@b:x", ["$create", "$power", "$rules"], ["$rules"],
    [("membership", .str "join")]⟩

/-- On one branch they set a topic. -/
def topic : RoomEvent :=
  ⟨"$topic", "m.room.topic", [], "@b:x", ["$create", "$power", "$b"], ["$b"],
    [("topic", .str "t")]⟩

/-- On the other branch they are banned. -/
def ban : RoomEvent :=
  ⟨"$ban", "m.room.member", "@b:x", "@a:x", ["$create", "$power", "$a", "$b"], ["$b"],
    [("membership", .str "ban")]⟩

/-- The state before the second user joins. -/
def roomState : List RoomEvent := [create, creatorJoin, powerLevels, joinRules]

/-- What the parser reads back from the texts of these events. -/
def parse (json : Str) : Option Value :=
  ((roomState ++ [guestJoin, topic, ban]).find? fun event => event.json = json).map value

/-- What the topic is authorised against, given the membership of its sender. -/
def topicAuthEvents (member : RoomEvent) : AuthEventMap where
  create := create.value
  createEventId := "$create"
  powerLevels := powerLevels.value
  senderMember := member.value

/-- `ingest_pdu_event` stores an accepted state event, and records the state after it. -/
def recorded (store : PersistentStore) (event : RoomEvent) (stateAfter : List RoomEvent) :
    PersistentStore :=
  match prepareStoreEventWithState parse (fun _ => []) store event.persistent event.stateRow
      none with
  | none => store
  | some update =>
    (recordEventState (applyStoreEventWithState parse store update) "!r:x" event.eventId
      event.prevEvents (stateAfter.map entry) true fun _ => true).2

/-- It then recomputes the current state. -/
def recomputed (store : PersistentStore) : CurrentStateRecompute × PersistentStore :=
  recomputeCurrentState parse inviteSodium increasingOrder store "!r:x" forkPolicy {}
    fun _ => true

/-- The store once the events have been received, each after the ones before it. -/
def receiveAll (events : List RoomEvent) : PersistentStore :=
  events.inits.tail.foldl (fun store events =>
    (recomputed (recorded store (events.getLastD create) events)).2) .empty

/-- The room once the topic is set. -/
def topicStore : PersistentStore := receiveAll (roomState ++ [guestJoin, topic])

/-- The ban arrives, on the other branch. -/
def banStore : PersistentStore := recorded topicStore ban (roomState ++ [ban])

end RoomEvent

open RoomEvent

lemma not_isResolution {slot : Str × Str} {eventId : Str}
    (hrow : table.currentState roomId slot = some eventId)
    (hnone : (slot, eventId) ∉ entryPairs entries) : ¬ IsResolution table roomId entries :=
  fun h => hnone ((h slot eventId).mp hrow)

/-- The create event and the ban, next to the ban's own row. -/
theorem accounted_store_ban : Accounted ([create, ban].map entry)
    (changed (currentWithOwnRow topicStore ban.persistent (some ban.stateRow))
      ([create, ban].map entry)) (stateWithOwnRow topicStore.state "!r:x" (some ban.stateRow)) :=
  accounted_store (by decide +kernel) (by rintro _ ⟨⟩; decide) (by unfold NulFreeTypes; decide)

/-- What the run comes to: the recomputation succeeds, the topic has no entry in the resolution
of the two branches, and its row is there all the same. -/
lemma ban_run :
    findForwardExtremities banStore "!r:x" = ["$topic", "$ban"] ∧
    (recomputed banStore).1.status = .resolved ∧
    (recomputed banStore).2.state.currentState "!r:x" ("m.room.topic", []) = some (lit "$topic") ∧
      ((lit "m.room.topic", []), lit "$topic") ∉ entryPairs
        (roomResolution parse inviteSodium increasingOrder (recomputed banStore).2 "!r:x" forkPolicy
          {}).entries := by
  decide +kernel

/-- The topic is allowed while its sender is joined, and not once they are banned.  So the
resolution of the two branches drops it, but recomputing leaves its row in the current state. -/
theorem currentState_keeps_dropped_topic :
    ((authorizeEventAgainstAuthEvents inviteSodium topic.value forkPolicy
        (topicAuthEvents guestJoin)).allowed = true ∧
      (authorizeEventAgainstAuthEvents inviteSodium topic.value forkPolicy
        (topicAuthEvents ban)).allowed = false) ∧
    findForwardExtremities banStore "!r:x" = ["$topic", "$ban"] ∧
    (recomputed banStore).1.status = .resolved ∧
      ¬ IsResolution (recomputed banStore).2.state "!r:x"
        (roomResolution parse inviteSodium increasingOrder (recomputed banStore).2 "!r:x" forkPolicy
          {}).entries := by
  obtain ⟨hextremities, hresolved, hrow, hnone⟩ := ban_run
  exact ⟨⟨by decide +kernel, by decide +kernel⟩, hextremities, hresolved,
    not_isResolution hrow hnone⟩

/-- The create event is stored in an empty room. -/
def createStored : StoredWithBookkeeping × PersistentStore :=
  storeEventWithBookkeeping parse (fun _ => []) inviteSodium increasingOrder .empty forkPolicy
    create.persistent (some create.stateRow) none ⟨[create.entry], none, []⟩ {} true

/-- Both parts apply: to the create event, and to the room once the ban has arrived. -/
theorem currentState_eq_resolution_iff_ban :
    (createStored.1.ok = true ∧ ∃ groupId entries,
      findEventStateGroup createStored.2 "$create" = some groupId ∧
      pendingResolution parse inviteSodium increasingOrder .empty forkPolicy create.persistent
        groupId [create.entry] {} (findForwardExtremities createStored.2 "!r:x") =
          ⟨entries, none⟩) ∧
    (recomputed banStore).1.status = .resolved ∧ ∃ entries,
      roomResolution parse inviteSodium increasingOrder (recomputed banStore).2 "!r:x" forkPolicy
        {} = ⟨entries, none⟩ := by
  obtain ⟨-, hresolved, -⟩ := ban_run
  have hok : createStored.1.ok = true ∧ createStored.1.resolutionRefused = false := by
    decide +kernel
  obtain ⟨groupId, entries, hgroup, hpending, -⟩ :=
    (currentState_eq_resolution_iff parse (fun _ => []) inviteSodium increasingOrder .empty
      forkPolicy {} (by decide)).1 create.persistent (some create.stateRow) none
      ⟨[create.entry], none, []⟩ true createStored.1 createStored.2 (by rintro _ ⟨⟩; decide)
      (by rw [Prod.mk.eta]; rfl) hok.1 hok.2
  obtain ⟨entries', hentries', -⟩ :=
    (currentState_eq_resolution_iff parse (fun _ => []) inviteSodium increasingOrder banStore
      forkPolicy {} (by decide +kernel)).2 "!r:x" (fun _ => true) (recomputed banStore).1
      (recomputed banStore).2 (by rw [Prod.mk.eta]; rfl) hresolved
  exact ⟨⟨hok.1, groupId, entries, hgroup, hpending⟩, hresolved, entries', hentries'⟩

end Merovingian
