import Merovingian.Json.Value
import Merovingian.Lib.SortedIndex

/-!
# The event table

The model of `database/EventTable.hpp` and `database/EventTable.cpp`: the rows of the `events`
table in the order they were added, and six indexes that hold positions in them.  Every operation
repairs each index in its own way.

A hash map from rooms (or relation targets) to lists reads as the empty list where it has no entry;
the operations drop entries whose list became empty.  `stream_ordering` and `depth` are only
compared, so they are natural numbers.
-/

namespace Merovingian

structure EventSignature where
  serverName : Str
  keyId : Str
  signature : Str
deriving DecidableEq, Repr

structure PersistentEvent where
  eventId : Str := []
  roomId : Str := []
  senderUserId : Str := []
  json : Str := []
  depth : ℕ := 0
  streamOrdering : ℕ := 0
  prevEventIds : List Str := []
  authEventIds : List Str := []
  signatures : List EventSignature := []
  status : Str := "accepted"
deriving DecidableEq, Repr

/-! ### What a row says about itself -/

def isJsonSpace (c : UInt8) : Bool := c = 32 || c = 9 || c = 10 || c = 13

/-- The text of a string up to its closing quote, and what follows the quote. -/
def skipString : Str → Option (Str × Str)
  | [] => none
  | 34 :: rest => some ([], rest)
  | [92] => none
  | 92 :: c :: rest => (skipString rest).map fun s => (92 :: c :: s.1, s.2)
  | c :: rest => (skipString rest).map fun s => (c :: s.1, s.2)

/-- The end of `top_level_integer`: the integer that a member's value is. -/
def integerValue (text : Str) : Option Int64 :=
  let text := text.dropWhile isJsonSpace
  let sign := if text.head? = some 45 then [45] else []
  let rest := text.drop sign.length
  let digits := rest.takeWhile isDigitByte
  let after := rest.dropWhile isDigitByte
  if digits = [] then none
  else if after.head?.any fun c => c = 46 || c = 101 || c = 69 then none
  else fromChars (sign ++ digits)

/-- The loop of `top_level_integer`, with what is left of the text and the 32-bit nesting
depth. -/
def topLevelIntegerFrom (key : Str) : (fuel : ℕ) → (depth : UInt32) → Str → Option Int64
  | 0, _, _ => none
  | _ + 1, _, [] => none
  | fuel + 1, depth, c :: rest =>
    if c = 123 ∨ c = 91 then topLevelIntegerFrom key fuel (depth + 1) rest
    else if c = 125 ∨ c = 93 then
      if depth = 0 then none else topLevelIntegerFrom key fuel (depth - 1) rest
    else if c ≠ 34 then topLevelIntegerFrom key fuel depth rest
    else match skipString rest with
      | none => none
      | some (text, rest) =>
        if depth ≠ 1 ∨ text ≠ key then topLevelIntegerFrom key fuel depth rest
        else match rest.dropWhile isJsonSpace with
          | 58 :: value => integerValue value
          -- a string value that happens to equal the key
          | _ => topLevelIntegerFrom key fuel depth rest

/-- `top_level_integer`; every turn of the loop consumes a byte. -/
def topLevelInteger (json key : Str) : Option Int64 :=
  topLevelIntegerFrom key (json.length + 1) 0 json

def latestTsOf (row : PersistentEvent) : Int64 :=
  match topLevelInteger row.json "origin_server_ts" with
  | some ts => if 0 < ts then ts else 0
  | none => 0

inductive RelationKind
  | replace
  | thread
  | reference
deriving DecidableEq, Repr

structure RelationKey where
  target : Str
  kind : RelationKind
deriving DecidableEq, Repr

def relationKindOf (relType : Str) : Option RelationKind :=
  if relType = "m.replace" then some .replace
  else if relType = "m.thread" then some .thread
  else if relType = "m.reference" then some .reference
  else none

def maxIdLengthBytes : ℕ := 255

section Parser

-- `canonicaljson::parse_lossless`: the value, unless there was an error
variable (parseLossless : Str → Option Value)

def relationKeyFor (row : PersistentEvent) : Option RelationKey :=
  if ¬ lit "\"m.relates_to\"" <:+: row.json then none
  else do
    let event ← (← parseLossless row.json).asObject
    let content ← objectMemberAsObject event "content"
    let relates ← objectMemberAsObject content "m.relates_to"
    let target ← stringMember relates "event_id"
    let relType ← stringMember relates "rel_type"
    if target = [] ∨ maxIdLengthBytes < target.length then none
    else (relationKindOf relType).map (RelationKey.mk target)

end Parser

structure TimeEntry where
  originServerTs : Int64
  depth : ℕ
  streamOrdering : ℕ
  position : ℕ
deriving DecidableEq, Repr

/-- `TimeEntry::operator<=>` compares the fields in turn. -/
def TimeEntry.key (entry : TimeEntry) : Int64 ×ₗ ℕ ×ₗ ℕ ×ₗ ℕ :=
  toLex (entry.originServerTs, toLex (entry.depth, toLex (entry.streamOrdering, entry.position)))

def timeEntryFor (row : PersistentEvent) (position : ℕ) : Option TimeEntry :=
  if row.status = "outlier" ∨ row.status = "rejected" ∨ row.status = "soft_failed" then none
  else (topLevelInteger row.json "origin_server_ts").map fun ts =>
    ⟨ts, row.depth, row.streamOrdering, position⟩

/-! ### The table -/

structure EventTable where
  rows : List PersistentEvent
  byId : Str → Option ℕ
  streamOrder : List ℕ
  byRoomStream : Str → List ℕ
  byRoomTime : Str → List TimeEntry
  roomLatestTs : Str → Option Int64
  relationChildren : RelationKey → List ℕ

namespace EventTable

/-- The empty table; `EventTable::clear` leaves it. -/
def empty : EventTable where
  rows := []
  byId _ := none
  streamOrder := []
  byRoomStream _ := []
  byRoomTime _ := []
  roomLatestTs _ := none
  relationChildren _ := []

/-- `rows_[position].stream_ordering`. -/
def orderingAt (rows : List PersistentEvent) (position : ℕ) : ℕ :=
  (rows[position]?.map PersistentEvent.streamOrdering).getD 0

def find (table : EventTable) (eventId : Str) : Option PersistentEvent :=
  (table.byId eventId).bind fun position => table.rows[position]?

lemma mem_rows_of_find {table : EventTable} {eventId : Str} {event : PersistentEvent}
    (h : table.find eventId = some event) : event ∈ table.rows := by
  obtain ⟨position, -, hrow⟩ := Option.bind_eq_some_iff.mp h
  exact List.mem_of_getElem? hrow

def inStreamOrder (table : EventTable) : List PersistentEvent :=
  table.streamOrder.filterMap fun position => table.rows[position]?

def roomInStreamOrder (table : EventTable) (roomId : Str) : List PersistentEvent :=
  (table.byRoomStream roomId).filterMap fun position => table.rows[position]?

def roomLatestOriginServerTs (table : EventTable) (roomId : Str) : Int64 :=
  (table.roomLatestTs roomId).getD 0

/-- `EventTable::index_relation`, with the relation of a row if it has one. -/
def indexRelation (children : RelationKey → List ℕ) (position : ℕ) (key : Option RelationKey) :
    RelationKey → List ℕ :=
  match key with
  | none => children
  | some key => Function.update children key (children key ++ [position])

/-- `EventTable::unindex_relation`, with the relation of a row if it had one. -/
def unindexRelation (children : RelationKey → List ℕ) (position : ℕ) (key : Option RelationKey) :
    RelationKey → List ℕ :=
  match key with
  | none => children
  | some key => Function.update children key ((children key).filter (· ≠ position))

def indexTime (byRoomTime : Str → List TimeEntry) (row : PersistentEvent) (position : ℕ) :
    Str → List TimeEntry :=
  match timeEntryFor row position with
  | none => byRoomTime
  | some entry =>
    Function.update byRoomTime row.roomId
      (insertNewest TimeEntry.key entry (byRoomTime row.roomId))

def unindexTime (byRoomTime : Str → List TimeEntry) (roomId : Str) (entry : Option TimeEntry) :
    Str → List TimeEntry :=
  match entry with
  | none => byRoomTime
  | some entry =>
    Function.update byRoomTime roomId (eraseLower TimeEntry.key entry (byRoomTime roomId))

def indexStream (rows : List PersistentEvent) (byRoomStream : Str → List ℕ) (row : PersistentEvent)
    (position : ℕ) : Str → List ℕ :=
  Function.update byRoomStream row.roomId
    (insertNewest (orderingAt rows) position (byRoomStream row.roomId))

def unindexStream (rows : List PersistentEvent) (byRoomStream : Str → List ℕ) (roomId : Str)
    (position streamOrdering : ℕ) : Str → List ℕ :=
  Function.update byRoomStream roomId
    (eraseAmong (orderingAt rows) streamOrdering position (byRoomStream roomId))

/-- `try_emplace` of a room's timestamp and the maximum with the held one, in `insert` and
`insert_all`. -/
def raiseLatestTs (roomLatestTs : Str → Option Int64) (row : PersistentEvent) : Str → Option Int64 :=
  if 0 < latestTsOf row then
    Function.update roomLatestTs row.roomId
      (some (max ((roomLatestTs row.roomId).getD (latestTsOf row)) (latestTsOf row)))
  else roomLatestTs

def recomputeLatestTs (rows : List PersistentEvent) (byRoomStream : Str → List ℕ)
    (roomLatestTs : Str → Option Int64) (roomId : Str) : Str → Option Int64 :=
  let latest := (byRoomStream roomId).foldl
    (fun latest position => max latest ((rows[position]?.map latestTsOf).getD 0)) 0
  Function.update roomLatestTs roomId (if 0 < latest then some latest else none)

section Operations

variable (parseLossless : Str → Option Value)

def insert (table : EventTable) (event : PersistentEvent) : Bool × EventTable :=
  if (table.byId event.eventId).isSome then (false, table)
  else
    let position := table.rows.length
    let rows := table.rows ++ [event]
    (true,
      { rows := rows
        byId := Function.update table.byId event.eventId (some position)
        streamOrder := insertNewest (orderingAt rows) position table.streamOrder
        byRoomStream := indexStream rows table.byRoomStream event position
        byRoomTime := indexTime table.byRoomTime event position
        roomLatestTs := raiseLatestTs table.roomLatestTs event
        relationChildren :=
          indexRelation table.relationChildren position (relationKeyFor parseLossless event) })

/-- The first loop of `EventTable::insert_all`, over rows, ids and timestamps. -/
def addRows : List PersistentEvent → List PersistentEvent × (Str → Option ℕ) × (Str → Option Int64) →
    List PersistentEvent × (Str → Option ℕ) × (Str → Option Int64)
  | [], held => held
  | event :: events, (rows, byId, roomLatestTs) =>
    if (byId event.eventId).isSome then addRows events (rows, byId, roomLatestTs)
    else addRows events (rows ++ [event], Function.update byId event.eventId (some rows.length),
      raiseLatestTs roomLatestTs event)

/-- The positions of the added rows with a property, in ascending order. -/
def addedWith (rows : List PersistentEvent) (firstAdded : ℕ) (P : PersistentEvent → Bool) : List ℕ :=
  (List.range' firstAdded (rows.length - firstAdded)).filter fun p => rows[p]?.any P

/-- `EventTable::insert_all`: the added positions of each index are sorted and merged into it. -/
def insertAll (table : EventTable) (events : List PersistentEvent) : ℕ × EventTable :=
  let (rows, byId, roomLatestTs) := addRows events (table.rows, table.byId, table.roomLatestTs)
  let firstAdded := table.rows.length
  let added := addedWith rows firstAdded fun _ => true
  let addedTo (roomId : Str) := addedWith rows firstAdded fun row => row.roomId = roomId
  let timesAddedTo (roomId : Str) := (addedTo roomId).filterMap fun position =>
    rows[position]?.bind fun row => timeEntryFor row position
  (rows.length - firstAdded,
    { rows := rows
      byId := byId
      streamOrder := stableMerge (orderingAt rows) table.streamOrder
        (stableSort (orderingAt rows) added)
      byRoomStream := fun roomId => stableMerge (orderingAt rows) (table.byRoomStream roomId)
        (stableSort (orderingAt rows) (addedTo roomId))
      byRoomTime := fun roomId => stableMerge TimeEntry.key (table.byRoomTime roomId)
        (stableSort TimeEntry.key (timesAddedTo roomId))
      roomLatestTs := roomLatestTs
      relationChildren := fun key => table.relationChildren key ++
        addedWith rows firstAdded fun row => relationKeyFor parseLossless row = some key })

def eraseMarked (table : EventTable) (removed : List Bool) : ℕ × EventTable :=
  let rows := unmarked removed table.rows
  let byRoomStream (roomId : Str) := (table.byRoomStream roomId).filterMap (remap removed)
  let losesRow (roomId : Str) : Bool := (table.rows.zip removed).any fun row =>
    row.2 && row.1.roomId = roomId
  (table.rows.length - rows.length,
    { rows := rows
      byId := fun id => (table.byId id).bind (remap removed)
      streamOrder := table.streamOrder.filterMap (remap removed)
      byRoomStream := byRoomStream
      byRoomTime := fun roomId => (table.byRoomTime roomId).filterMap fun entry =>
        (remap removed entry.position).map fun position => { entry with position := position }
      roomLatestTs := fun roomId =>
        if losesRow roomId then recomputeLatestTs rows byRoomStream table.roomLatestTs roomId roomId
        else table.roomLatestTs roomId
      relationChildren := fun key => (table.relationChildren key).filterMap (remap removed) })

def eraseIf (table : EventTable) (predicate : PersistentEvent → Bool) : ℕ × EventTable :=
  if table.rows.any predicate then table.eraseMarked (table.rows.map predicate) else (0, table)

/-- The row that `EventTable::modify` leaves: the id and the stream ordering are put back. -/
def mutated (mutation : PersistentEvent → PersistentEvent) (row : PersistentEvent) :
    PersistentEvent :=
  { mutation row with eventId := row.eventId, streamOrdering := row.streamOrdering }

/-- `EventTable::modify` of the row at a position. -/
def modify (table : EventTable) (position : ℕ) (mutation : PersistentEvent → PersistentEvent) :
    EventTable :=
  match table.rows[position]? with
  -- not an iterator of this table
  | none => table
  | some row =>
    let target := mutated mutation row
    let rows := table.rows.set position target
    let moved : Bool := target.roomId ≠ row.roomId
    let byRoomStream :=
      if moved then
        indexStream rows
          (unindexStream rows table.byRoomStream row.roomId position row.streamOrdering)
          target position
      else table.byRoomStream
    { rows := rows
      byId := table.byId
      streamOrder := table.streamOrder
      byRoomStream := byRoomStream
      byRoomTime :=
        if moved ∨ timeEntryFor target position ≠ timeEntryFor row position then
          indexTime (unindexTime table.byRoomTime row.roomId (timeEntryFor row position)) target
            position
        else table.byRoomTime
      roomLatestTs :=
        if moved ∨ latestTsOf target ≠ latestTsOf row then
          recomputeLatestTs rows byRoomStream
            (recomputeLatestTs rows byRoomStream table.roomLatestTs row.roomId) target.roomId
        else table.roomLatestTs
      relationChildren :=
        if relationKeyFor parseLossless target ≠ relationKeyFor parseLossless row then
          indexRelation
            (unindexRelation table.relationChildren position (relationKeyFor parseLossless row))
            position (relationKeyFor parseLossless target)
        else table.relationChildren }

def extract (table : EventTable) : List PersistentEvent × EventTable := (table.rows, empty)

/-- The operations that change a table. -/
inductive Operation
  | insert (event : PersistentEvent)
  | insertAll (events : List PersistentEvent)
  | eraseIf (predicate : PersistentEvent → Bool)
  | modify (position : ℕ) (mutation : PersistentEvent → PersistentEvent)
  | extract
  | clear

/-- The table an operation leaves. -/
def apply (table : EventTable) : Operation → EventTable
  | .insert event => (table.insert parseLossless event).2
  | .insertAll events => (table.insertAll parseLossless events).2
  | .eraseIf predicate => (table.eraseIf predicate).2
  | .modify position mutation => table.modify parseLossless position mutation
  | .extract => table.extract.2
  | .clear => empty

end Operations

end EventTable

end Merovingian
