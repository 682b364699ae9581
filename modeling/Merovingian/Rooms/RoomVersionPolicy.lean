import Merovingian.Lib.Bytes

/-!
# Room version policies

The table of `rooms/RoomVersionPolicy.cpp`: what each room version asks of redaction,
authorization, state resolution and event ids.  Each policy is written as the fields in
which it differs from the defaults of `RoomVersionPolicy.hpp`, as the source has them.
-/

namespace Merovingian

inductive RedactionRules where
  | roomV1V7
  | roomV8V10
  | roomV11Plus
deriving DecidableEq, Repr

inductive AuthRules where
  | roomV1
  | roomV6Plus
  | roomV12
deriving DecidableEq, Repr

inductive StateResolutionAlgorithm where
  | v2
  | v2_1
deriving DecidableEq, Repr

structure RoomVersionPolicy where
  id : Str := []
  redactionRules : RedactionRules := .roomV11Plus
  authRules : AuthRules := .roomV6Plus
  stateResolution : StateResolutionAlgorithm := .v2
  createEventIsRoomId : Bool := false
  privilegeRoomCreators : Bool := false
  powerLevelsRequireIntegers : Bool := false
  powerLevelsAcceptFloats : Bool := false
  knockJoinRule : Bool := false
  restrictedJoinRule : Bool := false
  knockRestrictedJoinRule : Bool := false
  redactionKeepsAliases : Bool := false
  redactionKeepsJoinAuthorisation : Bool := false
  eventIdUrlSafeBase64 : Bool := true
deriving DecidableEq, Repr

def knownRoomVersions : List RoomVersionPolicy :=
  [{ id := "3", redactionRules := .roomV1V7, authRules := .roomV1,
     powerLevelsAcceptFloats := true, redactionKeepsAliases := true,
     eventIdUrlSafeBase64 := false },
   { id := "4", redactionRules := .roomV1V7, authRules := .roomV1,
     powerLevelsAcceptFloats := true, redactionKeepsAliases := true },
   { id := "5", redactionRules := .roomV1V7, authRules := .roomV1,
     powerLevelsAcceptFloats := true, redactionKeepsAliases := true },
   { id := "6", redactionRules := .roomV1V7 },
   { id := "7", redactionRules := .roomV1V7, knockJoinRule := true },
   { id := "8", redactionRules := .roomV8V10, knockJoinRule := true,
     restrictedJoinRule := true },
   { id := "9", redactionRules := .roomV8V10, knockJoinRule := true,
     restrictedJoinRule := true, redactionKeepsJoinAuthorisation := true },
   { id := "10", redactionRules := .roomV8V10, powerLevelsRequireIntegers := true,
     knockJoinRule := true, restrictedJoinRule := true, knockRestrictedJoinRule := true,
     redactionKeepsJoinAuthorisation := true },
   { id := "11", redactionRules := .roomV11Plus, powerLevelsRequireIntegers := true,
     knockJoinRule := true, restrictedJoinRule := true, knockRestrictedJoinRule := true,
     redactionKeepsJoinAuthorisation := true },
   { id := "12", redactionRules := .roomV11Plus, authRules := .roomV12,
     stateResolution := .v2_1, createEventIsRoomId := true, privilegeRoomCreators := true,
     powerLevelsRequireIntegers := true, knockJoinRule := true, restrictedJoinRule := true,
     knockRestrictedJoinRule := true, redactionKeepsJoinAuthorisation := true }]

def findRoomVersionPolicy (id : Str) : Option RoomVersionPolicy :=
  knownRoomVersions.find? fun policy => policy.id = id

lemma redactionKeepsJoinAuthorisation_of_known {policy : RoomVersionPolicy}
    (h : policy ∈ knownRoomVersions) (hrules : policy.redactionRules = .roomV11Plus) :
    policy.redactionKeepsJoinAuthorisation = true := by
  have hall : ∀ p ∈ knownRoomVersions, p.redactionRules = .roomV11Plus →
      p.redactionKeepsJoinAuthorisation = true := by decide
  exact hall policy h hrules

end Merovingian
