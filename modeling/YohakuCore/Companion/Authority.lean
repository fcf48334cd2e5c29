import YohakuCore.Model

/-!
# The ordered writer of a pairing

The records hold what never changes of the shared objects and an identity; their slots live with the
writer that runs the mutations.
-/

namespace YohakuCore

/-- One `CompanionSequencer` object: a device, its pairing floor, and the identity of its slot. -/
structure CompanionSequencer where
  id : Nat
  deviceId : String
  pairingNextSequence : UInt64
  deriving DecidableEq

/-- One `PresenceClient` object, with the base URL its HTTP client was built from. -/
structure PresenceClient where
  id : Nat
  baseUrl : String
  credential : CompanionCredential
  sequencer : CompanionSequencer
  configuration : NegotiatedPresenceConfiguration
  deriving DecidableEq

structure PublishAuthority where
  sequencer : CompanionSequencer
  client : Option PresenceClient
  deriving DecidableEq

/-- At most one authority, under the key of its pairing. -/
structure AuthorityRegistry where
  current : Option (String × PublishAuthority)
  deriving DecidableEq

namespace AuthorityRegistry

def new : AuthorityRegistry := ⟨none⟩

def key (baseUrl deviceId : String) : String := baseUrl ++ "|" ++ deviceId

/-- The current authority when its key matches, else the factory's product. -/
def resolve (registry : AuthorityRegistry) (baseUrl deviceId : String)
    (factory : PublishAuthority) : PublishAuthority :=
  match registry.current with
  | some (currentKey, authority) =>
      if currentKey = key baseUrl deviceId then authority else factory
  | none => factory

/-- The registry after a resolve whose client slot the caller overwrites. -/
def install (baseUrl deviceId : String) (authority : PublishAuthority)
    (client : PresenceClient) : AuthorityRegistry :=
  ⟨some (key baseUrl deviceId, { authority with client := some client })⟩

def discard (_ : AuthorityRegistry) : AuthorityRegistry := ⟨none⟩

end AuthorityRegistry

end YohakuCore
