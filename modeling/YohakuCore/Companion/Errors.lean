import YohakuCore.Protocol.Sequencer
import YohakuCore.Protocol.Wire

/-!
# Errors of a presence mutation

Only the variants and the fields that drive a decision are kept.
-/

namespace YohakuCore

structure ErrorDetail where
  code : String
  retryable : Bool
  acceptedSequence : Option UInt64
  deriving DecidableEq

inductive CompanionTransportError where
  | network
  | emptyResponse (status : Nat)
  | decode
  | requestIdMismatch
  | payloadTooLarge (actual limit : Nat)
  | credentialDeviceMismatch
  | server (status : Nat) (error : ErrorDetail)
  | httpStatus (status : Nat)
  | pairingServer (status : Nat) (code : String)
  deriving DecidableEq

def mutationRenegotiateCodes : List String :=
  ["COMPANION_SCHEMA_UNSUPPORTED", "COMPANION_FEATURE_UNAVAILABLE"]

def isServerStatus (status : Nat) : Bool := 500 ≤ status && status ≤ 599

def isSafeForImmediateIdempotentRetry : CompanionTransportError → Bool
  | .payloadTooLarge _ _ => false
  | .credentialDeviceMismatch => false
  | .server status error => isServerStatus status && error.retryable
  | .httpStatus status => isServerStatus status
  | .emptyResponse _ | .decode | .requestIdMismatch => true
  | .network => true
  | .pairingServer _ _ => false

/-- The authority must be discarded and the capabilities negotiated again. -/
def needsRenegotiation : CompanionTransportError → Bool
  | .server _ error => mutationRenegotiateCodes.contains error.code
  | .httpStatus status => status == 426
  | _ => false

def acceptedSequenceOf : CompanionTransportError → Option UInt64
  | .server _ error => error.acceptedSequence
  | _ => none

inductive PresenceClientError where
  | wire (error : WireError)
  | sequencer (error : SequencerError)
  | transport (error : CompanionTransportError)
  deriving DecidableEq

def PresenceClientError.needsRenegotiation : PresenceClientError → Bool
  | .transport error => YohakuCore.needsRenegotiation error
  | _ => false

/-- The part of a success body that the client acts on. -/
structure MutationResponse where
  acceptedSequence : UInt64
  deriving DecidableEq

end YohakuCore
