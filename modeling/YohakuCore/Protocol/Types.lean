import YohakuCore.Companion.Errors
import YohakuCore.Framework.Json

/-!
# Response envelopes

A decoded envelope is kept as the part that drives a decision. Unknown keys are ignored at every
level.
-/

namespace YohakuCore

open Framework

/-- A wire integer: `0..=2^53-1`, and no float. -/
def readWireU64 (value : Json) : Option UInt64 :=
  value.readU64.filter (· ≤ maximumSafeWireInteger)

/-- A required key whose value may be `null`. -/
def readNullableWireU64 (value : Json) : Option (Option UInt64) :=
  value.readOption readWireU64

def readPresenceSchemaLiteral (value : Json) : Option String :=
  value.readString.filter (· = presenceSchema)

def readSchemaVersionLiteral (value : Json) : Option UInt32 :=
  value.readU32.filter (·.toNat = presenceSchemaVersion)

variable (calendar : Calendar)

structure ResponseMeta where
  schema : String
  schemaVersion : UInt32
  requestId : String
  serverTime : String
  deriving DecidableEq

namespace ResponseMeta

def fromValue (value : Json) : Option ResponseMeta := do
  guard (value.hasShape 4)
  let schema ← value.field readPresenceSchemaLiteral 0 "schema"
  let schemaVersion ← value.field readSchemaVersionLiteral 1 "schemaVersion"
  let requestId ← value.field Json.readString 2 "requestId"
  let serverTime ← value.field Json.readString 3 "serverTime"
  return { schema, schemaVersion, requestId, serverTime }

/-- `refine_response_meta`: a wire identifier and a canonical wire date. -/
def isRefined (responseMeta : ResponseMeta) : Bool :=
  isValidWireIdentifier responseMeta.requestId &&
    (decodeWireDate calendar responseMeta.serverTime).isOk

end ResponseMeta

namespace ErrorDetail

/-- `message`, `retryAfterMs` and `fields` must be there and are not kept. -/
def fromValue (value : Json) : Option ErrorDetail := do
  guard (value.hasShape 6)
  let code ← value.field Json.readString 0 "code"
  let _message ← value.field Json.readString 1 "message"
  let retryable ← value.field Json.readBool 2 "retryable"
  let _retryAfterMs ← value.field readNullableWireU64 3 "retryAfterMs"
  let acceptedSequence ← value.field readNullableWireU64 4 "acceptedSequence"
  let _fields ← value.field (Json.readList Json.readString) 5 "fields"
  return { code, retryable, acceptedSequence }

end ErrorDetail

def decodeErrorEnvelope (value : Json) : Option ErrorDetail := do
  guard (value.hasShape 2)
  let responseMeta ← value.field ResponseMeta.fromValue 0 "meta"
  let error ← value.field ErrorDetail.fromValue 1 "error"
  guard (responseMeta.isRefined calendar)
  return error

/-- The simplified pairing envelope, down to its code. -/
def decodePairingErrorEnvelope (value : Json) : Option String := do
  guard (value.hasShape 1)
  value.field
    (fun error => do
      guard (error.hasShape 1)
      error.field Json.readString 0 "code") 0 "error"

/-- `data.state` of a mutation response; its projection may be anything. -/
structure PublicLiveDeskState where
  schemaVersion : UInt32
  epoch : String
  revision : UInt64
  projection : Option Json

namespace PublicLiveDeskState

def fromValue (value : Json) : Option PublicLiveDeskState := do
  guard (value.hasShape 4)
  let schemaVersion ← value.field readSchemaVersionLiteral 0 "schemaVersion"
  let epoch ← value.field Json.readString 1 "epoch"
  let revision ← value.field readWireU64 2 "revision"
  let projection ← value.field (Json.readOption some) 3 "projection"
  return { schemaVersion, epoch, revision, projection }

end PublicLiveDeskState

structure MutationData where
  acceptedSequence : UInt64
  receivedAt : String
  state : PublicLiveDeskState

namespace MutationData

def fromValue (value : Json) : Option MutationData := do
  guard (value.hasShape 3)
  let acceptedSequence ← value.field readWireU64 0 "acceptedSequence"
  let receivedAt ← value.field Json.readString 1 "receivedAt"
  let state ← value.field PublicLiveDeskState.fromValue 2 "state"
  return { acceptedSequence, receivedAt, state }

end MutationData

def decodeMutationResponse (value : Json) : Option MutationResponse := do
  guard (value.hasShape 2)
  let responseMeta ← value.field ResponseMeta.fromValue 0 "meta"
  let data ← value.field MutationData.fromValue 1 "data"
  guard (responseMeta.isRefined calendar)
  guard (decodeWireDate calendar data.receivedAt).isOk
  guard (isValidWireIdentifier data.state.epoch)
  return { acceptedSequence := data.acceptedSequence }

end YohakuCore
