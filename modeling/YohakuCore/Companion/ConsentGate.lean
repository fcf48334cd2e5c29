import YohakuCore.Model

/-! # Consent gate -/

namespace YohakuCore

structure Confirmation where
  policyFingerprint : String
  projection : PreviewProjection
  deriving DecidableEq

structure ConsentGate where
  currentFingerprint : String
  confirmation : Option Confirmation
  deriving DecidableEq

namespace ConsentGate

def new (initialFingerprint : String) : ConsentGate where
  currentFingerprint := initialFingerprint
  confirmation := none

def fingerprint (gate : ConsentGate) : String := gate.currentFingerprint

/-- An effective policy change drops the confirmation; the same fingerprint keeps it. -/
def policyDidChange (gate : ConsentGate) (fingerprint : String) : ConsentGate :=
  if fingerprint = gate.currentFingerprint then gate
  else { currentFingerprint := fingerprint, confirmation := none }

/-- The confirmation that a record leaves, under the current fingerprint. -/
def recorded (gate : ConsentGate) (projection : PreviewProjection) : Confirmation where
  policyFingerprint := gate.currentFingerprint
  projection := projection

def record (gate : ConsentGate) (projection : PreviewProjection) : ConsentGate :=
  { gate with confirmation := some (gate.recorded projection) }

def clear (gate : ConsentGate) : ConsentGate := { gate with confirmation := none }

/-- The candidate is the recorded confirmation, under the current policy, and still matches. -/
def validates (gate : ConsentGate) (candidate : Confirmation)
    (currentProjection : PreviewProjection) : Bool :=
  match gate.confirmation with
  | none => false
  | some confirmation =>
      candidate = confirmation && candidate.policyFingerprint = gate.currentFingerprint &&
        candidate.projection = currentProjection

theorem validates_iff {gate : ConsentGate} {candidate : Confirmation}
    {currentProjection : PreviewProjection} :
    gate.validates candidate currentProjection = true ↔
      gate.confirmation = some candidate ∧
        candidate.policyFingerprint = gate.currentFingerprint ∧
        candidate.projection = currentProjection := by
  rw [validates]
  cases gate.confirmation with
  | none =>
      refine iff_of_false Bool.false_ne_true ?_
      rintro ⟨h, -⟩
      contradiction
  | some confirmation =>
      rw [Bool.and_eq_true, Bool.and_eq_true, decide_eq_true_iff, decide_eq_true_iff,
        decide_eq_true_iff, and_assoc, Option.some.injEq, eq_comm]

end ConsentGate

/-- What consent binds: no session, no position and no times. -/
def projectionOf (snapshot : SanitizedPresenceSnapshot) : PreviewProjection where
  application := snapshot.application.map (fun application =>
    { displayName := application.displayName, windowTitle := application.windowTitle })
  media := snapshot.media.map (fun media => {
    kind := media.kind
    title := media.title
    artist := media.artist
    album := media.album
    playerDisplayName := media.playerDisplayName
    playback := {
      state := media.playback.state
      durationSeconds := media.playback.durationSeconds
      rate := media.playback.rate } })

end YohakuCore
