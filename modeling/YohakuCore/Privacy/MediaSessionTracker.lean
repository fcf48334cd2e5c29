import YohakuCore.Model

/-! # Media session identity -/

namespace YohakuCore

/-- Built from sanitized values; position, sample time, state and rate are not part of it. -/
structure MediaSemanticIdentity where
  kind : MediaKind
  title : Option String
  artist : Option String
  album : Option String
  playerDisplayName : Option String
  durationSeconds : Option ℚ≥0
  deriving DecidableEq

structure MediaSessionTracker where
  current : Option (MediaSemanticIdentity × String)
  deriving DecidableEq

namespace MediaSessionTracker

def new : MediaSessionTracker := ⟨none⟩

/-- The remembered id for the remembered identity; any other identity is remembered with the
fresh id. -/
def sessionId (tracker : MediaSessionTracker) (identity : MediaSemanticIdentity)
    (freshId : String) : String × MediaSessionTracker :=
  match tracker.current with
  | some (current, sessionId) =>
      if current = identity then (sessionId, tracker)
      else (freshId, ⟨some (identity, freshId)⟩)
  | none => (freshId, ⟨some (identity, freshId)⟩)

def reset (_ : MediaSessionTracker) : MediaSessionTracker := ⟨none⟩

theorem sessionId_current (tracker : MediaSessionTracker) (identity : MediaSemanticIdentity)
    (freshId : String) : (tracker.sessionId identity freshId).2.current =
      some (identity, (tracker.sessionId identity freshId).1) := by
  unfold sessionId
  split
  · rename_i current id hcurrent
    split
    · rename_i heq
      rw [hcurrent, heq]
    · rfl
  · rfl

end MediaSessionTracker

end YohakuCore
