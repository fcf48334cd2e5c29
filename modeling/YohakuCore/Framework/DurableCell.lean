import Mathlib.Data.Option.Basic

/-!
# A value with a durable copy

An update puts its value in place of the durable copy and installs it in memory afterwards. A
process that starts loads the copy, or a default where there is none.
-/

namespace YohakuCore.Framework

structure DurableCell (α : Type*) where
  memory : α
  copy : Option α
  inFlight : Option α

namespace DurableCell

variable {α : Type*}

/-- What a process that starts now finds. -/
def load (c : DurableCell α) (fallback : α) : α := c.copy.getD fallback

def replace (c : DurableCell α) (next : α) : DurableCell α :=
  { c with copy := some next, inFlight := some next }

def install (c : DurableCell α) (next : α) : DurableCell α :=
  { c with memory := next, inFlight := none }

def restart (c : DurableCell α) (fallback : α) : DurableCell α :=
  { c with memory := c.load fallback, inFlight := none }

/-- What an operation on the cell may do. -/
inductive Moves (fallback : α) (c c' : DurableCell α) : Prop where
  | kept (same : c' = c)
  | replaced (next : α) (idle : c.inFlight = none) (result : c' = c.replace next)
  | installed (next : α) (busy : c.inFlight = some next) (result : c' = c.install next)
  | restarted (result : c' = c.restart fallback)

/-- The copy is the value in memory, or that of the update in flight. -/
structure Synced (fallback : α) (c : DurableCell α) : Prop where
  idle : c.inFlight = none → c.load fallback = c.memory
  busy : ∀ next, c.inFlight = some next → c.copy = some next

variable {fallback : α} {c c' : DurableCell α}

theorem Synced.load_of_busy (h : c.Synced fallback) {next : α} (hbusy : c.inFlight = some next) :
    c.load fallback = next := by
  rw [load, h.busy next hbusy, Option.getD_some]

theorem synced_replace (next : α) : (c.replace next).Synced fallback where
  idle h := by contradiction
  busy _ h := h

theorem Synced.install (h : c.Synced fallback) {next : α} (hbusy : c.inFlight = some next) :
    (c.install next).Synced fallback where
  idle _ := h.load_of_busy hbusy
  busy _ h := by contradiction

theorem synced_restart : (c.restart fallback).Synced fallback where
  idle _ := rfl
  busy _ h := by contradiction

theorem Synced.moves (h : c.Synced fallback) (hmove : Moves fallback c c') :
    c'.Synced fallback := by
  cases hmove with
  | kept hsame => exact hsame ▸ h
  | replaced next hidle hresult => exact hresult ▸ synced_replace next
  | installed next hbusy hresult => exact hresult ▸ h.install hbusy
  | restarted hresult => exact hresult ▸ synced_restart

end DurableCell

end YohakuCore.Framework
