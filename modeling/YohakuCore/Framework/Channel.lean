import Mathlib.Data.List.Basic

/-! # Channels -/

namespace YohakuCore.Framework

structure Channel (α : Type*) where
  queue : List α := []
  deriving DecidableEq

namespace Channel

variable {α : Type*}

def send (channel : Channel α) (a : α) : Channel α := ⟨channel.queue ++ [a]⟩

def receive : Channel α → Option (α × Channel α)
  | ⟨[]⟩ => none
  | ⟨a :: rest⟩ => some (a, ⟨rest⟩)

@[simp] theorem send_queue (channel : Channel α) (a : α) :
    (channel.send a).queue = channel.queue ++ [a] := rfl

theorem receive_eq_some {channel channel' : Channel α} {a : α} :
    channel.receive = some (a, channel') ↔ channel.queue = a :: channel'.queue := by
  obtain ⟨queue⟩ := channel
  obtain ⟨queue'⟩ := channel'
  cases queue with
  | nil => simp [receive]
  | cons b rest => simp [receive]

theorem receive_eq_none {channel : Channel α} : channel.receive = none ↔ channel.queue = [] := by
  obtain ⟨queue⟩ := channel
  cases queue with
  | nil => simp [receive]
  | cons b rest => simp [receive]

/-- What was sent is what was received, and then what is still in the channel. -/
def Accounts (channel : Channel α) (sent received : List α) : Prop :=
  sent = received ++ channel.queue

variable {channel channel' : Channel α} {sent received : List α}

theorem Accounts.send (h : channel.Accounts sent received) (a : α) :
    (channel.send a).Accounts (sent ++ [a]) received := by
  unfold Accounts at h ⊢
  simp [h]

theorem Accounts.receive {a : α} (h : channel.Accounts sent received)
    (hreceive : channel.receive = some (a, channel')) :
    channel'.Accounts sent (received ++ [a]) := by
  unfold Accounts at h ⊢
  simp [h, receive_eq_some.mp hreceive]

theorem Accounts.of_receive_eq_none (h : channel.Accounts sent received)
    (hreceive : channel.receive = none) : sent = received := by
  unfold Accounts at h
  simpa [receive_eq_none.mp hreceive] using h

/-- The account goes on in a new channel once the old one is empty. -/
theorem Accounts.renew (h : channel.Accounts sent received) (hreceive : channel.receive = none) :
    Channel.Accounts {} sent received := by
  unfold Accounts
  simp [h.of_receive_eq_none hreceive]

end Channel

end YohakuCore.Framework
