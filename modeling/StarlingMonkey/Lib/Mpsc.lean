import Mathlib.Algebra.Order.Ring.Int
import Mathlib.Data.List.Infix
import Mathlib.Logic.Function.Iterate
import Mathlib.Tactic.Common

/-!
# A bounded channel with one sender

Items are sent into a queue and received from it. The queue holds one item more than the capacity of
the channel, as its only sender has a slot of its own. Either side can be dropped: a receiver takes
the queue with it, and a receiver whose sender is gone drains the queue before it sees the end.

`Mpsc.Kept` is what every operation keeps: what was received is, in order, a beginning of what was
sent, and all of it once the end is seen. The end comes for a receiver that goes on
(`ended_iterate_recv`).
-/

/-- A channel of `α`s. -/
structure Mpsc (α : Type) where
  /-- The capacity. -/
  buffer : ℕ
  /-- What is in the channel. -/
  queue : List α
  /-- The sender is there. -/
  sender : Bool
  /-- The receiver is there. -/
  receiver : Bool
  /-- The receiver has seen the end. -/
  ended : Bool
  /-- Everything that was sent. -/
  sent : List α
  /-- Everything that was received. -/
  received : List α
deriving DecidableEq, Repr

namespace Mpsc

variable {α : Type} {c : Mpsc α} {a : α}

/-- A new channel. -/
def new (buffer : ℕ) : Mpsc α := ⟨buffer, [], true, true, false, [], []⟩

/-- Whether there is room for one more item. -/
def ready (c : Mpsc α) : Bool := c.queue.length ≤ c.buffer

/-- Send an item; a receiver that is gone does not take it. -/
def send (c : Mpsc α) (a : α) : Mpsc α :=
  if c.receiver then { c with queue := c.queue ++ [a], sent := c.sent ++ [a] } else c

/-- The sender goes away. -/
def dropSender (c : Mpsc α) : Mpsc α := { c with sender := false }

/-- The receiver goes away. -/
def dropReceiver (c : Mpsc α) : Mpsc α := { c with receiver := false, queue := [] }

/-- Receive an item, or the end. Nothing happens while the receiver has to wait. -/
def recv (c : Mpsc α) : Mpsc α :=
  if !c.receiver then c
  else
    match c.queue with
    | a :: queue => { c with queue := queue, received := c.received ++ [a] }
    | [] => if c.sender then c else { c with ended := true }

/-! ### What the operations change -/

@[simp] theorem send_sender : (c.send a).sender = c.sender := by
  rw [send]; split_ifs <;> rfl

@[simp] theorem send_receiver : (c.send a).receiver = c.receiver := by
  rw [send]; split_ifs <;> rfl

@[simp] theorem send_ended : (c.send a).ended = c.ended := by
  rw [send]; split_ifs <;> rfl

@[simp] theorem send_received : (c.send a).received = c.received := by
  rw [send]; split_ifs <;> rfl

theorem sent_send (h : c.receiver = true) : (c.send a).sent = c.sent ++ [a] := by
  rw [send, if_pos h]

/-- What receiving does. -/
theorem recv_cases (c : Mpsc α) :
    c.recv = c ∨
    (∃ a queue, c.receiver = true ∧ c.queue = a :: queue ∧
      c.recv = { c with queue := queue, received := c.received ++ [a] }) ∨
    (c.receiver = true ∧ c.queue = [] ∧ c.sender = false ∧ c.recv = { c with ended := true }) := by
  obtain ⟨buffer, queue, sender, receiver, ended, sent, received⟩ := c
  cases receiver with
  | false => exact .inl rfl
  | true =>
    cases queue with
    | cons a queue => exact .inr (.inl ⟨a, queue, rfl, rfl, rfl⟩)
    | nil =>
      cases sender with
      | true => exact .inl rfl
      | false => exact .inr (.inr ⟨rfl, rfl, rfl, rfl⟩)

@[simp] theorem recv_sender : c.recv.sender = c.sender := by
  obtain h | ⟨a, queue, -, -, h⟩ | ⟨-, -, -, h⟩ := c.recv_cases <;> rw [h]

@[simp] theorem recv_receiver : c.recv.receiver = c.receiver := by
  obtain h | ⟨a, queue, -, -, h⟩ | ⟨-, -, -, h⟩ := c.recv_cases <;> rw [h]

@[simp] theorem recv_sent : c.recv.sent = c.sent := by
  obtain h | ⟨a, queue, -, -, h⟩ | ⟨-, -, -, h⟩ := c.recv_cases <;> rw [h]

/-- The end is seen once the sender is gone. -/
theorem ended_recv (h : c.recv.ended = true) :
    c.ended = true ∨ (c.receiver = true ∧ c.sender = false) := by
  obtain heq | ⟨a, queue, -, -, heq⟩ | ⟨hreceiver, -, hsender, -⟩ := c.recv_cases
  · exact .inl (heq ▸ h)
  · rw [heq] at h
    exact .inl h
  · exact .inr ⟨hreceiver, hsender⟩

/-- A receiver that goes on drains the channel once the sender is gone. -/
theorem ended_iterate_recv (hreceiver : c.receiver = true) (hsender : c.sender = false) :
    (recv^[c.queue.length + 1] c).ended = true := by
  obtain ⟨buffer, queue, sender, receiver, ended, sent, received⟩ := c
  obtain rfl : receiver = true := hreceiver
  obtain rfl : sender = false := hsender
  induction queue generalizing received with
  | nil => rfl
  | cons a queue ih => exact ih (received ++ [a])

/-! ### What is kept -/

/-- What was sent is received in order, and none of it is lost while the receiver is there. -/
structure Kept (c : Mpsc α) : Prop where
  conserved : c.receiver = true → c.received ++ c.queue = c.sent
  begins : c.received <+: c.sent
  bounded : c.queue.length ≤ c.buffer + 1
  complete : c.ended = true → c.sender = false ∧ c.received = c.sent

theorem kept_new (buffer : ℕ) : (new buffer : Mpsc α).Kept := by
  constructor <;> simp [new]

theorem Kept.send (h : c.Kept) (hsender : c.sender = true) (hready : c.ready = true) (a : α) :
    (c.send a).Kept := by
  rw [Mpsc.send]
  split_ifs with hreceiver
  · refine ⟨fun _ => ?_, h.begins.trans (List.prefix_append ..), ?_, fun hended => ?_⟩
    · show c.received ++ (c.queue ++ [a]) = c.sent ++ [a]
      rw [← List.append_assoc, h.conserved hreceiver]
    · simpa [ready] using hready
    · have hgone := (h.complete hended).1
      rw [hsender] at hgone
      cases hgone
  · exact h

theorem Kept.dropSender (h : c.Kept) : c.dropSender.Kept :=
  ⟨h.conserved, h.begins, h.bounded, fun hended => ⟨rfl, (h.complete hended).2⟩⟩

theorem Kept.dropReceiver (h : c.Kept) : c.dropReceiver.Kept where
  conserved hreceiver := by cases hreceiver
  begins := h.begins
  bounded := Nat.zero_le _
  complete := h.complete

theorem Kept.recv (h : c.Kept) : c.recv.Kept := by
  obtain heq | ⟨a, queue, hreceiver, hqueue, heq⟩ | ⟨hreceiver, hqueue, hsender, heq⟩ :=
    c.recv_cases
  · rwa [heq]
  · have hconserved := h.conserved hreceiver
    have hbounded := h.bounded
    rw [hqueue] at hconserved hbounded
    have happend : (c.received ++ [a]) ++ queue = c.sent := by
      rw [List.append_assoc]
      exact hconserved
    rw [heq]
    refine ⟨fun _ => happend, ⟨queue, happend⟩, Nat.le_of_succ_le hbounded, fun hended => ?_⟩
    have hall := (h.complete hended).2
    rw [← hall] at hconserved
    exact absurd hconserved (by simp)
  · have hconserved := h.conserved hreceiver
    rw [hqueue, List.append_nil] at hconserved
    rw [heq]
    exact ⟨h.conserved, h.begins, h.bounded, fun _ => ⟨hsender, hconserved⟩⟩

end Mpsc
