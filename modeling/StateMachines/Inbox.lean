import StateMachines.Basic

/-!
# The inbox of a running engine

An inbox is a bounded queue of requests with any number of senders and one receiver, the loop,
and beside it a signal by which a sender asks the loop to stop.

A sender that finds the queue full may wait. A place that becomes free while somebody waits is
set aside for the one who waited and is not free to others. Once the loop has ended the inbox is
closed: what was queued is gone, nothing is accepted and nobody who waits is served.
-/

namespace StateMachines

/-- How the loop is asked to stop. -/
inductive ShutdownMode where
  /-- Everything queued is delivered first. -/
  | graceful
  /-- What is queued is dropped. -/
  | immediate
deriving DecidableEq, Inhabited

/-- A queued request: an event for an instance. -/
structure Request where
  target : Handle
  event : EventId
deriving DecidableEq, Inhabited

/-- What becomes of a request that somebody sends. -/
inductive Delivery where
  | accepted
  | full
  | closed
deriving DecidableEq, Inhabited

/-- The queue between the senders and the loop. -/
structure Inbox where
  /-- The number of places. -/
  capacity : Nat
  /-- The accepted requests, oldest first. -/
  queue : List Request := []
  /-- The senders that wait for a place. -/
  waiting : Nat := 0
  /-- The places set aside for senders that waited. -/
  reserved : Nat := 0
  /-- The senders that still exist. -/
  senders : Nat := 1
  /-- The last stop signal, as long as the loop has not seen it. -/
  signal : Option ShutdownMode := none
  /-- Whether the loop has ended. -/
  closed : Bool := false
deriving DecidableEq, Inhabited

namespace Inbox

/-- An inbox that nobody reads or writes. -/
def shut : Inbox := { capacity := 0, senders := 0, closed := true }

/-- The number of places that are free to anybody. -/
def room (b : Inbox) : Nat := b.capacity - (b.queue.length + b.reserved)

/-- Appends a request. -/
def push (b : Inbox) (r : Request) : Inbox := { b with queue := b.queue ++ [r] }

/-- Sends a request without waiting. -/
def trySend (b : Inbox) (r : Request) : Delivery × Inbox :=
  if b.closed then (.closed, b)
  else if b.room = 0 then (.full, b)
  else (.accepted, b.push r)

/-- Begins to send a request. A sender that finds no place waits from now on. -/
def beginSend (b : Inbox) (r : Request) : Delivery × Inbox :=
  match b.trySend r with
  | (.full, b) => (.full, { b with waiting := b.waiting + 1 })
  | outcome => outcome

/-- Looks again for a sender that waits; `full` means that it goes on waiting. -/
def finishSend (b : Inbox) (r : Request) : Delivery × Inbox :=
  if b.closed then (.closed, b)
  else if b.reserved = 0 then (.full, b)
  else (.accepted, { b with reserved := b.reserved - 1 }.push r)

/-- Takes the oldest request. The place it frees goes to a sender that waits, if there is one. -/
def receive? (b : Inbox) : Option (Request × Inbox) :=
  match b.queue with
  | r :: queue =>
    some (r,
      if b.waiting = 0 then { b with queue }
      else { b with queue, waiting := b.waiting - 1, reserved := b.reserved + 1 })
  | [] => none

/-- Signals the loop to stop. A later signal replaces one that was not seen. -/
def shutdown (b : Inbox) (mode : ShutdownMode) : Inbox :=
  if b.closed then b else { b with signal := some mode }

/-- Marks the signal as seen. -/
def seen (b : Inbox) : Inbox := { b with signal := none }

/-- One more sender. -/
def addSender (b : Inbox) : Inbox := { b with senders := b.senders + 1 }

/-- Some senders less. -/
def dropSenders (b : Inbox) (count : Nat) : Inbox := { b with senders := b.senders - count }

/-- Ends the reading side. -/
def close (b : Inbox) : Inbox := { b with queue := [], closed := true }

end Inbox

end StateMachines
