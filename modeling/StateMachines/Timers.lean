import StateMachines.Basic

/-!
# Timer queue

A timer queue holds at most one pending deadline for each handle. It answers two questions
quickly, and keeps one structure for each: which handle expires next (`agenda`, ascending), and
what the deadline of a handle is (`armed`). The two are inverse to each other.

Every arming draws a serial number, so deadlines that fall together expire in the order in which
they were armed. No delay reaches further ahead than `TimerQueue.farthest`.
-/

namespace StateMachines

/-- A pending expiry: its time, and the serial number of its arming. -/
structure Deadline where
  time : Time
  serial : Nat
deriving DecidableEq, Inhabited

namespace Deadline

/-- Earlier times come first; at equal times the earlier arming does. -/
def before (a b : Deadline) : Bool :=
  decide (a.time < b.time) || (decide (a.time = b.time) && decide (a.serial < b.serial))

end Deadline

/-- The pending deadlines, at most one for each handle. -/
structure TimerQueue where
  /-- The deadlines in the order of their expiry. -/
  agenda : List (Deadline × Handle) := []
  /-- The deadline of each armed handle. -/
  armed : List (Handle × Deadline) := []
  /-- The serial number of the next arming. It never starts over: a counter of 64 bits agrees with
  it for fewer than `2 ^ 64` armings, and what is proved of equal deadlines is meant within this
  bound. -/
  serial : Nat := 0
deriving Inhabited

namespace TimerQueue

/-- No deadline lies further ahead than thirty years of 365 days. -/
def farthest : Duration := .ofSeconds (86400 * 365 * 30)

/-- The pending deadline of a handle. -/
def deadline? (q : TimerQueue) (h : Handle) : Option Deadline := q.armed.lookup h

/-- Whether a handle has a pending deadline. -/
def isArmed (q : TimerQueue) (h : Handle) : Bool := (q.deadline? h).isSome

/-- The time a handle has left, `0` once its deadline has passed. -/
def remaining? (q : TimerQueue) (now : Time) (h : Handle) : Option Duration :=
  (q.deadline? h).map (·.time - now)

/-- The time of the earliest pending deadline. -/
def next? (q : TimerQueue) : Option Time := q.agenda.head?.map (·.1.time)

/-- The number of armed handles. -/
def size (q : TimerQueue) : Nat := q.armed.length

/-- Whether no handle is armed. -/
def isEmpty (q : TimerQueue) : Bool := q.armed.isEmpty

/-- The armed handles without `h`. -/
def disarm (armed : List (Handle × Deadline)) (h : Handle) : List (Handle × Deadline) :=
  armed.filter (·.1 ≠ h)

/-- Removes the pending deadline of a handle, if there is one. -/
def cancel (q : TimerQueue) (h : Handle) : TimerQueue :=
  match q.deadline? h with
  | some deadline =>
    { q with agenda := q.agenda.filter (·.1 ≠ deadline), armed := disarm q.armed h }
  | none => q

/-- Puts an entry into an ascending agenda, behind everything that comes before it. -/
def insertSorted (entry : Deadline × Handle) :
    List (Deadline × Handle) → List (Deadline × Handle)
  | [] => [entry]
  | other :: rest =>
    if entry.1.before other.1 then entry :: other :: rest else other :: insertSorted entry rest

/-- Arms a handle to expire after `delay`, in place of any deadline it had. -/
def schedule (q : TimerQueue) (now : Time) (h : Handle) (delay : Duration) : TimerQueue :=
  let cleared := q.cancel h
  let deadline : Deadline := ⟨now + min delay farthest, q.serial⟩
  { agenda := insertSorted (deadline, h) cleared.agenda
    armed := (h, deadline) :: cleared.armed
    serial := q.serial + 1 }

/-- Removes the earliest deadline and answers its handle, provided that it is due. -/
def popExpired (q : TimerQueue) (now : Time) : Option (Handle × TimerQueue) :=
  match q.agenda with
  | (deadline, h) :: rest =>
    if deadline.time ≤ now then some (h, { q with agenda := rest, armed := disarm q.armed h })
    else none
  | [] => none

end TimerQueue

end StateMachines
