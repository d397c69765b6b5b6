import StateMachines.Timers

/-!
# A timer queue with a clock

A timer queue together with the clock it is read against, and the commands on the two as data.
-/

namespace StateMachines

/-- A timer queue and the present time. -/
structure ClockedTimers where
  queue : TimerQueue := {}
  now : Time := 0
deriving Inhabited

/-- A command on a timer queue and its clock. -/
inductive TimerCommand where
  | schedule (h : Handle) (delay : Duration)
  | cancel (h : Handle)
  | isArmed (h : Handle)
  | remaining (h : Handle)
  | next
  /-- Takes the earliest deadline that is due now. -/
  | pop
  /-- Takes the earliest deadline that is due at the given time. -/
  | popAt (time : Time)
  | advance (duration : Duration)
  | size
  /-- What each of the listed handles has left. -/
  | remainingAll (handles : List Handle)
deriving DecidableEq, Inhabited

/-- What a command answers. -/
inductive TimerAnswer where
  | scheduled
  | flag (value : Bool)
  | left (value : Option Duration)
  | time (value : Option Time)
  | popped (value : Option Handle)
  | size (count : Nat) (empty : Bool)
  | leftAll (values : List (Option Duration))
deriving DecidableEq, Inhabited

namespace ClockedTimers

/-- Takes the earliest deadline that is due at the given time. -/
def pop (t : ClockedTimers) (time : Time) : TimerAnswer × ClockedTimers :=
  match t.queue.popExpired time with
  | some (h, queue) => (.popped (some h), { t with queue })
  | none => (.popped none, t)

/-- Carries out a command. -/
def perform (t : ClockedTimers) : TimerCommand → TimerAnswer × ClockedTimers
  | .schedule h delay => (.scheduled, { t with queue := t.queue.schedule t.now h delay })
  | .cancel h => (.flag (t.queue.isArmed h), { t with queue := t.queue.cancel h })
  | .isArmed h => (.flag (t.queue.isArmed h), t)
  | .remaining h => (.left (t.queue.remaining? t.now h), t)
  | .next => (.time t.queue.next?, t)
  | .pop => t.pop t.now
  | .popAt time => t.pop time
  | .advance duration => (.time (some (t.now + duration)), { t with now := t.now + duration })
  | .size => (.size t.queue.size t.queue.isEmpty, t)
  | .remainingAll handles => (.leftAll (handles.map (t.queue.remaining? t.now)), t)

/-- Carries out commands one after the other and collects the answers. -/
def run (t : ClockedTimers) : List TimerCommand → List TimerAnswer × ClockedTimers
  | [] => ([], t)
  | command :: rest =>
    let (answer, t) := t.perform command
    let (answers, t) := t.run rest
    (answer :: answers, t)

end ClockedTimers

end StateMachines
