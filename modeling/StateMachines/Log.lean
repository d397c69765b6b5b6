import StateMachines.Store

/-!
# Log records

A `Record` is one entry of the log, kept as what happened. From it come the level, the fields and
the text under which it is published. Records about an instance have the level of the instance
and are tagged with its subsystem and display name; failures have fixed levels.
-/

namespace StateMachines

/-- What is noted about an instance at the level of the instance. -/
inductive Remark where
  | allocated
  | childOf (parent : String)
  | received (event : String)
  | stateChanged (state : String)
  | timeout (label : Nat)
  | terminating (cause : Cause)
  | alreadyTerminating (cause : Cause)
  | released
deriving DecidableEq, Inhabited

/-- The text of a remark. -/
def Remark.message : Remark → String
  | .allocated => "Allocated"
  | .childOf parent => s!"is child of {parent}"
  | .received event => s!"Received Event {event}"
  | .stateChanged state => s!"state_chg to {state}"
  | .timeout label => s!"Timeout of T{label}"
  | .terminating cause => "Terminating (cause = " ++ cause.toText ++ ")"
  | .alreadyTerminating cause => "Already terminating (cause = " ++ cause.toText ++ ")"
  | .released => "Release"

/-- One entry of the log. -/
inductive Record where
  /-- A remark about the instance called `name`. -/
  | remark (level : Level) (subsystem name : String) (what : Remark)
  /-- An event or a change of state was refused. -/
  | refused (subsystem : String) (why : Refusal)
  /-- A timer was armed for a class that does not react to timers. -/
  | noTimerCallback (subsystem name : String) (label : Nat)
  /-- A child of class `child` was asked for under a handle that refers to nothing. -/
  | parentMissing (subsystem child : String) (parent : Handle)
  /-- A child of class `child` was asked for under a terminating parent. -/
  | parentEnding (subsystem parent child : String)
  /-- An event was sent to a handle that refers to nothing. -/
  | targetMissing (target : Handle) (event : EventId)
  /-- The call stack, published after an event that was sent to nothing. -/
  | backtrace
  /-- The termination of a handle that refers to nothing was asked for. -/
  | endMissing (target : Handle) (cause : Cause)
  /-- The loop ended without looking at what was queued. -/
  | loopStopped
  /-- The loop ended after it had emptied the queue. -/
  | loopDrained
deriving DecidableEq, Inhabited

namespace Record

/-- A remark about an instance as it is now. -/
def about (inst : Instance) (what : Remark) : Record :=
  .remark inst.level inst.descriptor.subsystem inst.name what

/-- The level a record is published at. -/
def level : Record → Level
  | .remark level .. => level
  | .endMissing .. => .warn
  | .loopStopped | .loopDrained => .debug
  | _ => .error

/-- The fields a record is tagged with. -/
def fields : Record → List (String × String)
  | .remark _ subsystem name _ => [("subsys", subsystem), ("fsm", name)]
  | .refused subsystem _ => [("subsys", subsystem)]
  | .noTimerCallback subsystem name _ => [("subsys", subsystem), ("fsm", name)]
  | .parentMissing subsystem _ parent => [("subsys", subsystem), ("parent", parent.toText)]
  | .parentEnding subsystem parent _ => [("subsys", subsystem), ("fsm", parent)]
  | .targetMissing target _ => [("fi", target.toText)]
  | .endMissing target cause => [("fi", target.toText), ("cause", cause.toText)]
  | .backtrace | .loopStopped | .loopDrained => []

/-- The text of a record. -/
def message : Record → String
  | .remark _ _ _ what => what.message
  | .refused _ why => why.message
  | .noTimerCallback _ _ label =>
    s!"cannot start timer T{label} for FSM without timer call-back"
  | .parentMissing _ child _ => s!"Cannot allocate {child} child of non-existing FSM instance"
  | .parentEnding _ _ child => s!"Cannot allocate {child} child while terminating"
  | .targetMissing _ event => s!"Trying to dispatch event {event} to non-existing FSM instance"
  | .backtrace => "<backtrace>"
  | .endMissing .. => "Ignoring termination of non-existing FSM instance"
  | .loopStopped => "engine loop stopped immediately"
  | .loopDrained => "engine loop drained and stopped"

end Record

end StateMachines
