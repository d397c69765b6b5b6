import StateMachines.Engine
import StateMachines.Inbox

/-!
# Calls, hooks and their scripts

The engine is driven by calls, and it calls back: a delivered event, a change of state, an
expired timer and the end of an instance each run a hook of the instance's class. A hook is a
program over the same calls, so an operation may be entered again while another is in progress.

Such a program is a `Script`: it ends, leaves a note, or makes a call and goes on with the reply.
A script reads what it likes off the engine between its calls, and it keeps what it must remember
from one hook to the next in an environment of type `σ`. Its notes are of type `ν`.
-/

namespace StateMachines

/-- What can be asked of an engine. -/
inductive Call where
  /-- Adds a descriptor to the catalogue. -/
  | register (descriptor : Descriptor)
  /-- Takes a descriptor out of the catalogue. -/
  | unregister (descriptor : Descriptor)
  /-- Allocates an instance. -/
  | alloc (descriptor : Descriptor) (payload : Option Payload) (level : Option Level)
      (id : Option String)
  /-- Allocates an instance as the last child of `parent`. Its end is told by `event`. -/
  | allocChild (descriptor : Descriptor) (parent : Handle) (event : EventId)
  /-- Releases an instance without further ado. -/
  | free (target : Handle)
  /-- Delivers an event. -/
  | dispatch (target : Handle) (event : EventId) (data : Option Payload)
  /-- Moves an instance to another state, and arms its timer unless `timeout` is zero. -/
  | changeState (target : Handle) (state : StateId) (timeout : Duration) (label : Nat)
  /-- Ends an instance together with all its descendants. -/
  | terminate (target : Handle) (cause : Cause) (data : Option Payload)
  /-- Runs the timer hook of every instance whose deadline has come. -/
  | fireExpired
  /-- Sets whether the display names of later instances carry a number. -/
  | setLogAddr (value : Bool)
  /-- Sets the level of an instance. -/
  | setLevel (target : Handle) (level : Level)
  /-- Attaches data to an instance. -/
  | setPayload (target : Handle) (payload : Payload)
  /-- Detaches the data of an instance. -/
  | takePayload (target : Handle)
  /-- Queues an event for the loop. -/
  | trySend (request : Request)
  /-- Signals the loop to stop. -/
  | shutdown (mode : ShutdownMode)

/-- What a call answers. -/
inductive Reply where
  | done
  | allocated (handle : Handle)
  | refused (why : Refusal)
  | count (n : Nat)
  | detached (payload : Option Payload)
  | sent (delivery : Delivery)
deriving DecidableEq, Inhabited

/-- What a class is called for, with the arguments of the call. -/
inductive Hook where
  /-- An event that the current state accepts. -/
  | action (state : StateId) (event : EventId) (data : Option Payload)
  /-- An event that is handled in every state. -/
  | allStates (event : EventId) (data : Option Payload)
  /-- The instance is about to leave `state` for `next`. -/
  | leave (state next : StateId)
  /-- The instance has entered `state` from `previous`. -/
  | enter (state previous : StateId)
  /-- The timer of the instance has expired. -/
  | timer
  /-- The instance is about to be released. -/
  | cleanup (cause : Cause)
deriving DecidableEq, Inhabited

/-- What a script can read: the engine, the clock and its environment. -/
structure Context (σ : Type) where
  engine : Engine
  now : Time
  env : σ

/-- A program over the calls of an engine. -/
inductive Script (σ ν : Type) where
  /-- The program ends and leaves the environment behind. -/
  | done (env : σ)
  /-- The program leaves a note. -/
  | note (note : ν) (rest : Script σ ν)
  /-- The program leaves the environment behind, makes a call, and goes on with the reply and
  with what can be read afterwards. -/
  | call (call : Call) (env : σ) (next : Reply → Context σ → Script σ ν)

/-- The hooks of all classes. -/
structure Host (σ ν : Type) where
  /-- What an instance of the class does when it is called. -/
  script : Descriptor → Handle → Hook → Context σ → Script σ ν

end StateMachines
