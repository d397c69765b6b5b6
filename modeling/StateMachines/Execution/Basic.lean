import StateMachines.Execution.Script

/-!
# Executions

An `Execution` is a call in progress: the world as it is at this moment, what is to be done next,
and a stack of frames that tell how each unfinished operation goes on. Every moment of a run,
those inside hooks included, is one value of this type.
-/

namespace StateMachines

/-- One entry of the journal. -/
inductive Entry (ν : Type) where
  /-- A log record was published. -/
  | record (r : Record)
  /-- A hook of the instance was called. -/
  | hook (handle : Handle) (hook : Hook)
  /-- A script left a note. -/
  | note (note : ν)
deriving DecidableEq

/-- Everything a run changes. -/
structure World (σ ν : Type) extends Context σ where
  /-- The inbox of the loop. -/
  inbox : Inbox := .shut
  /-- What has happened, the latest first. -/
  journal : List (Entry ν) := []

namespace World

variable {σ ν : Type}

/-- Adds an entry to the journal. -/
def enter (w : World σ ν) (entry : Entry ν) : World σ ν :=
  { w with journal := entry :: w.journal }

/-- Publishes a log record. -/
def log (w : World σ ν) (r : Record) : World σ ν := w.enter (.record r)

end World

/-- The end of an instance, from the moment its termination has begun. -/
structure Ending where
  target : Handle
  descriptor : Descriptor
  cause : Cause
  /-- What the parent is told along with the end. -/
  data : Option Payload
  /-- The parent at the beginning of the termination. -/
  parent : Option Handle
  /-- The event that tells the parent. -/
  parentEvent : EventId

/-- How an unfinished operation goes on once what it waits for has answered. -/
inductive Frame (σ ν : Type) where
  /-- A script goes on with the reply to its call. -/
  | resume (next : Reply → Context σ → Script σ ν)
  /-- The operation answers `reply`, whatever the answer it waited for is. -/
  | answer (reply : Reply)
  /-- The instance has been told that it leaves its state. -/
  | leaving (target : Handle) (descriptor : Descriptor) (source state : StateId)
      (timeout : Duration) (label : Nat)
  /-- The instance has been told that it entered its state. -/
  | entering (target : Handle) (descriptor : Descriptor) (timeout : Duration) (label : Nat)
  /-- The listed children are still to be ended. -/
  | cascade (ending : Ending) (children : List Handle)
  /-- The instance has been told of its end. -/
  | cleaning (ending : Ending)
  /-- The timers due at `now` are run; `count` hooks were called. -/
  | firing (now : Time) (count : Nat)

/-- What an execution does next. -/
inductive Control (σ ν : Type) where
  /-- Begins an operation. -/
  | perform (call : Call)
  /-- Calls a hook of an instance. -/
  | hook (descriptor : Descriptor) (target : Handle) (hook : Hook)
  /-- Goes on with a script. -/
  | run (script : Script σ ν)
  /-- Hands an answer to the topmost frame. -/
  | give (reply : Reply)

/-- A call in progress. -/
structure Execution (σ ν : Type) where
  world : World σ ν
  control : Control σ ν
  /-- The unfinished operations, the innermost first. -/
  stack : List (Frame σ ν)

/-- What one step of an execution leads to. -/
inductive Progress (σ ν : Type) where
  /-- There is more to do. -/
  | running (x : Execution σ ν)
  /-- The call has returned. -/
  | finished (world : World σ ν) (reply : Reply)
  /-- An assumption of the engine was broken. -/
  | faulted (fault : Fault)

/-- The execution that is about to begin a call. -/
def Execution.ofCall {σ ν : Type} (world : World σ ν) (call : Call) : Execution σ ν :=
  { world, control := .perform call, stack := [] }

end StateMachines
