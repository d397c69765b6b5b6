import StateMachines.Scenario.Operation

/-!
# The environment of a scenario

What a scenario remembers between operations and hooks: the variables, the handles that were ever
answered, and how much of the hook budget is used up. The module also says what operations
answer, and what is noted on the way.
-/

namespace StateMachines.Scenario

/-- What can be read off an instance. A handle that refers to nothing has a name only. -/
structure Info where
  handle : Handle
  name : String
  id : Option String
  cls : Option Nat
  state : Option StateId
  parent : Option Handle
  children : List Handle
  level : Option Level
  label : Option Nat
  left : Option Duration
  payload : Option Payload
deriving DecidableEq, Inhabited

/-- Reads an instance. -/
def Info.read (e : Engine) (now : Time) (h : Handle) : Info :=
  { handle := h
    name := e.nameOf h
    id := e.id? h
    cls := (e.descriptor? h).map (·.key)
    state := e.state? h
    parent := e.parent? h
    children := e.children h
    level := e.level? h
    label := e.timerLabel? h
    left := e.timerRemaining? now h
    payload := e.payload? h }

/-- What an operation answers. -/
inductive Answer where
  | nothing
  | ok
  | flag (value : Bool)
  | number (value : Nat)
  | time (value : Time)
  | handle (value : Handle)
  | handles (values : List Handle)
  | numbers (values : List Nat)
  | level (value : Level)
  | payload (value : Payload)
  | settings (value : Config)
  | info (value : Info)
  | refused (why : Refusal)
  /-- A name refers to no handle. -/
  | noHandle (name : String)
  | sent (delivery : Delivery)
  /-- A client has no handle left to use. -/
  | gone
  /-- A loop has run. -/
  | served (now : Time)
  /-- A loop cannot run without a place in its queue. -/
  | noCapacity (now : Time)
deriving DecidableEq, Inhabited

/-- An operation of a client of the loop. -/
inductive ClientOperation where
  /-- Queues an event, and waits for a place if there is none. -/
  | send (target : String) (event : EventId)
  /-- Queues an event without waiting. -/
  | trySend (target : String) (event : EventId)
  | shutdown (mode : ShutdownMode)
  /-- Clones the handle on top of the stack. -/
  | clone
  /-- Drops the handle on top of the stack. -/
  | drop
  | sleep (duration : Duration)
deriving DecidableEq, Inhabited

/-- What is noted on the way. -/
inductive Note where
  /-- An inert class was called for an event. -/
  | inert (handle : Handle) (state : StateId) (event : EventId)
  /-- A scripted class was called, at a moment when the instance was in state `seen`. -/
  | hook (handle : Handle) (arguments : HookArguments) (data : Option Payload)
      (seen : Option StateId)
  /-- The hook budget is used up. -/
  | limit
  /-- An operation of a rule has returned. -/
  | returned (operation : Operation) (answer : Answer)
  /-- An operation of a client has returned. -/
  | client (operation : ClientOperation) (answer : Answer)
  /-- The client has ended. -/
  | clientEnd
  /-- The loop has ended. -/
  | loopEnd
deriving DecidableEq

/-- What a scenario remembers. -/
structure Environment where
  /-- The variables, the one bound last first. -/
  bindings : List (String × Handle) := []
  /-- The handles that were answered, in the order of their first appearance. -/
  known : List Handle := []
  /-- How often each rule has run, by the number of its class and its place there. -/
  uses : List ((Nat × Nat) × Nat) := []
  /-- How many hooks were called. -/
  hookCalls : Nat := 0
  /-- How many rules are running inside one another. -/
  depth : Nat := 0
  /-- Whether rules may use the inbox. -/
  handleInRules : Bool := false
deriving Inhabited

namespace Environment

/-- The handle a variable is bound to. -/
def lookup? (env : Environment) (name : String) : Option Handle := env.bindings.lookup name

/-- Remembers a handle that was answered, and binds a variable to it if one is given. -/
def bind (env : Environment) (binding : Option String) (h : Handle) : Environment :=
  { env with
    bindings := match binding with
      | some name => (name, h) :: env.bindings.filter (·.1 ≠ name)
      | none => env.bindings
    known := if h ∈ env.known then env.known else env.known ++ [h] }

/-- How often a rule has run. -/
def usesOf (env : Environment) (rule : Nat × Nat) : Nat := (env.uses.lookup rule).getD 0

/-- Counts one more run of a rule. -/
def countUse (env : Environment) (rule : Nat × Nat) : Environment :=
  { env with uses := (rule, env.usesOf rule + 1) :: env.uses.filter (·.1 ≠ rule) }

end Environment

end StateMachines.Scenario
