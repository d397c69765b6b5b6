import StateMachines.Execution.Script

/-!
# Operations and rules of a scenario

A scenario exercises an engine by a list of operations. Instances are referred to by names: a
variable that an earlier operation bound, or, inside a rule, the instance the rule runs for, its
parent, or one of its children.

A class of a scenario is given by rules. When a hook of the class is called, the first rule that
matches the hook and is not used up runs its operations.
-/

namespace StateMachines.Scenario

/-- The data an operation hands over. -/
inductive Datum where
  /-- Fixed data, or none. -/
  | given (payload : Option Payload)
  /-- A copy of what the hook was called with. -/
  | received
deriving DecidableEq, Inhabited

/-- An operation on the engine as a whole. Classes are given by their number. -/
inductive EngineOperation where
  | register (cls : Nat)
  | unregister (cls : Nat)
  | find (name : String)
  | descriptors
  | alloc (cls : Nat) (data : Datum) (level : Option Level) (id : Option String)
      (binding : Option String)
  | instancesOf (cls : Nat)
  | live
  | setLogAddr (value : Bool)
  | config
  | fire
  | nextDeadline
  | shutdown (mode : ShutdownMode)
deriving DecidableEq, Inhabited

/-- An operation on one instance. -/
inductive InstanceOperation where
  | allocChild (cls : Nat) (event : EventId) (binding : Option String)
  | bind (binding : Option String)
  | free
  | dispatch (event : EventId) (data : Datum)
  | changeState (state : StateId) (timeout : Duration) (label : Nat)
  | terminate (cause : Cause) (data : Datum)
  | setLevel (level : Level)
  | setPayload (data : Datum)
  | addPayload (value : UInt32)
  | appendPayload (value : String)
  | takePayload
  | alive
  | info
  | trySend (event : EventId)
deriving DecidableEq, Inhabited

/-- An operation of a scenario. -/
inductive Operation where
  | onEngine (operation : EngineOperation)
  /-- An operation on the instance called `target`. -/
  | onInstance (target : String) (operation : InstanceOperation)
deriving DecidableEq, Inhabited

/-- The kinds of hooks. -/
inductive HookKind where
  | action
  | enter
  | leave
  | allStates
  | timer
  | cleanup
deriving DecidableEq, Inhabited

/-- What a hook is called with, as far as rules can tell it apart. -/
structure HookArguments where
  kind : HookKind
  state : Option StateId := none
  event : Option EventId := none
  /-- The state that is left or entered besides `state`. -/
  other : Option StateId := none
  cause : Option Cause := none
  label : Option Nat := none
deriving DecidableEq, Inhabited

/-- The arguments of a hook. The label of the instance's timer counts as an argument of the hook
for timers. -/
def HookArguments.ofHook (label : Option Nat) : Hook → HookArguments
  | .action state event _ => { kind := .action, state := some state, event := some event }
  | .allStates event _ => { kind := .allStates, event := some event }
  | .leave state next => { kind := .leave, state := some state, other := some next }
  | .enter state previous => { kind := .enter, state := some state, other := some previous }
  | .timer => { kind := .timer, label }
  | .cleanup cause => { kind := .cleanup, cause := some cause }

/-- The data a hook is called with. -/
def hookPayload : Hook → Option Payload
  | .action _ _ data => data
  | .allStates _ data => data
  | _ => none

/-- When a rule runs and what it does. A filter that is absent matches everything. -/
structure Rule where
  /-- The kind of hook the rule is for. -/
  kind : HookKind
  state : Option StateId := none
  event : Option EventId := none
  other : Option StateId := none
  cause : Option Cause := none
  label : Option Nat := none
  /-- The correlation identifier of the instance. -/
  id : Option String := none
  /-- A variable that must refer to the instance. -/
  who : Option String := none
  /-- How often the rule can run. -/
  times : Option Nat := none
  operations : List Operation := []
deriving Inhabited

/-- What the hooks of a class do. -/
inductive Behaviour where
  /-- Nothing; only accepted events are noted. -/
  | inert
  /-- What the rules say. -/
  | scripted (rules : List Rule)
deriving Inhabited

/-- The classes of a scenario. The key of each descriptor is its number. -/
structure Cast where
  classes : Array (Descriptor × Behaviour)

namespace Cast

/-- The descriptor of a class. -/
def descriptor? (cast : Cast) (cls : Nat) : Option Descriptor := cast.classes[cls]?.map (·.1)

/-- The behaviour of the class a descriptor belongs to. -/
def behaviour (cast : Cast) (d : Descriptor) : Behaviour :=
  match cast.classes[d.key]? with
  | some entry => entry.2
  | none => .inert

end Cast

end StateMachines.Scenario
