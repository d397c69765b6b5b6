import StateMachines.Basic

/-!
# Refusals and faults

A `Refusal` is an answer: the engine was asked for something that it does not do, and changed
nothing. It names instances and states by their display names, so that it can be read on its own.

A `Fault` is a broken assumption of the engine itself. No sequence of operations on a fresh
engine raises one.
-/

namespace StateMachines

/-- Why the engine refused what it was asked for. -/
inductive Refusal where
  /-- The handle refers to no instance. -/
  | invalidInstance (handle : Handle)
  /-- The event is neither handled in every state nor accepted by the current one. -/
  | eventNotPermitted (name state event : String)
  /-- The table has no edge from the current state to the target. -/
  | transitionNotPermitted (name state target : String)
  /-- A terminating instance gets no more children. -/
  | parentTerminating (name : String)
deriving DecidableEq, Inhabited

/-- The wording of a refusal. -/
def Refusal.message : Refusal → String
  | .invalidInstance handle => "FSM instance " ++ handle.toText ++ " does not exist"
  | .eventNotPermitted name state event => s!"{name}({state}): Event {event} not permitted"
  | .transitionNotPermitted name state target =>
    s!"{name}({state}): transition to state {target} not permitted"
  | .parentTerminating name => s!"{name} is terminating, refusing to allocate a child"

/-- A broken assumption of the engine. -/
inductive Fault where
  /-- An instance is in a state that its table lacks. -/
  | stateOutsideTable (name : String) (state : StateId) (count : Nat)
  /-- There is no number for another slot. -/
  | slotsExhausted
  /-- A slot that is listed as vacant does not exist. -/
  | missingSlot (index count : Nat)
deriving DecidableEq, Inhabited

/-- The wording of a fault. -/
def Fault.message : Fault → String
  | .stateOutsideTable name state count =>
    s!"{name}: state {state} outside of a {count}-state table"
  | .slotsExhausted => "instance arena exhausted"
  | .missingSlot index count =>
    s!"index out of bounds: the len is {count} but the index is {index}"

end StateMachines
