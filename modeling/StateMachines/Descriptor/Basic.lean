import StateMachines.Basic
import StateMachines.Mask

/-!
# Descriptors

A descriptor is the immutable description that all instances of one class share: a table of
states, each with the events it accepts and the states it may lead to, the events that are
handled in every state, and names for display.

A descriptor is always closed: it has an initial state, and every state that its table mentions
is in the table. `Blueprint.build` is how descriptors come to be.
-/

namespace StateMachines

/-- One row of a state table. The position of the row is the identifier of the state. -/
structure StateRow where
  /-- The display name of the state. -/
  name : String
  /-- The events accepted in the state. -/
  events : Mask := .empty
  /-- The states the state may lead to. -/
  out : Mask := .empty
deriving DecidableEq, Inhabited

/-- The description shared by all instances of a class. -/
structure Descriptor where
  /-- Tells descriptors apart, also those of one name. -/
  key : Nat
  /-- The name of the class. -/
  name : String
  /-- The logging subsystem that records about the class are tagged with. -/
  subsystem : String
  /-- The state table. -/
  states : List StateRow
  /-- The events handled in every state. -/
  allStates : Mask
  /-- The display names of the events, if the class names them. -/
  eventNames : Option (List String)
  /-- Whether the class reacts to the expiry of timers. -/
  timerCallback : Bool
  /-- There is an initial state. -/
  states_ne_nil : states ≠ []
  /-- Every state that is mentioned as a target is in the table. -/
  out_lt : ∀ row ∈ states, ∀ target ∈ row.out.toList, target < states.length

namespace Descriptor

/-- The row of a state, or `none` outside the table. -/
def row? (d : Descriptor) (state : StateId) : Option StateRow := d.states[state]?

/-- The display name of an event: its entry among the names, else its number. -/
def eventName (d : Descriptor) (event : EventId) : String :=
  match d.eventNames.bind (·[event]?) with
  | some name => name
  | none => toString event

/-- The display name of a state, also for a number outside the table. -/
def stateName (d : Descriptor) (state : StateId) : String :=
  match d.row? state with
  | some row => row.name
  | none => "unknown " ++ toString state

/-- Whether the table has an edge from one state to another. -/
def permits (d : Descriptor) (source target : StateId) : Bool :=
  match d.row? source with
  | some row => row.out.contains target
  | none => false

/-- Whether a state accepts an event of its own. -/
def accepts (d : Descriptor) (state : StateId) (event : EventId) : Bool :=
  match d.row? state with
  | some row => row.events.contains event
  | none => false

/-- The initial state is in the table. -/
theorem initial_lt (d : Descriptor) : 0 < d.states.length :=
  List.length_pos_iff.2 d.states_ne_nil

/-- Edges lead to states of the table. -/
theorem lt_of_permits {d : Descriptor} {source target : StateId}
    (h : d.permits source target = true) : target < d.states.length := by
  unfold permits row? at h
  split at h
  next row hrow =>
    exact d.out_lt row (List.mem_of_getElem? hrow) target (Mask.mem_toList.2 h)
  next => cases h

end Descriptor

end StateMachines
