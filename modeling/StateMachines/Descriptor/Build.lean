import StateMachines.Descriptor.Basic

/-!
# Building descriptors

A `Blueprint` collects what a descriptor is to hold; `Blueprint.build` checks it and makes the
descriptor. The checks come in a fixed order, so the first defect in that order is the one
reported: no states, too many states, an edge to a state outside the table, an event without a
name.
-/

namespace StateMachines

/-- What a descriptor is to hold, not yet checked. -/
structure Blueprint where
  name : String
  subsystem : String := "fsm"
  states : List StateRow := []
  allStates : Mask := .empty
  eventNames : Option (List String) := none
  timerCallback : Bool := false

/-- Why a blueprint makes no descriptor. Each cause begins with the name of the class. -/
inductive BuildError where
  | noStates (name : String)
  | tooManyStates (name : String) (count : Nat)
  | stateOutOfRange (name state : String) (target : StateId)
  | eventOutOfRange (name : String) (event : EventId)
deriving DecidableEq, Inhabited

/-- The wording of a build error. -/
def BuildError.message : BuildError → String
  | .noStates name => s!"FSM `{name}` declares no states"
  | .tooManyStates name count =>
    s!"FSM `{name}` declares {count} states, at most {Mask.width} fit a state mask"
  | .stateOutOfRange name state target =>
    s!"FSM `{name}`: state {state} may transition into unknown state {target}"
  | .eventOutOfRange name event =>
    s!"FSM `{name}`: event {event} has no name in the event table"

namespace Blueprint

/-- The greatest target of a row, if it lies outside the table. -/
def strayTarget? (b : Blueprint) (row : StateRow) : Option StateId :=
  row.out.highest.filter (b.states.length ≤ ·)

/-- The first row with a target outside the table, by its name, with its greatest target. -/
def strayEdge? (b : Blueprint) : Option (String × StateId) :=
  b.states.findSome? fun row => (b.strayTarget? row).map (row.name, ·)

/-- All events that some state accepts or that are handled in every state. -/
def usedEvents (b : Blueprint) : Mask :=
  b.states.foldl (fun used row => used.union row.events) b.allStates

/-- The greatest event in use, if events have names and it has none. -/
def unnamedEvent? (b : Blueprint) : Option EventId :=
  match b.eventNames with
  | some names => b.usedEvents.highest.filter (names.length ≤ ·)
  | none => none

/-- Without a stray edge every target is in the table. -/
theorem out_lt_of_strayEdge?_eq_none {b : Blueprint} (h : b.strayEdge? = none) :
    ∀ row ∈ b.states, ∀ target ∈ row.out.toList, target < b.states.length := by
  intro row hrow target htarget
  obtain ⟨top, htop, hle⟩ := Mask.le_highest (Mask.mem_toList.1 htarget)
  have hnone := List.findSome?_eq_none_iff.1 h row hrow
  simp only [strayTarget?, htop, Option.map_eq_none_iff, Option.filter_eq_none_iff,
    Option.some.injEq, decide_eq_true_eq, Nat.not_le] at hnone
  exact Nat.lt_of_le_of_lt hle (hnone top rfl)

/-- The descriptor a blueprint describes, identified by `key`, or the first defect. -/
def build (b : Blueprint) (key : Nat) : Except BuildError Descriptor :=
  if hne : b.states = [] then
    .error (.noStates b.name)
  else if Mask.width < b.states.length then
    .error (.tooManyStates b.name b.states.length)
  else
    match hedge : b.strayEdge? with
    | some (state, target) => .error (.stateOutOfRange b.name state target)
    | none =>
      match b.unnamedEvent? with
      | some event => .error (.eventOutOfRange b.name event)
      | none =>
        .ok {
          key, name := b.name, subsystem := b.subsystem, states := b.states
          allStates := b.allStates, eventNames := b.eventNames
          timerCallback := b.timerCallback
          states_ne_nil := hne
          out_lt := out_lt_of_strayEdge?_eq_none hedge }

/-- A descriptor has the states of its blueprint. -/
theorem states_of_build {b : Blueprint} {key : Nat} {d : Descriptor} (h : b.build key = .ok d) :
    d.states = b.states := by
  unfold build at h
  split at h
  next => cases h
  next =>
    split at h
    next => cases h
    next =>
      split at h
      next => cases h
      next =>
        split at h
        next => cases h
        next =>
          cases h
          rfl

end Blueprint

end StateMachines
