import StateMachines.Derive.Code

/-!
# Sample enums

Five enums whose tables serve as ready-made classes: the events and states of a call, two states
without a connection, and the events and states of a location update.
-/

namespace StateMachines.Derive

/-- The events of a call. -/
def callEvent : EventEnum :=
  { ident := "CallEvent"
    variants := some [
      { ident := "Setup", name := some "MNCC_SETUP_REQ" },
      { ident := "Alerting" },
      { ident := "Connect" },
      { ident := "Release", name := some "MNCC_REL_IND" }] }

/-- The states of a call. -/
def callState : StateEnum :=
  { ident := "CallState"
    events := some (.ofName "CallEvent")
    variants := some [
      { ident := "Null"
        out := [.ofName "Proceeding", .ofName "Released"]
        events := [.ofName "Setup"] },
      { ident := "Proceeding"
        out := [.ofName "Active", .ofName "Released"]
        events := [.ofName "Alerting", .ofName "Connect", .ofName "Release"] },
      { ident := "Active"
        name := some "ACTIVE"
        out := [.ofName "Released"]
        events := [.ofName "Release"] },
      { ident := "Released" }] }

/-- Two states without a connection. -/
def islands : StateEnum :=
  { ident := "Islands"
    allowUnreachable := true
    variants := some [{ ident := "Start" }, { ident := "Elsewhere" }] }

/-- The events of a location update. -/
def locationUpdateEvent : EventEnum :=
  { ident := "LuEvent"
    variants := some [
      { ident := "Start", name := some "LU_START" },
      { ident := "Ack", name := some "LU_ACK" }] }

/-- The states of a location update. -/
def locationUpdateState : StateEnum :=
  { ident := "LuState"
    events := some (.ofName "LuEvent")
    variants := some [
      { ident := "Idle", name := some "IDLE", out := [.ofName "Wait"] },
      { ident := "Wait"
        name := some "WAIT"
        out := [.ofName "Idle", .ofName "Done"]
        events := [.ofName "Ack"] },
      { ident := "Done", name := some "DONE" }] }

/-- What is made of an event enum of the samples. -/
structure EventSample where
  conversions : Conversions
  names : List String
deriving Inhabited

/-- What is made of a state enum of the samples. -/
structure StateSample where
  conversions : Conversions
  rows : List StateRow
deriving Inhabited

/-- The event enums among the samples. -/
def eventEnums : List EventEnum := [callEvent, locationUpdateEvent]

/-- The state enums among the samples. -/
def stateEnums : List StateEnum := [callState, islands, locationUpdateState]

/-- What is made of the event enum of a name. -/
def eventSample? (ident : String) : Option EventSample := do
  let declared ← eventEnums.find? (·.ident = ident)
  let table ← (deriveEvents declared).toOption
  return { conversions := table.code.conversions, names := table.code.names }

/-- What is made of the state enum of a name. -/
def stateSample? (ident : String) : Option StateSample := do
  let declared ← stateEnums.find? (·.ident = ident)
  let table ← (deriveStates declared).toOption
  let events := match table.events.bind (eventSample? ·.toText) with
    | some sample => sample.conversions
    | none => .ofVariants "" []
  let rows ← table.code.table? events
  return { conversions := table.code.conversions, rows }

end StateMachines.Derive
