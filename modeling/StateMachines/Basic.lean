/-!
# Vocabulary

The small types every other module speaks of: identifiers of states and events, points in time,
verbosity levels, causes of a termination, the data that travels with an event, and the handles
by which instances are referred to.
-/

namespace StateMachines

/-- The position of a state in the state table of its class. The initial state is `0`. -/
abbrev StateId := Nat

/-- The number of an event within its class. -/
abbrev EventId := Nat

/-- A length of time in nanoseconds. -/
abbrev Duration := Nat

/-- A point in time, in nanoseconds since the clock was started. -/
abbrev Time := Nat

namespace Duration

/-- A whole number of seconds. -/
def ofSeconds (n : Nat) : Duration := n * 1000000000

/-- A whole number of milliseconds. -/
def ofMilliseconds (n : Nat) : Duration := n * 1000000

end Duration

/-- How verbose a log record is, the most urgent first. -/
inductive Level where
  | error
  | warn
  | info
  | debug
  | trace
deriving DecidableEq, Inhabited

/-- Why an instance is terminated. -/
inductive Cause where
  /-- The parent is terminating and takes its children along. -/
  | parent
  /-- Somebody outside the instance asked for it. -/
  | request
  /-- The procedure ended as it should. -/
  | regular
  /-- The procedure failed. -/
  | failure
deriving DecidableEq, Inhabited

/-- The name of a cause in log records. -/
def Cause.toText : Cause → String
  | .parent => "PARENT"
  | .request => "REQUEST"
  | .regular => "REGULAR"
  | .failure => "ERROR"

/-- Data handed over with an event or attached to an instance. -/
inductive Payload where
  | number (n : UInt32)
  | text (s : String)
deriving DecidableEq, Inhabited

/-- A reference to an instance: a slot of the store, and the generation of the slot's occupant.
It refers to nothing once that occupant has been released, even if the slot is used again. -/
structure Handle where
  /-- The slot. -/
  index : Nat
  /-- How often the slot had been vacated when the handle was issued, modulo `2 ^ 32`. -/
  generation : UInt32
deriving DecidableEq, Inhabited

/-- The written form of a handle. -/
def Handle.toText (h : Handle) : String :=
  "#" ++ toString h.index ++ "." ++ toString h.generation.toNat

end StateMachines
