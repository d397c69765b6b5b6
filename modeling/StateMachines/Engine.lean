import StateMachines.Log
import StateMachines.Timers

/-!
# The engine

An `Engine` owns a catalogue of descriptors, the live instances with the trees they form, and
their timers. This module holds the engine as data: what can be read off it, and the changes that
involve no hook. The operations that call hooks are in `StateMachines.Execution.Step`.
-/

namespace StateMachines

/-- Settings of an engine. -/
structure Config where
  /-- Whether display names carry a number that no other instance of the engine has. -/
  logAddr : Bool := true
  /-- The level of instances that are allocated without one. -/
  defaultLevel : Level := .debug
deriving DecidableEq, Inhabited

/-- A catalogue of classes, and the instances made from them. -/
structure Engine where
  config : Config := {}
  /-- The registered descriptors, in the order of their registration. -/
  catalogue : List Descriptor := []
  store : Store := {}
  timers : TimerQueue := {}
  /-- The number that was last embedded in a display name. It never starts over: a counter of 64
  bits agrees with it for fewer than `2 ^ 64` numbered allocations, and what is proved of names is
  meant within this bound. -/
  lastAddr : Nat := 0
deriving Inhabited

namespace Engine

/-! ## Reading -/

/-- The instance a handle refers to. -/
def get? (e : Engine) (h : Handle) : Option Instance := e.store.get? h

/-- Whether a handle refers to an instance. -/
def isAlive (e : Engine) (h : Handle) : Bool := e.store.contains h

/-- The display name of an instance. -/
def nameOf (e : Engine) (h : Handle) : String :=
  match e.get? h with
  | some inst => inst.name
  | none => "NULL"

/-- The correlation identifier of an instance. -/
def id? (e : Engine) (h : Handle) : Option String := (e.get? h).bind (·.id)

/-- The class of an instance. -/
def descriptor? (e : Engine) (h : Handle) : Option Descriptor := (e.get? h).map (·.descriptor)

/-- The current state of an instance. -/
def state? (e : Engine) (h : Handle) : Option StateId := (e.get? h).map (·.state)

/-- The parent of an instance. -/
def parent? (e : Engine) (h : Handle) : Option Handle := (e.get? h).bind (·.parent)

/-- The children of an instance, in the order of their allocation. -/
def children (e : Engine) (h : Handle) : List Handle :=
  match e.get? h with
  | some inst => inst.children
  | none => []

/-- How verbose the records about an instance are. -/
def level? (e : Engine) (h : Handle) : Option Level := (e.get? h).map (·.level)

/-- The label of the timer of an instance that was armed last. -/
def timerLabel? (e : Engine) (h : Handle) : Option Nat := (e.get? h).map (·.timerLabel)

/-- The data attached to an instance. -/
def payload? (e : Engine) (h : Handle) : Option Payload := (e.get? h).bind (·.payload)

/-- The live instances of a class, oldest first. -/
def instancesOf (e : Engine) (d : Descriptor) : List Handle := e.store.instancesOf d.key

/-- The number of live instances. -/
def liveCount (e : Engine) : Nat := e.store.size

/-- The registered descriptor of a name, the one registered first if there are several. -/
def findDescriptor? (e : Engine) (name : String) : Option Descriptor :=
  e.catalogue.find? (·.name = name)

/-- The time until the timer of a handle expires. -/
def timerRemaining? (e : Engine) (now : Time) (h : Handle) : Option Duration :=
  e.timers.remaining? now h

/-- The time of the earliest pending deadline. -/
def nextDeadline? (e : Engine) : Option Time := e.timers.next?

/-! ## Changing -/

/-- Changes one instance. -/
def modify (e : Engine) (h : Handle) (f : Instance → Instance) : Engine :=
  { e with store := e.store.modify h f }

/-- Adds a descriptor to the catalogue. -/
def register (e : Engine) (d : Descriptor) : Engine :=
  { e with catalogue := e.catalogue ++ [d] }

/-- Takes a descriptor out of the catalogue. Its instances live on. -/
def unregister (e : Engine) (d : Descriptor) : Engine :=
  { e with catalogue := e.catalogue.filter (·.key ≠ d.key) }

/-- Sets whether the display names of later instances carry a number. -/
def setLogAddr (e : Engine) (value : Bool) : Engine :=
  { e with config.logAddr := value }

/-- Sets the level of an instance. -/
def setLevel (e : Engine) (h : Handle) (level : Level) : Engine :=
  e.modify h ({ · with level })

/-- Attaches data to an instance, or detaches it. -/
def setPayload (e : Engine) (h : Handle) (payload : Option Payload) : Engine :=
  e.modify h ({ · with payload })

/-- Releases an instance: its timer is cancelled and its handle refers to nothing from now on.
Links to it are left as they are. -/
def free (e : Engine) (h : Handle) : Engine :=
  { e with timers := e.timers.cancel h, store := e.store.remove h }

/-- Arms the timer of an instance, in place of one that is pending. -/
def arm (e : Engine) (now : Time) (h : Handle) (timeout : Duration) (label : Nat) : Engine :=
  let labelled := e.modify h ({ · with timerLabel := label })
  { labelled with timers := e.timers.schedule now h timeout }

/-- The number `n` in hexadecimal, with small letters. -/
def hexText (n : Nat) : String := String.ofList (Nat.toDigits 16 n)

/-- The display name of an instance: the name of its class, its correlation identifier in
parentheses if it has one, and its number in brackets if it carries one. -/
def displayName (d : Descriptor) (id : Option String) (addr : Option Nat) : String :=
  let named := match id with
    | some id => d.name ++ "(" ++ id ++ ")"
    | none => d.name
  match addr with
  | some addr => named ++ "[0x" ++ hexText addr ++ "]"
  | none => named

/-- Draws the number for the next display name, if names carry one. -/
def drawAddr (e : Engine) : Option Nat × Engine :=
  if e.config.logAddr then (some (e.lastAddr + 1), { e with lastAddr := e.lastAddr + 1 })
  else (none, e)

/-- Allocates an instance in its initial state. -/
def alloc (e : Engine) (d : Descriptor) (payload : Option Payload) (level : Option Level)
    (id : Option String) : Except Fault (Handle × Instance × Engine) :=
  let (addr, e) := e.drawAddr
  let inst : Instance :=
    { descriptor := d, id, name := displayName d id addr
      level := level.getD e.config.defaultLevel, payload }
  match e.store.insert inst with
  | .ok (handle, store) => .ok (handle, inst, { e with store })
  | .error fault => .error fault

/-- Makes one instance the last child of another. -/
def link (e : Engine) (child parent : Handle) (event : EventId) : Engine :=
  let linked := e.modify child ({ · with parent := some parent, parentEvent := event })
  linked.modify parent fun inst => { inst with children := inst.children ++ [child] }

/-- Takes an instance out of the children of another. -/
def unlink (e : Engine) (child parent : Handle) : Engine :=
  e.modify parent fun inst => { inst with children := inst.children.filter (· ≠ child) }

end Engine

end StateMachines
