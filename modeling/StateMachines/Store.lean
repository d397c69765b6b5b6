import StateMachines.Descriptor.Basic
import StateMachines.Failure

/-!
# Instances and their store

The store keeps the live instances in numbered slots and hands out a `Handle` for each. A slot
that is vacated is used again, the one vacated last first, and counts its occupants by a
generation number, so that a handle to a former occupant resolves to nothing. The generation has
32 bits: after `2 ^ 32` releases of one slot its numbers start over.

## Main definitions

* `Instance`: one state machine, with its links to parent and children.
* `Store.get?`: what a handle refers to.
* `Store.insert`, `Store.remove`, `Store.modify`: the operations.
* `Store.instancesOf`: the live instances of a class, oldest first.
-/

namespace StateMachines

/-- One state machine. -/
structure Instance where
  /-- The class of the instance. -/
  descriptor : Descriptor
  /-- The current state. -/
  state : StateId := 0
  /-- The correlation identifier given by whoever allocated the instance. -/
  id : Option String := none
  /-- The display name. -/
  name : String
  /-- How verbose the records about the instance are. -/
  level : Level
  /-- Data attached to the instance. -/
  payload : Option Payload := none
  /-- The label of the timer armed last. -/
  timerLabel : Nat := 0
  /-- The instance this one is a child of. -/
  parent : Option Handle := none
  /-- The event that tells the parent of this instance's end. -/
  parentEvent : EventId := 0
  /-- The children, in the order of their allocation. -/
  children : List Handle := []
  /-- Whether the termination of the instance has begun. -/
  terminating : Bool := false

/-- A place for an instance. -/
structure Slot where
  /-- How often the slot has been vacated, modulo `2 ^ 32`. -/
  generation : UInt32 := 0
  /-- The instance in the slot. -/
  occupant : Option Instance := none
deriving Inhabited

/-- The live instances. -/
structure Store where
  slots : Array Slot := #[]
  /-- The empty slots, the one vacated last first. -/
  vacant : List Nat := []
  /-- The live handles with the keys of their descriptors, oldest first. -/
  roster : List (Nat × Handle) := []
deriving Inhabited

namespace Store

/-- The greatest number of slots: their numbers have 32 bits. -/
def maxSlots : Nat := UInt32.size

/-- The slot of a handle, if its present generation is the one of the handle. -/
def slot? (s : Store) (h : Handle) : Option Slot :=
  s.slots[h.index]?.filter (·.generation = h.generation)

/-- The instance a handle refers to. -/
def get? (s : Store) (h : Handle) : Option Instance := (s.slot? h).bind (·.occupant)

/-- Whether a handle refers to an instance. -/
def contains (s : Store) (h : Handle) : Bool := (s.get? h).isSome

/-- The number of live instances. -/
def size (s : Store) : Nat := s.slots.size - s.vacant.length

/-- The live instances of the class with the given key, oldest first. -/
def instancesOf (s : Store) (key : Nat) : List Handle :=
  s.roster.filterMap fun entry => if entry.1 = key then some entry.2 else none

/-- Puts an instance into the slot vacated last, or else into a new one. -/
def insert (s : Store) (inst : Instance) : Except Fault (Handle × Store) :=
  match s.vacant with
  | index :: vacant =>
    match s.slots[index]? with
    | some slot =>
      let handle : Handle := ⟨index, slot.generation⟩
      .ok (handle,
        { slots := s.slots.setIfInBounds index { slot with occupant := some inst }
          vacant
          roster := s.roster ++ [(inst.descriptor.key, handle)] })
    | none => .error (.missingSlot index s.slots.size)
  | [] =>
    if s.slots.size < maxSlots then
      let handle : Handle := ⟨s.slots.size, 0⟩
      .ok (handle,
        { s with
          slots := s.slots.push ⟨0, some inst⟩
          roster := s.roster ++ [(inst.descriptor.key, handle)] })
    else .error .slotsExhausted

/-- Releases an instance: its slot becomes vacant and enters the next generation. A handle that
refers to nothing changes nothing. -/
def remove (s : Store) (h : Handle) : Store :=
  match s.slot? h with
  | some ⟨generation, some inst⟩ =>
    { slots := s.slots.setIfInBounds h.index ⟨generation + 1, none⟩
      vacant := h.index :: s.vacant
      roster := s.roster.filter (· ≠ (inst.descriptor.key, h)) }
  | _ => s

/-- Changes the instance a handle refers to. A handle that refers to nothing changes nothing. -/
def modify (s : Store) (h : Handle) (f : Instance → Instance) : Store :=
  match s.slot? h with
  | some ⟨generation, some inst⟩ =>
    { s with slots := s.slots.setIfInBounds h.index ⟨generation, some (f inst)⟩ }
  | _ => s

end Store

end StateMachines
