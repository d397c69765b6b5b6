/-!
# Declared enums

The tables of a class can be derived from two annotated enums: an event enum, whose variants are
the events of the class, and a state enum, whose variants are its states and say which events
they accept and which states they lead to. This module holds such enums as they are declared,
before anything about them has been checked.

Names are kept as they are spelled: a raw identifier keeps its mark and differs from the plain
one.
-/

namespace StateMachines.Derive

/-- One part of a path. -/
structure Segment where
  name : String
  /-- The generic arguments in the form in which generated code repeats them. -/
  arguments : Option String := none
deriving DecidableEq, Inhabited

/-- A path, such as `proto::Event`. -/
structure Path where
  /-- Whether the path begins with `::`. -/
  rooted : Bool := false
  segments : List Segment
deriving DecidableEq, Inhabited

namespace Path

/-- The path that is a single plain name. -/
def ofName (name : String) : Path := { segments := [{ name }] }

/-- The name a path consists of, if it is a single plain one. -/
def name? (p : Path) : Option String :=
  match p.rooted, p.segments with
  | false, [⟨name, none⟩] => some name
  | _, _ => none

/-- The names of a path joined by `::`. -/
def toText (p : Path) : String := "::".intercalate (p.segments.map (·.name))

end Path

/-- A variant of a state enum. -/
structure StateVariant where
  ident : String
  /-- The display name, if it is not the identifier. -/
  name : Option String := none
  /-- The states it leads to. -/
  out : List Path := []
  /-- The events it accepts. -/
  events : List Path := []
deriving DecidableEq, Inhabited

/-- A declared state enum. -/
structure StateEnum where
  ident : String
  /-- The variants, or `none` if the declared item is no enum. -/
  variants : Option (List StateVariant)
  /-- The event enum. -/
  events : Option Path := none
  /-- Whether states that cannot be reached are allowed. -/
  allowUnreachable : Bool := false
deriving DecidableEq, Inhabited

/-- A variant of an event enum. -/
structure EventVariant where
  ident : String
  /-- The display name, if it is not the identifier. -/
  name : Option String := none
deriving DecidableEq, Inhabited

/-- A declared event enum. -/
structure EventEnum where
  ident : String
  /-- The variants, or `none` if the declared item is no enum. -/
  variants : Option (List EventVariant)
deriving DecidableEq, Inhabited

end StateMachines.Derive
