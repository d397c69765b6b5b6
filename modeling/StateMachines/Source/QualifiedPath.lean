import StateMachines.Source.Generics

/-!
# Paths with generic arguments

In types and expressions the names of a path may carry generic arguments, in expressions only
behind another `::`; and a path may begin with a type between angle brackets.
-/

namespace StateMachines.Source

open Derive (Path Segment)
open Reader

/-- Whether generic arguments stand in front. In a type the `::` before them can be missing. -/
def atGenericArguments (inType : Bool) (ts : List Tree) : Bool :=
  (inType && atPunct "<" ts && !atPunct "<=" ts && !atPunct "<<=" ts) ||
    (atPunct "::" ts && atPunct "<" (ts.drop 2))

/-- Reads one part of a path. -/
def Grammar.segment (g : Grammar) (inType : Bool) : Reader Segment := do
  let ts ← ahead
  if atOneOf ["super", "self", "crate", "try"] ts then return { name := ← word }
  let name ← if atKeyword "Self" ts then word else name
  if atGenericArguments inType (← ahead) then
    let (_, written) ← capture do
      discard (punct? "::")
      g.genericArguments
    write written
    return { name, arguments := some (treesText written) }
  else return { name }

/-- Reads what follows the first part of a path. -/
def Grammar.furtherSegments (g : Grammar) (inType : Bool) : Reader (List Segment) :=
  collect do
    let ts ← ahead
    if atPunct "::" ts && !atGroup .paren (ts.drop 2) then
      punct "::"
      return some (← g.segment inType)
    else return none

/-- Reads a path that may carry generic arguments. -/
def Grammar.path (g : Grammar) (inType : Bool) : Reader Path := do
  let rooted ← punct? "::"
  let first ← g.segment inType
  let further ← g.furtherSegments inType
  return { rooted, segments := first :: further }

/-- Reads a path that may begin with a type between angle brackets, and answers whether it does.
That type is left out of the path; a trait named beside it is not. -/
def Grammar.qualifiedPath (g : Grammar) (inType : Bool) : Reader (Bool × Path) := do
  if ← punct? "<" then
    discard (g.type true)
    let trait? ← if ← keyword? "as" then some <$> g.path true else pure none
    punct ">"
    punct "::"
    let (further, _) ← joined "::" (fun _ => false) (g.segment inType)
    match trait? with
    | some path => return (true, { path with segments := path.segments ++ further })
    | none => return (true, { rooted := true, segments := further })
  else return (false, ← g.path inType)

/-- Whether no part of a path carries arguments. -/
def isPlain (path : Path) : Bool := path.segments.all (·.arguments.isNone)

/-- Whether the last part of a path carries no arguments. -/
def endsPlain (path : Path) : Bool := path.segments.getLast?.any (·.arguments.isNone)

end StateMachines.Source
