import StateMachines.Source.Grammar

/-!
# Plain paths

A path is a sequence of names joined by `::`, possibly with a leading `::`. In front of
attributes, settings and macros its names are plain.
-/

namespace StateMachines.Source

open Derive (Path)
open Reader

/-- Whether a name stands in front that can be part of a path. -/
def atPathName (ts : List Tree) : Bool := atName ts || atOneOf placeWords ts

/-- Reads a path of plain names. -/
def plainPath : Reader Path := do
  let rooted ← punct? "::"
  let (names, trailing) ← joined "::" (fun ts => !atPathName ts) word
  if names.isEmpty then discard name
  if trailing then expected "path segment after `::`"
  return { rooted, segments := names.map ({ name := · }) }

end StateMachines.Source
