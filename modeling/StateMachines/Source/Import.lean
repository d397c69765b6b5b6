import StateMachines.Source.Item

/-!
# Imports

An import names things from elsewhere: it is a tree of paths, in which several names that share the
beginning of their path stand between braces. A path can begin at the root only outside any other
path.
-/

namespace StateMachines.Source

open Reader

/-- Reads a name that stands for another one. -/
def otherName : Reader Unit := do
  let ts ← ahead
  if atName ts || atKeyword "_" ts then discard word else expected "identifier or underscore"

/-- What the paths of an import can begin with. -/
def importOpenings : List String :=
  ["identifier", "`self`", "`super`", "`crate`", "`try`", "`*`", "curly braces"]

/-- Reads a tree of paths, at most as deep as given, and answers whether a path in it begins at the
root. With `root` it may do so. -/
def importTree : Nat → (root : Bool) → Reader Bool
  | 0, _ => expectedOneOf importOpenings
  | depth + 1, root => do
    let ts ← ahead
    if atName ts || atOneOf ["self", "super", "crate", "try"] ts then
      discard word
      if ← punct? "::" then importTree depth false
      else
        if ← keyword? "as" then otherName
        return false
    else if atPunct "*" ts then
      punct "*"
      return false
    else if atGroup .brace ts then
      let rooted ← within .brace <| commaSeparated do
        let isRoot ← if root then punct? "::" else pure false
        let inside ← importTree depth (root && !isRoot)
        return isRoot || inside
      return rooted.any id
    else expectedOneOf importOpenings

/-- Reads an import, and answers whether a path between braces begins at the root. -/
def importDeclaration : Reader Bool := do
  keyword "use"
  let rooted ← punct? "::"
  let inside ← importTree (treesSize (← ahead) + 1) !rooted
  punct ";"
  return inside

end StateMachines.Source
