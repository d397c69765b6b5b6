import StateMachines.Source.QualifiedPath

/-!
# Bounds

A bound is a lifetime, a trait, or a list of the parameters that are captured. Bounds are added up
with plus signs. Only in a bound can the arguments of a path stand between parentheses.
-/

namespace StateMachines.Source

open Reader

/-! ## Sums of bounds -/

/-- Whether something stands in front that can begin another bound. -/
def atBound (const : Bool) (ts : List Tree) : Bool :=
  atWord ts || atPunct "::" ts || atPunct "?" ts || atLifetime ts || atGroup .paren ts ||
    (const && atGroup .bracket ts)

/-- Reads the bounds behind a first one, each with a plus sign in front of it. The answer also
tells whether another plus sign stands behind the last one. -/
def Grammar.furtherBounds (g : Grammar) (plus capture const : Bool) :
    Reader (List BoundKind × Bool) :=
  repeating (fun (kinds, _) => do
    if plus && (← punct? "+") then
      if atBound const (← ahead) then return ((kinds ++ [← g.bound capture const], false), true)
      else return ((kinds, true), false)
    else return ((kinds, false), false)) ([], false)

/-- Reads one or more bounds, and answers also whether a plus sign stands behind the last one. -/
def Grammar.bounds (g : Grammar) (plus capture const : Bool) : Reader (List BoundKind × Bool) := do
  let first ← g.bound capture const
  let (further, trailing) ← g.furtherBounds plus capture const
  return (first :: further, trailing)

/-- Reads the bounds of something whose traits are all that is known of it. -/
def Grammar.objectBounds (g : Grammar) (plus : Bool) : Reader TypeKind := do
  let (kinds, trailing) ← g.bounds plus false false
  if .trait ∈ kinds then return .bounds (kinds.length = 1 && !trailing)
  else throw (.refused "at least one trait is required for an object type")

/-- Reads the bounds behind a first one. No plus sign may stand behind the last one. -/
def Grammar.addedBounds (g : Grammar) : Reader (List BoundKind) :=
  collect do
    if ← punct? "+" then return some (← g.bound false false) else return none

/-! ## Traits -/

/-- Reads the type behind an arrow, if there is one. -/
def Grammar.returnType (g : Grammar) (plus : Bool) : Reader Unit := do
  if ← punct? "->" then discard (g.type plus)

/-- Whether arguments between parentheses stand in front, perhaps behind a `::`. -/
def atParenArguments (ts : List Tree) : Bool :=
  atGroup .paren ts || (atPunct "::" ts && atGroup .paren (ts.drop 2))

/-- Reads arguments between parentheses and a result. A `::` in front of them is not written
down. -/
def Grammar.parenArguments (g : Grammar) : Reader Unit := do
  discard <| capture (punct? "::")
  discard <| within .paren (commaSeparated (g.type true))
  g.returnType false

/-- Reads the mark of a bound that refers to constants, if there is one, and answers whether there
is. -/
def constMark? (allowed : Bool) : Reader Bool := do
  let ts ← ahead
  if atGroup .bracket ts then
    within .bracket (keyword "const")
    unless allowed do throw (.refused "`[const]` is not allowed here")
    return true
  else if ← keyword? "const" then
    unless allowed do throw (.refused "`const` is not allowed here")
    return true
  else return false

/-- Reads a trait with all that can stand in front of it, and answers whether it refers to
constants. -/
def Grammar.traitBound (g : Grammar) (const : Bool) : Reader Bool := do
  let bindsFirst ← g.binder?
  let isConst ← constMark? const
  let optional ← punct? "?"
  let binds ← if optional && !bindsFirst then g.binder? else pure bindsFirst
  let path ← g.path true
  if endsPlain path && atParenArguments (← ahead) then g.parenArguments
  if optional && binds then
    throw (.refused "`for<...>` binder not allowed with `?` trait polarity modifier")
  return isConst

/-! ## Captures -/

/-- Reads one of the parameters that are captured, and answers whether it is a lifetime. -/
def captured : Reader Bool := do
  let ts ← ahead
  if ← lifetime? then return true
  else if atName ts || atKeyword "Self" ts then
    discard word
    return false
  else expectedOneOf ["lifetime", "identifier", "`>`"]

/-- Reads the parameters that are captured. -/
def captures : Reader Unit := do
  keyword "use"
  punct "<"
  discard <| angleContent do
    let isLifetime ← captured
    let ts ← ahead
    if atPunct "," ts || atPunct ">" ts then return isLifetime
    else expectedOneOf ["`,`", "`>`"]
  punct ">"

/-! ## Rule -/

/-- The rule for bounds. A bound that refers to constants is written down as it stands. -/
def Grammar.boundRule (g : Grammar) (capture const : Bool) : Reader BoundKind := do
  let mark ← get
  let ts ← ahead
  if atLifetime ts then
    lifetime
    return .lifetime
  if atKeyword "use" ts then
    captures
    if capture then return .capture
    else throw (.refused "`use<...>` precise capturing syntax is not allowed here")
  let isConst ←
    if atGroup .paren ts then within .paren (g.traitBound const) else g.traitBound const
  if isConst then keepSpelling mark
  return .trait

end StateMachines.Source
