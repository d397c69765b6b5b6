import StateMachines.Source.Bound

/-!
# Types

A type is a path, a reference, a tuple and so on, or a sum of bounds. Where a plus sign could belong
to what stands around the type, a sum of bounds has to stand between parentheses.
-/

namespace StateMachines.Source

open Reader

/-! ## Types between parentheses -/

/-- Reads what stands between the parentheses around a type, and answers whether they make it a
tuple. -/
def Grammar.parenContent (g : Grammar) : Reader (TypeKind × Bool) := do
  let ts ← ahead
  if ts.isEmpty then return (.other, true)
  if atLifetime ts then
    discard <| g.objectBounds true
    return (.other, false)
  if atPunct "?" ts then
    discard <| g.traitBound false
    return (.bounds true, false)
  let first ← g.type true
  if atPunct "," (← ahead) then
    punct ","
    discard <| commaSeparated (g.type true)
    return (.other, true)
  else return (first, false)

/-- Whether a type can be one of several bounds. -/
def TypeKind.isBound : TypeKind → Bool
  | .named | .path | .bounds true => true
  | _ => false

/-- What stands between the delimiters in front. -/
def contentAhead : List Tree → List Tree
  | .group _ content :: _ => content
  | _ => []

/-- Reads a type between parentheses, or bounds of which the first one is. A bound between two pairs
of parentheses is written down with one. -/
def Grammar.parenType (g : Grammar) (plus : Bool) : Reader TypeKind := do
  let mark ← get
  let content := contentAhead mark.rest
  let (inner, isTuple) ← within .paren g.parenContent
  if atPunct "?" content then
    let further ← g.addedBounds
    return .bounds further.isEmpty
  else if !isTuple && plus && inner.isBound && atPunct "+" (← ahead) then
    if atGroup .paren content then writeOver mark (contentAhead (← writtenSince mark))
    discard g.addedBounds
    return .bounds false
  else return .other

/-! ## Function types -/

/-- Whether three dots stand in front, perhaps behind a name, for arguments of any number. -/
def atVariadic (ts : List Tree) : Bool :=
  atPunct "..." ts ||
    ((atName ts || atKeyword "_" ts) && atPunct ":" (behind ts) && atPunct "..." (ts.drop 2))

/-- Whether `mut self` stands in front. -/
def atMutableInstance (ts : List Tree) : Bool := atKeyword "mut" ts && atKeyword "self" (behind ts)

/-- Reads the name and the colon in front of the type of an argument, if there are some. The answer
tells whether there are, and whether the name is `self`. -/
def argumentName? (isFirst : Bool) : Reader (Bool × Bool) := do
  let ts ← ahead
  let isInstance := isFirst && atKeyword "self" ts
  let named := atName ts || atKeyword "_" ts || isInstance
  if named && atPunct ":" (behind ts) && !atPunct "::" (behind ts) then
    discard word
    punct ":"
    return (true, isInstance)
  else return (false, false)

/-- Reads an argument of a function type, which is a type, perhaps with a name. With `mut self` it
is written down as it stands. -/
def Grammar.functionTypeArgument (g : Grammar) (isFirst : Bool) : Reader Bool := do
  let isMutable := isFirst && atMutableInstance (← ahead)
  if isMutable then keyword "mut"
  let (named, isInstance) ← argumentName? isFirst
  if isFirst && !isInstance && atMutableInstance (← ahead) then
    keyword "mut"
    keyword "self"
    return true
  else if isMutable && !named then
    keyword "self"
    return true
  else
    discard (g.type true)
    return isMutable

/-- Reads the arguments of a function type. -/
def Grammar.functionTypeArguments (g : Grammar) : Reader Unit :=
  discard <| repeating (fun isFirst => do
    if (← ahead).isEmpty then return (isFirst, false)
    discard g.attributes
    if atVariadic (← ahead) then
      if !atPunct "..." (← ahead) then
        discard word
        punct ":"
      punct "..."
      discard (punct? ",")
      return (false, false)
    asItStandsIf (g.functionTypeArgument isFirst)
    if (← ahead).isEmpty then return (false, false)
    punct ","
    return (false, true)) true

/-- Reads the calling convention of a function, if one is given. -/
def convention? : Reader Unit := do
  if ← keyword? "extern" then
    match ← ahead with
    | .literal (.string _ _) _ :: _ => discard literal
    | _ => return ()

/-- Reads a function type. -/
def Grammar.functionType (g : Grammar) : Reader TypeKind := do
  discard (keyword? "unsafe")
  convention?
  keyword "fn"
  within .paren g.functionTypeArguments
  g.returnType false
  return .other

/-! ## Other types -/

/-- Reads a type that begins with a path. Parameters that it holds for may stand in front, from a
mark on; in front of a macro they are not written down. -/
def Grammar.pathType (g : Grammar) (plus : Bool) (bindingFrom : Option Input) :
    Reader TypeKind := do
  let start ← get
  let (qualified, path) ← g.qualifiedPath true
  let ts ← ahead
  if qualified then return .other
  else if atPunct "!" ts && !atPunct "!=" ts && isPlain path then
    punct "!"
    discard anyGroup
    if let some mark := bindingFrom then writeOver mark (← writtenSince start)
    return .other
  else if bindingFrom.isSome || (plus && atPunct "+" ts) then
    let (further, trailing) ← g.furtherBounds plus false false
    return .bounds (further.isEmpty && !trailing)
  else if !path.rooted && path.segments.length = 1 then return .named
  else return .path

/-- Reads a pointer type. -/
def Grammar.pointerType (g : Grammar) : Reader TypeKind := do
  punct "*"
  if atOneOf ["const", "mut"] (← ahead) then discard word
  else expectedOneOf ["`const`", "`mut`"]
  discard (g.type false)
  return .other

/-- Reads a reference type. -/
def Grammar.referenceType (g : Grammar) : Reader TypeKind := do
  punct "&"
  discard lifetime?
  discard (keyword? "mut")
  discard (g.type false)
  return .other

/-- Reads a type that is known by its traits. With a star it is written down as it stands. -/
def Grammar.objectType (g : Grammar) (plus : Bool) : Reader TypeKind := do
  asItStandsIf do
    keyword "dyn"
    let starred ← punct? "*"
    discard (g.objectBounds plus)
    return starred
  return .other

/-- Reads a type that is some type with given traits. -/
def Grammar.someType (g : Grammar) (plus : Bool) : Reader TypeKind := do
  keyword "impl"
  let (kinds, _) ← g.bounds plus true true
  if .trait ∈ kinds then return .other
  else throw (.refused "at least one trait must be specified")

/-- Reads the type of sequences, perhaps of given length. -/
def Grammar.sequenceType (g : Grammar) : Reader TypeKind :=
  within .bracket do
    discard (g.type true)
    if ← punct? ";" then discard (g.expression true)
    return .other

/-- Whether an operation of the compiler stands in front. -/
def atCompilerOperation (ts : List Tree) : Bool :=
  atKeyword "builtin" ts && atPunct "#" (behind ts)

/-- Reads an operation of the compiler. -/
def compilerOperation : Reader Unit := do
  keyword "builtin"
  punct "#"
  discard name
  within .paren anything

/-! ## Rule -/

/-- What a type can begin with. -/
def typeOpenings : List String :=
  ["`for`", "parentheses", "`fn`", "`unsafe`", "`extern`", "identifier", "`::`", "`<`", "`dyn`",
    "square brackets", "`*`", "`&`", "`!`", "`impl`", "`_`", "lifetime"]

/-- What can follow the parameters that a type holds for. -/
def boundTypeOpenings : List String :=
  ["identifier", "`fn`", "`unsafe`", "`extern`", "`super`", "`self`", "`Self`", "`crate`"]

/-- Whether the beginning of a function type stands in front. -/
def atFunctionType : List Tree → Bool := atOneOf ["fn", "unsafe", "extern"]

/-- The rule for types. -/
def Grammar.typeRule (g : Grammar) (plus : Bool) : Reader TypeKind := do
  let mark ← get
  let binds ← g.binder?
  let ts ← ahead
  if binds && !(atPathName ts || atFunctionType ts) then expectedOneOf boundTypeOpenings
  if atGroup .paren ts then g.parenType plus
  else if atFunctionType ts then g.functionType
  else if atCompilerOperation ts then do
    compilerOperation
    keepSpelling mark
    return .other
  else if atPathName ts || atPunct "::" ts || atPunct "<" ts then
    g.pathType plus (if binds then some mark else none)
  else if atKeyword "dyn" ts then g.objectType plus
  else if atGroup .bracket ts then g.sequenceType
  else if atPunct "*" ts then g.pointerType
  else if atPunct "&" ts then g.referenceType
  else if atPunct "!" ts then do
    punct "!"
    return .other
  else if atKeyword "impl" ts then g.someType plus
  else if atKeyword "_" ts then do
    keyword "_"
    return .other
  else if atLifetime ts then g.objectBounds true
  else expectedOneOf typeOpenings

end StateMachines.Source
