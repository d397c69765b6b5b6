import StateMachines.Source.Function
import StateMachines.Source.Item

/-!
# Associated declarations

Functions, constants and types can be declared for a type, by a trait, or for what is defined
elsewhere. Each reader answers whether the declaration is written down as it stands: it is if its
form is one that is read everywhere but has a meaning only in other places.
-/

namespace StateMachines.Source

open Reader

/-! ## What declarations have in common -/

/-- Fails because a declaration cannot begin with what stands ahead. It can begin with some words,
and unless it is marked also with the path of a macro. -/
def expectedDeclaration {α : Type} (words : List String) (marked : Bool) : Reader α := do
  let ts ← ahead
  expectedOneOf <| (words.filter (!atKeyword · ts)).map (fun word => s!"`{word}`") ++
    if marked then [] else ["identifier", "`self`", "`super`", "`crate`", "`::`"]

/-- Whether the path of a macro stands in front. -/
def atMacroPath (ts : List Tree) : Bool :=
  atName ts || atOneOf ["self", "super", "crate"] ts || atPunct "::" ts

/-- Reads the delimiters of a macro and what stands between them. A semicolon follows, but not
behind braces. -/
def macroContent : Reader Unit := do
  if (← anyGroup) ≠ .brace then punct ";"

/-- Reads a macro that stands for declarations. -/
def associatedMacro : Reader Unit := do
  discard plainPath
  punct "!"
  macroContent

/-- Reads a constant. The answer tells whether it has a value, and whether it is generic. -/
def Grammar.constantDeclaration (g : Grammar) : Reader (Bool × Bool) := do
  keyword "const"
  let ts ← ahead
  if atName ts || atKeyword "_" ts then discard word else expectedOneOf ["identifier", "`_`"]
  let parametrised := atPunct "<" (← ahead)
  g.parameters?
  punct ":"
  discard (g.type true)
  let hasValue ← punct? "="
  if hasValue then discard (g.expression true)
  let restricted ← g.whereClause?
  punct ";"
  return (hasValue, parametrised || restricted)

/-- Whether the end of the bounds of a type stands in front. -/
def endsTypeBounds (ts : List Tree) : Bool :=
  atKeyword "where" ts || atPunct "=" ts || atPunct ";" ts

/-- Reads a colon and the bounds behind it, which end where `stop` holds, if there is one. The
answer is whether there is one. -/
def Grammar.boundsUpTo? (g : Grammar) (stop : List Tree → Bool) : Reader Bool := do
  let mark ← get
  if ← punct? ":" then
    let (bounds, _) ← separated "+" stop (g.bound false true)
    if bounds.isEmpty then writeOver mark []
    return true
  else return false

/-- Reads a type declaration, in which a restriction may stand before or after the definition. The
answer tells whether there are bounds, and whether there is a definition. -/
def Grammar.typeDeclaration (g : Grammar) (before after : Bool) : Reader (Bool × Bool) := do
  keyword "type"
  discard name
  g.parameters?
  let bounded ← g.boundsUpTo? endsTypeBounds
  let restricted ← if before then g.whereClause? else pure false
  let defined ← punct? "="
  if defined then discard (g.type true)
  if after && !restricted then discard g.whereClause?
  punct ";"
  return (bounded, defined)

/-- Reads declarations, each behind its attributes, up to the closing brace. -/
def Grammar.declarations (g : Grammar) (declaration : Reader Bool) : Reader Unit :=
  within .brace do
    g.innerAttributes
    discard <| collect do
      if (← ahead).isEmpty then return none
      asItStandsIf do
        discard g.attributes
        declaration
      return some ()

/-! ## Declarations elsewhere -/

/-- Reads a declaration of what is defined elsewhere. -/
def Grammar.foreignDeclaration (g : Grammar) : Reader Bool := do
  let visible ← visibility?
  let ts ← ahead
  if atFunction true ts then
    let isSafe ← g.signature true
    let hasBody := atGroup .brace (← ahead)
    if hasBody then g.body else punct ";"
    return isSafe || hasBody
  else if atKeyword "static" ts ||
      (atOneOf ["unsafe", "safe"] ts && atKeyword "static" (behind ts)) then
    let marked := !atKeyword "static" ts
    if marked then discard word
    keyword "static"
    discard (keyword? "mut")
    discard name
    punct ":"
    discard (g.type true)
    let hasValue ← punct? "="
    if hasValue then discard (g.expression true)
    punct ";"
    return marked || hasValue
  else if atKeyword "type" ts then
    let (bounded, defined) ← g.typeDeclaration true true
    return bounded || defined
  else if !visible && atMacroPath ts then
    associatedMacro
    return false
  else expectedDeclaration ["fn", "static", "type"] visible

/-! ## Declarations of a trait -/

/-- Reads a function of a trait, perhaps without a body. -/
def Grammar.traitFunction (g : Grammar) : Reader Unit := do
  discard (g.signature false)
  if atGroup .brace (← ahead) then g.body
  else if !(← punct? ";") then expectedOneOf ["curly braces", "`;`"]

/-- Reads a declaration of a trait. -/
def Grammar.traitDeclaration (g : Grammar) : Reader Bool := do
  let visible ← visibility?
  let isDefault ← keyword? "default"
  let marked := visible || isDefault
  let ts ← ahead
  let next := behind ts
  if atFunction false ts ||
      (atKeyword "const" ts && atOneOf ["async", "unsafe", "extern", "fn"] next) then
    g.traitFunction
    return marked
  else if atKeyword "const" ts then
    if atName next || atKeyword "_" next then
      let (_, generic) ← g.constantDeclaration
      return marked || generic
    else
      keyword "const"
      expectedOneOf ["identifier", "`_`", "`async`", "`unsafe`", "`extern`", "`fn`"]
  else if atKeyword "type" ts then
    discard (g.typeDeclaration false true)
    return marked
  else if !marked && atMacroPath ts then
    associatedMacro
    return false
  else expectedDeclaration ["fn", "const", "type"] marked

/-! ## Declarations for a type -/

/-- Reads a declaration for a type. -/
def Grammar.typeMember (g : Grammar) : Reader Bool := do
  let visible ← visibility?
  let isDefault := atKeyword "default" (← ahead) && !atPunct "!" (behind (← ahead))
  if isDefault then keyword "default"
  let marked := visible || isDefault
  let ts ← ahead
  if atFunction false ts then
    discard (g.signature false)
    if ← punct? ";" then return true
    g.body
    return false
  else if atKeyword "const" ts then
    let (hasValue, generic) ← g.constantDeclaration
    return !hasValue || generic
  else if atKeyword "type" ts then
    let (bounded, defined) ← g.typeDeclaration false true
    return bounded || !defined
  else if !marked && atMacroPath ts then
    associatedMacro
    return false
  else
    let words := ["fn", "const", "type"]
    expectedDeclaration (if isDefault then words else "default" :: words) marked

end StateMachines.Source
