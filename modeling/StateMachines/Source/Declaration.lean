import StateMachines.Source.Associated
import StateMachines.Source.Import

/-!
# Declarations

A module or a block can declare functions, constants, types and so on. Nothing of them is kept but
their written form. Each reader answers whether the declaration is written down as it stands, which
it is if its form is not the usual one.
-/

namespace StateMachines.Source

open Reader

/-! ## Values -/

/-- Reads a function. -/
def Grammar.function (g : Grammar) : Reader Bool := do
  discard (g.signature false)
  if ← punct? ";" then return true
  g.body
  return false

/-- Reads a variable of the program. -/
def Grammar.staticDeclaration (g : Grammar) : Reader Bool := do
  keyword "static"
  discard (keyword? "mut")
  discard name
  let typed := !atPunct "=" (← ahead)
  if typed then
    punct ":"
    discard (g.type true)
    if ← punct? ";" then return true
  punct "="
  discard (g.expression true)
  punct ";"
  return !typed

/-! ## Modules -/

/-- Reads a module. -/
def Grammar.moduleDeclaration (g : Grammar) : Reader Unit := do
  discard (keyword? "unsafe")
  keyword "mod"
  if atKeyword "try" (← ahead) then discard word else discard name
  if atGroup .brace (← ahead) then g.declarations g.declaration
  else if !(← punct? ";") then expectedOneOf ["`;`", "curly braces"]

/-- Reads the name of a package and perhaps another name for it. -/
def packageName : Reader Unit := do
  keyword "crate"
  if atKeyword "self" (← ahead) then discard word else discard name
  if ← keyword? "as" then
    if atKeyword "_" (← ahead) then discard word else discard name
  punct ";"

/-- Reads what is defined elsewhere. It has no visibility, unless it is a package. -/
def Grammar.externDeclaration (g : Grammar) (visible : Bool) : Reader Unit := do
  let isUnsafe ← keyword? "unsafe"
  if isUnsafe && visible then throw (.expected ["`extern`"] false)
  keyword "extern"
  let ts ← ahead
  if !isUnsafe && atKeyword "crate" ts then packageName
  else
    let named := match ts with
      | .literal (.string _ _) _ :: _ => true
      | _ => false
    if named then discard literal
    if !isUnsafe && !atGroup .brace (← ahead) then
      expectedOneOf (if named then ["curly braces"] else
        ["`crate`", "curly braces", "string literal"])
    if visible then throw (.expected ["`extern`"] false)
    g.declarations g.foreignDeclaration

/-! ## Traits and what is declared for a type -/

/-- Whether the end of the traits that a trait extends stands in front. -/
def endsSupertraits (ts : List Tree) : Bool := atKeyword "where" ts || atGroup .brace ts

/-- Whether the end of the traits that a trait is another name for stands in front. -/
def endsTraitAlias (ts : List Tree) : Bool := atKeyword "where" ts || atPunct ";" ts

/-- Reads a trait, or another name for traits. -/
def Grammar.trait (g : Grammar) : Reader Unit := do
  let isUnsafe ← keyword? "unsafe"
  let isAuto ← keyword? "auto"
  keyword "trait"
  discard name
  g.parameters?
  let ts ← ahead
  if !isUnsafe && !isAuto && atPunct "=" ts then
    punct "="
    discard <| separated "+" endsTraitAlias (g.bound false false)
    discard g.whereClause?
    punct ";"
  else
    if !isUnsafe && !isAuto &&
        !(atGroup .brace ts || atPunct ":" ts || atKeyword "where" ts) then
      expectedOneOf ["curly braces", "`:`", "`where`", "`=`"]
    discard <| g.boundsUpTo? endsSupertraits
    discard g.whereClause?
    g.declarations g.traitDeclaration

/-- Reads the mark for constants, if it stands in front, and answers whether it does. -/
def constImplementation? : Reader Bool := do
  let ts ← ahead
  if atKeyword "const" ts || (atPunct "?" ts && atKeyword "const" (behind ts)) then
    discard (punct? "?")
    keyword "const"
    return true
  else return false

/-- Reads what is declared for a type, perhaps by a trait. The trait has to be a plain path. -/
def Grammar.implementation (g : Grammar) (visible : Bool) : Reader Bool := do
  discard (keyword? "default")
  discard (keyword? "unsafe")
  keyword "impl"
  if atParameters (← ahead) then g.parameters?
  let isConst ← constImplementation?
  let ts ← ahead
  let negative := atPunct "!" ts && !atGroup .brace (behind ts)
  if negative then punct "!"
  let first ← g.type true
  let hasTrait ← keyword? "for"
  if hasTrait then discard (g.type true)
  else if negative then throw (.refused "inherent impls cannot be negative")
  discard g.whereClause?
  g.declarations g.typeMember
  return visible || isConst || (hasTrait && first ≠ .named && first ≠ .path)

/-! ## Macros -/

/-- Reads a macro, which may have a name behind it. -/
def macroDeclaration : Reader Unit := do
  discard plainPath
  punct "!"
  if atKeyword "try" (← ahead) then discard word
  else if atName (← ahead) then discard name
  macroContent

/-- Reads the definition of a macro by one rule or several. -/
def macroDefinition : Reader Unit := do
  keyword "macro"
  discard name
  let single := atGroup .paren (← ahead)
  if single then discard anyGroup
  if atGroup .brace (← ahead) then discard anyGroup
  else expectedOneOf ((if single then [] else ["parentheses"]) ++ ["curly braces"])

/-! ## Rule -/

/-- What a declaration can begin with, apart from a macro. -/
def declarationOpenings : List String :=
  ["fn", "extern", "use", "static", "const", "unsafe", "mod", "type", "struct", "enum", "union",
    "trait", "auto", "impl", "default", "macro"]

/-- Reads a declaration that is marked as unsafe. -/
def Grammar.unsafeDeclaration (g : Grammar) (visible : Bool) : Reader Bool := do
  let next := behind (← ahead)
  if atKeyword "trait" next || (atKeyword "auto" next && atKeyword "trait" (behind next)) then
    g.trait
    return false
  else if atKeyword "impl" next then g.implementation visible
  else if atKeyword "extern" next then
    g.externDeclaration visible
    return false
  else if atKeyword "mod" next then
    g.moduleDeclaration
    return false
  else
    keyword "unsafe"
    let words := ["trait", "auto", "impl", "extern", "mod"]
    expectedOneOf <| (words.filter (!atKeyword · next)).map (fun word => s!"`{word}`")

/-- Reads the declaration of a type by its parts. -/
def Grammar.dataDeclaration (g : Grammar) : Reader Unit := do
  let kind ← word
  discard name
  if kind = "struct" then g.structTail
  else if kind = "enum" then discard g.enumTail
  else g.unionTail

/-- The rule for declarations. -/
def Grammar.declarationRule (g : Grammar) : Reader Bool := do
  let visible ← visibility?
  let ts ← ahead
  let next := behind ts
  let usual (r : Reader Unit) : Reader Bool := do
    r
    return false
  if atFunction false ts then g.function
  else if atKeyword "extern" ts then usual (g.externDeclaration visible)
  else if atKeyword "use" ts then importDeclaration
  else if atKeyword "static" ts then g.staticDeclaration
  else if atKeyword "const" ts then
    let (hasValue, generic) ← g.constantDeclaration
    return !hasValue || generic
  else if atKeyword "unsafe" ts then g.unsafeDeclaration visible
  else if atKeyword "mod" ts then usual g.moduleDeclaration
  else if atKeyword "type" ts then
    let (bounded, defined) ← g.typeDeclaration true false
    return bounded || !defined
  else if atOneOf ["struct", "enum"] ts || (atKeyword "union" ts && atName next) then
    usual g.dataDeclaration
  else if atKeyword "trait" ts || (atKeyword "auto" ts && atKeyword "trait" next) then
    usual g.trait
  else if atKeyword "impl" ts || (atKeyword "default" ts && !atPunct "!" next) then
    g.implementation visible
  else if atKeyword "macro" ts then
    macroDefinition
    return true
  else if !visible && atMacroPath ts then usual macroDeclaration
  else expectedDeclaration declarationOpenings visible

end StateMachines.Source
