import StateMachines.Source.Member
import StateMachines.Source.Type

/-!
# Patterns

A pattern is a name, a literal, a range, a path with fields and so on, or a choice between several
patterns, which are separated by vertical bars.
-/

namespace StateMachines.Source

open Reader

/-! ## Choices -/

/-- Whether a single vertical bar stands in front. -/
def atBar (ts : List Tree) : Bool := atPunct "|" ts && !atPunct "||" ts && !atPunct "|=" ts

/-- Reads a pattern, which may be a choice and may have a bar in front. -/
def Grammar.choice (g : Grammar) : Reader PatternKind := do
  let leading ← punct? "|"
  let first ← g.pattern
  let further ← collect do
    if atBar (← ahead) then
      punct "|"
      return some (← g.pattern)
    else return none
  return if leading || !further.isEmpty then .other else first

/-! ## Ranges -/

/-- Reads two dots, perhaps with an equals sign, and answers whether the range needs an end. Three
dots are another spelling of those with an equals sign. -/
def patternRange : Reader Bool := do
  let ts ← ahead
  if atPunct "..=" ts then
    punct "..="
    return true
  else if atPunct "..." ts then
    skipTo (ts.drop 3) (punctTrees "..=".toList)
    return true
  else
    punct ".."
    return false

/-- Whether no end of a range stands in front. -/
def endsRange (ts : List Tree) : Bool :=
  ts.isEmpty || atPunct "|" ts || atPunct "=" ts || (atPunct ":" ts && !atPunct "::" ts) ||
    atPunct "," ts || atPunct ";" ts || atKeyword "if" ts

/-- Reads an end of a range, if there is one, and answers whether there is. -/
def Grammar.rangeEnd? (g : Grammar) : Reader Bool := do
  let ts ← ahead
  if endsRange ts then return false
  if atLiteral ts then discard literal
  else if atPathName ts || atPunct "::" ts || atPunct "<" ts then discard (g.qualifiedPath false)
  else if atKeyword "const" ts then
    keyword "const"
    g.body
  else
    expectedOneOf ["literal", "identifier", "`::`", "`<`", "`self`", "`Self`", "`super`",
      "`crate`", "`const`"]
  return true

/-- Reads the dots of a range and its end. -/
def Grammar.rangePattern (g : Grammar) : Reader PatternKind := do
  let needsEnd ← patternRange
  let hasEnd ← g.rangeEnd?
  if needsEnd && !hasEnd then expected "range upper bound"
  return if hasEnd then .other else .openRange

/-- Reads a range that has no beginning. Two dots that stand alone are the rest. -/
def Grammar.openRangePattern (g : Grammar) : Reader PatternKind := do
  let needsEnd := atPunct "..=" (← ahead)
  punct (if needsEnd then "..=" else "..")
  if ← g.rangeEnd? then return .openRange
  else if needsEnd then expected "range upper bound"
  else return .rest

/-- Reads a literal or a constant, or a range that begins with it. -/
def Grammar.constantPattern (g : Grammar) : Reader PatternKind := do
  discard g.rangeEnd?
  if atPunct ".." (← ahead) then g.rangePattern else return .other

/-! ## Patterns with parts -/

/-- Reads one field of a pattern for a record. A boxed one is written down as it stands. -/
def Grammar.fieldPattern (g : Grammar) : Reader Unit :=
  asItStandsIf do
    let isBoxed ← keyword? "box"
    let byReference ← keyword? "ref"
    let isMutable ← keyword? "mut"
    if isBoxed || byReference || isMutable then discard name
    else
      let named ← member
      if !named || atPunct ":" (← ahead) then
        punct ":"
        discard g.choice
    return isBoxed

/-- Reads the fields of a pattern for a record. Two dots end them. -/
def Grammar.fieldPatterns (g : Grammar) : Reader Unit :=
  discard <| repeating (fun (_ : Unit) => do
    if (← ahead).isEmpty then return ((), false)
    discard g.attributes
    if ← punct? ".." then return ((), false)
    g.fieldPattern
    if (← ahead).isEmpty then return ((), false)
    punct ","
    return ((), true)) ()

/-- Reads a pattern that begins with a path. -/
def Grammar.pathPattern (g : Grammar) : Reader PatternKind := do
  let (qualified, path) ← g.qualifiedPath false
  let ts ← ahead
  if !qualified && atPunct "!" ts && !atPunct "!=" ts && isPlain path then
    punct "!"
    discard anyGroup
    return .other
  else if atGroup .brace ts then
    within .brace g.fieldPatterns
    return .other
  else if atGroup .paren ts then
    discard <| within .paren (commaSeparated g.choice)
    return .other
  else if atPunct ".." ts then g.rangePattern
  else return .other

/-- Reads a pattern that gives a name. -/
def Grammar.namePattern (g : Grammar) : Reader PatternKind := do
  discard (keyword? "ref")
  discard (keyword? "mut")
  if atKeyword "self" (← ahead) then discard word else discard name
  if ← punct? "@" then discard g.pattern
  return .other

/-- Reads a pattern for a sequence. An open range has to stand between parentheses in it. -/
def Grammar.sequencePattern (g : Grammar) : Reader PatternKind := do
  discard <| within .bracket <| commaSeparated do
    if (← g.choice) = .openRange then
      throw (.refused "range pattern is not allowed unparenthesized inside slice pattern")
  return .other

/-- What a pattern can begin with, apart from what three dots show. -/
def patternOpenings (dots : Bool) : List String :=
  ["identifier", "`::`", "`<`", "`_`", "literal", "`const`", "`ref`", "`mut`", "`&`",
    "parentheses", "square brackets"] ++ (if dots then [] else ["`..`"]) ++ ["`const`"]

/-- Whether a path stands in front that is more than a name. -/
def atPathPattern (ts : List Tree) : Bool :=
  let next := behind ts
  (atName ts && (atPunct "::" next || atPunct "!" next || atGroup .brace next ||
    atGroup .paren next || atPunct ".." next)) ||
  (atKeyword "self" ts && atPunct "::" next) ||
  atPunct "::" ts || atPunct "<" ts || atOneOf ["Self", "super", "crate"] ts

/-- The rule for patterns. -/
def Grammar.patternRule (g : Grammar) : Reader PatternKind := do
  let ts ← ahead
  if atPathPattern ts then g.pathPattern
  else if atKeyword "_" ts then
    keyword "_"
    return .other
  else if atKeyword "box" ts then
    asItStands do
      keyword "box"
      discard g.pattern
    return .boxed
  else if atPunct "-" ts || atLiteral ts || atKeyword "const" ts then g.constantPattern
  else if atOneOf ["ref", "mut", "self"] ts || atName ts then g.namePattern
  else if atPunct "&" ts then
    punct "&"
    discard (keyword? "mut")
    discard g.pattern
    return .other
  else if atGroup .paren ts then
    discard <| within .paren (commaSeparated g.choice)
    return .other
  else if atGroup .bracket ts then g.sequencePattern
  else if atPunct ".." ts && !atPunct "..." ts then g.openRangePattern
  else expectedOneOf (patternOpenings (atPunct ".." ts))

end StateMachines.Source
