import StateMachines.Source.Expression

/-!
# Statements

A block consists of statements: bindings, declarations and expressions. A semicolon separates an
expression from what follows, unless it ends with a block.
-/

namespace StateMachines.Source

open Reader

/-- Reads a statement that binds names. Another block for the case that the value does not match
must not follow a value that ends with a brace. -/
def Grammar.localBinding (g : Grammar) : Reader Unit := do
  keyword "let"
  discard g.pattern
  if ← punct? ":" then discard (g.type true)
  if ← punct? "=" then
    let mark ← get
    discard (g.expression true)
    let closedByBrace := atGroup .brace (← readSince mark).reverse
    if !closedByBrace && atKeyword "else" (← ahead) then
      keyword "else"
      g.block
  punct ";"

/-- What follows the exclamation mark of a macro that stands in front. -/
def macroTail? (ts : List Tree) : Option (List Tree) :=
  match plainPath.run { rest := ts } with
  | .ok (_, s) => if atPunct "!" s.rest then some (behind s.rest) else none
  | .error _ => none

/-- Whether a macro with braces stands in front that is a statement of its own. -/
def atMacroStatement (ts : List Tree) : Bool :=
  (macroTail? ts).any fun next =>
    let after := behind next
    atGroup .brace next && !((atPunct "." after && !atPunct ".." after) || atPunct "?" after)

/-- Whether a macro with a name behind it stands in front. -/
def atNamedMacro (ts : List Tree) : Bool :=
  (macroTail? ts).any fun next => atName next || atKeyword "try" next

/-- Whether a declaration stands in front. -/
def atDeclaration (ts : List Tree) : Bool :=
  let next := behind ts
  let third := behind next
  atOneOf ["pub", "extern", "use", "fn", "mod", "type", "struct", "enum", "trait", "impl", "macro"]
      ts ||
    (atKeyword "crate" ts && !atPunct "::" next) ||
    (atKeyword "static" ts && (atKeyword "mut" next || atName next)) ||
    (atKeyword "const" ts &&
      !(atGroup .brace next || atOneOf ["static", "move"] next || atPunct "|" next ||
        (atKeyword "async" next && !atOneOf ["unsafe", "extern", "fn"] third))) ||
    (atKeyword "unsafe" ts && !atGroup .brace next) ||
    (atKeyword "async" ts && atOneOf ["unsafe", "extern", "fn"] next) ||
    (atKeyword "union" ts && atName next) ||
    (atKeyword "auto" ts && atKeyword "trait" next) ||
    (atKeyword "default" ts && atOneOf ["unsafe", "impl"] next) ||
    atNamedMacro ts

/-- Reads a statement and answers whether a semicolon is missing behind it if another one
follows. -/
def Grammar.statement (g : Grammar) : Reader Bool := do
  let mark ← get
  let (_, attributes) ← capture g.attributes
  let ts ← ahead
  if atMacroStatement ts then
    write attributes
    discard plainPath
    punct "!"
    discard anyGroup
    discard (punct? ";")
    return false
  else if atKeyword "let" ts then
    write attributes
    g.localBinding
    return false
  else if atDeclaration ts then
    write attributes
    if ← g.declaration then keepSpelling mark
    return false
  else
    let value ← g.statementExpression attributes
    let closed ← punct? ";"
    return !(closed || value.isBlockLike || value = .expression (.expansion .brace))

/-- The rule for the statements of a block. -/
def Grammar.statementsRule (g : Grammar) : Reader Unit :=
  discard <| repeating (fun (_ : Unit) => do
    if (← ahead).isEmpty then return ((), false)
    if ← punct? ";" then return ((), true)
    let missing ← g.statement
    if (← ahead).isEmpty then return ((), false)
    if missing then refuse "unexpected token, expected `;`"
    return ((), true)) ()

end StateMachines.Source
