import StateMachines.Source.Number
import StateMachines.Source.Operator
import StateMachines.Source.Pattern

/-!
# Expressions

An expression is made of operands with operators between them. An operand is an atom, perhaps with
signs in front of it and with calls, members and indices behind it. Of an expression only its kind
is kept, unless it is a literal or a path.

Where a block follows an expression, as behind `if`, the expression may not be a record with its
fields between braces.
-/

namespace StateMachines.Source

open Reader

/-! ## Kinds -/

/-- The word for a kind of expression. -/
def ExpressionKind.text : ExpressionKind → String
  | .array => "array"
  | .assignment => "assign"
  | .asyncBlock => "async"
  | .awaiting => "await"
  | .binary _ => "binary"
  | .block => "block"
  | .breaking => "break"
  | .call => "call"
  | .cast => "cast"
  | .closure => "closure"
  | .constBlock => "const"
  | .continuing => "continue"
  | .field => "field"
  | .forLoop => "for_loop"
  | .conditional => "if"
  | .index => "index"
  | .placeholder => "infer"
  | .binding => "let"
  | .loop => "loop"
  | .expansion _ => "macro"
  | .selection => "match"
  | .methodCall => "method_call"
  | .paren => "paren"
  | .range => "range"
  | .rawAddress => "unknown"
  | .reference => "reference"
  | .repetition => "repeat"
  | .returning => "return"
  | .record => "struct"
  | .propagation => "try"
  | .tryBlock => "try_block"
  | .tuple => "tuple"
  | .unary => "unary"
  | .uncheckedBlock => "unsafe"
  | .provisional => "verbatim"
  | .whileLoop => "while"
  | .yielding => "yield"

/-- Whether an expression ends with a block, so that nothing has to separate it from what
follows. -/
def Value.isBlockLike : Value → Bool
  | .expression kind =>
    kind ∈ [.conditional, .selection, .block, .uncheckedBlock, .whileLoop, .loop, .forLoop,
      .tryBlock, .constBlock]
  | _ => false

/-! ## Calls, members and indices -/

/-- Reads arguments between parentheses. -/
def Grammar.arguments (g : Grammar) : Reader Unit :=
  discard <| within .paren (commaSeparated (g.expression true))

/-- Reads the name of a member and the arguments of a call, or the number of a member. -/
def Grammar.memberTail (g : Grammar) : Reader Value := do
  let named ← member
  if named && atPunct "::" (← ahead) then
    punct "::"
    g.genericArguments
    g.arguments
    return .expression .methodCall
  else if named && atGroup .paren (← ahead) then
    g.arguments
    return .expression .methodCall
  else return .expression .field

/-- Reads what follows a dot. Two numbers with a dot between them are a float. -/
def Grammar.dotTail (g : Grammar) : Reader Value := do
  let more ← members?
  if !more then return .expression .field
  else if ← keyword? "await" then return .expression .awaiting
  else g.memberTail

/-- Reads what follows an atom. -/
def Grammar.trailers (g : Grammar) (atom : Value) : Reader Value :=
  repeating (fun value => do
    let ts ← ahead
    let closed := !value.isRange
    if atGroup .paren ts then
      g.arguments
      return (.expression .call, true)
    else if atPunct "." ts && !atPunct ".." ts && closed then
      punct "."
      return (← g.dotTail, true)
    else if atGroup .bracket ts then
      discard <| within .bracket (g.expression true)
      return (.expression .index, true)
    else if atPunct "?" ts && closed then
      punct "?"
      return (.expression .propagation, true)
    else return (value, false)) atom

/-! ## Paths and what begins with them -/

/-- Reads the fields of a record. Two dots, perhaps with an expression, end them. -/
def Grammar.fieldValues (g : Grammar) : Reader Unit :=
  discard <| repeating (fun (_ : Unit) => do
    let ts ← ahead
    if ts.isEmpty then return ((), false)
    if atPunct ".." ts then
      punct ".."
      if !(← ahead).isEmpty then discard (g.expression true)
      return ((), false)
    discard g.attributes
    let named ← member
    if !named || atPunct ":" (← ahead) then
      punct ":"
      discard (g.expression true)
    if (← ahead).isEmpty then return ((), false)
    punct ","
    return ((), true)) ()

/-- Reads a path, or a macro or record that begins with one. -/
def Grammar.pathExpression (g : Grammar) (structs : Bool) : Reader Value := do
  let (qualified, path) ← g.qualifiedPath false
  let ts ← ahead
  if !qualified && atPunct "!" ts && !atPunct "!=" ts && isPlain path then
    punct "!"
    return .expression (.expansion (← anyGroup))
  else if structs && atGroup .brace ts then
    within .brace g.fieldValues
    return .expression .record
  else return .path path

/-! ## Groups -/

/-- Reads an expression between parentheses, or a tuple. -/
def Grammar.parenExpression (g : Grammar) : Reader Value :=
  within .paren do
    let (items, trailing) ← separated "," List.isEmpty (g.expression true)
    return .expression (if items.length = 1 && !trailing then .paren else .tuple)

/-- Reads a sequence of expressions, or of one expression a number of times. -/
def Grammar.arrayExpression (g : Grammar) : Reader Value :=
  within .bracket do
    if (← ahead).isEmpty then return .expression .array
    discard (g.expression true)
    let ts ← ahead
    if ts.isEmpty then return .expression .array
    else if atPunct "," ts then
      punct ","
      discard <| commaSeparated (g.expression true)
      return .expression .array
    else if atPunct ";" ts then
      punct ";"
      discard (g.expression true)
      return .expression .repetition
    else expected "`,` or `;`"

/-! ## Closures -/

/-- Whether a closure stands in front. -/
def atClosure (ts : List Tree) : Bool :=
  let next := behind ts
  atPunct "|" ts || atOneOf ["move", "static"] ts ||
    (atKeyword "for" ts && atParameters next) ||
    (atKeyword "const" ts && !atGroup .brace next) ||
    (atKeyword "async" ts && (atPunct "|" next || atKeyword "move" next))

/-- Reads an argument of a closure. Attributes in front of a boxed one are not written down. -/
def Grammar.closureArgument (g : Grammar) : Reader Unit := do
  let mark ← get
  discard g.attributes
  let start ← get
  let kind ← g.pattern
  if ← punct? ":" then discard (g.type true)
  else if kind = .boxed then writeOver mark (← writtenSince start)

/-- Reads a closure. -/
def Grammar.closure (g : Grammar) (structs : Bool) : Reader Value := do
  discard g.binder?
  for mark in ["const", "static", "async", "move"] do discard (keyword? mark)
  punct "|"
  discard <| separated "," (atPunct "|") do
    g.closureArgument
  punct "|"
  if ← punct? "->" then
    discard (g.type true)
    g.block
  else discard (g.expression structs)
  return .expression .closure

/-! ## Branches and loops -/

/-- Reads `if` with all its branches. -/
def Grammar.conditional (g : Grammar) : Reader Value := do
  discard <| repeating (fun (_ : Unit) => do
    keyword "if"
    discard (g.expression false)
    g.block
    if ← keyword? "else" then
      let ts ← ahead
      if atKeyword "if" ts then return ((), true)
      else if atGroup .brace ts then
        g.block
        return ((), false)
      else expectedOneOf ["`if`", "curly braces"]
    else return ((), false)) ()
  return .expression .conditional

/-- Reads one arm of a selection. A comma is missing only behind a block or at the end. -/
def Grammar.arm (g : Grammar) : Reader Unit := do
  discard g.attributes
  discard g.choice
  if ← keyword? "if" then discard (g.expression true)
  punct "=>"
  let value ← g.statementExpression []
  if value.isBlockLike || (← ahead).isEmpty then discard (punct? ",") else punct ","

/-- Reads a selection between several arms. -/
def Grammar.selection (g : Grammar) : Reader Value := do
  keyword "match"
  discard (g.expression false)
  within .brace do
    g.innerAttributes
    discard <| collect do
      if (← ahead).isEmpty then return none else some <$> g.arm
  return .expression .selection

/-- Reads a loop with a condition. -/
def Grammar.whileLoop (g : Grammar) : Reader Value := do
  keyword "while"
  discard (g.expression false)
  g.body
  return .expression .whileLoop

/-- Reads a loop over something. -/
def Grammar.forLoop (g : Grammar) : Reader Value := do
  keyword "for"
  discard g.choice
  keyword "in"
  discard (g.expression false)
  g.body
  return .expression .forLoop

/-- Reads a loop without a condition. -/
def Grammar.endlessLoop (g : Grammar) : Reader Value := do
  keyword "loop"
  g.body
  return .expression .loop

/-- Reads a loop or block with its label. -/
def Grammar.labelled (g : Grammar) : Reader Value := do
  lifetime
  punct ":"
  let ts ← ahead
  if atKeyword "while" ts then g.whileLoop
  else if atKeyword "for" ts then g.forLoop
  else if atKeyword "loop" ts then g.endlessLoop
  else if atGroup .brace ts then
    g.body
    return .expression .block
  else expected "loop or block expression"

/-- Reads a condition that binds names. -/
def Grammar.binding (g : Grammar) (structs : Bool) : Reader Value := do
  keyword "let"
  discard g.choice
  punct "="
  discard (g.extend structs .compare (← g.operand structs))
  return .expression .binding

/-! ## Jumps -/

/-- Whether an expression can begin here. -/
def beginsExpression (ts : List Tree) : Bool :=
  (atWord ts && !atKeyword "as" ts) ||
    atGroup .paren ts || atGroup .bracket ts || atGroup .brace ts || atLiteral ts ||
    (atPunct "!" ts && !atPunct "!=" ts) ||
    (atPunct "-" ts && !atPunct "-=" ts && !atPunct "->" ts) ||
    (atPunct "*" ts && !atPunct "*=" ts) ||
    (atPunct "|" ts && !atPunct "|=" ts) ||
    (atPunct "&" ts && !atPunct "&=" ts) ||
    atPunct ".." ts ||
    (atPunct "<" ts && !atPunct "<=" ts && !atPunct "<<=" ts) ||
    atPunct "::" ts || atLifetime ts || atPunct "#" ts

/-- Reads an expression if one can begin here. -/
def Grammar.expression? (g : Grammar) : Reader Unit := do
  if beginsExpression (← ahead) then discard (g.expression true)

/-- What follows attributes that stand in front. -/
def behindAttributes : List Tree → List Tree
  | .punct '#' _ :: .group .bracket _ :: rest => behindAttributes rest
  | ts => ts

/-- Reads a jump out of a loop or block, perhaps with a value. A value that begins with a label is
written between parentheses, unless the jump has a label itself. -/
def Grammar.breaking (g : Grammar) (structs : Bool) : Reader Value := do
  keyword "break"
  let ts ← ahead
  if atLifetime ts && atPunct ":" (behind ts) then
    discard (g.expression true)
    throw (.refused "parentheses required")
  let labelled ← lifetime?
  let ts ← ahead
  if beginsExpression ts && (structs || !atGroup .brace ts) then
    let (_, value) ← capture (g.expression true)
    write (if !labelled && atLifetime (behindAttributes ts) then [.group .paren value] else value)
  return .expression .breaking

/-! ## Atoms -/

/-- Whether a path stands in front. -/
def atPathExpression (ts : List Tree) : Bool :=
  let next := behind ts
  atPathName ts || atPunct "::" ts || atPunct "<" ts ||
    (atKeyword "try" ts && (atPunct "!" next || atPunct "::" next))

/-- Reads a block with a word in front of it that says how it is run. -/
def Grammar.markedBlock (g : Grammar) (mark : String) (kind : ExpressionKind) : Reader Value := do
  keyword mark
  if kind = .asyncBlock then discard (keyword? "move")
  if kind = .uncheckedBlock || kind = .constBlock then g.body else g.block
  return .expression kind

/-- Reads a word and perhaps an expression behind it. -/
def Grammar.markedExpression (g : Grammar) (mark : String) (kind : ExpressionKind) :
    Reader Value := do
  keyword mark
  g.expression?
  return .expression kind

/-- Reads an atom. -/
def Grammar.atom (g : Grammar) (structs : Bool) : Reader Value := do
  let ts ← ahead
  let next := behind ts
  if atLiteral ts then return .literal (← literal)
  else if atKeyword "async" ts &&
      (atGroup .brace next || (atKeyword "move" next && atGroup .brace (behind next))) then
    g.markedBlock "async" .asyncBlock
  else if atKeyword "try" ts && atGroup .brace next then g.markedBlock "try" .tryBlock
  else if atClosure ts then g.closure structs
  else if atCompilerOperation ts then
    asItStands compilerOperation
    return .expression .provisional
  else if atPathExpression ts then g.pathExpression structs
  else if atGroup .paren ts then g.parenExpression
  else if atKeyword "break" ts then g.breaking structs
  else if atKeyword "continue" ts then
    keyword "continue"
    discard lifetime?
    return .expression .continuing
  else if atKeyword "return" ts then g.markedExpression "return" .returning
  else if atKeyword "become" ts then
    asItStands do
      keyword "become"
      discard (g.expression true)
    return .expression .provisional
  else if atGroup .bracket ts then g.arrayExpression
  else if atKeyword "let" ts then g.binding structs
  else if atKeyword "if" ts then g.conditional
  else if atKeyword "while" ts then g.whileLoop
  else if atKeyword "for" ts then g.forLoop
  else if atKeyword "loop" ts then g.endlessLoop
  else if atKeyword "match" ts then g.selection
  else if atKeyword "yield" ts then g.markedExpression "yield" .yielding
  else if atKeyword "unsafe" ts then g.markedBlock "unsafe" .uncheckedBlock
  else if atKeyword "const" ts then g.markedBlock "const" .constBlock
  else if atGroup .brace ts then
    g.body
    return .expression .block
  else if atPunct ".." ts then g.rangeTail structs
  else if atKeyword "_" ts then
    keyword "_"
    return .expression .placeholder
  else if atLifetime ts then g.labelled
  else expected "an expression"

/-! ## Rules -/

/-- Reads the sign of a reference and what it refers to. -/
def Grammar.reference (g : Grammar) (structs : Bool) : Reader Value := do
  punct "&"
  let ts ← ahead
  let raw := atKeyword "raw" ts && atOneOf ["mut", "const"] (behind ts)
  if raw then keyword "raw"
  if !(← keyword? "mut") && raw then keyword "const"
  discard (g.operand structs)
  return .expression (if raw then .rawAddress else .reference)

/-- The rule for operands. -/
def Grammar.operandRule (g : Grammar) (structs : Bool) : Reader Value := do
  let mark ← get
  let attributes ← g.attributes
  let ts ← ahead
  if atPunct "&" ts then g.reference structs
  else if atPunct "*" ts || atPunct "!" ts || atPunct "-" ts then
    punct (if atPunct "*" ts then "*" else if atPunct "!" ts then "!" else "-")
    discard (g.operand structs)
    return .expression .unary
  else
    let value ← g.trailers (← g.atom structs)
    if value = .expression .provisional then keepSpelling mark
    else if !attributes.isEmpty && value.isRange then
      throw (.refused "attributes are not allowed on range expressions starting with `..`")
    return value

/-- The rule for expressions. -/
def Grammar.expressionRule (g : Grammar) (structs : Bool) : Reader Value := do
  g.extend structs .jump (← g.operand structs)

/-- Whether an expression stands in front that ends with its closing brace in a statement. -/
def atBlockLike (ts : List Tree) : Bool :=
  let next := behind ts
  atOneOf ["if", "while", "loop", "match", "unsafe"] ts ||
    (atKeyword "for" ts && !atParameters next) ||
    (atOneOf ["try", "const"] ts && atGroup .brace next) ||
    atGroup .brace ts || atLifetime ts

/-- Reads the first operand of a statement, and answers also whether operators can follow it. A
dot or a question mark behind a closing brace goes on with the operand. -/
def Grammar.firstOperand (g : Grammar) : Reader (Value × Bool) := do
  if atBlockLike (← ahead) then
    let value ← g.atom true
    let ts ← ahead
    if (atPunct "." ts && !atPunct ".." ts) || atPunct "?" ts then
      return (← g.trailers value, true)
    else return (value, false)
  else return (← g.operand true, true)

/-- Writes attributes down in front of an expression that was read since a mark was made. A range
stands between parentheses then. -/
def attach (mark : Input) (attributes : List Tree) (value : Value) : Reader Unit := do
  if !attributes.isEmpty then
    let trees ← writtenSince mark
    writeOver mark (attributes ++ if value.isRange then [.group .paren trees] else trees)

/-- The rule for expressions that end with their closing brace if they begin like a statement.
Attributes belong to the first operand or to a range as a whole. They are not written down if they
belong to something without a settled form. -/
def Grammar.statementExpressionRule (g : Grammar) (attributes : List Tree) : Reader Value := do
  let (_, own) ← capture g.attributes
  let mark ← get
  let (first, more) ← g.firstOperand
  let settled := first ≠ .expression .provisional
  if settled then attach mark own first
  let value ← if more then g.extend true .jump first else pure first
  if settled || value.isRange then attach mark attributes value
  return value

end StateMachines.Source
