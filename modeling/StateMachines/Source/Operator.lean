import StateMachines.Source.Attribute

/-!
# Operators

Operators between operands differ in how tightly they bind. `Grammar.extendRule` reads on behind a
left operand, as long as the operators that follow bind no looser than a given precedence. Two
comparisons cannot follow one another, and a range is no operand on the left.
-/

namespace StateMachines.Source

open Reader

/-! ## Which operators there are -/

/-- The operators that have an operand on either side. One that begins another one stands behind
it. -/
def operators : List (String × Precedence) :=
  [("+=", .assign), ("-=", .assign), ("*=", .assign), ("/=", .assign), ("%=", .assign),
    ("^=", .assign), ("&=", .assign), ("|=", .assign), ("<<=", .assign), (">>=", .assign),
    ("&&", .and), ("||", .or), ("<<", .shift), (">>", .shift), ("==", .compare),
    ("<=", .compare), ("!=", .compare), (">=", .compare), ("+", .sum), ("-", .sum),
    ("*", .product), ("/", .product), ("%", .product), ("^", .bitXor), ("&", .bitAnd),
    ("|", .bitOr), ("<", .compare), (">", .compare)]

/-- The operator in front. -/
def operator? (ts : List Tree) : Option (String × Precedence) :=
  operators.find? fun (token, _) => atPunct token ts

/-- Whether an assignment stands in front. -/
def atAssignment (ts : List Tree) : Bool := atPunct "=" ts && !atPunct "=>" ts

/-- How tightly binds what stands in front; `jump` if it is no operator. -/
def precedenceAhead (ts : List Tree) : Precedence :=
  match operator? ts with
  | some (_, precedence) => precedence
  | none =>
    if atAssignment ts then .assign
    else if atPunct ".." ts then .range
    else if atKeyword "as" ts then .cast
    else .jump

/-! ## Operands -/

/-- Reads the operand on the right of an operator, with all operators in it that bind tighter.
Assignments are read from the right. -/
def Grammar.rightOperand (g : Grammar) (structs : Bool) (precedence : Precedence) :
    Reader Value := do
  repeating (fun value => do
    let ts ← ahead
    let next := precedenceAhead ts
    if precedence.rank < next.rank || (next = precedence && precedence = .assign) then
      let value ← g.extend structs next value
      return (value, (← ahead).length < ts.length)
    else return (value, false)) (← g.operand structs)

/-- Reads the dots of a range, perhaps with an equals sign, and answers whether there is one. -/
def rangeDots : Reader Bool := do
  let ts ← ahead
  if atPunct "..=" ts then
    punct "..="
    return true
  else if atPunct ".." ts && !atPunct "..." ts then
    punct ".."
    return false
  else expected "`..=`"

/-- Whether a range ends in front of what stands there. -/
def endsOpenRange (structs : Bool) (ts : List Tree) : Bool :=
  ts.isEmpty || (atPunct "." ts && !atPunct ".." ts) || (!structs && atGroup .brace ts) ||
    atKeyword "as" ts ||
    [",", ";", "?", "=>", "=", "+", "/", "%", "^", ">", "<=", "!=", "-=", "*=", "&=", "|=",
      "<<="].any (atPunct · ts)

/-- Reads the dots of a range and its end, which may be missing. -/
def Grammar.rangeTail (g : Grammar) (structs : Bool) : Reader Value := do
  let closed ← rangeDots
  if closed || !endsOpenRange structs (← ahead) then
    discard (g.rightOperand structs .range)
  return .expression .range

/-- What cannot follow a cast, if it stands in front. -/
def castError? (ts : List Tree) : Option String :=
  let next := behind ts
  if atPunct "." ts && !atPunct ".." ts then
    if atKeyword "await" next then some "`.await`"
    else if atName next && (atGroup .paren (behind next) || atPunct "::" (behind next)) then
      some "a method call"
    else some "a field access"
  else if atPunct "?" ts then some "`?`"
  else if atGroup .bracket ts then some "indexing"
  else if atGroup .paren ts then some "a function call"
  else none

/-- Reads the type of a cast. -/
def Grammar.castTail (g : Grammar) : Reader Value := do
  keyword "as"
  discard (g.type false)
  match castError? (← ahead) with
  | some what => refuse ("casts cannot be followed by " ++ what)
  | none => return .expression .cast

/-- Reads one operator behind an operand, and what belongs to it. The answer also tells whether
there was one that binds no looser than given. -/
def Grammar.extendOnce (g : Grammar) (structs : Bool) (base : Precedence) (left : Value) :
    Reader (Value × Bool) := do
  let ts ← ahead
  if left.isRange then return (left, false)
  match operator? ts with
  | some (token, precedence) =>
    if precedence.rank < base.rank then return (left, false)
    let compares := precedence = .compare
    if compares && left.isComparison then
      refuse "comparison operators cannot be chained"
    punct token
    discard (g.rightOperand structs precedence)
    return (.expression (.binary compares), true)
  | none =>
    if base.rank ≤ Precedence.assign.rank && atAssignment ts then
      punct "="
      discard (g.rightOperand structs .assign)
      return (.expression .assignment, true)
    else if base.rank ≤ Precedence.range.rank && atPunct ".." ts then
      return (← g.rangeTail structs, true)
    else if base.rank ≤ Precedence.cast.rank && atKeyword "as" ts then
      return (← g.castTail, true)
    else return (left, false)

/-- The rule for operators behind an operand. -/
def Grammar.extendRule (g : Grammar) (structs : Bool) (base : Precedence) (left : Value) :
    Reader Value :=
  repeating (g.extendOnce structs base) left

end StateMachines.Source
