import StateMachines.Derive.Declaration
import StateMachines.Source.Reader

/-!
# The parts of the language

Types, patterns and expressions contain one another. A `Grammar` holds a reader for each of them;
the rules for one part are functions of a grammar, which they use for the parts inside. What a
reader answers is no more than the rules around it have to know.
-/

namespace StateMachines.Source

open Derive (Path)

/-- What kind of type has been read. -/
inductive TypeKind where
  /-- A name, perhaps with arguments between angle brackets. -/
  | named
  /-- Some other path. -/
  | path
  /-- A sum of bounds, or a single one. -/
  | bounds (single : Bool)
  | other
deriving DecidableEq, Inhabited

/-- What kind of bound has been read. -/
inductive BoundKind where
  | lifetime
  | capture
  | trait
deriving DecidableEq, Inhabited

/-- What kind of pattern has been read. -/
inductive PatternKind where
  /-- Two dots, which stand for all the rest. -/
  | rest
  /-- A range without one of its ends. -/
  | openRange
  /-- A pattern for what is in a box, which the language has no settled form for. -/
  | boxed
  | other
deriving DecidableEq, Inhabited

/-- What kind of expression has been read, if it is neither a literal nor a path. -/
inductive ExpressionKind where
  | array
  | assignment
  | asyncBlock
  | awaiting
  /-- An operation with two operands. -/
  | binary (comparison : Bool)
  | block
  | breaking
  | call
  | cast
  | closure
  | constBlock
  | continuing
  | field
  | forLoop
  | conditional
  | index
  | placeholder
  | binding
  | loop
  /-- A macro, and what its arguments stand between. -/
  | expansion (d : Delimiter)
  | selection
  | methodCall
  | paren
  | range
  | rawAddress
  | reference
  | repetition
  | returning
  | record
  | propagation
  | tryBlock
  | tuple
  | unary
  | uncheckedBlock
  /-- Something for which the language has no settled form. -/
  | provisional
  | whileLoop
  | yielding
deriving DecidableEq, Inhabited

/-- The value of an expression, as far as it matters. -/
inductive Value where
  | literal (literal : Literal)
  | path (path : Path)
  | expression (kind : ExpressionKind)
deriving DecidableEq, Inhabited

/-- Whether an expression is a range. -/
def Value.isRange : Value → Bool
  | .expression .range => true
  | _ => false

/-- Whether an expression compares two operands. -/
def Value.isComparison : Value → Bool
  | .expression (.binary comparison) => comparison
  | _ => false

/-- How tightly an operator binds, the loosest first. -/
inductive Precedence where
  | jump
  | assign
  | range
  | or
  | and
  | binding
  | compare
  | bitOr
  | bitXor
  | bitAnd
  | shift
  | sum
  | product
  | cast
deriving DecidableEq, Inhabited

/-- The place of an operator's precedence. -/
def Precedence.rank : Precedence → Nat
  | .jump => 0
  | .assign => 1
  | .range => 2
  | .or => 3
  | .and => 4
  | .binding => 5
  | .compare => 6
  | .bitOr => 7
  | .bitXor => 8
  | .bitAnd => 9
  | .shift => 10
  | .sum => 11
  | .product => 12
  | .cast => 13

/-- Readers for the parts of the language. -/
structure Grammar where
  /-- Reads a type. With `plus` it may be several bounds. -/
  type : (plus : Bool) → Reader TypeKind
  /-- Reads a bound, which may be a capture or refer to constants only where this is allowed. -/
  bound : (capture const : Bool) → Reader BoundKind
  /-- Reads a pattern that is no choice between several. -/
  pattern : Reader PatternKind
  /-- Reads an expression. With `structs` it may be a record. -/
  expression : (structs : Bool) → Reader Value
  /-- Reads an expression in which no operator stands between operands. -/
  operand : (structs : Bool) → Reader Value
  /-- Reads on after an operand, as long as operators bind no looser than given. -/
  extend : (structs : Bool) → Precedence → Value → Reader Value
  /-- Reads an expression that ends with its closing brace if it begins like a statement. What
  stands in front of it as attributes is given. -/
  statementExpression : (attributes : List Tree) → Reader Value
  /-- Reads the named fields of a record type. -/
  fields : Reader Unit
  /-- Reads the statements of a block. -/
  statements : Reader Unit
  /-- Reads a declaration behind its attributes, and answers whether it is written down as it
  stands. -/
  declaration : Reader Bool

/-- Reads a block. -/
def Grammar.block (g : Grammar) : Reader Unit := Reader.within .brace g.statements

end StateMachines.Source
