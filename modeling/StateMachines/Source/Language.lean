import StateMachines.Source.Declaration
import StateMachines.Source.Lexer
import StateMachines.Source.Statement

/-!
# The language

The parts of the language can stand inside one another. `Grammar.nested` is the grammar in which
they do so at most a given number of times; no part of a text is nested deeper than there are trees
in it, which is what `readPart` allows for.
-/

namespace StateMachines.Source

/-- Fails because a part stands inside too many others. -/
def tooDeep {α : Type} : Reader α := throw (.refused "too many parts inside one another")

/-- The grammar in which parts stand inside one another at most so many times. -/
def Grammar.nested : Nat → Grammar
  | 0 =>
    { type := fun _ => tooDeep
      bound := fun _ _ => tooDeep
      pattern := tooDeep
      expression := fun _ => tooDeep
      operand := fun _ => tooDeep
      extend := fun _ _ _ => tooDeep
      statementExpression := fun _ => tooDeep
      fields := tooDeep
      statements := tooDeep
      declaration := tooDeep }
  | depth + 1 =>
    { type := fun plus s => (nested depth).typeRule plus s
      bound := fun capture const s => (nested depth).boundRule capture const s
      pattern := fun s => (nested depth).patternRule s
      expression := fun structs s => (nested depth).expressionRule structs s
      operand := fun structs s => (nested depth).operandRule structs s
      extend := fun structs base left s => (nested depth).extendRule structs base left s
      statementExpression := fun attributes s => (nested depth).statementExpressionRule attributes s
      fields := fun s => (nested depth).fieldsRule s
      statements := fun s => (nested depth).statementsRule s
      declaration := fun s => (nested depth).declarationRule s }

/-- Reads all of a sequence of trees as a certain part of the language. From one tree to the next,
at most four rules follow one another without taking any. -/
def readPart {α : Type} (part : Grammar → Reader α) (ts : List Tree) : Except ReadError α :=
  (part (Grammar.nested (4 * treesSize ts + 4))).readAll ts

end StateMachines.Source
