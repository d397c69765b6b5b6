import StateMachines.Source.Name
import StateMachines.Source.Token

/-!
# What lies ahead

Which rule of the language applies shows in the next few trees. Here are the questions about them.
-/

namespace StateMachines.Source

/-- Whether punctuation characters stand in front, one after another at once. -/
def atChars : List Char → List Tree → Bool
  | [], _ => true
  | c :: cs, .punct d joint :: rest => c = d && (cs.isEmpty || (joint && atChars cs rest))
  | _, _ => false

/-- Whether a punctuation token stands in front. It may be the beginning of a longer one. -/
def atPunct (token : String) (ts : List Tree) : Bool := atChars token.toList ts

/-- Whether a certain identifier stands in front. -/
def atKeyword (keyword : String) : List Tree → Bool
  | .ident s :: _ => s = keyword
  | _ => false

/-- Whether one of some identifiers stands in front. -/
def atOneOf (keywords : List String) : List Tree → Bool
  | .ident s :: _ => s ∈ keywords
  | _ => false

/-- Whether any identifier stands in front. -/
def atWord : List Tree → Bool
  | .ident _ :: _ => true
  | _ => false

/-- Whether an identifier that is not reserved stands in front. -/
def atName : List Tree → Bool
  | .ident s :: _ => isName s
  | _ => false

/-- Whether the name of a lifetime stands in front. -/
def atLifetime : List Tree → Bool
  | .punct '\x27' _ :: .ident _ :: _ => true
  | _ => false

/-- Whether something between certain delimiters stands in front. -/
def atGroup (d : Delimiter) : List Tree → Bool
  | .group d' _ :: _ => d = d'
  | _ => false

/-- Whether a literal is a number. -/
def Literal.isNumber : Literal → Bool
  | .int | .float => true
  | _ => false

/-- The literal in front, its spelling, and what follows it. A number may have a sign. -/
def literal? : List Tree → Option (Literal × String × List Tree)
  | .literal value s :: rest => some (value, s, rest)
  | .ident "true" :: rest => some (.bool true, "true", rest)
  | .ident "false" :: rest => some (.bool false, "false", rest)
  | .punct '-' _ :: .literal value s :: rest =>
    if value.isNumber then some (value, "-" ++ s, rest) else none
  | _ => none

/-- Whether a literal stands in front. -/
def atLiteral (ts : List Tree) : Bool := (literal? ts).isSome

/-- What lies behind the tree in front. A lifetime counts as one. -/
def behind : List Tree → List Tree
  | .punct '\x27' _ :: .ident _ :: rest => rest
  | _ :: rest => rest
  | [] => []

end StateMachines.Source
