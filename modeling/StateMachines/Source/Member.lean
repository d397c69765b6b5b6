import StateMachines.Source.Lexer
import StateMachines.Source.Reader

/-!
# Members

A member of a record has a name, a member of a tuple a number. Numbers are written down in decimal
digits, however they are spelled.
-/

namespace StateMachines.Source

open Reader
open Text (hexDigit?)

/-! ## Numbers -/

/-- The value of digits, between which underscores may stand. Nothing may follow them. -/
def digitsValue (base : Nat) (cs : List Char) : Except String Nat :=
  let isDigit (c : Char) : Bool := c = '_' || (hexDigit? c).any (· < base)
  if (cs.dropWhile isDigit).isEmpty then
    .ok <| (cs.takeWhile isDigit).foldl (fun value c =>
      match hexDigit? c with
      | some digit => base * value + digit
      | none => value) 0
  else .error "expected unsuffixed integer"

/-- The value of an integer literal without a sign. -/
def magnitude : List Char → Except String Nat
  | '0' :: 'x' :: cs => digitsValue 16 cs
  | '0' :: 'o' :: cs => digitsValue 8 cs
  | '0' :: 'b' :: cs => digitsValue 2 cs
  | cs => digitsValue 10 cs

/-- The number of a member that an integer literal spells. -/
def memberNumber : List Char → Except String Nat
  | '-' :: cs =>
    match magnitude cs with
    | .ok _ => .error "invalid digit found in string"
    | .error message => .error message
  | cs =>
    match magnitude cs with
    | .ok n => if n < UInt32.size then .ok n else .error "number too large to fit in target type"
    | .error message => .error message

/-- The number of a member that a part of a float spells. -/
def partNumber (cs : List Char) : Except String Nat :=
  match literalToken? (if cs.head? = some '-' then cs.drop 1 else cs) with
  | some (.int, []) => memberNumber cs
  | some (.float, []) => .error "expected integer literal"
  | _ => .error "cannot parse string into token stream"

/-- The numbers of members that a float spells, with a dot between two of them. -/
def memberNumbers (spelling : String) : Except String (List Nat) :=
  let parts := spelling.splitOn "."
  let parts := if parts.getLast? = some "" then parts.dropLast else parts
  parts.mapM fun part => partNumber part.toList

/-! ## Reading -/

/-- A number as it is written down. -/
def numberTree (n : Nat) : Tree := .literal .int (toString n)

/-- Reads the name or number of a member, and answers whether it is a name. -/
def member : Reader Bool := do
  let ts ← ahead
  if atName ts then
    discard name
    return true
  match literal? ts with
  | some (.int, s, rest) =>
    match memberNumber s.toList with
    | .ok n =>
      skipTo rest [numberTree n]
      return false
    | .error message => throw (.refused message)
  | _ => expected "identifier or integer"

/-- Reads a float in front as numbers of members that follow one another, if there is one. The
answer tells whether another member has to follow. -/
def members? : Reader Bool := do
  match literal? (← ahead) with
  | some (.float, s, rest) =>
    match memberNumbers s with
    | .ok numbers =>
      let dot := Tree.punct '.' false
      let more := s.endsWith "."
      skipTo rest ((numbers.map numberTree).intersperse dot ++ if more then [dot] else [])
      return more
    | .error message => throw (.refused message)
  | _ => return true

end StateMachines.Source
