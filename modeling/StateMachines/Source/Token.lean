/-!
# Tokens and token trees

Source text is read as a sequence of tokens, and these as trees: what stands between two matching
delimiters is one tree.
-/

namespace StateMachines.Source

/-- What a literal is. Only the values of strings and flags matter. -/
inductive Literal where
  /-- A string, and whether something is appended to its closing quote. -/
  | string (value : String) (suffixed : Bool)
  | bool (value : Bool)
  | byteString
  | cString
  | byte
  | char
  | int
  | float
  /-- The mark that stands where no literal could be made. -/
  | fault
deriving DecidableEq, Inhabited

/-- A pair of delimiters. -/
inductive Delimiter where
  | paren
  | bracket
  | brace
deriving DecidableEq, Inhabited

/-- A token. -/
inductive Token where
  /-- An identifier or keyword, as it is spelled. -/
  | ident (spelling : String)
  /-- A punctuation character. It is joint if another one follows at once. -/
  | punct (c : Char) (joint : Bool)
  | literal (value : Literal) (spelling : String)
  | opening (d : Delimiter)
  | closing (d : Delimiter)
deriving DecidableEq, Inhabited

/-- A token tree. -/
inductive Tree where
  | ident (spelling : String)
  | punct (c : Char) (joint : Bool)
  | literal (value : Literal) (spelling : String)
  /-- What stands between two matching delimiters. -/
  | group (d : Delimiter) (content : List Tree)
deriving Inhabited

/-- The trees of a sequence of tokens. `current` holds the trees read since the last delimiter
that is still open, and `stack` what was read before each of these, all in reverse. -/
def treesFrom (stack : List (Delimiter × List Tree)) (current : List Tree) :
    List Token → Option (List Tree)
  | [] => if stack.isEmpty then some current.reverse else none
  | .ident s :: rest => treesFrom stack (.ident s :: current) rest
  | .punct c joint :: rest => treesFrom stack (.punct c joint :: current) rest
  | .literal value s :: rest => treesFrom stack (.literal value s :: current) rest
  | .opening d :: rest => treesFrom ((d, current) :: stack) [] rest
  | .closing d :: rest =>
    match stack with
    | (open_, outer) :: stack =>
      if open_ = d then treesFrom stack (.group d current.reverse :: outer) rest else none
    | [] => none

/-- The trees of a sequence of tokens, or `none` if its delimiters do not match. -/
def trees? (tokens : List Token) : Option (List Tree) := treesFrom [] [] tokens

mutual

/-- How many trees there are in a tree. -/
def Tree.size : Tree → Nat
  | .group _ content => treesSize content + 1
  | _ => 1

/-- How many trees there are in a sequence, with those between delimiters. -/
def treesSize : List Tree → Nat
  | [] => 0
  | t :: rest => t.size + treesSize rest

end

/-- What delimiters are called. -/
def Delimiter.plural : Delimiter → String
  | .paren => "parentheses"
  | .bracket => "square brackets"
  | .brace => "curly braces"

/-- The closing one of a pair of delimiters. -/
def Delimiter.closing : Delimiter → String
  | .paren => ")"
  | .bracket => "]"
  | .brace => "\x7d"

/-- The written form of an opening delimiter. Between braces there are blanks. -/
def Delimiter.openingText : Delimiter → String
  | .paren => "("
  | .bracket => "["
  | .brace => "\x7b "

/-- The written form of a closing delimiter. There are no two blanks between braces. -/
def Delimiter.closingText (d : Delimiter) (closesEmpty : Bool) : String :=
  if d = .brace && !closesEmpty then " " ++ d.closing else d.closing

mutual

/-- The pieces of the written form of a tree, and others behind them. -/
def Tree.pieces : Tree → List String → List String
  | .ident s, others => s :: others
  | .punct c _, others => c.toString :: others
  | .literal _ s, others => s :: others
  | .group d content, others =>
    d.openingText :: treesPieces content (d.closingText content.isEmpty :: others)

/-- The pieces of the written form of trees, and others behind them. Trees are separated by blanks,
except after joint punctuation. -/
def treesPieces : List Tree → List String → List String
  | [], others => others
  | [t], others => t.pieces others
  | t :: rest, others =>
    match t with
    | .punct c true => c.toString :: treesPieces rest others
    | _ => t.pieces (" " :: treesPieces rest others)

end

/-- The written form of trees. -/
def treesText (ts : List Tree) : String := String.join (treesPieces ts [])

end StateMachines.Source
