import StateMachines.Source.Ahead

/-!
# Reading trees

A `Reader` takes trees from the front of a sequence and answers what it made of them, or what is
wrong with them. What it has taken it also writes down, each token spelled on its own, so that a
part of a text can be repeated in a uniform spelling.
-/

namespace StateMachines.Source

/-! ## Errors -/

/-- Why a text cannot be read. -/
inductive ReadError where
  /-- One of some things was expected where something else stands, or nothing. -/
  | expected (whats : List String) (atEnd : Bool)
  /-- What stands there, or that nothing does, is against a rule. -/
  | refused (reason : String) (atEnd : Bool := false)
  /-- Something was left unread, perhaps before a closing delimiter. -/
  | unread (before : Option Delimiter)
deriving DecidableEq, Inhabited

/-- Several things of which one is wanted. -/
def alternatives (whats : List String) : String :=
  match whats with
  | [what] => what
  | [one, other] => one ++ " or " ++ other
  | _ => "one of: " ++ ", ".intercalate whats

/-- The wording of an error. -/
def ReadError.message : ReadError → String
  | .expected whats atEnd => ended atEnd ++ "expected " ++ alternatives whats
  | .refused reason atEnd => ended atEnd ++ reason
  | .unread none => "unexpected token"
  | .unread (some d) => s!"unexpected token, expected `{d.closing}`"
where
  /-- The beginning of a message about a text that has come to its end. -/
  ended (atEnd : Bool) : String := if atEnd then "unexpected end of input, " else ""

/-! ## Readers -/

/-- Where a reading has come to. -/
structure Input where
  rest : List Tree
  /-- What has been read, in reverse. -/
  written : List Tree := []
  /-- The delimiters that closed first with something unread before them. -/
  stray : Option Delimiter := none

/-- Takes trees from the front of the input, or fails. -/
abbrev Reader (α : Type) := StateT Input (Except ReadError) α

namespace Reader

variable {α σ : Type}

/-- The trees that are still to be read. -/
def ahead : Reader (List Tree) := return (← get).rest

/-- Fails because one of some things was expected. -/
def expectedOneOf (whats : List String) : Reader α := do
  throw (.expected whats (← ahead).isEmpty)

/-- Fails because something else was expected. -/
def expected (what : String) : Reader α := expectedOneOf [what]

/-- Fails because of what stands ahead. -/
def refuse (reason : String) : Reader α := do throw (.refused reason (← ahead).isEmpty)

/-- Writes trees down. -/
def write (trees : List Tree) : Reader Unit :=
  modify fun s => { s with written := trees.reverse ++ s.written }

/-- Goes on behind some trees and writes others down for them. -/
def skipTo (rest trees : List Tree) : Reader Unit :=
  modify fun s => { s with rest, written := trees.reverse ++ s.written }

/-- Reads something and answers also what it wrote down, instead of writing it down. -/
def capture (r : Reader α) : Reader (α × List Tree) := do
  let before := (← get).written
  modify fun s => { s with written := [] }
  let a ← r
  let written := (← get).written.reverse
  modify fun s => { s with written := before }
  return (a, written)

/-! ### Spelling -/

/-- What has been read since a mark was made. -/
def readSince (mark : Input) : Reader (List Tree) :=
  return mark.rest.take (mark.rest.length - (← ahead).length)

/-- What has been written down since a mark was made. -/
def writtenSince (mark : Input) : Reader (List Tree) := do
  let written := (← get).written
  return (written.take (written.length - mark.written.length)).reverse

/-- Writes trees down in place of what has been written down since a mark was made. -/
def writeOver (mark : Input) (trees : List Tree) : Reader Unit :=
  modify fun s => { s with written := trees.reverse ++ mark.written }

/-- Writes down as it stands what has been read since a mark was made. -/
def keepSpelling (mark : Input) : Reader Unit := do writeOver mark (← readSince mark)

/-- Reads something that is written down as it stands. -/
def asItStands (r : Reader α) : Reader α := do
  let mark ← get
  let a ← r
  keepSpelling mark
  return a

/-- Reads something that is written down as it stands if the answer says so. -/
def asItStandsIf (r : Reader Bool) : Reader Unit := do
  let mark ← get
  if ← r then keepSpelling mark

/-! ### Tokens -/

/-- The characters of a punctuation token. -/
def punctTrees : List Char → List Tree
  | [] => []
  | [c] => [.punct c false]
  | c :: cs => .punct c true :: punctTrees cs

/-- Reads a punctuation token. That it is missing is put in the same way at the end of the input. -/
def punct (token : String) : Reader Unit := do
  let ts ← ahead
  if atPunct token ts then skipTo (ts.drop token.length) (punctTrees token.toList)
  else throw (.expected [s!"`{token}`"] false)

/-- Reads a punctuation token if it stands in front, and answers whether it did. -/
def punct? (token : String) : Reader Bool := do
  if atPunct token (← ahead) then
    punct token
    return true
  else return false

/-- Reads any identifier. -/
def word : Reader String := do
  match ← ahead with
  | .ident s :: rest =>
    skipTo rest [.ident s]
    return s
  | _ => expected "ident"

/-- Reads an identifier that is not reserved. -/
def name : Reader String := do
  match ← ahead with
  | .ident s :: _ =>
    if isName s then word else expected s!"identifier, found keyword `{s}`"
  | _ => expected "identifier"

/-- Reads a certain identifier. -/
def keyword (s : String) : Reader Unit := do
  if atKeyword s (← ahead) then discard word else expected s!"`{s}`"

/-- Reads a certain identifier if it stands in front, and answers whether it did. -/
def keyword? (s : String) : Reader Bool := do
  if atKeyword s (← ahead) then
    keyword s
    return true
  else return false

/-- Reads the name of a lifetime. -/
def lifetime : Reader Unit := do
  match ← ahead with
  | .punct '\x27' joint :: .ident s :: rest =>
    skipTo rest [.punct '\x27' joint, .ident s]
  | _ => expected "lifetime"

/-- Reads the name of a lifetime if it stands in front, and answers whether it did. -/
def lifetime? : Reader Bool := do
  if atLifetime (← ahead) then
    lifetime
    return true
  else return false

/-- Reads a literal. The sign of a number is a token of its own. -/
def literal : Reader Literal := do
  let ts ← ahead
  match literal? ts with
  | some (value, _, rest) =>
    skipTo rest (ts.take (if atPunct "-" ts then 2 else 1))
    return value
  | none => expected "literal"

/-! ### Groups -/

/-- Reads what stands between delimiters. Whether all of it is read shows only in the end. -/
def within (d : Delimiter) (r : Reader α) : Reader α := do
  let s ← get
  match s.rest with
  | .group d' content :: rest =>
    if d' = d then
      let (a, inner) ← r.run { rest := content, stray := s.stray }
      set { s with
        rest
        written := .group d inner.written.reverse :: s.written
        stray := inner.stray <|> if inner.rest.isEmpty then none else some d }
      return a
    else expected d.plural
  | _ => expected d.plural

/-- Reads anything between delimiters and answers what they are. -/
def anyGroup : Reader Delimiter := do
  match ← ahead with
  | .group d content :: rest =>
    skipTo rest [.group d content]
    return d
  | _ => expected "delimiter"

/-- Reads all that is left, whatever it is. -/
def anything : Reader Unit := do skipTo [] (← ahead)

/-! ### Repetition -/

/-- Repeats a step as long as it asks for it, but at most once for each tree and once more. -/
def repeatAlong (step : σ → Reader (σ × Bool)) : List Tree → σ → Reader σ
  | [], state => Prod.fst <$> step state
  | _ :: rest, state => do
    let (state, more) ← step state
    if more then repeatAlong step rest state else return state

/-- Repeats a step as long as it asks for it. A step that does takes at least one tree, so no
more of them can follow than there are trees. -/
def repeating (step : σ → Reader (σ × Bool)) (start : σ) : Reader σ := do
  repeatAlong step (← ahead) start

/-- Reads items up to where `stop` holds, with a separator between two of them and perhaps after
the last one. The answer also tells whether one stands there. -/
def separated (token : String) (stop : List Tree → Bool) (item : Reader α) :
    Reader (List α × Bool) := do
  let (items, trailing) ← repeating (fun (items, trailing) => do
    if stop (← ahead) then return ((items, trailing), false)
    let items := (← item) :: items
    if stop (← ahead) then return ((items, false), false)
    punct token
    return ((items, true), true)) ([], false)
  return (items.reverse, trailing)

/-- Reads items up to where `stop` holds or no separator follows. The answer also tells whether a
separator stands at the end. -/
def joined (token : String) (stop : List Tree → Bool) (item : Reader α) :
    Reader (List α × Bool) := do
  let (items, trailing) ← repeating (fun (items, trailing) => do
    if stop (← ahead) then return ((items, trailing), false)
    let items := (← item) :: items
    let more ← punct? token
    return ((items, more), more)) ([], false)
  return (items.reverse, trailing)

/-- Reads items separated by commas up to the end of the input. -/
def commaSeparated (item : Reader α) : Reader (List α) :=
  Prod.fst <$> separated "," List.isEmpty item

/-- Reads items as long as there are some. -/
def collect (item? : Reader (Option α)) : Reader (List α) := do
  let items ← repeating (fun items => do
    match ← item? with
    | some a => return (a :: items, true)
    | none => return (items, false)) []
  return items.reverse

/-! ### The end of the input -/

/-- Reads all of a sequence of trees. -/
def readAll (r : Reader α) (ts : List Tree) : Except ReadError α :=
  match r.run { rest := ts } with
  | .error e => .error e
  | .ok (a, s) =>
    match s.stray with
    | some d => .error (.unread d)
    | none => if s.rest.isEmpty then .ok a else .error (.unread none)

end Reader

end StateMachines.Source
