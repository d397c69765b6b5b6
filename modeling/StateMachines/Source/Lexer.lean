import StateMachines.Source.Number
import StateMachines.Source.StringLiteral
import StateMachines.Source.Token
import StateMachines.Text.Blank
import StateMachines.Text.Escape

/-!
# Reading tokens

`tokens?` reads source text as a sequence of tokens. Blanks and comments separate tokens and are
skipped, but for comments that are documentation: these stand for an attribute. Block comments
nest.

A literal is read where one can be, then punctuation, then an identifier.
-/

namespace StateMachines.Source

open Text (isBlank isIdentStart isIdentContinue quote)

/-! ## Comments -/

/-- The rest of the line, and what follows it. -/
def takeLine : List Char → List Char × List Char
  | [] => ([], [])
  | '\n' :: rest => ([], '\n' :: rest)
  | '\r' :: '\n' :: rest => ([], '\n' :: rest)
  | c :: rest =>
    let (line, rest) := takeLine rest
    (c :: line, rest)

/-- The rest of a block comment inside `depth` others, and what follows it. -/
def blockBody (depth : Nat) : List Char → Option (List Char × List Char)
  | [] => none
  | '/' :: '*' :: rest =>
    (blockBody (depth + 1) rest).map fun (body, rest) => ('/' :: '*' :: body, rest)
  | '*' :: '/' :: rest =>
    match depth with
    | 0 => some ([], rest)
    | depth + 1 => (blockBody depth rest).map fun (body, rest) => ('*' :: '/' :: body, rest)
  | c :: rest => (blockBody depth rest).map fun (body, rest) => (c :: body, rest)

/-- Whether a carriage return stands without a line feed. -/
def hasBareReturn : List Char → Bool
  | '\r' :: '\n' :: rest => hasBareReturn rest
  | '\r' :: _ => true
  | _ :: rest => hasBareReturn rest
  | [] => false

/-- The attribute a documentation comment stands for. -/
def docTokens (inner : Bool) (text : List Char) : Option (List Token) :=
  if hasBareReturn text then none
  else
    let value := String.ofList text
    some (
      [.punct '#' false] ++ (if inner then [.punct '!' false] else []) ++
      [.opening .bracket, .ident "doc", .punct '=' false,
        .literal (.string value false) (quote value), .closing .bracket])

/-- Reads a comment: what it stands for, and what follows it. -/
def comment? (cs : List Char) : Option (List Token × List Char) :=
  let line (inner : Bool) (rest : List Char) :=
    let (text, rest) := takeLine rest
    (docTokens inner text).map (·, rest)
  let block (inner : Bool) (rest : List Char) := do
    let (text, rest) ← blockBody 0 rest
    let tokens ← docTokens inner (text.drop 1)
    return (tokens, rest)
  match cs with
  | '/' :: '/' :: '/' :: '/' :: rest => some ([], (takeLine rest).2)
  | '/' :: '/' :: '/' :: rest => line false rest
  | '/' :: '/' :: '!' :: rest => line true rest
  | '/' :: '/' :: rest => some ([], (takeLine rest).2)
  | '/' :: '*' :: '*' :: '/' :: rest => some ([], rest)
  | '/' :: '*' :: '*' :: '*' :: rest => (blockBody 0 ('*' :: '*' :: rest)).map fun p => ([], p.2)
  | '/' :: '*' :: '*' :: rest => block false ('*' :: rest)
  | '/' :: '*' :: '!' :: rest => block true ('!' :: rest)
  | '/' :: '*' :: rest => (blockBody 0 rest).map fun p => ([], p.2)
  | _ => none

/-! ## Literals -/

/-- What an ordinary or raw string literal holds, and what follows it. -/
def quoted? (flavour : Flavour) (cs : List Char) : Option (String × List Char) :=
  let body := match cs with
    | '\x22' :: rest => stringBody flavour .plain [] rest
    | 'r' :: rest => rawString flavour rest
    | _ => none
  body.map fun (value, rest) => (String.ofList value, rest)

/-- A literal between single quotes, and what follows it and its suffix. -/
def character? (flavour : Flavour) (cs : List Char) : Option (List Char) :=
  match cs with
  | '\x27' :: rest => (charBody flavour .plain rest).map dropSuffix
  | _ => none

/-- Reads a literal that begins with the mark of its kind. -/
def marked? (cs : List Char) : Option (Literal × List Char) :=
  match cs with
  | 'b' :: rest =>
    match quoted? .bytes rest with
    | some (_, rest) => some (.byteString, dropSuffix rest)
    | none => (character? .bytes rest).map (.byte, ·)
  | 'c' :: rest => (quoted? .cText rest).map fun (_, rest) => (.cString, dropSuffix rest)
  | _ => none

/-- Reads a literal and its suffix. -/
def literalToken? (cs : List Char) : Option (Literal × List Char) :=
  ((quoted? .text cs).map fun (value, rest) =>
    let after := dropSuffix rest
    (.string value (after.length < rest.length), after)) <|>
    marked? cs <|>
    ((character? .text cs).map (.char, ·)) <|>
    ((float? cs).map (.float, ·)) <|>
    ((int? cs).map (.int, ·))

/-! ## Identifiers and punctuation -/

/-- Reads an identifier without a mark. -/
def plainIdent? (cs : List Char) : Option (List Char × List Char) :=
  match cs with
  | c :: rest =>
    if isIdentStart c then
      let (name, rest) := rest.span isIdentContinue
      some (c :: name, rest)
    else none
  | [] => none

/-- The names that cannot be marked as raw. -/
def unmarkable : List String := ["_", "super", "self", "Self", "crate"]

/-- Reads an identifier or keyword, as it is spelled. -/
def anyIdent? (cs : List Char) : Option (String × List Char) :=
  match cs with
  | 'r' :: '#' :: marked =>
    match plainIdent? marked with
    | some (name, rest) =>
      if String.ofList name ∈ unmarkable then none
      else some ("r#" ++ String.ofList name, rest)
    | none => none
  | _ => (plainIdent? cs).map fun (name, rest) => (String.ofList name, rest)

/-- What begins a literal and therefore no identifier. -/
def literalOpenings : List (List Char) :=
  ["r\"", "r#\"", "r##", "b\"", "b\x27", "br\"", "br#", "c\"", "cr\"", "cr#"].map String.toList

/-- Reads an identifier where no literal begins. -/
def ident? (cs : List Char) : Option (String × List Char) :=
  if literalOpenings.any (·.isPrefixOf cs) then none else anyIdent? cs

/-- The punctuation characters. -/
def punctuation : List Char := "~!@#$%^&*-=+|;:,<.>/?\x27".toList

/-- Reads a punctuation character; the beginning of a comment is none. -/
def punctChar? (cs : List Char) : Option (Char × List Char) :=
  match cs with
  | '/' :: '/' :: _ => none
  | '/' :: '*' :: _ => none
  | c :: rest => if c ∈ punctuation then some (c, rest) else none
  | [] => none

/-- Reads punctuation. A single quote is the mark of a lifetime and must be followed by its name,
but not by the name and another quote. -/
def punctToken? (cs : List Char) : Option (Token × List Char) :=
  match punctChar? cs with
  | some (c, rest) =>
    if c = '\x27' then
      match anyIdent? rest with
      | some (_, '\x27' :: _) => none
      | some (_, '#' :: _) =>
        if "r#".toList.isPrefixOf rest then some (.punct c true, rest) else none
      | some _ => some (.punct c true, rest)
      | none => none
    else some (.punct c (punctChar? rest).isSome, rest)
  | none => none

/-! ## Tokens -/

/-- The token of a delimiter. -/
def delimiter? (c : Char) : Option Token :=
  if c = '(' then some (.opening .paren)
  else if c = ')' then some (.closing .paren)
  else if c = '[' then some (.opening .bracket)
  else if c = ']' then some (.closing .bracket)
  else if c = '\x7b' then some (.opening .brace)
  else if c = '\x7d' then some (.closing .brace)
  else none

/-- The mark that stands where no literal could be made. -/
def faultMark : List Char := "(/*ERROR*/)".toList

/-- The part of a text in front of a rest of it. -/
def spellingBefore (cs rest : List Char) : String :=
  String.ofList (cs.take (cs.length - rest.length))

/-- Reads a literal, punctuation or an identifier. -/
def leaf? (cs : List Char) : Option (Token × List Char) :=
  match literalToken? cs with
  | some (value, rest) => some (.literal value (spellingBefore cs rest), rest)
  | none => punctToken? cs <|> (ident? cs).map fun (name, rest) => (.ident name, rest)

/-- Reads one token, comment or blank: what it stands for, and what follows it. -/
def lexeme? (cs : List Char) : Option (List Token × List Char) :=
  match cs with
  | [] => none
  | c :: rest =>
    if isBlank c then some ([], rest)
    else if faultMark.isPrefixOf cs then
      some ([.literal .fault (String.ofList faultMark)], cs.drop faultMark.length)
    else
      comment? cs <|>
        match delimiter? c with
        | some token => some ([token], rest)
        | none => (leaf? cs).map fun (token, rest) => ([token], rest)

/-- Reads tokens up to the end of a text, at most as many as a list is long. -/
def tokensAlong : List Char → List Char → Option (List Token)
  | _, [] => some []
  | [], _ :: _ => none
  | _ :: bound, cs =>
    match lexeme? cs with
    | some (tokens, rest) => (tokensAlong bound rest).map (tokens ++ ·)
    | none => none

/-- Reads tokens up to the end of a text. Each of them takes at least one character. -/
def tokensFrom (cs : List Char) : Option (List Token) := tokensAlong cs cs

/-- The tokens of a text, which may begin with a byte order mark. -/
def tokens? (text : String) : Option (List Token) :=
  match text.toList with
  | '\ufeff' :: rest => tokensFrom rest
  | cs => tokensFrom cs

/-- The token trees of a text. -/
def read? (text : String) : Option (List Tree) := (tokens? text).bind trees?

end StateMachines.Source
