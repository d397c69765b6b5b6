import StateMachines.Source.Language

/-!
# Settings

An attribute in list form holds entries separated by commas, which are settings or bare literals.
`settings` reads them; `Setting.asText`, `Setting.asFlag`, `Setting.asPath` and `Setting.asPaths`
say what a setting means where a text, a flag, a path or a list of paths is wanted.
-/

namespace StateMachines.Source

open Derive (Path)
open Reader

/-! ## Reading -/

/-- An entry of a list. -/
inductive Entry where
  | literal
  | setting (setting : Setting)
deriving Inhabited

/-- Reads an entry. A flag in front of an equals sign is the path of a setting, though not a valid
one. -/
def Grammar.entry (g : Grammar) : Reader Entry := do
  let ts ← ahead
  if atLiteral ts && !(atOneOf ["true", "false"] ts && atPunct "=" (behind ts)) then
    discard literal
    return .literal
  else if atWord ts || (atPunct "::" ts && atWord (ts.drop 2)) then return .setting (← g.setting)
  else expected "identifier or literal"

/-- The entries of a list. -/
def settings (content : List Tree) : Except ReadError (List Entry) :=
  readPart (fun g => commaSeparated g.entry) content

/-- The path a text consists of. -/
def pathOfText? (text : String) : Option Path :=
  (read? text).bind fun ts => (readPart (fun g => g.path true) ts).toOption

/-! ## Meaning -/

/-- What is wrong with an attribute or an item. -/
inductive AttributeError where
  | unknownField (name : String)
  | duplicateField (name : String)
  | unexpectedFormat (format : String)
  | unexpectedType (type : String)
  | unknownValue (value : String)
  /-- An attribute has a value where a list is wanted. -/
  | valueOfAttribute (name : String)
  /-- A list does not consist of settings. -/
  | malformed (error : ReadError)
  | unsupportedShape (found wanted : String)
  /-- What is wrong with the value of a field. -/
  | inField (field : String) (error : AttributeError)
deriving DecidableEq, Inhabited

/-- The wording of an error. -/
def AttributeError.message : AttributeError → String
  | .unknownField name => s!"Unknown field: `{name}`"
  | .duplicateField name => s!"Duplicate field `{name}`"
  | .unexpectedFormat format => s!"Unexpected meta-item format `{format}`"
  | .unexpectedType type => s!"Unexpected type `{type}`"
  | .unknownValue value => s!"Unknown literal value `{value}`"
  | .valueOfAttribute name =>
    s!"Name-value arguments are not supported. Use #[{name}(...)]"
  | .malformed error => error.message
  | .unsupportedShape found wanted => s!"Unsupported shape `{found}`. Expected {wanted}."
  | .inField field error => error.message ++ " at " ++ field

/-- The wording of several errors, one on each line. -/
def AttributeError.messages (errors : List AttributeError) : String :=
  "\n".intercalate (errors.map AttributeError.message)

/-- The word for a kind of literal. -/
def Literal.typeText : Literal → String
  | .string _ _ => "string"
  | .bool _ => "bool"
  | .byteString => "byte string"
  | .cString => "unknown"
  | .byte => "byte"
  | .char => "char"
  | .int => "int"
  | .float => "float"
  | .fault => "verbatim"

/-- The word for a kind of value. -/
def Value.typeText : Value → String
  | .literal l => l.typeText
  | .path _ => "path"
  | .expression kind => kind.text

namespace Setting

/-- A setting that is not of the wanted format. A list must hold settings in any case. -/
def misformatted (s : Setting) : AttributeError :=
  match s.body with
  | .list content =>
    match settings content with
    | .ok _ => .unexpectedFormat "list"
    | .error e => .malformed e
  | .value v => .unexpectedType v.typeText
  | .word => .unexpectedFormat "word"

/-- The text that is the value of a setting. -/
def asText (s : Setting) : Except AttributeError String :=
  match s.body with
  | .value (.literal (.string text _)) => .ok text
  | _ => .error s.misformatted

/-- The flag a setting stands for. A word sets it. -/
def asFlag (s : Setting) : Except AttributeError Bool :=
  match s.body with
  | .word => .ok true
  | .value (.literal (.bool b)) => .ok b
  | .value (.literal (.string "true" _)) => .ok true
  | .value (.literal (.string "false" _)) => .ok false
  | .value (.literal (.string text _)) => .error (.unknownValue text)
  | _ => .error s.misformatted

/-- The path that is the value of a setting, also if it is given as a text, to which nothing may
be appended. -/
def asPath (s : Setting) : Except AttributeError Path :=
  match s.body with
  | .value (.path path) => .ok path
  | .value (.literal (.string text suffixed)) =>
    match pathOfText? text with
    | some path => if suffixed then .error (.unknownValue text) else .ok path
    | none => .error (.unknownValue text)
  | _ => .error s.misformatted

/-- The path an entry in a list of paths is. -/
def listedPath : Entry → Except AttributeError Path
  | .setting { path, body := .word } => .ok path
  | _ => .error (.unexpectedType "non-word")

/-- The paths listed in a setting. -/
def asPaths (s : Setting) : Except AttributeError (List Path) :=
  match s.body with
  | .list content =>
    match settings content with
    | .ok entries => entries.mapM listedPath
    | .error e => .error (.malformed e)
  | _ => .error s.misformatted

end Setting

end StateMachines.Source
