import StateMachines.Derive.Tables
import StateMachines.Source.Setting

/-!
# Enums from source text

`stateTable` and `eventTable` derive tables from the text of an item. What an attribute says is
collected field by field; a field counts as given with its first setting, also if that one is
wrong. Attributes of other names are ignored.

The attributes of the enum itself and the shapes of its variants are looked at first, and only
if nothing is wrong with them the attributes of the variants. The tables are derived only if
nothing is wrong with any attribute.
-/

namespace StateMachines.Source

open Derive (Path StateEnum StateVariant EventEnum EventVariant StateTable EventTable DeriveError)

/-- Why no tables are derived from a text. -/
inductive SourceError where
  /-- The text is no item. -/
  | noItem
  | attributes (errors : List AttributeError)
  | derivation (errors : List DeriveError)
deriving DecidableEq, Inhabited

/-! ## Fields -/

/-- What settings have said so far. -/
structure Reading (ρ : Type) where
  record : ρ
  /-- The fields that were given. -/
  given : List String := []
  errors : List AttributeError := []

/-- The fields of a record, by name: how a setting sets them. -/
abbrev Fields (ρ : Type) := String → Option (Setting → ρ → Except AttributeError ρ)

namespace Reading

variable {ρ : Type}

/-- Adds an error. -/
def fail (r : Reading ρ) (error : AttributeError) : Reading ρ :=
  { r with errors := r.errors ++ [error] }

/-- Reads one setting. -/
def set (fields : Fields ρ) (r : Reading ρ) (s : Setting) : Reading ρ :=
  let key := s.path.toText
  match fields key with
  | none => r.fail (.unknownField key)
  | some setField =>
    if key ∈ r.given then r.fail (.duplicateField key)
    else
      let r := { r with given := key :: r.given }
      match setField s r.record with
      | .ok record => { r with record }
      | .error error => r.fail (.inField key error)

/-- Reads one entry of a list. A bare literal sets nothing. -/
def apply (fields : Fields ρ) (r : Reading ρ) : Entry → Reading ρ
  | .setting s => r.set fields s
  | .literal => r.fail (.unexpectedFormat "literal")

/-- Reads one attribute, if it has the wanted name. -/
def readAttribute (name : String) (fields : Fields ρ) (r : Reading ρ) (a : Setting) :
    Reading ρ :=
  if a.path = .ofName name then
    match a.body with
    | .word => r
    | .value _ => r.fail (.valueOfAttribute name)
    | .list content =>
      match settings content with
      | .ok entries => entries.foldl (apply fields) r
      | .error e => r.fail (.malformed e)
  else r

/-- Reads all attributes of a name into a record. -/
def ofAttributes (name : String) (fields : Fields ρ) (record : ρ) (attributes : List Setting) :
    Reading ρ :=
  attributes.foldl (readAttribute name fields) { record }

end Reading

/-- A field that is set to what a setting means. -/
def setTo {α ρ : Type} (mean : Setting → Except AttributeError α) (set : α → ρ → ρ) :
    Option (Setting → ρ → Except AttributeError ρ) :=
  some fun a record =>
    match mean a with
    | .ok value => .ok (set value record)
    | .error error => .error error

/-- The fields of a state enum. -/
def stateEnumFields : Fields StateEnum
  | "events" => setTo Setting.asPath fun path e => { e with events := some path }
  | "allow_unreachable" =>
    setTo Setting.asFlag fun flag e => { e with allowUnreachable := flag }
  | _ => none

/-- The fields of a state. -/
def stateFields : Fields StateVariant
  | "name" => setTo Setting.asText fun name v => { v with name := some name }
  | "out" => setTo Setting.asPaths fun out v => { v with out }
  | "events" => setTo Setting.asPaths fun events v => { v with events }
  | _ => none

/-- The fields of an event. -/
def eventFields : Fields EventVariant
  | "name" => setTo Setting.asText fun name v => { v with name := some name }
  | _ => none

/-! ## Shapes -/

/-- What is wrong with the shape of a variant, which must have no fields. -/
def Variant.shapeError? (v : Variant) : Option AttributeError :=
  match v.shape with
  | .unit => none
  | .unnamed 1 => some (.unsupportedShape "one unnamed field" "no fields")
  | .unnamed _ => some (.unsupportedShape "unnamed fields" "no fields")
  | .named => some (.unsupportedShape "named fields" "no fields")

/-- What is wrong with the shape of an item, which must be an enum without fields. -/
def Item.shapeErrors (item : Item) : List AttributeError :=
  match item.variants with
  | none => [.unsupportedShape "struct" "enum with no fields"]
  | some variants => variants.filterMap Variant.shapeError?

/-! ## Enums -/

/-- The variants of an enum, read one by one, unless something is wrong with one of them. -/
def readVariants {ρ : Type} (read : Variant → Reading ρ) (variants : List Variant) :
    Except SourceError (List ρ) :=
  let readings := variants.map read
  match readings.flatMap (·.errors) with
  | [] => .ok (readings.map (·.record))
  | errors => .error (.attributes errors)

/-- The state enum that an item declares. -/
def Item.stateEnum (item : Item) : Except SourceError StateEnum :=
  let reading := Reading.ofAttributes "fsm" stateEnumFields
    { ident := item.ident, variants := none } item.attributes
  match reading.errors ++ item.shapeErrors with
  | [] =>
    let read (v : Variant) :=
      Reading.ofAttributes "state" stateFields { ident := v.ident } v.attributes
    match readVariants read (item.variants.getD []) with
    | .ok variants => .ok { reading.record with variants := some variants }
    | .error error => .error error
  | errors => .error (.attributes errors)

/-- The event enum that an item declares. -/
def Item.eventEnum (item : Item) : Except SourceError EventEnum :=
  match item.shapeErrors with
  | [] =>
    let read (v : Variant) :=
      Reading.ofAttributes "event" eventFields { ident := v.ident } v.attributes
    match readVariants read (item.variants.getD []) with
    | .ok variants => .ok { ident := item.ident, variants := some variants }
    | .error error => .error error
  | errors => .error (.attributes errors)

/-- The item a text consists of. -/
def readItem (text : String) : Except SourceError Item :=
  match read? text with
  | none => .error .noItem
  | some ts =>
    match readPart Grammar.item ts with
    | .ok item => .ok item
    | .error _ => .error .noItem

/-- The table of the state enum that a text declares. -/
def stateTable (text : String) : Except SourceError StateTable :=
  match readItem text with
  | .error error => .error error
  | .ok item =>
    match item.stateEnum with
    | .error error => .error error
    | .ok declared =>
      match Derive.deriveStates declared with
      | .ok table => .ok table
      | .error errors => .error (.derivation errors)

/-- The table of the event enum that a text declares. -/
def eventTable (text : String) : Except SourceError EventTable :=
  match readItem text with
  | .error error => .error error
  | .ok item =>
    match item.eventEnum with
    | .error error => .error error
    | .ok declared =>
      match Derive.deriveEvents declared with
      | .ok table => .ok table
      | .error errors => .error (.derivation errors)

end StateMachines.Source
