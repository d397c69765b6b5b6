import StateMachines.Proofs.Source.Lexeme
import StateMachines.Source.Enums

/-!
# How enums are written

An annotated enum can be written in many ways. The relations here say which trees stand for which
part of it: paths, the entries of lists, attributes, variants and enums. What is given in an
attribute can be given in any order and spread over several attributes of the same name; attributes
of other names stand for nothing.

## Main definitions

* `Given`: what an entry of a list gives.
* `AttributesTrees`: attributes, of which those with a certain name give something.
* `StateEnumText`, `EventEnumText`: the texts of a state enum and of an event enum.
-/

namespace StateMachines.Source

open Derive (Path StateEnum StateVariant EventEnum EventVariant)

/-! ## Paths and lists -/

/-- Names joined by `::`. -/
inductive NamesTrees (allowed : String → Prop) : List String → List Tree → Prop where
  | single {name : String} (hname : allowed name) : NamesTrees allowed [name] [.ident name]
  | cons {name : String} {names : List String} {ts : List Tree} {joint : Bool}
      (hname : allowed name) (hrest : NamesTrees allowed names ts) :
      NamesTrees allowed (name :: names)
        (.ident name :: .punct ':' true :: .punct ':' joint :: ts)

/-- A path, which may begin with `::`. -/
inductive PathTrees (allowed : String → Prop) : Path → List Tree → Prop where
  | plain {names : List String} {ts : List Tree} (hnames : NamesTrees allowed names ts) :
      PathTrees allowed { segments := names.map ({ name := · }) } ts
  | rooted {names : List String} {ts : List Tree} {joint : Bool}
      (hnames : NamesTrees allowed names ts) :
      PathTrees allowed { rooted := true, segments := names.map ({ name := · }) }
        (.punct ':' true :: .punct ':' joint :: ts)

/-- The name is not reserved. -/
def IsFree (name : String) : Prop := isName name = true

/-- The name can be part of a path in front of a list or a value. -/
def IsPathName (name : String) : Prop := isName name = true ∨ name ∈ placeWords

/-- Parts with commas between them, and perhaps one more behind the last one. -/
inductive Commas {α : Type} (part : α → List Tree → Prop) : List α → List Tree → Prop where
  | nil : Commas part [] []
  | single {a : α} {ts : List Tree} (ha : part a ts) : Commas part [a] ts
  | cons {a : α} {as : List α} {ts more : List Tree} {joint : Bool} (ha : part a ts)
      (hrest : Commas part as more) : Commas part (a :: as) (ts ++ .punct ',' joint :: more)

/-! ## Entries -/

/-- What an entry of a list gives for a field. -/
inductive Given where
  | text (field value : String)
  | flag (field : String) (value : Bool)
  | path (field : String) (value : Path)
  | paths (field : String) (value : List Path)

/-- The field that something is given for. -/
def Given.field : Given → String
  | .text field _ | .flag field _ | .path field _ | .paths field _ => field

/-- The word for a flag. -/
def flagWord (value : Bool) : String := if value then "true" else "false"

/-- The entries that give something. -/
inductive Given.Trees : Given → List Tree → Prop where
  | text {field value spelling : String} {joint : Bool} :
      Trees (.text field value)
        [.ident field, .punct '=' joint, .literal (.string value false) spelling]
  /-- A word sets a flag. -/
  | word {field : String} : Trees (.flag field true) [.ident field]
  | flag {field : String} {value joint : Bool} :
      Trees (.flag field value) [.ident field, .punct '=' joint, .ident (flagWord value)]
  | quotedFlag {field spelling : String} {value joint : Bool} :
      Trees (.flag field value)
        [.ident field, .punct '=' joint, .literal (.string (flagWord value) false) spelling]
  | path {field : String} {value : Path} {ts : List Tree} {joint : Bool}
      (hpath : PathTrees IsFree value ts) :
      Trees (.path field value) (.ident field :: .punct '=' joint :: ts)
  | quotedPath {field spelling text : String} {value : Path} {ts : List Tree} {joint : Bool}
      (hpath : PathTrees IsFree value ts) (htext : TextOf ts text) :
      Trees (.path field value)
        [.ident field, .punct '=' joint, .literal (.string text false) spelling]
  | paths {field : String} {value : List Path} {content : List Tree} {d : Delimiter}
      (hpaths : Commas (PathTrees IsFree) value content) :
      Trees (.paths field value) [.ident field, .group d content]

/-! ## Attributes -/

/-- Literals, of which numbers may have a sign. -/
inductive LiteralTrees : List Tree → Prop where
  | literal {value : Literal} {spelling : String} : LiteralTrees [.literal value spelling]
  | flag {value : Bool} : LiteralTrees [.ident (flagWord value)]
  | negative {value : Literal} {spelling : String} {joint : Bool} (hvalue : value.isNumber) :
      LiteralTrees [.punct '-' joint, .literal value spelling]

/-- The name of an attribute, or the mark that it is not safe. -/
inductive AttributeName : Path → List Tree → Prop where
  | path {path : Path} {ts : List Tree} (hpath : PathTrees IsPathName path ts) :
      AttributeName path ts
  | unsafe_ : AttributeName (.ofName "unsafe") [.ident "unsafe"]

/-- What can follow the name of an attribute. -/
inductive BodyTrees : List Tree → Prop where
  | word : BodyTrees []
  | list {d : Delimiter} {content : List Tree} : BodyTrees [.group d content]
  | literal {ts : List Tree} {joint : Bool} (hvalue : LiteralTrees ts) :
      BodyTrees (.punct '=' joint :: ts)
  /-- A macro. -/
  | expansion {path : Path} {ts content : List Tree} {d : Delimiter} {joint mark : Bool}
      (hpath : PathTrees IsPathName path ts) :
      BodyTrees (.punct '=' joint :: (ts ++ [.punct '!' mark, .group d content]))

/-- Attributes, and what those of a certain name give. -/
inductive AttributesTrees (own : Option String) : List Given → List Tree → Prop where
  | nil : AttributesTrees own [] []
  | word {name : String} {gs : List Given} {ts : List Tree} {joint : Bool} (hname : own = some name)
      (hrest : AttributesTrees own gs ts) :
      AttributesTrees own gs (.punct '#' joint :: .group .bracket [.ident name] :: ts)
  | list {name : String} {gs more : List Given} {content ts : List Tree} {d : Delimiter}
      {joint : Bool} (hname : own = some name) (hcontent : Commas Given.Trees gs content)
      (hrest : AttributesTrees own more ts) :
      AttributesTrees own (gs ++ more)
        (.punct '#' joint :: .group .bracket [.ident name, .group d content] :: ts)
  | other {path : Path} {gs : List Given} {name body ts : List Tree} {joint : Bool}
      (hname : AttributeName path name) (hother : ∀ name ∈ own, path ≠ .ofName name)
      (hbody : BodyTrees body) (hrest : AttributesTrees own gs ts) :
      AttributesTrees own gs (.punct '#' joint :: .group .bracket (name ++ body) :: ts)

/-! ## Enums -/

/-- What can follow the name of a variant: its number. -/
inductive DiscriminantTrees : List Tree → Prop where
  | none : DiscriminantTrees []
  | positive {spelling : String} {joint : Bool} :
      DiscriminantTrees [.punct '=' joint, .literal .int spelling]
  | negative {spelling : String} {joint mark : Bool} :
      DiscriminantTrees [.punct '=' joint, .punct '-' mark, .literal .int spelling]

/-- A variant: its name, and what its attributes give. -/
inductive VariantTrees (own ident : String) (gs : List Given) : List Tree → Prop where
  | variant {attributes number : List Tree} (hattributes : AttributesTrees (some own) gs attributes)
      (hident : IsFree ident) (hnumber : DiscriminantTrees number) :
      VariantTrees own ident gs (attributes ++ .ident ident :: number)

/-- Who can see an enum. -/
inductive VisibilityTrees : List Tree → Prop where
  | default : VisibilityTrees []
  | everyone : VisibilityTrees [.ident "pub"]
  | place {word : String} (hword : word ∈ ["crate", "self", "super"]) :
      VisibilityTrees [.ident "pub", .group .paren [.ident word]]
  | path {path : Path} {ts : List Tree} (hpath : PathTrees IsPathName path ts) :
      VisibilityTrees [.ident "pub", .group .paren (.ident "in" :: ts)]

/-- An enum: its name, what its attributes give, and its variants. -/
inductive EnumTrees {ν : Type} (own : Option String) (variant : ν → List Tree → Prop)
    (ident : String) (gs : List Given) (variants : List ν) : List Tree → Prop where
  | enum {attributes visibility content : List Tree}
      (hattributes : AttributesTrees own gs attributes) (hvisibility : VisibilityTrees visibility)
      (hident : IsFree ident) (hcontent : Commas variant variants content) :
      EnumTrees own variant ident gs variants
        (attributes ++ (visibility ++ [.ident "enum", .ident ident, .group .brace content]))

/-! ## What enums give -/

/-- Each field is given at most once, only what is declared is given, and at least what differs from
what is the case if nothing is given. -/
structure StateVariant.Gives (v : StateVariant) (gs : List Given) : Prop where
  nodup : (gs.map Given.field).Nodup
  declared : ∀ g ∈ gs, (∃ name, v.name = some name ∧ g = .text "name" name) ∨
    g = .paths "out" v.out ∨ g = .paths "events" v.events
  name : ∀ name, v.name = some name → .text "name" name ∈ gs
  out : v.out ≠ [] → .paths "out" v.out ∈ gs
  events : v.events ≠ [] → .paths "events" v.events ∈ gs

/-- As for the variants of a state enum. -/
structure EventVariant.Gives (v : EventVariant) (gs : List Given) : Prop where
  nodup : (gs.map Given.field).Nodup
  declared : ∀ g ∈ gs, ∃ name, v.name = some name ∧ g = .text "name" name
  name : ∀ name, v.name = some name → .text "name" name ∈ gs

/-- As for its variants. -/
structure StateEnum.Gives (e : StateEnum) (gs : List Given) : Prop where
  nodup : (gs.map Given.field).Nodup
  declared : ∀ g ∈ gs, (∃ path, e.events = some path ∧ g = .path "events" path) ∨
    g = .flag "allow_unreachable" e.allowUnreachable
  events : ∀ path, e.events = some path → .path "events" path ∈ gs
  allowUnreachable : e.allowUnreachable = true → .flag "allow_unreachable" true ∈ gs

/-- The texts of a state enum. -/
def StateEnumText (e : StateEnum) (text : String) : Prop :=
  ∃ variants gs ts, e.variants = some variants ∧ StateEnum.Gives e gs ∧
    EnumTrees (some "fsm")
      (fun v ts => ∃ gs, StateVariant.Gives v gs ∧ VariantTrees "state" v.ident gs ts)
      e.ident gs variants ts ∧ TextOf ts text

/-- The texts of an event enum. -/
def EventEnumText (e : EventEnum) (text : String) : Prop :=
  ∃ variants ts, e.variants = some variants ∧
    EnumTrees none
      (fun v ts => ∃ gs, EventVariant.Gives v gs ∧ VariantTrees "event" v.ident gs ts)
      e.ident [] variants ts ∧ TextOf ts text

end StateMachines.Source
