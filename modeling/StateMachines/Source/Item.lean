import StateMachines.Source.Type

/-!
# Items

An item is an enum or a struct, with attributes and a visibility in front. Of an enum the
variants are kept, each with its attributes and the shape of its fields; of a struct nothing is.
-/

namespace StateMachines.Source

open Reader

/-- The fields of a variant. -/
inductive Shape where
  | unit
  /-- Fields between parentheses. -/
  | unnamed (count : Nat)
  /-- Fields between braces. -/
  | named
deriving DecidableEq, Inhabited

/-- A variant of an enum. -/
structure Variant where
  attributes : List Setting
  ident : String
  shape : Shape
deriving Inhabited

/-- An enum, or a struct, which has no variants. -/
structure Item where
  attributes : List Setting
  ident : String
  variants : Option (List Variant)
deriving Inhabited

/-! ## Visibility -/

/-- Reads a visibility, if one is given, and answers whether there is one. What stands between
parentheses behind it restricts it only if it can do so. -/
def visibility? : Reader Bool := do
  if ← keyword? "pub" then
    match ← ahead with
    | .group .paren [.ident s] :: _ =>
      if s ∈ ["crate", "self", "super"] then discard anyGroup
    | .group .paren (.ident "in" :: _) :: _ =>
      within .paren do
        keyword "in"
        discard plainPath
    | _ => pure ()
    return true
  else return false

/-! ## Fields -/

/-- Reads a field without a name. -/
def Grammar.unnamedField (g : Grammar) : Reader Unit := do
  discard g.attributes
  discard visibility?
  discard (g.type true)

/-- Reads a field with a name. The name can be missing, and then the type can be made up of fields
itself, which are written down as they stand. -/
def Grammar.namedField (g : Grammar) : Reader Unit := do
  discard g.attributes
  discard visibility?
  let nameless := atKeyword "_" (← ahead)
  if nameless then keyword "_" else discard name
  punct ":"
  let ts ← ahead
  let madeUp := atKeyword "struct" ts || (atKeyword "union" ts && atGroup .brace (behind ts))
  if nameless && madeUp then
    asItStands do
      discard word
      within .brace g.fields
  else discard (g.type true)

/-- The rule for named fields. -/
def Grammar.fieldsRule (g : Grammar) : Reader Unit := discard (commaSeparated g.namedField)

/-- Reads the fields of a variant, if it has some. -/
def Grammar.shape (g : Grammar) : Reader Shape := do
  let ts ← ahead
  if atGroup .brace ts then
    within .brace g.fields
    return .named
  else if atGroup .paren ts then
    let fields ← within .paren (commaSeparated g.unnamedField)
    return .unnamed fields.length
  else return .unit

/-! ## Items -/

/-- Reads a variant. A visibility is not written down. -/
def Grammar.variant (g : Grammar) : Reader Variant := do
  let attributes ← g.attributes
  discard (capture visibility?)
  let ident ← name
  let shape ← g.shape
  if ← punct? "=" then discard (g.expression true)
  return { attributes, ident, shape }

/-- Reads what follows the name of an enum. -/
def Grammar.enumTail (g : Grammar) : Reader (List Variant) := do
  g.parameters?
  discard g.whereClause?
  within .brace (commaSeparated g.variant)

/-- Reads what follows the name of a struct. -/
def Grammar.structTail (g : Grammar) : Reader Unit := do
  g.parameters?
  if atGroup .paren (← ahead) then
    discard <| within .paren (commaSeparated g.unnamedField)
    let restricted ← g.whereClause?
    if !(← punct? ";") then expectedOneOf ((if restricted then [] else ["`where`"]) ++ ["`;`"])
  else
    let restricted ← g.whereClause?
    if atGroup .brace (← ahead) then within .brace g.fields
    else if !(← punct? ";") then
      expectedOneOf <|
        (if restricted then [] else ["`where`", "parentheses"]) ++ ["curly braces", "`;`"]

/-- Reads what follows the name of a union. -/
def Grammar.unionTail (g : Grammar) : Reader Unit := do
  g.parameters?
  discard g.whereClause?
  within .brace g.fields

/-- Reads an item. -/
def Grammar.item (g : Grammar) : Reader Item := do
  let attributes ← g.attributes
  discard visibility?
  if ← keyword? "enum" then
    let ident ← name
    return { attributes, ident, variants := some (← g.enumTail) }
  else
    keyword "struct"
    let ident ← name
    g.structTail
    return { attributes, ident, variants := none }

end StateMachines.Source
