import StateMachines.Source.Path

/-!
# Attributes

An attribute holds a setting between brackets: a path that stands alone, or is followed by a list
between delimiters, or by an equals sign and a value. A list is kept as it is written; it is read
only where its meaning is wanted.
-/

namespace StateMachines.Source

open Derive (Path)
open Reader

/-- What follows the path of a setting. -/
inductive SettingBody where
  | word
  | list (content : List Tree)
  | value (value : Value)
deriving Inhabited

/-- A path and what is said about it. -/
structure Setting where
  path : Path
  body : SettingBody
deriving Inhabited

/-- Reads the path of a setting. -/
def settingPath : Reader Path := do
  if atKeyword "unsafe" (← ahead) then return .ofName (← word) else plainPath

/-- Reads the value of a setting. A literal that stands alone may have a sign. -/
def Grammar.settingValue (g : Grammar) : Reader Value := do
  let ts ← ahead
  match literal? ts with
  | some (_, _, []) => return .literal (← literal)
  | _ =>
    if atPunct "#" ts && atGroup .bracket (behind ts) then
      refuse "unexpected attribute inside of attribute"
    else g.expression true

/-- Reads a setting. -/
def Grammar.setting (g : Grammar) : Reader Setting := do
  let path ← settingPath
  let ts ← ahead
  match ts with
  | .group _ content :: _ =>
    discard anyGroup
    return { path, body := .list content }
  | _ =>
    if atPunct "=" ts && !atPunct "==" ts && !atPunct "=>" ts then
      punct "="
      return { path, body := .value (← g.settingValue) }
    else return { path, body := .word }

/-- Reads an attribute. -/
def Grammar.attribute (g : Grammar) : Reader Setting := do
  punct "#"
  within .bracket g.setting

/-- Reads the attributes in front of something. -/
def Grammar.attributes (g : Grammar) : Reader (List Setting) :=
  collect do
    if atPunct "#" (← ahead) then return some (← g.attribute) else return none

/-- Reads the attributes at the beginning of a block, which belong to the block itself. -/
def Grammar.innerAttributes (g : Grammar) : Reader Unit :=
  discard <| collect do
    let ts ← ahead
    if atPunct "#" ts && atPunct "!" (behind ts) then
      punct "#"
      punct "!"
      return some (← within .bracket g.setting)
    else return none

/-- Reads a block that may begin with attributes. -/
def Grammar.body (g : Grammar) : Reader Unit :=
  within .brace do
    g.innerAttributes
    g.statements

end StateMachines.Source
