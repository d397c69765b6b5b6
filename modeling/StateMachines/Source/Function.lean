import StateMachines.Source.Type

/-!
# Functions

A function is declared by its signature: what it is called, its arguments and the type of its
result. The instance that a function belongs to can only be its first argument.
-/

namespace StateMachines.Source

open Reader

/-! ## What stands in front -/

/-- What follows a certain word, if it stands in front. -/
def behindWord (word : String) (ts : List Tree) : List Tree :=
  if atKeyword word ts then behind ts else ts

/-- What follows a calling convention, if it stands in front. -/
def behindConvention (ts : List Tree) : List Tree :=
  match ts with
  | .ident "extern" :: .literal (.string _ _) _ :: rest => rest
  | .ident "extern" :: rest => rest
  | _ => ts

/-- Whether a function stands in front, which may be marked as safe only where this is allowed. -/
def atFunction (safe : Bool) (ts : List Tree) : Bool :=
  let ts := behindWord "async" (behindWord "const" ts)
  let ts := if safe && atKeyword "safe" ts then behind ts else behindWord "unsafe" ts
  atKeyword "fn" (behindConvention ts)

/-- Whether the instance that a function belongs to stands in front as an argument. -/
def atInstance (ts : List Tree) : Bool :=
  let byReference := atPunct "&" ts
  let ts := if byReference then behind ts else ts
  let ts := if byReference && atLifetime ts then behind ts else ts
  let ts := behindWord "mut" ts
  let next := behind ts
  atKeyword "self" ts &&
    (byReference ||
      (!(atPunct "::" next && !atPunct ":::" next) &&
        !(atPunct ":" next && atPunct "..." (behind next))))

/-! ## Arguments -/

/-- The kinds of arguments. -/
inductive ArgumentKind where
  /-- The instance that the function belongs to. -/
  | receiver
  | typed
  /-- Arguments of any number. -/
  | variadic
deriving DecidableEq, Inhabited

/-- Reads the instance that a function belongs to. Only one that is not referred to can have a
type. -/
def Grammar.instanceArgument (g : Grammar) : Reader Unit := do
  let byReference ← punct? "&"
  if byReference then discard lifetime?
  discard (keyword? "mut")
  keyword "self"
  if !byReference then
    if ← punct? ":" then discard (g.type true)

/-- Reads an argument. An argument that is a type has the name `_`. -/
def Grammar.argument (g : Grammar) : Reader ArgumentKind := do
  let ts ← ahead
  if atPunct "..." ts then
    punct "..."
    return .variadic
  else if atInstance ts then
    g.instanceArgument
    return .receiver
  else if atName ts && atPunct "<" (behind ts) then
    write [.ident "_", .punct ':' false]
    discard (g.type true)
    return .typed
  else
    discard g.pattern
    punct ":"
    if ← punct? "..." then return .variadic
    discard (g.type true)
    return .typed

/-- Reads the arguments of a function. Nothing follows arguments of any number. -/
def Grammar.functionArguments (g : Grammar) : Reader Unit :=
  discard <| repeating (fun (kinds : List ArgumentKind) => do
    if (← ahead).isEmpty then return (kinds, false)
    discard g.attributes
    let kind ← g.argument
    if kind = .receiver then
      if .receiver ∈ kinds then throw (.refused "unexpected second method receiver")
      if !kinds.isEmpty then throw (.refused "unexpected method receiver")
    if (← ahead).isEmpty then return (kinds, false)
    punct ","
    return (kind :: kinds, kind ≠ .variadic)) []

/-! ## Signatures -/

/-- Reads a function up to its body, and answers whether it is marked as safe. -/
def Grammar.signature (g : Grammar) (safe : Bool) : Reader Bool := do
  discard (keyword? "const")
  discard (keyword? "async")
  let isUnsafe ← keyword? "unsafe"
  let isSafe ← if safe && !isUnsafe then keyword? "safe" else pure false
  convention?
  keyword "fn"
  discard name
  g.parameters?
  within .paren g.functionArguments
  g.returnType true
  discard g.whereClause?
  return isSafe

end StateMachines.Source
