import StateMachines.Source.Attribute

/-!
# Generic arguments and parameters

Between angle brackets stand the arguments of a path or the parameters of a declaration. Lifetimes
are written down before all others. A `where` clause restricts parameters further.

What is empty leaves no trace: neither parameters nor bounds nor a clause are written down if there
are none.
-/

namespace StateMachines.Source

open Reader

/-! ## Arguments -/

/-- Whether a constant stands in front that can be a generic argument. -/
def atConstant (ts : List Tree) : Bool := atLiteral ts || atGroup .brace ts

/-- Reads a constant that is a generic argument, or the name of one. -/
def Grammar.constant (g : Grammar) : Reader Unit := do
  let ts ← ahead
  if atLiteral ts then discard literal
  else if atName ts then discard name
  else if atGroup .brace ts then g.body
  else throw (.refused (if ts.isEmpty then "unexpected end of input" else "unexpected token"))

/-- Reads a generic argument and answers whether it is a lifetime. -/
def Grammar.genericArgument (g : Grammar) : Reader Bool := do
  let ts ← ahead
  if atLifetime ts && !atPunct "+" (behind ts) then
    lifetime
    return true
  if atConstant ts then
    g.constant
    return false
  let kind ← g.type true
  if kind = .named then
    if ← punct? "=" then
      if atConstant (← ahead) then g.constant else discard (g.type true)
    else if ← punct? ":" then
      discard <| joined "+" (fun ts => atPunct "," ts || atPunct ">" ts) (g.bound false true)
  return false

/-- What stands between angle brackets, in the order in which it is written down. Each part comes
with whether it is a lifetime; these come first. -/
def lifetimesFirst (parts : List (Bool × List Tree)) (trailing : Bool) : List Tree :=
  let (lifetimes, others) := parts.partition (·.1)
  let trailing := trailing || (parts.getLast?.any (·.1) && !others.isEmpty)
  let comma := [Tree.punct ',' false]
  comma.intercalate ((lifetimes ++ others).map (·.2)) ++ if trailing then comma else []

/-- Reads parts separated by commas up to a closing angle bracket. Each part answers whether it is
a lifetime. The answer is whether there are some. -/
def angleContent (part : Reader Bool) : Reader Bool := do
  let ((parts, trailing), _) ← capture (separated "," (atPunct ">") (capture part))
  write (lifetimesFirst parts trailing)
  return !parts.isEmpty

/-- Reads generic arguments between angle brackets. -/
def Grammar.genericArguments (g : Grammar) : Reader Unit := do
  punct "<"
  discard <| angleContent g.genericArgument
  punct ">"

/-! ## Parameters -/

/-- Whether parameters stand in front, rather than a path that begins with a type. -/
def atParameters (ts : List Tree) : Bool :=
  let first := ts.drop 1
  let second := behind first
  atPunct "<" ts &&
    (atPunct ">" first || atPunct "#" first || atKeyword "const" first ||
      ((atLifetime first || atName first) &&
        (atPunct ">" second || atPunct "," second || atPunct "=" second ||
          (atPunct ":" second && !atPunct "::" second))))

/-- Reads a colon and the bounds behind it, up to where `stop` holds, if there is one. -/
def bounds? {α : Type} (stop : List Tree → Bool) (bound : Reader α) : Reader Unit := do
  let mark ← get
  if ← punct? ":" then
    if (← joined "+" stop bound).1.isEmpty then writeOver mark []

/-- Whether the end of a parameter stands in front. -/
def endsParameter (ts : List Tree) : Bool := ts.isEmpty || atPunct "," ts || atPunct ">" ts

/-- What a parameter can begin with. -/
def parameterOpenings (inBinder : Bool) : List String :=
  (if inBinder then ["identifier", "lifetime"] else ["lifetime", "identifier"]) ++ ["`const`"]

/-- Reads a parameter between angle brackets, and answers whether it is a lifetime. -/
def Grammar.parameter (g : Grammar) (inBinder : Bool) : Reader Bool := do
  discard g.attributes
  let ts ← ahead
  if atLifetime ts then
    lifetime
    bounds? endsParameter lifetime
    return true
  if atName ts then
    discard name
    bounds? (fun ts => endsParameter ts || atPunct "=" ts) (g.bound false true)
    if ← punct? "=" then discard (g.type true)
  else if atKeyword "const" ts then
    keyword "const"
    discard name
    punct ":"
    discard (g.type true)
    if ← punct? "=" then g.constant
  else if !inBinder && atKeyword "_" ts then discard word
  else expectedOneOf (parameterOpenings inBinder)
  return false

/-- Reads parameters between angle brackets, if there are some. -/
def Grammar.parameters? (g : Grammar) : Reader Unit := do
  let mark ← get
  if ← punct? "<" then
    let any ← angleContent (g.parameter false)
    punct ">"
    if !any then writeOver mark []

/-- Reads the parameters that a type or bound holds for, if there are some, and answers whether
there are. They are written down in their order. -/
def Grammar.binder? (g : Grammar) : Reader Bool := do
  if ← keyword? "for" then
    punct "<"
    discard <| separated "," (atPunct ">") (g.parameter true)
    punct ">"
    return true
  else return false

/-! ## Restrictions -/

/-- Whether the end of a restriction stands in front. -/
def endsRestriction (ts : List Tree) : Bool :=
  ts.isEmpty || atGroup .brace ts || atPunct "," ts || atPunct ";" ts ||
    (atPunct ":" ts && !atPunct "::" ts) || atPunct "=" ts

/-- Reads one restriction. -/
def Grammar.restriction (g : Grammar) : Reader Unit := do
  let ts ← ahead
  if atLifetime ts && atPunct ":" (behind ts) then
    lifetime
    punct ":"
    discard <| joined "+" (fun ts => endsRestriction ts || atPunct ":" ts) lifetime
  else
    discard g.binder?
    discard (g.type true)
    punct ":"
    discard <| joined "+" endsRestriction (g.bound false true)

/-- Reads a clause that restricts parameters, if there is one, and answers whether there is. -/
def Grammar.whereClause? (g : Grammar) : Reader Bool := do
  let mark ← get
  if ← keyword? "where" then
    if atParameters (← ahead) then
      refuse "generic parameters on `where` clauses are reserved for future use"
    if (← joined "," endsRestriction g.restriction).1.isEmpty then writeOver mark []
    return true
  else return false

end StateMachines.Source
