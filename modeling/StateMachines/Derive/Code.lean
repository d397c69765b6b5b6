import StateMachines.Derive.Tables
import StateMachines.Descriptor.Basic
import StateMachines.Text.Escape

/-!
# Generated code

What is generated from a table, as data and as text. The code for an enum converts variants to
their numbers and numbers back to variants; the code for a state enum makes the state table, and
the code for an event enum lists the display names.

Beside its text the code has a meaning: `Conversions.number?` and `Conversions.variant?` follow
the branches of the two conversions, `RowCode.row?` carries out what a row says.
-/

namespace StateMachines.Derive

/-! ## Code as data -/

/-- The branches of the two conversions of an enum, each taken from the first to the last. -/
structure Conversions where
  enum : String
  /-- From variants to numbers. -/
  toNumber : List (String × Nat)
  /-- From numbers to variants. Other numbers are handed back as errors. -/
  ofNumber : List (Nat × String)
deriving DecidableEq, Inhabited

/-- The code that makes one row of a state table. -/
structure RowCode where
  name : String
  /-- The event enum and the variants added to the accepted events one by one. -/
  events : List (Path × String)
  /-- The bits of the targets. -/
  out : Nat
deriving DecidableEq, Inhabited

/-- The code generated for a state enum. -/
structure StatesCode where
  conversions : Conversions
  rows : List RowCode
deriving DecidableEq, Inhabited

/-- The code generated for an event enum. -/
structure EventsCode where
  conversions : Conversions
  names : List String
deriving DecidableEq, Inhabited

/-- The conversions of an enum whose variants are numbered in order. -/
def Conversions.ofVariants (enum : String) (variants : List String) : Conversions :=
  { enum
    toNumber := variants.zipIdx
    ofNumber := variants.zipIdx.map fun (variant, number) => (number, variant) }

/-- The code that makes the row of a state. Without an event enum no events are added. -/
def DerivedState.code (state : DerivedState) (eventEnum : Option Path) : RowCode :=
  { name := state.name
    events := match eventEnum with
      | some enum => state.events.map (enum, ·)
      | none => []
    out := state.out.toNat }

/-- The code for a state enum. -/
def StateTable.code (t : StateTable) : StatesCode :=
  { conversions := .ofVariants t.ident (t.states.map (·.ident))
    rows := t.states.map (·.code t.events) }

/-- The code for an event enum. -/
def EventTable.code (t : EventTable) : EventsCode :=
  { conversions := .ofVariants t.ident (t.events.map (·.ident))
    names := t.events.map (·.name) }

/-! ## What the code does -/

/-- The number of a variant. -/
def Conversions.number? (c : Conversions) (variant : String) : Option Nat :=
  c.toNumber.lookup variant

/-- The variant of a number, or the number itself as an error. -/
def Conversions.variant? (c : Conversions) (number : Nat) : Except Nat String :=
  match c.ofNumber.lookup number with
  | some variant => .ok variant
  | none => .error number

/-- The row that is made, given the conversions of the event enum. There is none if an event is
no variant of it or has a number that does not fit. -/
def RowCode.row? (r : RowCode) (events : Conversions) : Option StateRow := do
  let numbers ← r.events.mapM fun event => events.number? event.2
  let mask ← Mask.ofList? numbers
  return { name := r.name, events := mask, out := .ofBits r.out }

/-- The state table that is made. -/
def StatesCode.table? (c : StatesCode) (events : Conversions) : Option (List StateRow) :=
  c.rows.mapM (·.row? events)

/-! ## Code as text -/

/-- Code between braces. -/
def braced (body : String) : String := "\x7b " ++ body ++ " \x7d"

/-- The code of a segment. -/
def Segment.codeText (s : Segment) : String :=
  match s.arguments with
  | some arguments => s.name ++ " " ++ arguments
  | none => s.name

/-- The code of a path. -/
def Path.codeText (p : Path) : String :=
  (if p.rooted then ":: " else "") ++ " :: ".intercalate (p.segments.map Segment.codeText)

/-- The code of a variant. -/
def variantText (enum variant : String) : String := enum ++ " :: " ++ variant

/-- The text of the conversions. -/
def Conversions.text (c : Conversions) : String :=
  let toBranches := c.toNumber.map fun (variant, number) =>
    variantText c.enum variant ++ " => " ++ toString number ++ "u32 , "
  let ofBranches := c.ofNumber.map fun (number, variant) =>
    toString number ++ "u32 => :: core :: result :: Result :: Ok (" ++
      variantText c.enum variant ++ ") , "
  "impl :: core :: convert :: From < " ++ c.enum ++ " > for u32 " ++
    braced ("fn from (value : " ++ c.enum ++ ") -> u32 " ++
      braced ("match value \x7b " ++ String.join toBranches ++ "\x7d")) ++
    " impl :: core :: convert :: TryFrom < u32 > for " ++ c.enum ++ " " ++
    braced ("type Error = u32 ; fn try_from (id : u32) -> " ++
      ":: core :: result :: Result < Self , u32 > " ++
      braced ("match id " ++
        braced (String.join ofBranches ++
          "other => :: core :: result :: Result :: Err (other) ,")))

/-- The text of a row. -/
def RowCode.text (r : RowCode) : String :=
  let events := r.events.map fun (enum, variant) =>
    " . with (" ++ enum.codeText ++ " :: " ++ variant ++ ")"
  ":: telefsm :: StateSpec :: new (" ++ Text.quote r.name ++
    ") . events (:: telefsm :: EventMask :: EMPTY" ++ String.join events ++
    ") . out (:: telefsm :: StateMask :: from_bits (" ++ toString r.out ++ "u32))"

/-- The text of the code for a state enum. -/
def StatesCode.text (c : StatesCode) : String :=
  c.conversions.text ++ " impl :: telefsm :: FsmStates for " ++ c.conversions.enum ++ " " ++
    braced ("fn table () -> :: std :: vec :: Vec < :: telefsm :: StateSpec > " ++
      braced (":: std :: vec ! [" ++ " , ".intercalate (c.rows.map RowCode.text) ++ "]"))

/-- The text of the code for an event enum. -/
def EventsCode.text (c : EventsCode) : String :=
  c.conversions.text ++ " impl :: telefsm :: FsmEvent for " ++ c.conversions.enum ++ " " ++
    braced ("const NAMES : & 'static [& 'static str] = & [" ++
      " , ".intercalate (c.names.map Text.quote) ++ "] ;")

end StateMachines.Derive
