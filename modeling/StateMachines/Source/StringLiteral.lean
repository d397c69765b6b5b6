import StateMachines.Text.Digit

/-!
# Bodies of string and character literals

An ordinary literal is read by an automaton that takes one character at a time: `LiteralState.next`
says what follows a character, and whether it adds a character to the value. Escapes stand for a
character; a backslash at the end of a line stands for nothing and swallows the spaces, tabs and
line ends that follow. A raw literal ends at a quote followed by as many hashes as it began with.
-/

namespace StateMachines.Source

open Text (hexDigit?)

/-- What may stand in a literal. -/
inductive Flavour where
  /-- Any character. -/
  | text
  /-- ASCII characters and escapes of single bytes. -/
  | bytes
  /-- Any character but the zero character. -/
  | cText
deriving DecidableEq, Inhabited

/-- Whether a character may stand in a literal. -/
def Flavour.admits (flavour : Flavour) (c : Char) : Bool :=
  match flavour with
  | .text => true
  | .bytes => decide (c.toNat < 128)
  | .cText => c ≠ '\x00'

/-- Where in an ordinary literal the reading is. -/
inductive LiteralState where
  | plain
  /-- After a carriage return, which must be followed by a line feed. -/
  | afterReturn
  /-- After a backslash. -/
  | escape
  /-- Before the first digit of an escape of two hexadecimal digits. -/
  | hexFirst
  | hexSecond (first : Nat)
  /-- Before the brace of an escape by code point. -/
  | pointOpen
  /-- Among the digits of an escape by code point. -/
  | point (value digits : Nat)
  /-- Among the spaces, tabs and line ends after a backslash at the end of a line. -/
  | continuation
  /-- After a carriage return among these. -/
  | continuationReturn
deriving DecidableEq, Inhabited

/-- What a character in a literal leads to. -/
inductive LiteralStep where
  | reject
  /-- The literal ends. -/
  | close
  /-- The reading goes on; a character may be added to the value. -/
  | go (state : LiteralState) (out : Option Char)
deriving DecidableEq, Inhabited

namespace LiteralState

/-- A character that stands for itself. -/
def nextPlain (flavour : Flavour) (c : Char) : LiteralStep :=
  if c = '\x22' then .close
  else if c = '\x5c' then .go .escape none
  else if c = '\r' then .go .afterReturn none
  else if flavour.admits c then .go .plain (some c) else .reject

/-- The character after a backslash. -/
def nextEscape (flavour : Flavour) (c : Char) : LiteralStep :=
  if c = 'n' then .go .plain (some '\n')
  else if c = 'r' then .go .plain (some '\r')
  else if c = 't' then .go .plain (some '\t')
  else if c = '\x5c' then .go .plain (some c)
  else if c = '\x27' then .go .plain (some c)
  else if c = '\x22' then .go .plain (some c)
  else if c = '0' then
    if flavour = .cText then .reject else .go .plain (some '\x00')
  else if c = 'x' then .go .hexFirst none
  else if c = 'u' then if flavour = .bytes then .reject else .go .pointOpen none
  else if c = '\n' then .go .continuation none
  else if c = '\r' then .go .continuationReturn none
  else .reject

/-- The second digit of an escape of two hexadecimal digits. In a text it stands for an ASCII
character. -/
def nextHex (flavour : Flavour) (first : Nat) (c : Char) : LiteralStep :=
  match hexDigit? c with
  | some second =>
    let value := 16 * first + second
    match flavour with
    | .text => if value < 128 then .go .plain (some (Char.ofNat value)) else .reject
    | .bytes => .go .plain (some (Char.ofNat value))
    | .cText => if value = 0 then .reject else .go .plain (some (Char.ofNat value))
  | none => .reject

/-- A character among the digits of an escape by code point: there are one to six digits, with
underscores between them. -/
def nextPoint (flavour : Flavour) (value digits : Nat) (c : Char) : LiteralStep :=
  match hexDigit? c with
  | some digit =>
    if digits = 6 then .reject else .go (.point (16 * value + digit) (digits + 1)) none
  | none =>
    if digits = 0 then .reject
    else if c = '_' then .go (.point value digits) none
    else if c = '\x7d' then
      if value.isValidChar ∧ ¬ (flavour = .cText ∧ value = 0) then
        .go .plain (some (Char.ofNat value))
      else .reject
    else .reject

/-- What a character leads to. -/
def next (flavour : Flavour) (state : LiteralState) (c : Char) : LiteralStep :=
  match state with
  | .plain => nextPlain flavour c
  | .afterReturn => if c = '\n' then .go .plain (some '\n') else .reject
  | .escape => nextEscape flavour c
  | .hexFirst =>
    match hexDigit? c with
    | some first => .go (.hexSecond first) none
    | none => .reject
  | .hexSecond first => nextHex flavour first c
  | .pointOpen => if c = '\x7b' then .go (.point 0 0) none else .reject
  | .point value digits => nextPoint flavour value digits c
  | .continuation =>
    if c = '\r' then .go .continuationReturn none
    else if c = ' ' || c = '\t' || c = '\n' then .go .continuation none
    else nextPlain flavour c
  | .continuationReturn => if c = '\n' then .go .continuation none else .reject

end LiteralState

/-- Reads up to the closing quote. The answer is the value, in front of which stands the reverse
of `value`, and what follows the quote. -/
def stringBody (flavour : Flavour) (state : LiteralState) (value : List Char) :
    List Char → Option (List Char × List Char)
  | [] => none
  | c :: rest =>
    match state.next flavour c with
    | .reject => none
    | .close => some (value.reverse, rest)
    | .go state (some out) => stringBody flavour state (out :: value) rest
    | .go state none => stringBody flavour state value rest

/-- Reads one character or escape and the closing mark, and answers what follows. -/
def charBody (flavour : Flavour) (state : LiteralState) : List Char → Option (List Char)
  | [] => none
  | c :: rest =>
    let step :=
      if state = .plain ∧ c ≠ '\x5c' then
        if flavour.admits c then LiteralStep.go .plain (some c) else .reject
      else state.next flavour c
    match step with
    | .go _ (some _) =>
      match rest with
      | '\x27' :: rest => some rest
      | _ => none
    | .go .continuation none | .go .continuationReturn none => none
    | .go state none => charBody flavour state rest
    | _ => none

/-- Reads a raw literal up to a quote followed by `hashes` hashes. A carriage return must be
followed by a line feed. -/
def rawBody (flavour : Flavour) (hashes : Nat) (afterReturn : Bool) (value : List Char) :
    List Char → Option (List Char × List Char)
  | [] => none
  | c :: rest =>
    if (afterReturn && c ≠ '\n') || !flavour.admits c then none
    else if c = '\x22' && rest.take hashes = List.replicate hashes '#' then
      some (value.reverse, rest.drop hashes)
    else rawBody flavour hashes (c = '\r') (c :: value) rest

/-- Reads the hashes and the quote that begin a raw literal, and then the literal. -/
def rawString (flavour : Flavour) (cs : List Char) : Option (List Char × List Char) :=
  match cs.span (· = '#') with
  | (hashes, '\x22' :: rest) =>
    if hashes.length ≤ 255 then rawBody flavour hashes.length false [] rest else none
  | _ => none

end StateMachines.Source
