import StateMachines.Text.Digit
import StateMachines.Text.Identifier

/-!
# Number literals

A number literal is a float if it has a fraction or an exponent, and an integer otherwise. Either
may be followed at once by a suffix, which is an identifier. Each reader answers what follows the
literal, or `none` if there is no literal of its kind.
-/

namespace StateMachines.Source

open Text (isDigit hexDigit? isIdentStart isIdentContinue)

/-- The text after a suffix, if there is one. -/
def dropSuffix (cs : List Char) : List Char :=
  match cs with
  | c :: _ => if isIdentStart c then cs.dropWhile isIdentContinue else cs
  | [] => []

/-- The text after a suffix, provided that no further letter or digit follows. -/
def endNumber (cs : List Char) : Option (List Char) :=
  match dropSuffix cs with
  | c :: rest => if isIdentContinue c then none else some (c :: rest)
  | [] => some []

/-- Reads an exponent. If it has no digit, the number ends where `before` stands. -/
def exponent (before : Option (List Char)) (sign digit : Bool) :
    List Char → Option (List Char)
  | [] => if digit then some [] else before
  | c :: rest =>
    if c = '+' || c = '-' then
      if digit then some (c :: rest)
      else if sign then before
      else exponent before true digit rest
    else if isDigit c then exponent before sign true rest
    else if c = '_' then exponent before sign digit rest
    else if digit then some (c :: rest)
    else before

/-- Reads digits, a point and an exponent; `dot` tells whether the point has been read. A point
before another one or before a letter does not belong to a number. -/
def mantissa (dot : Bool) : List Char → Option (List Char)
  | [] => if dot then some [] else none
  | c :: rest =>
    if isDigit c || c = '_' then mantissa dot rest
    else if c = '.' && !dot then
      match rest with
      | next :: _ => if next = '.' || isIdentStart next then none else mantissa true rest
      | [] => some []
    else if c = 'e' || c = 'E' then
      exponent (if dot then some (c :: rest) else none) false false rest
    else if dot then some (c :: rest)
    else none

/-- Reads a float. -/
def float? (cs : List Char) : Option (List Char) :=
  match cs with
  | c :: rest => if isDigit c then (mantissa false rest).bind endNumber else none
  | [] => none

/-- Reads digits of a base, with underscores between them. A decimal digit that is too great for
the base spoils the literal; a letter that is too great ends it. -/
def digits (base : Nat) (empty : Bool) : List Char → Option (List Char)
  | [] => if empty then none else some []
  | c :: rest =>
    if c = '_' then if empty && base = 10 then none else digits base empty rest
    else
      match hexDigit? c with
      | some digit =>
        if digit < base then digits base false rest
        else if digit < 10 then none
        else if empty then none
        else some (c :: rest)
      | none => if empty then none else some (c :: rest)

/-- Reads an integer. -/
def int? (cs : List Char) : Option (List Char) :=
  let rest := match cs with
    | '0' :: 'x' :: rest => digits 16 true rest
    | '0' :: 'o' :: rest => digits 8 true rest
    | '0' :: 'b' :: rest => digits 2 true rest
    | _ => digits 10 true cs
  rest.bind endNumber

end StateMachines.Source
