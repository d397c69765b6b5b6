import StateMachines.Mask

/-!
# Edits of a mask

The ways in which a mask is made from another one, as data. An edit that adds an identifier which
does not fit has no result.
-/

namespace StateMachines.Mask

/-- A way to make a mask from another one. -/
inductive Edit where
  /-- Removes all members. -/
  | clear
  /-- Puts the set bits of a number in place of the members. -/
  | setBits (n : Nat)
  /-- Puts a single identifier in place of the members. -/
  | only (id : Nat)
  /-- Adds an identifier. -/
  | insert (id : Nat)
  /-- Adds the set bits of a number. -/
  | union (n : Nat)
  /-- Puts the listed identifiers in place of the members. -/
  | collect (ids : List Nat)
deriving DecidableEq, Inhabited

/-- The result of an edit, or `none` if an identifier does not fit. -/
def edit? (m : Mask) : Edit → Option Mask
  | .clear => some empty
  | .setBits n => some (ofBits n)
  | .only id => single? id
  | .insert id => m.insert? id
  | .union n => some (m.union (ofBits n))
  | .collect ids => ofList? ids

/-- The result of an edit, or the mask as it was if there is none. -/
def edit (m : Mask) (e : Edit) : Mask := (m.edit? e).getD m

/-- What is said of an identifier that does not fit. -/
def misfitMessage : String := "id does not fit the 32-bit permission set"

end StateMachines.Mask
