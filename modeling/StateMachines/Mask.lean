/-!
# Permission masks

A permission mask is a set of identifiers below `Mask.width`. Masks say which events a state
accepts, which states a state may lead to, and which events are handled in every state.

A mask is its 32 bits: the identifier `i` is a member exactly if bit `i` is set. An identifier
at or above the width is a member of no mask, and asking a mask to hold one is refused.

## Main definitions

* `Mask.contains`, `Mask.toList`: membership, and the members in ascending order.
* `Mask.single?`, `Mask.insert?`, `Mask.ofList?`: masks built from identifiers, `none` for an
  identifier that does not fit.
* `Mask.highest`: the greatest member.
-/

namespace StateMachines

/-- A set of identifiers below 32, represented by its bits. -/
structure Mask where
  /-- Bit `i` tells whether `i` is a member. -/
  bits : BitVec 32
deriving DecidableEq, Inhabited

namespace Mask

/-- The number of identifiers a mask can tell apart. -/
def width : Nat := 32

/-- The mask without members. -/
def empty : Mask := ⟨0#32⟩

/-- The mask whose members are the set bits of `n`, taken modulo `2 ^ 32`. -/
def ofBits (n : Nat) : Mask := ⟨BitVec.ofNat 32 n⟩

/-- The bits of a mask as a number. -/
def toNat (m : Mask) : Nat := m.bits.toNat

/-- The mask with the single member `id`, or `none` if `id` does not fit. -/
def single? (id : Nat) : Option Mask :=
  if id < width then some ⟨BitVec.twoPow 32 id⟩ else none

/-- The members of either mask. -/
def union (a b : Mask) : Mask := ⟨a.bits ||| b.bits⟩

/-- The mask with `id` added, or `none` if `id` does not fit. -/
def insert? (m : Mask) (id : Nat) : Option Mask := (single? id).map m.union

/-- The mask of all listed identifiers, or `none` if one of them does not fit. -/
def ofList? (ids : List Nat) : Option Mask := ids.foldlM insert? empty

/-- Whether `id` is a member. -/
def contains (m : Mask) (id : Nat) : Bool := m.bits.getLsbD id

/-- Whether there are no members. -/
def isEmpty (m : Mask) : Bool := m.bits == 0#32

/-- The greatest member, or `none` for the empty mask. -/
def highest (m : Mask) : Option Nat :=
  if m.isEmpty then none else some m.toNat.log2

/-- The members in ascending order. -/
def toList (m : Mask) : List Nat := (List.range width).filter m.contains

/-- The members between braces, separated by commas. -/
def toText (m : Mask) : String :=
  "\x7b" ++ ", ".intercalate (m.toList.map toString) ++ "\x7d"

/-- Every member lies below the width. -/
theorem lt_width_of_contains {m : Mask} {id : Nat} (h : m.contains id = true) : id < width :=
  BitVec.lt_of_getLsbD h

/-- The members in the list are exactly the members of the mask. -/
@[simp]
theorem mem_toList {m : Mask} {id : Nat} : id ∈ m.toList ↔ m.contains id = true := by
  simp only [toList, List.mem_filter, List.mem_range, and_iff_right_iff_imp]
  exact lt_width_of_contains

/-- A member is at most the greatest member. -/
theorem le_highest {m : Mask} {id : Nat} (h : m.contains id = true) :
    ∃ top, m.highest = some top ∧ id ≤ top := by
  have hpow : 2 ^ id ≤ m.toNat := Nat.ge_two_pow_of_testBit h
  have hpos : m.toNat ≠ 0 := fun h0 => by
    have := Nat.two_pow_pos id
    omega
  have hempty : m.isEmpty = false := by
    simp only [isEmpty, beq_eq_false_iff_ne, ne_eq]
    rintro hz
    exact hpos (by simp [toNat, hz])
  exact ⟨m.toNat.log2, by simp [highest, hempty], (Nat.le_log2 hpos).2 hpow⟩

end Mask

end StateMachines
