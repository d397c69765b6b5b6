import Mathlib.Order.Bounds.Defs
import StateMachines.Mask

/-!
# Members of masks

What the operations on masks do to the members. An identifier below the width can always be added,
so a mask exists for every list of such identifiers. Whether all members lie below a bound can be
told from the greatest one.

## Main results

* `Mask.contains_union`, `Mask.contains_of_insert?`: the members of a union and of a mask with one
  more member.
* `Mask.highest_filter_eq_none_iff`, `Mask.highest_filter_eq_some_iff`: looking for a member at or
  above a bound.
* `Mask.exists_ofList?`: the mask of a list of identifiers.
-/

namespace StateMachines.Mask

variable {m m' : Mask} {id i n : Nat} {ids : List Nat}

/-- The empty mask has no members. -/
@[simp]
theorem contains_empty (i : Nat) : empty.contains i = false := by
  simp [empty, contains]

/-- The members of a union are the members of both masks. -/
@[simp]
theorem contains_union (a b : Mask) (i : Nat) :
    (a.union b).contains i = (a.contains i || b.contains i) := by
  simp [union, contains]

/-- A mask is determined by its bits. -/
@[simp]
theorem ofBits_toNat (m : Mask) : ofBits m.toNat = m := by
  simp [ofBits, toNat]

/-- The greatest member is a member. -/
theorem contains_of_highest (h : m.highest = some i) : m.contains i = true := by
  unfold highest isEmpty at h
  split at h
  next => cases h
  next hne =>
    cases h
    have hbits : m.toNat ≠ 0 := fun hzero =>
      hne (beq_iff_eq.2 (BitVec.eq_of_toNat_eq (by simpa [toNat] using hzero)))
    exact Nat.testBit_log2 hbits

/-- The greatest member is the greatest of all members. -/
theorem highest_eq_some_iff : m.highest = some i ↔ IsGreatest {id | m.contains id = true} i := by
  constructor
  · intro h
    refine ⟨contains_of_highest h, ?_⟩
    intro id hid
    obtain ⟨top, htop, hle⟩ := le_highest hid
    cases h.symm.trans htop
    exact hle
  · intro h
    obtain ⟨top, htop, hle⟩ := le_highest h.1
    rw [htop, Option.some.injEq]
    exact Nat.le_antisymm (h.2 (contains_of_highest htop)) hle

/-- The greatest member does not reach a bound exactly if no member does. -/
theorem highest_filter_eq_none_iff :
    m.highest.filter (n ≤ ·) = none ↔ ∀ id, m.contains id = true → id < n := by
  simp only [Option.filter_eq_none_iff, decide_eq_true_eq, Nat.not_le]
  constructor
  · intro h id hid
    obtain ⟨top, htop, hle⟩ := le_highest hid
    exact Nat.lt_of_le_of_lt hle (h top htop)
  · intro h top htop
    exact h top (contains_of_highest htop)

/-- If the greatest member reaches a bound, it is what is found there. -/
theorem highest_filter_eq_some_iff :
    m.highest.filter (n ≤ ·) = some i ↔ IsGreatest {id | m.contains id = true} i ∧ n ≤ i := by
  simp only [Option.filter_eq_some_iff, highest_eq_some_iff, decide_eq_true_eq]

/-- Adding an identifier adds this member and no other one. -/
theorem contains_of_insert? (h : m.insert? id = some m') :
    m'.contains i = true ↔ m.contains i = true ∨ i = id := by
  unfold insert? single? at h
  split at h
  next hid =>
    cases h
    rw [contains_union, Bool.or_eq_true]
    refine or_congr_right ?_
    simp only [contains, BitVec.getLsbD_twoPow, Bool.and_eq_true, decide_eq_true_eq]
    exact ⟨fun heq => heq.2.symm, fun heq => ⟨hid, heq.symm⟩⟩
  next => cases h

/-- An identifier below the width can be added. -/
theorem exists_insert? (hid : id < width) (m : Mask) : ∃ m', m.insert? id = some m' := by
  unfold insert? single?
  rw [if_pos hid]
  exact ⟨_, rfl⟩

/-- Identifiers below the width can be added one after the other, and become members. -/
theorem exists_foldlM_insert? (hids : ∀ id ∈ ids, id < width) (m : Mask) :
    ∃ m', ids.foldlM insert? m = some m' ∧
      ∀ i, m'.contains i = true ↔ m.contains i = true ∨ i ∈ ids := by
  induction ids generalizing m with
  | nil => exact ⟨m, rfl, fun i => by simp⟩
  | cons id ids ih =>
    -- The rest is added to the mask that has the first identifier already.
    obtain ⟨m₁, hm₁⟩ := exists_insert? (hids id List.mem_cons_self) m
    obtain ⟨m₂, hm₂, hmem⟩ := ih (fun j hj => hids j (List.mem_cons_of_mem id hj)) m₁
    refine ⟨m₂, by rw [List.foldlM_cons, hm₁]; exact hm₂, fun i => ?_⟩
    rw [hmem, contains_of_insert? hm₁, List.mem_cons, or_assoc]

/-- There is a mask of all listed identifiers if they are below the width. -/
theorem exists_ofList? (hids : ∀ id ∈ ids, id < width) :
    ∃ m, ofList? ids = some m ∧ ∀ i, m.contains i = true ↔ i ∈ ids := by
  obtain ⟨m, hm, hmem⟩ := exists_foldlM_insert? hids empty
  exact ⟨m, hm, fun i => by simp [hmem]⟩

/-- If all additions succeed, it does not matter what is done about those that do not. -/
theorem foldl_insert?_getD (hm : ids.foldlM insert? m = some m') :
    ids.foldl (fun out id => (out.insert? id).getD out) m = m' := by
  induction ids generalizing m with
  | nil => exact Option.some.inj hm
  | cons id ids ih =>
    rw [List.foldlM_cons] at hm
    obtain ⟨m₁, hm₁, hrest⟩ := Option.bind_eq_some_iff.1 hm
    rw [List.foldl_cons, hm₁]
    exact ih hrest

end StateMachines.Mask
