import Mathlib.Data.Finset.Basic
import Mathlib.Data.Finset.Lattice.Lemmas
import Mathlib.Data.List.Sort
import StateMachines.Mask.Edit
import StateMachines.Proofs.Mask

/-!
# Masks as sets

A mask stands for the set of its members. Each edit of a mask does to this set what its name says,
unless it names an identifier that does not fit; then the mask stays as it was. So a mask that was
made by any sequence of edits holds what the same sequence makes of sets, and nothing but the width
tells masks from finite sets of numbers.

## Main definitions

* `Mask.members`: the set of members.
* `Mask.test?`: membership as it is found out by shifting a word.
* `Mask.Edit.onSet`, `Mask.Edit.applied`: what an edit does to sets.

## Main results

* `Mask.members_edit?`: an edit does to the members what it does to sets.
* `Mask.test?_eq`: a membership test shifts by less than the width.
* `Mask.highest_eq_getLast?`: the greatest member is the last one in the list of members.
* `Mask.refines_sets`: masks are the sets of numbers below the width.
-/

namespace StateMachines.Mask

variable {m m' a b : Mask} {id i n : ℕ} {ids : List ℕ} {e : Edit} {s : Finset ℕ}

/-! ## Members -/

/-- The set of members. -/
def members (m : Mask) : Finset ℕ := m.toList.toFinset

@[simp]
theorem mem_members : i ∈ m.members ↔ m.contains i = true := by
  simp [members]

/-- Masks with the same members are the same. -/
theorem ext_contains (h : ∀ i, a.contains i = b.contains i) : a = b := by
  obtain ⟨x⟩ := a
  obtain ⟨y⟩ := b
  rw [mk.injEq]
  apply BitVec.eq_of_getLsbD_eq
  intro i _
  exact h i

/-- A mask is determined by the set of its members. -/
theorem members_injective : Function.Injective members := by
  intro a b h
  apply ext_contains
  intro i
  rw [Bool.eq_iff_iff, ← mem_members, ← mem_members, h]

@[simp]
theorem members_empty : empty.members = ∅ := by
  ext i
  simp

@[simp]
theorem members_union (a b : Mask) : (a.union b).members = a.members ∪ b.members := by
  ext i
  simp

/-- The bits of a number tell the members of its mask, as far as they fit. -/
theorem members_ofBits (n : ℕ) : (ofBits n).members = {i ∈ Finset.range width | n.testBit i} := by
  ext i
  simp only [mem_members, ofBits, contains, BitVec.getLsbD_ofNat, Bool.and_eq_true,
    decide_eq_true_eq, Finset.mem_filter, Finset.mem_range, width]

/-- The mask of a single identifier, if it fits. -/
theorem single?_eq_some_iff : single? id = some m ↔ id < width ∧ m.members = {id} := by
  have hbit : id < width → (⟨BitVec.twoPow 32 id⟩ : Mask).members = {id} := by
    intro hid
    ext i
    -- Bit `i` of the power is set if `i` is the exponent, and exponents below the width are bits.
    simp only [mem_members, contains, BitVec.getLsbD_twoPow, Finset.mem_singleton,
      Bool.and_eq_true, decide_eq_true_eq]
    exact ⟨fun h => h.2.symm, fun h => ⟨hid, h.symm⟩⟩
  unfold single?
  split
  next hid =>
    rw [Option.some.injEq]
    constructor
    · rintro rfl
      exact ⟨hid, hbit hid⟩
    · rintro ⟨-, hm⟩
      exact members_injective ((hbit hid).trans hm.symm)
  next hid => simp [hid]

/-- Adding an identifier that fits adds it to the members. -/
theorem insert?_eq_some_iff :
    m.insert? id = some m' ↔ id < width ∧ m'.members = insert id m.members := by
  unfold insert?
  rw [Option.map_eq_some_iff]
  constructor
  · rintro ⟨bit, hbit, rfl⟩
    obtain ⟨hid, hmembers⟩ := single?_eq_some_iff.1 hbit
    refine ⟨hid, ?_⟩
    rw [members_union, hmembers, Finset.insert_eq, Finset.union_comm]
  · rintro ⟨hid, hmembers⟩
    obtain ⟨bit, hbit⟩ : ∃ bit, single? id = some bit := ⟨_, if_pos hid⟩
    refine ⟨bit, hbit, members_injective ?_⟩
    rw [members_union, (single?_eq_some_iff.1 hbit).2, hmembers, Finset.insert_eq,
      Finset.union_comm]

/-- Identifiers that fit are added to the members one after the other. -/
theorem foldlM_insert?_eq_some_iff : ids.foldlM insert? m = some m' ↔
    (∀ id ∈ ids, id < width) ∧ m'.members = m.members ∪ ids.toFinset := by
  induction ids generalizing m with
  | nil =>
    simp only [List.foldlM_nil, List.toFinset_nil, Finset.union_empty]
    exact ⟨fun h => ⟨by simp, congrArg members (Option.some.inj h).symm⟩,
      fun h => congrArg some (members_injective h.2.symm)⟩
  | cons id ids ih =>
    rw [List.foldlM_cons, List.forall_mem_cons, List.toFinset_cons]
    constructor
    · -- The other identifiers are added to what the first one has made of the mask.
      intro h
      obtain ⟨m₁, hm₁, hrest⟩ := Option.bind_eq_some_iff.1 h
      obtain ⟨hid, hmembers⟩ := insert?_eq_some_iff.1 hm₁
      obtain ⟨hids, hmembers'⟩ := ih.1 hrest
      refine ⟨⟨hid, hids⟩, ?_⟩
      rw [hmembers', hmembers, Finset.insert_union, Finset.union_insert]
    · rintro ⟨⟨hid, hids⟩, hmembers⟩
      obtain ⟨m₁, hm₁⟩ := exists_insert? hid m
      refine Option.bind_eq_some_iff.2 ⟨m₁, hm₁, ih.2 ⟨hids, ?_⟩⟩
      rw [hmembers, (insert?_eq_some_iff.1 hm₁).2, Finset.insert_union, Finset.union_insert]

/-- The mask of a list of identifiers, if all of them fit. -/
theorem ofList?_eq_some_iff :
    ofList? ids = some m ↔ (∀ id ∈ ids, id < width) ∧ m.members = ids.toFinset := by
  unfold ofList?
  rw [foldlM_insert?_eq_some_iff, members_empty, Finset.empty_union]

/-! ## The list of members -/

/-- The members are listed in ascending order. -/
theorem sortedLT_toList (m : Mask) : m.toList.SortedLT :=
  ((List.sortedLT_range width).pairwise.filter _).sortedLT

/-- An ascending list of the members of a mask is the list of its members. -/
theorem toList_eq_of_sortedLT (hids : ids.SortedLT) (hmem : m.members = ids.toFinset) :
    m.toList = ids := by
  apply m.sortedLT_toList.eq_of_mem_iff hids
  intro i
  rw [← List.mem_toFinset, ← List.mem_toFinset (l := ids), ← hmem]
  rfl

/-- Collecting the members of a mask gives the mask again. -/
theorem ofList?_toList (m : Mask) : ofList? m.toList = some m := by
  refine ofList?_eq_some_iff.2 ⟨?_, rfl⟩
  intro id hid
  exact lt_width_of_contains (mem_toList.1 hid)

/-- A mask has no greatest member exactly if it is empty. -/
theorem highest_eq_none_iff : m.highest = none ↔ m = empty := by
  unfold highest isEmpty
  obtain ⟨bits⟩ := m
  simp [empty]

/-- The greatest member is the last one in the list of members. -/
theorem highest_eq_getLast? (m : Mask) : m.highest = m.toList.getLast? := by
  cases htop : m.highest with
  | none =>
    rw [highest_eq_none_iff.1 htop]
    rfl
  | some top =>
    have hmem : top ∈ m.toList := mem_toList.2 (contains_of_highest htop)
    -- The last one of an ascending list is at least as great as every other one.
    obtain ⟨ids, last, hids⟩ :=
      (List.eq_nil_or_concat m.toList).resolve_left (List.ne_nil_of_mem hmem)
    have hsorted := m.sortedLT_toList.pairwise
    rw [hids, List.concat_eq_append] at hmem hsorted
    have hlast : m.contains last = true := mem_toList.1 (by simp [hids])
    obtain ⟨top', htop', hle⟩ := le_highest hlast
    cases htop.symm.trans htop'
    rw [hids, List.concat_eq_append, List.getLast?_concat]
    rcases List.mem_append.1 hmem with hbefore | hsame
    · have hlt := (List.pairwise_append.1 hsorted).2.2 top hbefore last (by simp)
      omega
    · exact congrArg some (List.mem_singleton.1 hsame)

/-- The greatest member is found by counting the leading zeros of the word. -/
theorem highest_eq_clz (hne : m ≠ empty) : m.highest = some (width - 1 - m.bits.clz.toNat) := by
  have hbits : m.bits ≠ 0#32 := fun hzero => hne (by cases m; simp_all [empty])
  have hlow : 2 ^ (32 - 1 - m.bits.clz.toNat) ≤ m.toNat :=
    BitVec.two_pow_sub_clz_le_toNat_of_ne_zero (by decide) hbits
  have hhigh : m.toNat < 2 ^ (32 - m.bits.clz.toNat) := BitVec.toNat_lt_two_pow_sub_clz
  have hnat : m.toNat ≠ 0 := by
    have := Nat.two_pow_pos (32 - 1 - m.bits.clz.toNat)
    omega
  have hnot : m.isEmpty = false := by simp [isEmpty, hbits]
  rw [highest, hnot, if_neg (by decide), Option.some.injEq]
  -- The word lies between two neighbouring powers of two, since not all of its digits are zeros.
  have hle := (Nat.le_log2 hnat).2 hlow
  have hlt := (Nat.log2_lt hnat).2 hhigh
  simp only [width]
  omega

/-! ## Shifts -/

/-- The word `1` shifted by `n` places. There is no such word if it is shifted by its width or
more. -/
def shiftedOne? (n : ℕ) : Option (BitVec 32) := if n < 32 then some (1#32 <<< n) else none

/-- Membership found out by a shift: an identifier that does not fit is no member, and the bit of
any other one is compared with the word. -/
def test? (m : Mask) (id : ℕ) : Option Bool :=
  if id < width then (shiftedOne? id).map (m.bits &&& · != 0#32) else some false

/-- A membership test never shifts by the width or more, and finds out who is a member. -/
theorem test?_eq (m : Mask) (id : ℕ) : m.test? id = some (m.contains id) := by
  unfold test?
  split
  next hid =>
    have hshift : shiftedOne? id = some (BitVec.twoPow 32 id) := by
      rw [BitVec.twoPow_eq]
      exact if_pos hid
    -- What is left of the word is the bit itself, if it is set, and a bit that fits is not zero.
    have hpow : BitVec.twoPow 32 id ≠ 0#32 := by
      intro hzero
      have hbit := congrArg (·.getLsbD id) hzero
      simp [BitVec.getLsbD_twoPow] at hbit
      exact absurd hid (Nat.not_lt.2 hbit)
    rw [hshift, Option.map_some, BitVec.and_twoPow, contains]
    by_cases hmem : m.bits.getLsbD id = true
    · simp [hmem, hpow]
    · simp [hmem]
  next hid =>
    have hno : m.contains id ≠ true := fun hmem => hid (lt_width_of_contains hmem)
    simp [hno]

/-- The mask of a single identifier is made by a shift by less than the width. -/
theorem single?_eq_shiftedOne? (id : ℕ) : single? id = (shiftedOne? id).map mk := by
  unfold single? shiftedOne? width
  rw [BitVec.twoPow_eq]
  by_cases hid : id < 32
  · rw [if_pos hid, if_pos hid, Option.map_some]
  · rw [if_neg hid, if_neg hid, Option.map_none]

/-! ## Edits -/

namespace Edit

/-- The identifiers that an edit names one by one. -/
def named : Edit → List ℕ
  | .only id | .insert id => [id]
  | .collect ids => ids
  | .clear | .setBits _ | .union _ => []

/-- What an edit does to sets. -/
def onSet (s : Finset ℕ) : Edit → Finset ℕ
  | .clear => ∅
  | .setBits n => {i ∈ Finset.range width | n.testBit i}
  | .only id => {id}
  | .insert id => Insert.insert id s
  | .union n => s ∪ {i ∈ Finset.range width | n.testBit i}
  | .collect ids => ids.toFinset

/-- What an edit makes of a set. Nothing happens if it names an identifier that does not fit. -/
def applied (s : Finset ℕ) (e : Edit) : Finset ℕ :=
  if ∀ id ∈ e.named, id < width then e.onSet s else s

end Edit

/-- An edit has a result if all identifiers that it names fit, and does to the members what it does
to sets. -/
theorem members_edit? : m.edit? e = some m' ↔
    (∀ id ∈ e.named, id < width) ∧ m'.members = e.onSet m.members := by
  -- An edit that names no identifier has a result.
  have hvalue : ∀ {x : Mask} {s : Finset ℕ}, x.members = s → (some x = some m' ↔
      (∀ id ∈ ([] : List ℕ), id < width) ∧ m'.members = s) := by
    rintro x s rfl
    rw [Option.some.injEq, and_iff_right (List.forall_mem_nil _), ← members_injective.eq_iff,
      eq_comm]
  cases e with
  | clear => exact hvalue members_empty
  | setBits n => exact hvalue (members_ofBits n)
  | union n => exact hvalue (by rw [members_union, members_ofBits]; rfl)
  | only id => simpa [edit?, Edit.named, Edit.onSet] using single?_eq_some_iff
  | insert id => simpa [edit?, Edit.named, Edit.onSet] using insert?_eq_some_iff
  | collect ids => exact ofList?_eq_some_iff

/-- Every set of identifiers that fit is the set of members of a mask. -/
theorem exists_members (hs : ∀ i ∈ s, i < width) : ∃ m : Mask, m.members = s := by
  have hids : ∀ id ∈ s.toList, id < width := by simpa using hs
  obtain ⟨m, -, hm⟩ := exists_ofList? hids
  refine ⟨m, ?_⟩
  ext i
  rw [mem_members, hm, Finset.mem_toList]

/-- An edit that names only identifiers that fit leads to a set of such identifiers. -/
theorem lt_width_of_mem_onSet (hfits : ∀ id ∈ e.named, id < width)
    (hi : i ∈ e.onSet m.members) : i < width := by
  have hmember : i ∈ m.members → i < width := fun h => lt_width_of_contains (mem_members.1 h)
  cases e with
  | clear => simp [Edit.onSet] at hi
  | setBits n => exact Finset.mem_range.1 (Finset.mem_filter.1 hi).1
  | union n =>
    rcases Finset.mem_union.1 hi with hi | hi
    · exact hmember hi
    · exact Finset.mem_range.1 (Finset.mem_filter.1 hi).1
  | only id => exact hfits i hi
  | insert id =>
    rcases Finset.mem_insert.1 hi with rfl | hi
    · exact hfits i List.mem_cons_self
    · exact hmember hi
  | collect ids => exact hfits i (List.mem_toFinset.1 hi)

/-- An edit has no result exactly if it names an identifier that does not fit. -/
theorem edit?_eq_none_iff : m.edit? e = none ↔ ∃ id ∈ e.named, width ≤ id := by
  constructor
  · intro hnone
    by_contra hall
    have hfits : ∀ id ∈ e.named, id < width := fun id hid =>
      Nat.lt_of_not_le fun hle => hall ⟨id, hid, hle⟩
    -- There is a mask with the members that the edit leads to, so that is its result.
    obtain ⟨m', hm'⟩ := exists_members fun i => lt_width_of_mem_onSet (m := m) hfits
    cases hnone.symm.trans (members_edit?.2 ⟨hfits, hm'⟩)
  · rintro ⟨id, hid, hle⟩
    rw [Option.eq_none_iff_forall_ne_some]
    intro m' hm'
    exact absurd ((members_edit?.1 hm').1 id hid) (Nat.not_lt.2 hle)

/-- An edit makes of the members what it makes of sets. -/
theorem members_edit (m : Mask) (e : Edit) : (m.edit e).members = e.applied m.members := by
  unfold edit Edit.applied
  cases hresult : m.edit? e with
  | none =>
    obtain ⟨id, hid, hle⟩ := edit?_eq_none_iff.1 hresult
    rw [if_neg fun hfits => absurd (hfits id hid) (Nat.not_lt.2 hle), Option.getD_none]
  | some m' =>
    obtain ⟨hfits, hm'⟩ := members_edit?.1 hresult
    rw [if_pos hfits, Option.getD_some, hm']

/-- A sequence of edits makes of the members what it makes of sets. -/
theorem members_foldl_edit (m : Mask) (edits : List Edit) :
    (edits.foldl edit m).members = edits.foldl Edit.applied m.members := by
  induction edits generalizing m with
  | nil => rfl
  | cons e edits ih => rw [List.foldl_cons, List.foldl_cons, ih, members_edit]

/-- Masks are the sets of numbers below the width. A sequence of edits leads to the members to
which it leads as a sequence of operations on sets. Membership is tested, and members are added, by
shifts by less than the width. An edit has no result exactly if it names an identifier that does not
fit, and leaves the mask as it was then. The list of members is ascending and makes up the mask
again; the greatest member is its last one, found by counting leading zeros, and the empty mask has
none. A list of identifiers that fit comes back sorted and without repetitions. Masks with the same
members are the same, and the sets of members are the sets of numbers below the width. -/
theorem refines_sets :
    (∀ (m : Mask) (edits : List Edit) (i : ℕ),
      (edits.foldl edit m).contains i = decide (i ∈ edits.foldl Edit.applied m.members)) ∧
    (∀ (m : Mask) (id : ℕ), m.test? id = some (m.contains id) ∧
      single? id = (shiftedOne? id).map mk) ∧
    (∀ (m : Mask) (e : Edit), (m.edit? e = none ↔ ∃ id ∈ e.named, width ≤ id) ∧
      (m.edit? e = none → m.edit e = m)) ∧
    (∀ m : Mask, m.toList.SortedLT ∧ (∀ i, i ∈ m.toList ↔ m.contains i = true) ∧
      ofList? m.toList = some m ∧ m.highest = m.toList.getLast? ∧
      (m.highest = none ↔ m = empty) ∧
      (m ≠ empty → m.highest = some (width - 1 - m.bits.clz.toNat))) ∧
    (∀ ids : List ℕ, (∀ id ∈ ids, id < width) →
      ∃ m, ofList? ids = some m ∧ m.toList = ids.dedup.mergeSort) ∧
    (∀ a b : Mask, (a = b ↔ ∀ i, a.contains i = b.contains i) ∧
      (a.union b).members = a.members ∪ b.members) ∧
    ∀ s : Finset ℕ, (∃ m : Mask, m.members = s) ↔ ∀ i ∈ s, i < width := by
  refine ⟨fun m edits i => ?_, fun m id => ⟨test?_eq m id, single?_eq_shiftedOne? id⟩,
    fun m e => ⟨edit?_eq_none_iff, fun hnone => ?_⟩,
    fun m => ⟨m.sortedLT_toList, fun i => mem_toList, m.ofList?_toList, m.highest_eq_getLast?,
      highest_eq_none_iff, highest_eq_clz⟩,
    fun ids hids => ?_, fun a b => ⟨⟨fun h i => h ▸ rfl, ext_contains⟩, members_union a b⟩,
    fun s => ⟨?_, exists_members⟩⟩
  · rw [Bool.eq_iff_iff, ← mem_members, members_foldl_edit, decide_eq_true_eq]
  · rw [edit, hnone, Option.getD_none]
  · obtain ⟨m, hm, -⟩ := exists_ofList? hids
    refine ⟨m, hm, toList_eq_of_sortedLT ?_ ?_⟩
    · -- Sorting keeps a list free of repetitions, so what is sorted without them is ascending.
      have hnodup : ids.dedup.mergeSort.Nodup :=
        (List.mergeSort_perm _ _).nodup_iff.2 ids.nodup_dedup
      exact (List.pairwise_mergeSort' (· ≤ ·) ids.dedup).sortedLE.sortedLT_of_nodup hnodup
    · rw [(ofList?_eq_some_iff.1 hm).2]
      ext i
      simp
  · rintro ⟨m, rfl⟩ i hi
    exact lt_width_of_contains (mem_members.1 hi)

/-- A list of identifiers with repetitions comes back sorted. -/
theorem refines_sets_collect : (∀ id ∈ [7, 3, 31, 3], id < width) ∧
    ∃ m, ofList? [7, 3, 31, 3] = some m ∧ m.toList = [7, 3, 31, 3].dedup.mergeSort :=
  have hids : ∀ id ∈ [7, 3, 31, 3], id < width := by decide
  ⟨hids, refines_sets.2.2.2.2.1 _ hids⟩

/-- An identifier that does not fit is not added, and the edits around it are carried out. -/
example : ([.insert 3, .collect [1, 40], .union 9, .insert 32] : List Edit).foldl edit empty =
    ofBits 9 := by
  decide

end StateMachines.Mask
