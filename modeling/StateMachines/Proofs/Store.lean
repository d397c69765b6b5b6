import StateMachines.Store

/-!
# Lookups in the store

What each operation of the store does to `Store.get?`, for the handle it works on and for every
other handle. The lookups need no assumption on the store, with one exception: that the slot an
insertion takes was empty, which holds of every `Store.Tidy` store.

## Main results

* `Store.get?_eq_some_iff`: a handle refers to what its slot holds at its generation.
* `Store.getElem?_slots_modify`, `Store.getElem?_slots_remove`, `Store.getElem?_slots_insert`: what
  an operation leaves in each slot.
* `Store.get?_modify_self`, `Store.get?_remove_self`, `Store.get?_insert_self` and their
  companions for the other handles.
* `Store.Tidy`: the vacant slots are exactly the empty ones; every operation keeps it.
-/

namespace StateMachines.Store

variable {s s' : Store} {h k : Handle} {inst : Instance} {i : Nat} {f : Instance → Instance}

/-- Different handles to one slot differ in their generation. -/
theorem generation_ne_of_index_eq (hindex : h.index = k.index) (hne : k ≠ h) :
    h.generation ≠ k.generation := fun hgen =>
  hne (by cases h; cases k; simp_all)

/-- A handle refers to an instance exactly if its slot holds it at the handle's generation. -/
theorem get?_eq_some_iff :
    s.get? h = some inst ↔ s.slots[h.index]? = some ⟨h.generation, some inst⟩ := by
  simp only [get?, slot?, Option.bind_eq_some_iff, Option.filter_eq_some_iff, decide_eq_true_eq]
  constructor
  · rintro ⟨⟨generation, occupant⟩, ⟨hslot, rfl⟩, rfl⟩
    exact hslot
  · intro hslot
    exact ⟨_, ⟨hslot, rfl⟩, rfl⟩

/-- A handle is contained exactly if it refers to something. -/
theorem contains_eq_true_iff : s.contains h = true ↔ ∃ inst, s.get? h = some inst :=
  Option.isSome_iff_exists

/-- The slot of a handle that refers to an instance. -/
theorem slot?_of_get? (hlive : s.get? h = some inst) :
    s.slot? h = some ⟨h.generation, some inst⟩ := by
  simp [slot?, get?_eq_some_iff.1 hlive]

/-- The slot of a handle that refers to an instance exists. -/
theorem index_lt_of_get? (hlive : s.get? h = some inst) : h.index < s.slots.size :=
  (Array.getElem?_eq_some_iff.1 (get?_eq_some_iff.1 hlive)).1

/-- Without an instance, the slot of a handle is missing or empty. -/
theorem occupant_of_get?_eq_none (hdead : s.get? h = none) {slot : Slot}
    (hslot : s.slot? h = some slot) : slot.occupant = none := by
  simpa [get?, hslot] using hdead

/-- A handle refers to the same in two stores whose slots differ in a single place, if neither slot
in that place is one that the handle refers to. -/
theorem get?_eq_of_slots {old new : Option Slot} (hold : s.slots[i]? = old)
    (hslots : ∀ j, s'.slots[j]? = if i = j then new else s.slots[j]?)
    (hold' : k.index = i → ∀ inst, old ≠ some ⟨k.generation, some inst⟩)
    (hnew : k.index = i → ∀ inst, new ≠ some ⟨k.generation, some inst⟩) :
    s'.get? k = s.get? k := by
  ext inst
  rw [get?_eq_some_iff, get?_eq_some_iff, hslots]
  split
  next hi =>
    rw [← hi, hold]
    exact iff_of_false (hnew hi.symm inst) (hold' hi.symm inst)
  next => rfl

/-! ## Changing an instance -/

/-- Changing what a dead handle refers to changes nothing. -/
theorem modify_eq_self (hdead : s.get? h = none) : s.modify h f = s := by
  unfold modify
  split
  next generation inst hslot =>
    cases occupant_of_get?_eq_none hdead hslot
  next => rfl

/-- The slots after a change of a live instance. -/
theorem getElem?_slots_modify (hlive : s.get? h = some inst) (i : Nat) :
    (s.modify h f).slots[i]? =
      if h.index = i then some ⟨h.generation, some (f inst)⟩ else s.slots[i]? := by
  simp only [modify, slot?_of_get? hlive]
  rw [Array.getElem?_setIfInBounds, if_pos (index_lt_of_get? hlive)]

/-- A change does not touch the list of vacant slots. -/
@[simp]
theorem vacant_modify : (s.modify h f).vacant = s.vacant := by
  unfold modify
  split <;> rfl

/-- A change replaces what the handle refers to. -/
theorem get?_modify_self : (s.modify h f).get? h = (s.get? h).map f := by
  cases hlive : s.get? h with
  | none => rw [modify_eq_self hlive, hlive, Option.map_none]
  | some inst =>
    rw [Option.map_some, get?_eq_some_iff, getElem?_slots_modify hlive, if_pos rfl]

/-- A change leaves alone what other handles refer to. -/
theorem get?_modify_of_ne (hne : k ≠ h) : (s.modify h f).get? k = s.get? k := by
  cases hlive : s.get? h with
  | none => rw [modify_eq_self hlive]
  | some inst =>
    -- Another handle to the same slot was given out for another generation.
    have hgen : k.index = h.index → h.generation ≠ k.generation :=
      fun hi => generation_ne_of_index_eq hi.symm hne
    exact get?_eq_of_slots (get?_eq_some_iff.1 hlive) (getElem?_slots_modify hlive)
      (fun hi => by simp [hgen hi]) (fun hi => by simp [hgen hi])

/-! ## Releasing an instance -/

/-- Releasing what a dead handle refers to changes nothing. -/
theorem remove_eq_self (hdead : s.get? h = none) : s.remove h = s := by
  unfold remove
  split
  next generation inst hslot =>
    cases occupant_of_get?_eq_none hdead hslot
  next => rfl

/-- The slots after the release of a live instance. -/
theorem getElem?_slots_remove (hlive : s.get? h = some inst) (i : Nat) :
    (s.remove h).slots[i]? =
      if h.index = i then some ⟨h.generation + 1, none⟩ else s.slots[i]? := by
  simp only [remove, slot?_of_get? hlive]
  rw [Array.getElem?_setIfInBounds, if_pos (index_lt_of_get? hlive)]

/-- A release puts its slot in front of the vacant ones. -/
theorem vacant_remove (hlive : s.get? h = some inst) :
    (s.remove h).vacant = h.index :: s.vacant := by
  simp [remove, slot?_of_get? hlive]

/-- A released handle refers to nothing. -/
@[simp]
theorem get?_remove_self : (s.remove h).get? h = none := by
  cases hlive : s.get? h with
  | none => rw [remove_eq_self hlive, hlive]
  | some inst =>
    ext other
    rw [get?_eq_some_iff, getElem?_slots_remove hlive, if_pos rfl]
    simp

/-- A release leaves alone what other handles refer to. -/
theorem get?_remove_of_ne (hne : k ≠ h) : (s.remove h).get? k = s.get? k := by
  cases hlive : s.get? h with
  | none => rw [remove_eq_self hlive]
  | some inst =>
    have hgen : k.index = h.index → h.generation ≠ k.generation :=
      fun hi => generation_ne_of_index_eq hi.symm hne
    exact get?_eq_of_slots (get?_eq_some_iff.1 hlive) (getElem?_slots_remove hlive)
      (fun hi => by simp [hgen hi]) (fun hi => by simp)

/-! ## Inserting an instance -/

/-- The two ways in which an insertion succeeds: the slot vacated last is used again, or a new
slot is opened. -/
theorem insert_cases (hins : s.insert inst = .ok (h, s')) :
    (∃ slot vacant, s.vacant = h.index :: vacant ∧ s.slots[h.index]? = some slot ∧
        h.generation = slot.generation ∧
        s'.slots = s.slots.setIfInBounds h.index ⟨h.generation, some inst⟩ ∧
        s'.vacant = vacant) ∨
      (s.vacant = [] ∧ h = ⟨s.slots.size, 0⟩ ∧ s'.slots = s.slots.push ⟨0, some inst⟩ ∧
        s'.vacant = []) := by
  unfold insert at hins
  split at hins
  next index vacant hvacant =>
    split at hins
    next slot hslot =>
      cases hins
      exact .inl ⟨slot, vacant, hvacant, hslot, rfl, rfl, rfl⟩
    next => cases hins
  next hvacant =>
    split at hins
    next =>
      cases hins
      exact .inr ⟨hvacant, rfl, rfl, hvacant⟩
    next => cases hins

/-- The slots after an insertion, in either way. -/
theorem getElem?_slots_insert (hins : s.insert inst = .ok (h, s')) (i : Nat) :
    s'.slots[i]? = if h.index = i then some ⟨h.generation, some inst⟩ else s.slots[i]? := by
  obtain ⟨slot, vacant, -, hslot, -, hslots, -⟩ | ⟨-, rfl, hslots, -⟩ := insert_cases hins
  · rw [hslots, Array.getElem?_setIfInBounds, if_pos (Array.getElem?_eq_some_iff.1 hslot).1]
  · simp only [hslots, Array.getElem?_push, eq_comm]

/-- The slot that an insertion takes is missing, or it stands at the generation of the handle. -/
theorem generation_of_insert (hins : s.insert inst = .ok (h, s')) {slot : Slot}
    (hslot : s.slots[h.index]? = some slot) : slot.generation = h.generation := by
  obtain ⟨slot', vacant, -, hslot', hgen, -⟩ | ⟨-, rfl, -⟩ := insert_cases hins
  · cases hslot.symm.trans hslot'
    exact hgen.symm
  · simp at hslot

/-- An insertion answers a handle to what was inserted. -/
theorem get?_insert_self (hins : s.insert inst = .ok (h, s')) : s'.get? h = some inst := by
  rw [get?_eq_some_iff, getElem?_slots_insert hins, if_pos rfl]

/-- An insertion leaves alone what other handles refer to. -/
theorem get?_insert_of_ne (hins : s.insert inst = .ok (h, s')) (hne : k ≠ h) :
    s'.get? k = s.get? k := by
  have hgen : k.index = h.index → h.generation ≠ k.generation :=
    fun hi => generation_ne_of_index_eq hi.symm hne
  refine get?_eq_of_slots rfl (getElem?_slots_insert hins) (fun hi other hslot => ?_)
    (fun hi => by simp [hgen hi])
  exact hgen hi (generation_of_insert hins hslot).symm

/-! ## Vacant slots -/

/-- The vacant slots are exactly the empty ones, each listed once. -/
structure Tidy (s : Store) : Prop where
  /-- No slot is listed twice. -/
  vacant_nodup : s.vacant.Nodup
  /-- A slot is listed exactly if it exists and is empty. -/
  mem_vacant_iff : ∀ i, i ∈ s.vacant ↔ ∃ generation, s.slots[i]? = some ⟨generation, none⟩

/-- The store without slots is tidy. -/
theorem tidy_empty : Tidy {} :=
  ⟨List.nodup_nil, fun i => by simp⟩

/-- The slot of a live instance is not vacant. -/
theorem Tidy.index_not_mem_vacant (ht : s.Tidy) (hlive : s.get? h = some inst) :
    h.index ∉ s.vacant := fun hmem => by
  obtain ⟨generation, hempty⟩ := (ht.mem_vacant_iff _).1 hmem
  cases hempty.symm.trans (get?_eq_some_iff.1 hlive)

/-- A vacant slot exists. -/
theorem Tidy.exists_slot_of_mem_vacant (ht : s.Tidy) (hmem : i ∈ s.vacant) :
    ∃ slot, s.slots[i]? = some slot := by
  obtain ⟨generation, hslot⟩ := (ht.mem_vacant_iff i).1 hmem
  exact ⟨_, hslot⟩

/-- An insertion succeeds as long as there is a number for another slot. -/
theorem Tidy.exists_insert (ht : s.Tidy) (hsize : s.slots.size < maxSlots) (inst : Instance) :
    ∃ h s', s.insert inst = .ok (h, s') := by
  cases hvacant : s.vacant with
  | nil => exact ⟨_, _, by rw [insert, hvacant]; exact if_pos hsize⟩
  | cons index vacant =>
    have hmem : index ∈ s.vacant := hvacant ▸ List.mem_cons_self
    obtain ⟨slot, hslot⟩ := ht.exists_slot_of_mem_vacant hmem
    exact ⟨_, _, by rw [insert, hvacant]; dsimp only; rw [hslot]⟩

/-- The slot that an insertion takes is empty, if it exists. -/
theorem Tidy.occupant_of_insert (ht : s.Tidy) (hins : s.insert inst = .ok (h, s')) {slot : Slot}
    (hslot : s.slots[h.index]? = some slot) : slot.occupant = none := by
  obtain ⟨slot', vacant, hvacant, -⟩ | ⟨-, rfl, -⟩ := insert_cases hins
  · obtain ⟨generation, hempty⟩ := (ht.mem_vacant_iff h.index).1 (by simp [hvacant])
    cases hslot.symm.trans hempty
    rfl
  · simp at hslot

/-- The handle that an insertion answers referred to nothing before. -/
theorem Tidy.get?_insert (ht : s.Tidy) (hins : s.insert inst = .ok (h, s')) :
    s.get? h = none := by
  cases hlive : s.get? h with
  | none => rfl
  | some other => cases ht.occupant_of_insert hins (get?_eq_some_iff.1 hlive)

/-- A change keeps a store tidy. -/
theorem Tidy.modify (ht : s.Tidy) : (s.modify h f).Tidy := by
  cases hlive : s.get? h with
  | none => rwa [modify_eq_self hlive]
  | some inst =>
    refine ⟨by simpa using ht.vacant_nodup, fun i => ?_⟩
    rw [vacant_modify, getElem?_slots_modify hlive]
    split
    next hi =>
      subst hi
      exact iff_of_false (ht.index_not_mem_vacant hlive) (by simp)
    next => exact ht.mem_vacant_iff i

/-- A release keeps a store tidy. -/
theorem Tidy.remove (ht : s.Tidy) : (s.remove h).Tidy := by
  cases hlive : s.get? h with
  | none => rwa [remove_eq_self hlive]
  | some inst =>
    have hnot := ht.index_not_mem_vacant hlive
    refine ⟨?_, fun i => ?_⟩
    · rw [vacant_remove hlive]
      exact List.nodup_cons.2 ⟨hnot, ht.vacant_nodup⟩
    · rw [vacant_remove hlive, List.mem_cons, getElem?_slots_remove hlive]
      split
      next hi => exact iff_of_true (.inl hi.symm) ⟨_, rfl⟩
      next hi => rw [or_iff_right (Ne.symm hi), ht.mem_vacant_iff]

/-- An insertion keeps a store tidy. -/
theorem Tidy.insert (ht : s.Tidy) (hins : s.insert inst = .ok (h, s')) : s'.Tidy := by
  -- In either way the slot that is taken is the only one that ceases to be vacant.
  obtain ⟨hnodup, hmem⟩ : s'.vacant.Nodup ∧ ∀ i, i ∈ s'.vacant ↔ h.index ≠ i ∧ i ∈ s.vacant := by
    obtain ⟨slot, vacant, hvacant, -, -, -, hvacant'⟩ | ⟨hvacant, -, -, hvacant'⟩ :=
      insert_cases hins
    · have hnodup := ht.vacant_nodup
      rw [hvacant, List.nodup_cons] at hnodup
      rw [hvacant, hvacant']
      refine ⟨hnodup.2, fun i => ⟨fun hi => ⟨?_, List.mem_cons_of_mem _ hi⟩, fun hi => ?_⟩⟩
      · rintro rfl
        exact hnodup.1 hi
      · exact (List.mem_cons.1 hi.2).resolve_left hi.1.symm
    · rw [hvacant, hvacant']
      exact ⟨List.nodup_nil, fun i => by simp⟩
  refine ⟨hnodup, fun i => ?_⟩
  rw [hmem, getElem?_slots_insert hins]
  split
  next hi => exact iff_of_false (fun hne => hne.1 hi) (by simp)
  next hi => rw [and_iff_right hi, ht.mem_vacant_iff]

end StateMachines.Store
