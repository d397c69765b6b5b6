import StateMachines.Proofs.Store

/-!
# Generations and issued handles

A slot counts its releases in its generation, modulo `2 ^ 32`. As long as no generation goes
down, a handle that was issued once never refers to a second instance: `Store.Evolves` says so
of two stores, and it is a preorder that each operation respects.

## Main results

* `Store.Ages`: the generation of a slot counts the moments at which the slot is vacated.
* `Store.Issued`: the handles that have been answered by an insertion so far.
* `Store.Evolves`: what an issued handle refers to later is what it referred to before, of the
  same class and under the same parent.
* `Store.evolves_modify`, `Store.evolves_remove`, `Store.evolves_insert`.
-/

namespace StateMachines

/-- The second instance is the first one at a later time. -/
structure Instance.Continues (a b : Instance) : Prop where
  /-- The class is the same. -/
  descriptor_eq : b.descriptor = a.descriptor
  /-- The parent is the same. -/
  parent_eq : b.parent = a.parent
  /-- The event that tells the parent is the same. -/
  parentEvent_eq : b.parentEvent = a.parentEvent
  /-- A termination that has begun is not taken back. -/
  terminating_of : a.terminating = true → b.terminating = true

/-- An instance continues itself. -/
theorem Instance.Continues.refl (a : Instance) : a.Continues a :=
  ⟨rfl, rfl, rfl, fun ha => ha⟩

/-- Continuations compose. -/
theorem Instance.Continues.trans {a b c : Instance} (hab : a.Continues b) (hbc : b.Continues c) :
    a.Continues c :=
  ⟨hbc.descriptor_eq.trans hab.descriptor_eq, hbc.parent_eq.trans hab.parent_eq,
    hbc.parentEvent_eq.trans hab.parentEvent_eq,
    fun ha => hbc.terminating_of (hab.terminating_of ha)⟩

namespace Store

variable {s s' s'' : Store} {h k p : Handle} {inst : Instance} {i : Nat}
  {f : Instance → Instance}

/-! ## Counting releases -/

/-- Whether a slot holds an instance. -/
def occupied (s : Store) (i : Nat) : Bool := (s.slots[i]?.bind (·.occupant)).isSome

/-- The generation of a slot, `0` for a slot that does not exist yet. -/
def generationAt (s : Store) (i : Nat) : UInt32 := (s.slots[i]?.map (·.generation)).getD 0

/-- Whether a slot held an instance in the first store and is empty in the second. -/
def vacated (s s' : Store) (i : Nat) : Bool := s.occupied i && !s'.occupied i

/-- The generation of each slot goes up by one exactly if the slot is vacated. -/
def Ages (s s' : Store) : Prop :=
  ∀ i, s'.generationAt i = s.generationAt i + if s.vacated s' i then 1 else 0

/-- A slot that stays as it is does not age. -/
theorem ages_at_of_slot_eq (hslot : s'.slots[i]? = s.slots[i]?) :
    s'.generationAt i = s.generationAt i + if s.vacated s' i then 1 else 0 := by
  have hvacated : s.vacated s' i = false := by
    rw [vacated, occupied, occupied, hslot, Bool.and_not_self]
  simp [hvacated, generationAt, hslot]

/-- A store does not age by itself. -/
theorem Ages.refl (s : Store) : s.Ages s := fun _ => ages_at_of_slot_eq rfl

/-- A change of an instance leaves all generations alone. -/
@[simp]
theorem generationAt_modify : (s.modify h f).generationAt i = s.generationAt i := by
  cases hlive : s.get? h with
  | none => rw [modify_eq_self hlive]
  | some inst =>
    unfold generationAt
    rw [getElem?_slots_modify hlive]
    split
    next hi =>
      rw [← hi, get?_eq_some_iff.1 hlive]
      rfl
    next => rfl

/-- A change of an instance leaves the same slots occupied. -/
@[simp]
theorem occupied_modify : (s.modify h f).occupied i = s.occupied i := by
  cases hlive : s.get? h with
  | none => rw [modify_eq_self hlive]
  | some inst =>
    unfold occupied
    rw [getElem?_slots_modify hlive]
    split
    next hi =>
      rw [← hi, get?_eq_some_iff.1 hlive]
      rfl
    next => rfl

/-- A further change of an instance does not matter to the ageing of a store. -/
theorem Ages.modify (hages : s.Ages s') : s.Ages (s'.modify h f) := fun i => by
  simpa [vacated] using hages i

/-- A release of a live instance vacates its slot. -/
theorem ages_remove : s.Ages (s.remove h) := by
  cases hlive : s.get? h with
  | none =>
    rw [remove_eq_self hlive]
    exact .refl s
  | some inst =>
    intro i
    have hslots := getElem?_slots_remove hlive i
    by_cases hi : h.index = i
    · subst hi
      rw [if_pos rfl] at hslots
      simp [vacated, occupied, generationAt, hslots, get?_eq_some_iff.1 hlive]
    · rw [if_neg hi] at hslots
      exact ages_at_of_slot_eq hslots

/-- An insertion answers a handle for the present generation of its slot. -/
theorem generationAt_of_insert (hins : s.insert inst = .ok (h, s')) :
    s.generationAt h.index = h.generation := by
  unfold generationAt
  obtain ⟨slot, vacant, -, hslot, hgen, -⟩ | ⟨-, rfl, -⟩ := insert_cases hins
  · rw [hslot, hgen]
    rfl
  · simp

/-- An insertion vacates nothing. -/
theorem ages_insert (hins : s.insert inst = .ok (h, s')) : s.Ages s' := by
  intro i
  have hslots := getElem?_slots_insert hins i
  by_cases hi : h.index = i
  · subst hi
    rw [if_pos rfl] at hslots
    have hvacated : s.vacated s' h.index = false := by simp [vacated, occupied, hslots]
    rw [hvacated, generationAt_of_insert hins, generationAt, hslots]
    simp
  · rw [if_neg hi] at hslots
    exact ages_at_of_slot_eq hslots

/-! ## Issued handles -/

/-- The handle has been answered by an insertion: its slot has moved on to a later generation, or
holds the instance the handle was issued for. -/
def Issued (s : Store) (h : Handle) : Prop :=
  ∃ slot, s.slots[h.index]? = some slot ∧
    (h.generation < slot.generation ∨
      h.generation = slot.generation ∧ ∃ inst, slot.occupant = some inst)

/-- A handle that refers to an instance has been issued. -/
theorem issued_of_get? (hlive : s.get? h = some inst) : s.Issued h :=
  ⟨_, get?_eq_some_iff.1 hlive, .inr ⟨rfl, inst, rfl⟩⟩

/-- The handle that an insertion answers has not been issued before. -/
theorem Tidy.not_issued_insert (ht : s.Tidy) (hins : s.insert inst = .ok (h, s')) :
    ¬ s.Issued h := by
  rintro ⟨slot, hslot, hlt | ⟨-, other, hother⟩⟩
  · rw [generation_of_insert hins hslot] at hlt
    exact UInt32.lt_irrefl _ hlt
  · cases hother.symm.trans (ht.occupant_of_insert hins hslot)

/-- What an issued handle refers to later is what it referred to before. -/
structure Evolves (s s' : Store) : Prop where
  /-- An issued handle remains issued. -/
  issued : ∀ {h}, s.Issued h → s'.Issued h
  /-- What is live under an issued handle was live before. -/
  continues : ∀ {h b}, s.Issued h → s'.get? h = some b →
    ∃ a, s.get? h = some a ∧ a.Continues b

/-- A store evolves to itself. -/
theorem Evolves.refl (s : Store) : s.Evolves s :=
  ⟨id, fun {_ b} _ hlive => ⟨b, hlive, .refl b⟩⟩

/-- Evolutions compose. -/
theorem Evolves.trans (h₁ : s.Evolves s') (h₂ : s'.Evolves s'') : s.Evolves s'' := by
  refine ⟨fun hissued => h₂.issued (h₁.issued hissued), fun {h c} hissued hlive => ?_⟩
  obtain ⟨b, hb, hbc⟩ := h₂.continues (h₁.issued hissued) hlive
  obtain ⟨a, ha, hab⟩ := h₁.continues hissued hb
  exact ⟨a, ha, hab.trans hbc⟩

/-- An issued handle that refers to nothing never refers to anything again. -/
theorem Evolves.get?_eq_none (he : s.Evolves s') (hissued : s.Issued h)
    (hdead : s.get? h = none) : s'.get? h = none := by
  cases hlive : s'.get? h with
  | none => rfl
  | some b =>
    obtain ⟨a, ha, -⟩ := he.continues hissued hlive
    cases hdead.symm.trans ha

/-- A change of an instance does not touch which handles are issued. -/
theorem issued_modify_iff : (s.modify h f).Issued k ↔ s.Issued k := by
  cases hlive : s.get? h with
  | none => rw [modify_eq_self hlive]
  | some inst =>
    unfold Issued
    rw [getElem?_slots_modify hlive]
    split
    next hi =>
      rw [← hi, get?_eq_some_iff.1 hlive]
      simp
    next => rfl

/-- A store evolves by a change that continues each instance. -/
theorem evolves_modify (hf : ∀ a, s.get? h = some a → a.Continues (f a)) :
    s.Evolves (s.modify h f) := by
  refine ⟨issued_modify_iff.2, fun {k b} _ hlive => ?_⟩
  by_cases hk : k = h
  · subst hk
    rw [get?_modify_self, Option.map_eq_some_iff] at hlive
    obtain ⟨a, ha, rfl⟩ := hlive
    exact ⟨a, ha, hf a ha⟩
  · rw [get?_modify_of_ne hk] at hlive
    exact ⟨b, hlive, .refl b⟩

/-- A store evolves by any change of an instance that is new to it. -/
theorem Evolves.modify_new (he : s.Evolves s') (hnew : ¬ s.Issued h) :
    s.Evolves (s'.modify h f) := by
  refine ⟨fun hissued => issued_modify_iff.2 (he.issued hissued), fun {k b} hissued hlive => ?_⟩
  have hne : k ≠ h := fun hk => hnew (hk ▸ hissued)
  rw [get?_modify_of_ne hne] at hlive
  exact he.continues hissued hlive

/-- A store evolves by an insertion. -/
theorem evolves_insert (hins : s.insert inst = .ok (h, s')) (hnew : ¬ s.Issued h) :
    s.Evolves s' := by
  refine ⟨fun {k} hissued => ?_, fun {k b} hissued hlive => ?_⟩
  · obtain ⟨slot, hslot, hgen⟩ := hissued
    have hslots := getElem?_slots_insert hins k.index
    by_cases hi : h.index = k.index
    · rw [if_pos hi] at hslots
      have hgen' := generation_of_insert hins (hi ▸ hslot)
      exact ⟨_, hslots, hgen.imp (hgen' ▸ ·) fun hk => ⟨hgen' ▸ hk.1, inst, rfl⟩⟩
    · rw [if_neg hi] at hslots
      exact ⟨slot, hslots.trans hslot, hgen⟩
  · have hne : k ≠ h := fun hk => hnew (hk ▸ hissued)
    rw [get?_insert_of_ne hins hne] at hlive
    exact ⟨b, hlive, .refl b⟩

/-- A store evolves by a release that does not exhaust the generations of the slot. -/
theorem evolves_remove (hgen : s.generationAt h.index ≤ (s.remove h).generationAt h.index) :
    s.Evolves (s.remove h) := by
  cases hlive : s.get? h with
  | none =>
    rw [remove_eq_self hlive]
    exact .refl s
  | some inst =>
    have hslot := get?_eq_some_iff.1 hlive
    have hup : h.generation < h.generation + 1 := by
      have hle : h.generation ≤ h.generation + 1 := by
        simpa [generationAt, getElem?_slots_remove hlive, hslot] using hgen
      exact UInt32.lt_of_le_of_ne hle (by simp)
    refine ⟨fun {k} hissued => ?_, fun {k b} _ hb => ?_⟩
    · obtain ⟨slot, hk, hgen⟩ := hissued
      have hslots := getElem?_slots_remove hlive k.index
      by_cases hi : h.index = k.index
      · -- A handle to the slot belongs to the generation that ends or to an earlier one.
        rw [if_pos hi] at hslots
        refine ⟨_, hslots, .inl ?_⟩
        rw [← hi, hslot] at hk
        cases hk
        rcases hgen with hlt | ⟨heq, -⟩
        · exact UInt32.lt_trans hlt hup
        · exact heq ▸ hup
      · rw [if_neg hi] at hslots
        exact ⟨slot, hslots.trans hk, hgen⟩
    · by_cases hk : k = h
      · subst hk
        simp at hb
      · rw [get?_remove_of_ne hk] at hb
        exact ⟨b, hb, .refl b⟩

end Store

end StateMachines
