import Mathlib.Data.Set.Card
import StateMachines.Proofs.Execution.Session
import StateMachines.Proofs.Store.Generation

/-!
# Histories of a store

Instances are inserted into a store and released from it in any order, and a release may be asked
for under any handle: one that refers to an instance, one that does not any more, or one that was
never answered. Whatever happens, the store is a partial map from handles to instances, and its
three parts agree: the slots, the list of the vacant ones, and the lists of the classes.

A handle is told apart from the later ones to its slot by the number of releases of the slot, modulo
`2 ^ 32`. So it refers to nothing any more once it was released, until its slot has been released
`2 ^ 32` times since it was answered; and then it may refer to another instance.

## Main definitions

* `Store.History`: a store together with what was done to it.
* `Store.referent`: the partial map, read off the history alone.
* `Store.releasesAt`: how often a slot was released.

## Main results

* `Store.History.get?_eq_referent`: lookups answer what the partial map holds.
* `Store.History.generation_eq`: the generation of a handle counts the releases of its slot.
* `Store.History.get?_eq_none_of_released`: a released handle refers to nothing any more.
* `Store.History.exists_resurrection`: until its slot has been released `2 ^ 32` times.
* `Store.History.refines_map`: all of it together with the vacant slots and the lists of classes.
-/

namespace StateMachines.Store

/-- What was done to a store. -/
inductive Event where
  /-- The instance was inserted, and the handle was answered. -/
  | inserted (h : Handle) (inst : Instance)
  /-- The release of the handle was asked for, whether or not it referred to anything. -/
  | released (h : Handle)

/-- A store with its history: what was done to it, the latest first. -/
inductive History : Store → List Event → Prop where
  | empty : History {} []
  | insert {s s' : Store} {events : List Event} {h : Handle} {inst : Instance}
      (hhist : History s events) (hins : s.insert inst = .ok (h, s')) :
      History s' (.inserted h inst :: events)
  | release {s : Store} {events : List Event} (h : Handle) (hhist : History s events) :
      History (s.remove h) (.released h :: events)

/-- What a handle refers to after a history: what was inserted under it last, unless the handle
has been released since. -/
def referent (h : Handle) : List Event → Option Instance
  | [] => none
  | .inserted k inst :: earlier => if k = h then some inst else referent h earlier
  | .released k :: earlier => if k = h then none else referent h earlier

/-- How often a slot was released in a history. A release counts if its handle referred to
something. -/
def releasesAt (i : Nat) : List Event → Nat
  | [] => 0
  | .inserted _ _ :: earlier => releasesAt i earlier
  | .released h :: earlier =>
    releasesAt i earlier + if h.index = i ∧ (referent h earlier).isSome then 1 else 0

/-- The place in a history of the last insertion that answered the handle: how much had been done
before it. -/
def insertedAt (h : Handle) : List Event → Nat
  | [] => 0
  | .inserted k _ :: earlier => if k = h then earlier.length else insertedAt h earlier
  | .released _ :: earlier => insertedAt h earlier

/-- The handle that an insertion answered. -/
def Event.answer? : Event → Option Handle
  | .inserted h _ => some h
  | .released _ => none

/-- The handles that the insertions of a history answered, the latest first. -/
def answers (events : List Event) : List Handle := events.filterMap Event.answer?

variable {s s' : Store} {h k : Handle} {inst other : Instance} {i key : Nat}
  {events earlier later : List Event}

/-! ## The list of the classes -/

/-- An insertion is listed last. -/
theorem roster_insert (hins : s.insert inst = .ok (h, s')) :
    s'.roster = s.roster ++ [(inst.descriptor.key, h)] := by
  unfold insert at hins
  split at hins
  · split at hins <;> cases hins
    rfl
  · split at hins <;> cases hins
    rfl

/-- The release of a live instance takes it off the list. -/
theorem roster_remove (hlive : s.get? h = some inst) :
    (s.remove h).roster = s.roster.filter (· ≠ (inst.descriptor.key, h)) := by
  simp [remove, slot?_of_get? hlive]

/-- Each live instance is listed once, under the key of its class, and each slot is vacant or has
its instance listed. -/
structure Rostered (s : Store) : Prop where
  /-- No entry is there twice. -/
  nodup : s.roster.Nodup
  /-- The entries are the live instances. -/
  mem_iff : ∀ key h, (key, h) ∈ s.roster ↔
    ∃ inst, s.get? h = some inst ∧ inst.descriptor.key = key
  /-- Every slot is accounted for. -/
  length_eq : s.vacant.length + s.roster.length = s.slots.size

namespace Rostered

/-- The store without slots lists nothing. -/
theorem empty : Rostered {} :=
  ⟨List.nodup_nil, fun key h => by simp [get?, slot?], rfl⟩

/-- An insertion keeps the lists of a store right. -/
theorem insert (hr : s.Rostered) (ht : s.Tidy) (hins : s.insert inst = .ok (h, s')) :
    s'.Rostered := by
  have hdead := ht.get?_insert hins
  have hnew : (inst.descriptor.key, h) ∉ s.roster := by
    simp [hr.mem_iff, hdead]
  refine ⟨?_, fun key k => ?_, ?_⟩
  · rw [roster_insert hins, List.nodup_append]
    refine ⟨hr.nodup, List.nodup_singleton _, fun entry hentry added hadded => ?_⟩
    rw [List.mem_singleton.1 hadded]
    rintro rfl
    exact hnew hentry
  · rw [roster_insert hins, List.mem_append, hr.mem_iff]
    by_cases hk : k = h
    · subst hk
      simp [hdead, get?_insert_self hins, eq_comm]
    · simp [get?_insert_of_ne hins hk, hk]
  · have hlength := hr.length_eq
    rw [roster_insert hins, List.length_append, List.length_singleton]
    -- A slot is used again, or a new one is opened.
    obtain ⟨slot, vacant, hvacant, -, -, hslots, hvacant'⟩ | ⟨hvacant, -, hslots, hvacant'⟩ :=
      insert_cases hins
    · rw [hvacant, List.length_cons] at hlength
      rw [hvacant', hslots, Array.size_setIfInBounds]
      omega
    · rw [hvacant, List.length_nil] at hlength
      rw [hvacant', hslots, Array.size_push, List.length_nil]
      omega

/-- A release keeps the lists of a store right. -/
theorem remove (hr : s.Rostered) : (s.remove h).Rostered := by
  cases hlive : s.get? h with
  | none => rwa [remove_eq_self hlive]
  | some inst =>
    have hmem : (inst.descriptor.key, h) ∈ s.roster := (hr.mem_iff _ _).2 ⟨inst, hlive, rfl⟩
    refine ⟨?_, fun key k => ?_, ?_⟩
    · rw [roster_remove hlive]
      exact hr.nodup.filter _
    · rw [roster_remove hlive, List.mem_filter, hr.mem_iff]
      by_cases hk : k = h
      · -- The only entry of the handle is the one that is taken off.
        subst hk
        refine iff_of_false ?_ (by simp)
        rintro ⟨⟨a, ha, rfl⟩, hne⟩
        cases hlive.symm.trans ha
        simp at hne
      · simp [get?_remove_of_ne hk, hk]
    · -- One entry is taken off the list, and one slot becomes vacant.
      have hlength := hr.length_eq
      have hpos := List.length_pos_of_mem hmem
      have hfilter : s.roster.filter (· ≠ (inst.descriptor.key, h)) =
          s.roster.erase (inst.descriptor.key, h) := by
        rw [hr.nodup.erase_eq_filter]
        exact List.filter_congr fun entry _ => Bool.eq_iff_iff.2 (by simp)
      have hsize : (s.remove h).slots.size = s.slots.size := by
        simp [Store.remove, slot?_of_get? hlive]
      rw [roster_remove hlive, hfilter, vacant_remove hlive, hsize, List.length_cons,
        List.length_erase_of_mem hmem]
      omega

/-- No handle is listed twice, since it refers to one instance, and that to one class. -/
theorem nodup_handles (hr : s.Rostered) : (s.roster.map (·.2)).Nodup := by
  refine hr.nodup.map_on ?_
  rintro ⟨key, h⟩ hentry ⟨key', h'⟩ hentry' rfl
  obtain ⟨a, ha, rfl⟩ := (hr.mem_iff _ _).1 hentry
  obtain ⟨b, hb, rfl⟩ := (hr.mem_iff _ _).1 hentry'
  cases ha.symm.trans hb
  rfl

/-- A class lists its live instances. -/
theorem mem_instancesOf_iff (hr : s.Rostered) :
    h ∈ s.instancesOf key ↔ ∃ inst, s.get? h = some inst ∧ inst.descriptor.key = key := by
  rw [← hr.mem_iff]
  simp [instancesOf]

/-- The size of a store is the number of handles that refer to something. -/
theorem encard_live (hr : s.Rostered) : {h | ∃ inst, s.get? h = some inst}.encard = s.size := by
  have hlive : {h | ∃ inst, s.get? h = some inst} = (s.roster.map (·.2)).toFinset := by
    ext h
    simp [hr.mem_iff]
  have hsize : s.size = s.roster.length := by
    have hlength := hr.length_eq
    rw [size]
    omega
  rw [hlive, Set.encard_coe_eq_coe_finsetCard, List.toFinset_card_of_nodup hr.nodup_handles,
    List.length_map, hsize]

end Rostered

namespace History

/-- The store of a history is tidy. -/
theorem tidy (hhist : History s events) : s.Tidy := by
  induction hhist with
  | empty => exact tidy_empty
  | insert _ hins ih => exact ih.insert hins
  | release h _ ih => exact ih.remove

/-- The lists of the store of a history are right. -/
theorem rostered (hhist : History s events) : s.Rostered := by
  induction hhist with
  | empty => exact .empty
  | insert hhist hins ih => exact ih.insert hhist.tidy hins
  | release h _ ih => exact ih.remove

/-- A history has come to each of its moments. -/
theorem exists_of_append (hhist : History s (later ++ events)) : ∃ s₀, History s₀ events := by
  induction later generalizing s with
  | nil => exact ⟨s, hhist⟩
  | cons event later ih =>
    cases hhist with
    | insert hbefore hins => exact ih hbefore
    | release h hbefore => exact ih hbefore

/-! ## What handles refer to -/

/-- A handle refers to what was inserted under it last, unless it has been released since. -/
theorem get?_eq_referent (hhist : History s events) (h : Handle) :
    s.get? h = referent h events := by
  induction hhist with
  | empty => simp [get?, slot?, referent]
  | @insert s s' events k inst hhist hins ih =>
    rw [referent]
    split
    next hk => rw [← hk, get?_insert_self hins]
    next hk => rw [get?_insert_of_ne hins (Ne.symm hk), ih]
  | release k hhist ih =>
    rw [referent]
    split
    next hk => rw [← hk, get?_remove_self]
    next hk => rw [get?_remove_of_ne (Ne.symm hk), ih]

/-- The generation of a slot counts its releases, modulo `2 ^ 32`. -/
theorem generationAt_eq (hhist : History s events) (i : Nat) :
    s.generationAt i = UInt32.ofNat (releasesAt i events) := by
  induction hhist with
  | empty => rfl
  | @insert s s' events h inst hhist hins ih =>
    rw [releasesAt, ← ih]
    by_cases hi : h.index = i
    · subst hi
      rw [generationAt_of_insert hins]
      simp [generationAt, getElem?_slots_insert hins]
    · simp [generationAt, getElem?_slots_insert hins, hi]
  | @release s events h hhist ih =>
    rw [releasesAt, ← hhist.get?_eq_referent]
    cases hlive : s.get? h with
    | none => simp [remove_eq_self hlive, ih]
    | some inst =>
      by_cases hi : h.index = i
      · subst hi
        have hgen : s.generationAt h.index = h.generation := by
          simp [generationAt, get?_eq_some_iff.1 hlive]
        rw [if_pos ⟨rfl, rfl⟩, UInt32.ofNat_add, ← ih, hgen]
        simp [generationAt, getElem?_slots_remove hlive]
      · simp [← ih, generationAt, getElem?_slots_remove hlive, hi]

/-- An insertion is answered exactly if a slot is vacant or there is a number for another one. -/
theorem exists_insert_iff (hhist : History s events) :
    (∃ h s', s.insert inst = .ok (h, s')) ↔ s.vacant ≠ [] ∨ s.slots.size < maxSlots := by
  constructor
  · rintro ⟨h, s', hins⟩
    by_contra hfull
    rw [not_or, not_not] at hfull
    rw [Store.insert, hfull.1] at hins
    dsimp only at hins
    rw [if_neg hfull.2] at hins
    cases hins
  · rintro (hvacant | hsize)
    · obtain ⟨i, vacant, hcons⟩ := List.exists_cons_of_ne_nil hvacant
      obtain ⟨slot, hslot⟩ := hhist.tidy.exists_slot_of_mem_vacant (i := i) (by simp [hcons])
      rw [Store.insert, hcons]
      dsimp only
      rw [hslot]
      exact ⟨_, _, rfl⟩
    · exact hhist.tidy.exists_insert hsize inst

/-- The generation of the handle that an insertion answers is the number of earlier releases of its
slot, modulo `2 ^ 32`. -/
theorem generation_eq (hhist : History s events) (hins : s.insert inst = .ok (h, s')) :
    h.generation = UInt32.ofNat (releasesAt h.index events) := by
  rw [← generationAt_of_insert hins, hhist.generationAt_eq]

/-- A handle refers to something exactly if its slot is occupied and its generation is the number
of releases of the slot, modulo `2 ^ 32`. -/
theorem exists_get?_iff (hhist : History s events) :
    (∃ inst, s.get? h = some inst) ↔
      s.occupied h.index = true ∧ h.generation = UInt32.ofNat (releasesAt h.index events) := by
  rw [← hhist.generationAt_eq]
  constructor
  · rintro ⟨inst, hlive⟩
    simp [occupied, generationAt, get?_eq_some_iff.1 hlive]
  · rintro ⟨hoccupied, hgen⟩
    obtain ⟨inst, hinst⟩ := Option.isSome_iff_exists.1 hoccupied
    obtain ⟨⟨generation, occupant⟩, hslot, rfl⟩ := Option.bind_eq_some_iff.1 hinst
    refine ⟨inst, get?_eq_some_iff.2 ?_⟩
    rw [hslot, hgen, generationAt, hslot]
    rfl

/-! ## Released handles -/

/-- There were no more releases in an earlier part of a history. -/
theorem releasesAt_le_append (later : List Event) :
    releasesAt i events ≤ releasesAt i (later ++ events) := by
  induction later with
  | nil => exact Nat.le_refl _
  | cons event later ih =>
    cases event with
    | inserted => exact ih
    | released => exact Nat.le_trans ih (Nat.le_add_right _ _)

/-- A handle that was released refers to nothing as long as its slot has been released fewer than
`2 ^ 32` times since it referred to something. -/
theorem get?_eq_none_of_released (hhist : History s (later ++ .released h :: earlier))
    (hlive : (referent h earlier).isSome)
    (hfew : releasesAt h.index (later ++ .released h :: earlier) <
      releasesAt h.index earlier + UInt32.size) : s.get? h = none := by
  rw [Option.eq_none_iff_forall_ne_some]
  intro inst hinst
  -- The generation of the handle counts the releases before its own one, and now there are more.
  have hnow := (hhist.exists_get?_iff.1 ⟨inst, hinst⟩).2
  obtain ⟨s₀, hbefore⟩ : ∃ s₀, History s₀ earlier := by
    obtain ⟨s₁, hs₁⟩ := hhist.exists_of_append
    cases hs₁ with
    | release h hbefore => exact ⟨_, hbefore⟩
  rw [← hbefore.get?_eq_referent] at hlive
  have hthen := (hbefore.exists_get?_iff.1 (Option.isSome_iff_exists.1 hlive)).2
  have hmore : releasesAt h.index earlier + 1 ≤
      releasesAt h.index (later ++ .released h :: earlier) := by
    rw [hbefore.get?_eq_referent] at hlive
    have hcount : releasesAt h.index (.released h :: earlier) = releasesAt h.index earlier + 1 := by
      simp [releasesAt, hlive]
    rw [← hcount]
    exact releasesAt_le_append _
  have hmod := congrArg UInt32.toNat (hnow.symm.trans hthen)
  simp only [UInt32.toNat_ofNat', UInt32.size] at hmod hfew
  omega

/-- With few releases, a handle that an insertion answered has been issued. -/
theorem issued_of_mem_answers (hhist : History s events)
    (hfew : ∀ i, releasesAt i events < UInt32.size) (hmem : h ∈ answers events) :
    s.Issued h := by
  induction hhist with
  | empty => cases hmem
  | @insert s s' events k inst hhist hins ih =>
    rcases List.mem_cons.1 hmem with rfl | hmem
    · exact issued_of_get? (get?_insert_self hins)
    · have hnew := hhist.tidy.not_issued_insert hins
      exact (evolves_insert hins hnew).issued (ih hfew hmem)
  | @release s events k hhist ih =>
    have hbefore : ∀ i, releasesAt i events < UInt32.size := fun i =>
      Nat.lt_of_le_of_lt (releasesAt_le_append [.released k]) (hfew i)
    -- The generation of the slot goes up, because it does not start over.
    have hgen : s.generationAt k.index ≤ (s.remove k).generationAt k.index := by
      rw [hhist.generationAt_eq, (hhist.release k).generationAt_eq, UInt32.le_iff_toNat_le,
        UInt32.toNat_ofNat_of_lt' (hbefore _), UInt32.toNat_ofNat_of_lt' (hfew _)]
      exact releasesAt_le_append [.released k]
    exact (evolves_remove hgen).issued (ih hbefore hmem)

/-- With few releases, no handle is answered twice. -/
theorem nodup_answers (hhist : History s events)
    (hfew : ∀ i, releasesAt i events < UInt32.size) : (answers events).Nodup := by
  induction hhist with
  | empty => exact List.nodup_nil
  | @insert s s' events h inst hhist hins ih =>
    refine List.nodup_cons.2 ⟨fun hmem => ?_, ih hfew⟩
    exact hhist.tidy.not_issued_insert hins (hhist.issued_of_mem_answers hfew hmem)
  | release h hhist ih =>
    exact ih fun i => Nat.lt_of_le_of_lt (releasesAt_le_append [.released h]) (hfew i)

/-! ## Handles that start over -/

/-- The slot vacated last is used again. -/
theorem exists_reuse (hlive : s.get? h = some inst) (other : Instance) :
    ∃ s', (s.remove h).insert other = .ok (⟨h.index, h.generation + 1⟩, s') := by
  have hslot : (s.remove h).slots[h.index]? = some ⟨h.generation + 1, none⟩ := by
    rw [getElem?_slots_remove hlive, if_pos rfl]
  rw [Store.insert, vacant_remove hlive]
  dsimp only
  rw [hslot]
  exact ⟨_, rfl⟩

/-- A live instance can be released and its slot used again any number of times in a row. -/
theorem exists_reuses (hhist : History s events) (hlive : s.get? h = some inst) (n : Nat) :
    ∃ s' later, History s' (.inserted ⟨h.index, h.generation + UInt32.ofNat (n + 1)⟩ inst ::
        (later ++ .released h :: events)) ∧
      releasesAt h.index (later ++ .released h :: events) =
        releasesAt h.index events + (n + 1) := by
  have hreferent := hhist.get?_eq_referent h
  induction n with
  | zero =>
    obtain ⟨s', hins⟩ := exists_reuse hlive inst
    refine ⟨s', [], (hhist.release h).insert hins, ?_⟩
    simp [releasesAt, ← hreferent, hlive]
  | succ n ih =>
    obtain ⟨s₁, later, hs₁, hcount⟩ := ih
    have hlive₁ : s₁.get? ⟨h.index, h.generation + UInt32.ofNat (n + 1)⟩ = some inst := by
      rw [hs₁.get?_eq_referent, referent, if_pos rfl]
    obtain ⟨s', hins⟩ := exists_reuse hlive₁ inst
    have hnext : h.generation + UInt32.ofNat (n + 1) + 1 =
        h.generation + UInt32.ofNat (n + 1 + 1) := by
      rw [UInt32.ofNat_add (n + 1) 1, UInt32.add_assoc]
      rfl
    rw [hnext] at hins
    refine ⟨s', .released ⟨h.index, h.generation + UInt32.ofNat (n + 1)⟩ ::
      .inserted ⟨h.index, h.generation + UInt32.ofNat (n + 1)⟩ inst :: later,
      (hs₁.release _).insert hins, ?_⟩
    simp [releasesAt, referent, hcount, Nat.add_assoc]

/-- A handle that is released refers to an instance again after its slot was released `2 ^ 32` times
and used once more. -/
theorem exists_resurrection (hhist : History s events) (hlive : s.get? h = some inst) :
    ∃ s' later, History s' (.inserted h inst :: (later ++ .released h :: events)) ∧
      releasesAt h.index (later ++ .released h :: events) =
        releasesAt h.index events + UInt32.size := by
  obtain ⟨s', later, hs', hcount⟩ := hhist.exists_reuses hlive (UInt32.size - 1)
  have hpos : UInt32.size - 1 + 1 = UInt32.size := by decide
  have hsame : h.generation + UInt32.ofNat UInt32.size = h.generation := UInt32.add_zero _
  rw [hpos] at hcount
  rw [hpos, hsame] at hs'
  exact ⟨s', later, hs', hcount⟩

/-! ## The order of a class -/

/-- What a live handle refers to was inserted at some place of the history. -/
theorem insertedAt_lt (hlive : (referent h events).isSome) :
    insertedAt h events < events.length := by
  induction events with
  | nil => cases hlive
  | cons event earlier ih =>
    cases event with
    | inserted k inst =>
      rw [referent] at hlive
      rw [insertedAt]
      split
      next => exact Nat.lt_succ_self _
      next hk =>
        rw [if_neg hk] at hlive
        exact Nat.lt_succ_of_lt (ih hlive)
    | released k =>
      rw [referent] at hlive
      split at hlive
      next => cases hlive
      next => exact Nat.lt_succ_of_lt (ih hlive)

/-- The instances are listed in the order of their insertion. -/
theorem pairwise_roster (hhist : History s events) :
    s.roster.Pairwise fun a b => insertedAt a.2 events < insertedAt b.2 events := by
  induction hhist with
  | empty => exact List.Pairwise.nil
  | @insert s s' events h inst hhist hins ih =>
    -- What was listed before is live, so it has another handle and was inserted earlier.
    have hbefore : ∀ entry ∈ s.roster, entry.2 ≠ h ∧ insertedAt entry.2 events < events.length := by
      rintro ⟨key, k⟩ hentry
      obtain ⟨a, ha, -⟩ := (hhist.rostered.mem_iff _ _).1 hentry
      constructor
      · rintro rfl
        cases (hhist.tidy.get?_insert hins).symm.trans ha
      · rw [hhist.get?_eq_referent] at ha
        exact insertedAt_lt (Option.isSome_of_eq_some ha)
    rw [roster_insert hins, List.pairwise_append]
    refine ⟨ih.imp_of_mem fun {a b} ha hb hab => ?_, List.pairwise_singleton _ _, ?_⟩
    · simpa [insertedAt, (hbefore a ha).1.symm, (hbefore b hb).1.symm] using hab
    · intro a ha b hb
      rw [List.mem_singleton.1 hb]
      simpa [insertedAt, (hbefore a ha).1.symm] using (hbefore a ha).2
  | @release s events h hhist ih =>
    cases hlive : s.get? h with
    | none => rwa [remove_eq_self hlive]
    | some inst =>
      rw [roster_remove hlive]
      exact ih.filter _

/-- A class lists its instances in the order of their insertion. -/
theorem pairwise_instancesOf (hhist : History s events) (key : Nat) :
    (s.instancesOf key).Pairwise fun h k => insertedAt h events < insertedAt k events := by
  rw [instancesOf, List.pairwise_filterMap]
  refine hhist.pairwise_roster.imp fun {a b} hab h ha k hb => ?_
  simp only [Option.ite_none_right_eq_some, Option.some.injEq] at ha hb
  rw [← ha.2, ← hb.2]
  exact hab

/-- A store is a partial map from handles to instances. An insertion is answered as long as there is
a slot for it, by a handle whose generation is the number of earlier releases of the slot, modulo
`2 ^ 32`. A handle refers to what was inserted under it last and has not been released since, and it
refers to something exactly if its slot is occupied at its generation. With fewer than `2 ^ 32`
releases of every slot no handle is answered twice, and one that was released refers to nothing and
releases nothing; but from every history a handle comes to refer to an instance again after `2 ^ 32`
releases of its slot and one more insertion. The vacant slots are the empty ones, each listed once,
the size is the number of handles that refer to something, and a class lists its live instances,
each once, the oldest first. -/
theorem refines_map (hhist : History s events) :
    (∀ inst, (∃ h s', s.insert inst = .ok (h, s')) ↔
      s.vacant ≠ [] ∨ s.slots.size < maxSlots) ∧
    (∀ inst h s', s.insert inst = .ok (h, s') →
      h.generation = UInt32.ofNat (releasesAt h.index events)) ∧
    (∀ h, s.get? h = referent h events) ∧
    (∀ h, (∃ inst, s.get? h = some inst) ↔
      s.occupied h.index = true ∧ h.generation = UInt32.ofNat (releasesAt h.index events)) ∧
    ((∀ i, releasesAt i events < UInt32.size) →
      (answers events).Nodup ∧
      ∀ later earlier h, events = later ++ .released h :: earlier → (referent h earlier).isSome →
        s.get? h = none ∧ s.remove h = s) ∧
    (∀ h inst, s.get? h = some inst →
      ∃ s' later, History s' (.inserted h inst :: (later ++ .released h :: events)) ∧
        releasesAt h.index (later ++ .released h :: events) =
          releasesAt h.index events + UInt32.size ∧
        s'.get? h = some inst) ∧
    s.vacant.Nodup ∧
    (∀ i, i ∈ s.vacant ↔ ∃ generation, s.slots[i]? = some ⟨generation, none⟩) ∧
    {h | ∃ inst, s.get? h = some inst}.encard = s.size ∧
    ∀ d : Descriptor,
      (∀ h, h ∈ s.instancesOf d.key ↔
        ∃ inst, s.get? h = some inst ∧ inst.descriptor.key = d.key) ∧
      (s.instancesOf d.key).Nodup ∧
      (s.instancesOf d.key).Pairwise fun h k => insertedAt h events < insertedAt k events := by
  refine ⟨fun _ => hhist.exists_insert_iff, fun _ _ _ hins => hhist.generation_eq hins,
    hhist.get?_eq_referent, fun _ => hhist.exists_get?_iff, ?_, ?_, hhist.tidy.vacant_nodup,
    hhist.tidy.mem_vacant_iff, hhist.rostered.encard_live, ?_⟩
  · intro hfew
    refine ⟨hhist.nodup_answers hfew, ?_⟩
    rintro later earlier h rfl hlive
    have hdead := hhist.get?_eq_none_of_released hlive
      (Nat.lt_of_lt_of_le (hfew h.index) (Nat.le_add_left _ _))
    exact ⟨hdead, remove_eq_self hdead⟩
  · intro h inst hlive
    obtain ⟨s', later, hs', hcount⟩ := hhist.exists_resurrection hlive
    refine ⟨s', later, hs', hcount, ?_⟩
    rw [hs'.get?_eq_referent, referent, if_pos rfl]
  · intro d
    have hordered := hhist.pairwise_instancesOf d.key
    refine ⟨fun h => hhist.rostered.mem_instancesOf_iff, ?_, hordered⟩
    exact hordered.imp fun {h k} hlt heq => Nat.ne_of_lt hlt (congrArg (insertedAt · events) heq)

/-- An instance of the given class. -/
def sample (d : Descriptor) : Instance := { descriptor := d, name := d.name, level := .debug }

/-- A history in which the slot of the first instance is used again. -/
def reused : List Event :=
  [.inserted ⟨0, 1⟩ (sample .fork), .released ⟨0, 0⟩, .inserted ⟨1, 0⟩ (sample .plain),
    .inserted ⟨0, 0⟩ (sample .plain)]

/-- The handle of the first instance refers to nothing and releases nothing, although its slot is
occupied; its class lists the second instance only. -/
theorem reused_refines_map : ∃ s, History s reused ∧ s.occupied 0 = true ∧
    s.get? ⟨0, 0⟩ = none ∧ s.remove ⟨0, 0⟩ = s ∧ s.get? ⟨0, 1⟩ = some (sample .fork) ∧
    {h | ∃ inst, s.get? h = some inst}.encard = (2 : Nat) ∧
    ∀ h, h ∈ s.instancesOf Descriptor.plain.key ↔ h = ⟨1, 0⟩ := by
  obtain ⟨s, hhist, hsize, hroster⟩ : ∃ s, History s reused ∧ s.size = 2 ∧
      s.instancesOf Descriptor.plain.key = [⟨1, 0⟩] :=
    ⟨_, .insert (.release _ (.insert (.insert .empty rfl) rfl)) rfl, rfl, rfl⟩
  obtain ⟨-, -, hget, hoccupied, hstale, -, -, -, hlive, -⟩ := History.refines_map hhist
  have hfew : ∀ i, releasesAt i reused < UInt32.size := by
    intro i
    simp only [reused, releasesAt]
    split <;> decide
  obtain ⟨hdead, hremove⟩ := (hstale hfew).2 [.inserted ⟨0, 1⟩ (sample .fork)] _ ⟨0, 0⟩ rfl rfl
  refine ⟨s, hhist, ?_, hdead, hremove, hget _, hsize ▸ hlive, ?_⟩
  · exact ((hoccupied ⟨0, 1⟩).1 ⟨_, hget _⟩).1
  · simp [hroster]

end History

end StateMachines.Store
