import StateMachines.Engine
import StateMachines.Proofs.Store.Generation
import StateMachines.Proofs.Timers

/-!
# Changes of an engine

A step of a run changes the instances and timers of its engine in one of few ways, listed by
`Engine.Change`. This module says what each of them does to the lookups, and that each of them
keeps an engine `Sound`: the store is tidy, the timer queue coherent, only live instances have a
timer, and parents are handles that were issued.

## Main results

* `Engine.get?_of_child`: what the allocation of a child does to the lookups.
* `Engine.Change.ages`, `Engine.Change.evolves`: a change ages and evolves the store.
* `Engine.Change.sound`: a change keeps an engine sound.
-/

namespace StateMachines

/-- The second instance is the first one after a change that leaves its state alone and adds no
child. -/
structure Instance.Edits (a b : Instance) : Prop where
  /-- It is the same instance. -/
  continues : a.Continues b
  /-- The state is the same. -/
  state_eq : b.state = a.state
  /-- No child is added. -/
  children_subset : ∀ c ∈ b.children, c ∈ a.children

namespace Engine

variable {e e' : Engine} {h k p : Handle} {inst : Instance} {f : Instance → Instance}
  {d : Descriptor} {payload : Option Payload} {level : Option Level} {id : Option String}
  {event : EventId} {now : Time} {timeout : Duration} {label : Nat}
  {written : Option (Handle × StateId)}

/-! ## Lookups -/

/-- A handle is alive exactly if it refers to something. -/
theorem isAlive_eq_true_iff : e.isAlive h = true ↔ ∃ inst, e.get? h = some inst :=
  Store.contains_eq_true_iff

/-- A handle is dead exactly if it refers to nothing. -/
theorem isAlive_eq_false_iff : e.isAlive h = false ↔ e.get? h = none :=
  Option.isSome_eq_false_iff.trans Option.isNone_iff_eq_none

/-- A fresh engine holds nothing. -/
@[simp]
theorem get?_fresh (config : Config) : Engine.get? { config } h = none := rfl

/-- A change replaces what the handle refers to. -/
theorem get?_modify_self : (e.modify h f).get? h = (e.get? h).map f :=
  Store.get?_modify_self

/-- A change leaves alone what other handles refer to. -/
theorem get?_modify_of_ne (hne : k ≠ h) : (e.modify h f).get? k = e.get? k :=
  Store.get?_modify_of_ne hne

/-- What is live after a change of an instance was live before, and is changed only under the
handle of the change. -/
theorem get?_of_get?_modify {b : Instance} (hb : (e.modify h f).get? k = some b) :
    ∃ a, e.get? k = some a ∧ (k = h ∧ b = f a ∨ k ≠ h ∧ b = a) := by
  by_cases hk : k = h
  · subst hk
    rw [get?_modify_self, Option.map_eq_some_iff] at hb
    obtain ⟨a, ha, rfl⟩ := hb
    exact ⟨a, ha, .inl ⟨rfl, rfl⟩⟩
  · rw [get?_modify_of_ne hk] at hb
    exact ⟨b, hb, .inr ⟨hk, rfl⟩⟩

/-- What is live remains live when an instance is changed. -/
theorem live_modify (hlive : ∃ inst, e.get? k = some inst) :
    ∃ inst, (e.modify h f).get? k = some inst := by
  obtain ⟨a, ha⟩ := hlive
  by_cases hk : k = h
  · subst hk
    exact ⟨f a, by rw [get?_modify_self, ha, Option.map_some]⟩
  · exact ⟨a, by rw [get?_modify_of_ne hk, ha]⟩

/-- A freed handle refers to nothing. -/
@[simp]
theorem get?_free_self : (e.free h).get? h = none := Store.get?_remove_self

/-- Freeing leaves alone what other handles refer to. -/
theorem get?_free_of_ne (hne : k ≠ h) : (e.free h).get? k = e.get? k :=
  Store.get?_remove_of_ne hne

/-- What is live after a handle was freed was live before, under another handle. -/
theorem get?_of_get?_free {b : Instance} (hb : (e.free h).get? k = some b) :
    k ≠ h ∧ e.get? k = some b := by
  have hne : k ≠ h := by
    rintro rfl
    simp at hb
  exact ⟨hne, get?_free_of_ne hne ▸ hb⟩

/-- Freeing cancels the timer of its handle only. -/
theorem deadline?_free :
    (e.free h).timers.deadline? k = if k = h then none else e.timers.deadline? k :=
  TimerQueue.deadline?_cancel

/-- Drawing a number for a name touches neither instances nor timers. -/
theorem drawAddr_eq (e : Engine) :
    e.drawAddr.2.store = e.store ∧ e.drawAddr.2.timers = e.timers := by
  unfold drawAddr
  split <;> exact ⟨rfl, rfl⟩

/-- What a successful allocation does: the new instance is inserted into the store, in its
initial state and without links. -/
theorem alloc_cases (halloc : e.alloc d payload level id = .ok (h, inst, e')) :
    e.store.insert inst = .ok (h, e'.store) ∧ e'.timers = e.timers ∧ inst.descriptor = d ∧
      inst.state = 0 ∧ inst.parent = none ∧ inst.children = [] ∧ inst.terminating = false := by
  obtain ⟨hstore, htimers⟩ := drawAddr_eq e
  unfold alloc at halloc
  dsimp only at halloc
  split at halloc
  next handle store hins =>
    cases halloc
    exact ⟨hstore ▸ hins, htimers, rfl, rfl, rfl, rfl, rfl⟩
  next => cases halloc

/-- An allocation succeeds as long as there is a number for another slot. -/
theorem exists_alloc (ht : e.store.Tidy) (hsize : e.store.slots.size < Store.maxSlots)
    (d : Descriptor) (payload : Option Payload) (level : Option Level) (id : Option String) :
    ∃ h inst e', e.alloc d payload level id = .ok (h, inst, e') := by
  obtain ⟨hstore, -⟩ := drawAddr_eq e
  unfold alloc
  dsimp only
  rw [hstore]
  obtain ⟨h, s', hins⟩ := ht.exists_insert hsize
    { descriptor := d, id, name := displayName d id e.drawAddr.1
      level := level.getD e.drawAddr.2.config.defaultLevel, payload }
  rw [hins]
  exact ⟨h, _, _, rfl⟩

/-- The handle of an allocation refers to the new instance. -/
theorem get?_alloc_self (halloc : e.alloc d payload level id = .ok (h, inst, e')) :
    e'.get? h = some inst :=
  Store.get?_insert_self (alloc_cases halloc).1

/-- An allocation leaves alone what other handles refer to. -/
theorem get?_alloc_of_ne (halloc : e.alloc d payload level id = .ok (h, inst, e'))
    (hne : k ≠ h) : e'.get? k = e.get? k :=
  Store.get?_insert_of_ne (alloc_cases halloc).1 hne

/-- What is live remains live when an instance is allocated. -/
theorem live_alloc (halloc : e.alloc d payload level id = .ok (h, inst, e'))
    (hlive : ∃ a, e.get? k = some a) : ∃ b, e'.get? k = some b := by
  by_cases hk : k = h
  · exact ⟨inst, hk ▸ get?_alloc_self halloc⟩
  · rwa [get?_alloc_of_ne halloc hk]

/-- The handle of an allocation referred to nothing before. -/
theorem get?_alloc (ht : e.store.Tidy)
    (halloc : e.alloc d payload level id = .ok (h, inst, e')) : e.get? h = none :=
  ht.get?_insert (alloc_cases halloc).1

/-- What is live after an allocation is the new instance or was live before. -/
theorem get?_of_alloc {b : Instance} (halloc : e.alloc d payload level id = .ok (h, inst, e'))
    (hb : e'.get? k = some b) : k = h ∧ b = inst ∨ k ≠ h ∧ e.get? k = some b := by
  by_cases hk : k = h
  · rw [hk, get?_alloc_self halloc] at hb
    exact .inl ⟨hk, (Option.some.inj hb).symm⟩
  · exact .inr ⟨hk, get?_alloc_of_ne halloc hk ▸ hb⟩

/-- Linking gives the child its parent. -/
theorem get?_link_child (hlive : e.get? h = some inst) (hne : h ≠ p) :
    (e.link h p event).get? h =
      some { inst with parent := some p, parentEvent := event } := by
  unfold link
  rw [get?_modify_of_ne hne, get?_modify_self, hlive, Option.map_some]

/-- Linking appends the child to the children of its parent. -/
theorem get?_link_parent (hlive : e.get? p = some inst) (hne : h ≠ p) :
    (e.link h p event).get? p = some { inst with children := inst.children ++ [h] } := by
  unfold link
  rw [get?_modify_self, get?_modify_of_ne hne.symm, hlive, Option.map_some]

/-- Linking leaves alone what other handles refer to. -/
theorem get?_link_of_ne (hchild : k ≠ h) (hparent : k ≠ p) :
    (e.link h p event).get? k = e.get? k := by
  unfold link
  rw [get?_modify_of_ne hparent, get?_modify_of_ne hchild]

/-- What is live after a child was allocated is the child, its parent with one more child, or was
live before. -/
theorem get?_of_child {parent b : Instance} (ht : e.store.Tidy)
    (halloc : e.alloc d payload level id = .ok (h, inst, e')) (hparent : e.get? p = some parent)
    (hb : (e'.link h p event).get? k = some b) :
    k = h ∧ b = { inst with parent := some p, parentEvent := event } ∨
      k ≠ h ∧ k = p ∧ b = { parent with children := parent.children ++ [h] } ∨
      k ≠ h ∧ k ≠ p ∧ e.get? k = some b := by
  have hne : h ≠ p := by
    rintro rfl
    cases (get?_alloc ht halloc).symm.trans hparent
  by_cases hk : k = h
  · rw [hk, get?_link_child (get?_alloc_self halloc) hne] at hb
    exact .inl ⟨hk, (Option.some.inj hb).symm⟩
  · by_cases hkp : k = p
    · have hparent' : e'.get? p = some parent := by rw [get?_alloc_of_ne halloc hne.symm, hparent]
      rw [hkp, get?_link_parent hparent' hne] at hb
      exact .inr (.inl ⟨hk, hkp, (Option.some.inj hb).symm⟩)
    · rw [get?_link_of_ne hk hkp, get?_alloc_of_ne halloc hk] at hb
      exact .inr (.inr ⟨hk, hkp, hb⟩)

/-! ## Changes -/

/-- How a step of a run changes the instances and timers of an engine. The first index tells
which state is written, if any. -/
inductive Change (e : Engine) : Option (Handle × StateId) → Engine → Prop where
  /-- Neither instances nor timers change. -/
  | aside {e' : Engine} (hstore : e'.store = e.store) (htimers : e'.timers = e.timers) :
      Change e none e'
  /-- One instance is edited. -/
  | edit (h : Handle) (f : Instance → Instance)
      (hedits : ∀ a, e.get? h = some a → a.Edits (f a)) : Change e none (e.modify h f)
  /-- The state of one instance is written. -/
  | write (h : Handle) (state : StateId) :
      Change e (some (h, state)) (e.modify h ({ · with state }))
  /-- One instance is released. -/
  | free (h : Handle) : Change e none (e.free h)
  /-- An instance without links is allocated. -/
  | alloc {d : Descriptor} {payload : Option Payload} {level : Option Level}
      {id : Option String} {h : Handle} {inst : Instance} {e' : Engine}
      (halloc : e.alloc d payload level id = .ok (h, inst, e')) : Change e none e'
  /-- An instance is allocated as a child of a live one. -/
  | child {d : Descriptor} {payload : Option Payload} {level : Option Level}
      {id : Option String} {h : Handle} {inst : Instance} {e' : Engine}
      (p : Handle) (event : EventId)
      (halloc : e.alloc d payload level id = .ok (h, inst, e'))
      (hparent : ∃ parent, e.get? p = some parent) : Change e none (e'.link h p event)
  /-- The timer of a live instance is armed. -/
  | arm (now : Time) (h : Handle) (timeout : Duration) (label : Nat)
      (hlive : ∃ inst, e.get? h = some inst) : Change e none (e.arm now h timeout label)
  /-- The earliest deadline is taken off the queue. -/
  | pop {now : Time} {h : Handle} {timers : TimerQueue}
      (hpop : e.timers.popExpired now = some (h, timers)) : Change e none { e with timers }

/-- Arming changes the label of the instance only. -/
theorem continues_label (a : Instance) (label : Nat) :
    a.Continues { a with timerLabel := label } :=
  ⟨rfl, rfl, rfl, fun ha => ha⟩

/-- Writing the state changes nothing else. -/
theorem continues_state (a : Instance) (state : StateId) : a.Continues { a with state } :=
  ⟨rfl, rfl, rfl, fun ha => ha⟩

/-- Getting a child changes the children only. -/
theorem continues_children (a : Instance) (children : List Handle) :
    a.Continues { a with children } :=
  ⟨rfl, rfl, rfl, fun ha => ha⟩

namespace Change

/-- A change keeps the store tidy. -/
theorem tidy (hc : e.Change written e') (ht : e.store.Tidy) : e'.store.Tidy := by
  cases hc with
  | aside hstore => rwa [hstore]
  | edit => exact ht.modify
  | write => exact ht.modify
  | free => exact ht.remove
  | alloc halloc => exact ht.insert (alloc_cases halloc).1
  | child p event halloc => exact ((ht.insert (alloc_cases halloc).1).modify).modify
  | arm => exact ht.modify
  | pop => exact ht

/-- A change counts the slots it vacates. -/
theorem ages (hc : e.Change written e') : e.store.Ages e'.store := by
  cases hc with
  | aside hstore =>
    rw [hstore]
    exact .refl _
  | edit => exact (Store.Ages.refl _).modify
  | write => exact (Store.Ages.refl _).modify
  | free => exact Store.ages_remove
  | alloc halloc => exact Store.ages_insert (alloc_cases halloc).1
  | child p event halloc => exact (Store.ages_insert (alloc_cases halloc).1).modify.modify
  | arm => exact (Store.Ages.refl _).modify
  | pop => exact .refl _

/-- The store evolves by a change under which no generation goes down. -/
theorem evolves (hc : e.Change written e') (ht : e.store.Tidy)
    (hgen : ∀ i, e.store.generationAt i ≤ e'.store.generationAt i) :
    e.store.Evolves e'.store := by
  cases hc with
  | aside hstore =>
    rw [hstore]
    exact .refl _
  | edit h f hedits => exact Store.evolves_modify fun a ha => (hedits a ha).continues
  | write h state => exact Store.evolves_modify fun a _ => continues_state a state
  | free h => exact Store.evolves_remove (hgen h.index)
  | alloc halloc =>
    have hins := (alloc_cases halloc).1
    exact Store.evolves_insert hins (ht.not_issued_insert hins)
  | child p event halloc =>
    -- The child is linked under a handle that the store before has not issued, so the link of the
    -- child does not matter to it, and that of the parent adds a child only.
    have hins := (alloc_cases halloc).1
    have hnew := ht.not_issued_insert hins
    have hchild := (Store.evolves_insert hins hnew).modify_new
      (f := ({ · with parent := some p, parentEvent := event })) hnew
    exact hchild.trans (Store.evolves_modify fun a _ => continues_children a _)
  | arm now h timeout label => exact Store.evolves_modify fun a _ => continues_label a label
  | pop => exact .refl _

end Change

/-- The state of an instance after a change that writes `written`, if it was in `state` before. -/
def stateAfter (written : Option (Handle × StateId)) (h : Handle) (state : StateId) : StateId :=
  match written with
  | some (k, new) => if k = h then new else state
  | none => state

/-- A state that a change replaces is written by it. -/
theorem written_of_stateAfter_ne {state : StateId} (hne : stateAfter written h state ≠ state) :
    written = some (h, stateAfter written h state) := by
  unfold stateAfter at hne ⊢
  cases written with
  | none => exact absurd rfl hne
  | some write =>
    obtain ⟨k, new⟩ := write
    dsimp only at hne ⊢
    by_cases hk : k = h
    · rw [if_pos hk, hk]
    · rw [if_neg hk] at hne
      exact absurd rfl hne

/-- An instance that is live before and after a change is the same one, and it keeps its state
unless that is written. -/
theorem Change.continues_of_live {a b : Instance} (hc : e.Change written e') (ht : e.store.Tidy)
    (ha : e.get? h = some a) (hb : e'.get? h = some b) :
    a.Continues b ∧ b.state = stateAfter written h a.state := by
  cases hc with
  | aside hstore =>
    rw [get?, hstore] at hb
    cases ha.symm.trans hb
    exact ⟨.refl a, rfl⟩
  | edit k f hedits =>
    obtain ⟨c, hc, ⟨rfl, rfl⟩ | ⟨-, rfl⟩⟩ := get?_of_get?_modify hb
    · cases ha.symm.trans hc
      exact ⟨(hedits a ha).continues, (hedits a ha).state_eq⟩
    · cases ha.symm.trans hc
      exact ⟨.refl a, rfl⟩
  | write k state =>
    obtain ⟨c, hc, ⟨rfl, rfl⟩ | ⟨hne, rfl⟩⟩ := get?_of_get?_modify hb
    · cases ha.symm.trans hc
      exact ⟨continues_state a state, by simp [stateAfter]⟩
    · cases ha.symm.trans hc
      exact ⟨.refl a, by simp [stateAfter, hne.symm]⟩
  | free k =>
    cases ha.symm.trans (get?_of_get?_free hb).2
    exact ⟨.refl a, rfl⟩
  | alloc halloc =>
    obtain ⟨rfl, -⟩ | ⟨-, hk⟩ := get?_of_alloc halloc hb
    · cases ha.symm.trans (get?_alloc ht halloc)
    · cases ha.symm.trans hk
      exact ⟨.refl a, rfl⟩
  | child p event halloc hlive =>
    obtain ⟨parent, hparent⟩ := hlive
    obtain ⟨rfl, -⟩ | ⟨-, rfl, rfl⟩ | ⟨-, -, hk⟩ := get?_of_child ht halloc hparent hb
    · cases ha.symm.trans (get?_alloc ht halloc)
    · cases ha.symm.trans hparent
      exact ⟨continues_children a _, rfl⟩
    · cases ha.symm.trans hk
      exact ⟨.refl a, rfl⟩
  | arm now k timeout label hlive =>
    obtain ⟨c, hc, ⟨rfl, rfl⟩ | ⟨-, rfl⟩⟩ := get?_of_get?_modify hb
    · cases ha.symm.trans hc
      exact ⟨continues_label a label, rfl⟩
    · cases ha.symm.trans hc
      exact ⟨.refl a, rfl⟩
  | pop hpop =>
    cases ha.symm.trans hb
    exact ⟨.refl a, rfl⟩

/-- An instance that comes to life by a change is in the initial state, and its parent, if it has
one, was live before. -/
theorem Change.born {b : Instance} (hc : e.Change written e') (ht : e.store.Tidy)
    (hdead : e.get? h = none) (hb : e'.get? h = some b) :
    b.state = 0 ∧ ∀ q, b.parent = some q → ∃ parent, e.get? q = some parent := by
  cases hc with
  | aside hstore =>
    rw [get?, hstore] at hb
    cases hdead.symm.trans hb
  | edit k f hedits =>
    obtain ⟨c, hc, -⟩ := get?_of_get?_modify hb
    cases hdead.symm.trans hc
  | write k state =>
    obtain ⟨c, hc, -⟩ := get?_of_get?_modify hb
    cases hdead.symm.trans hc
  | free k => cases hdead.symm.trans (get?_of_get?_free hb).2
  | alloc halloc =>
    obtain ⟨-, -, -, hstate, hparent, -⟩ := alloc_cases halloc
    obtain ⟨-, rfl⟩ | ⟨-, hk⟩ := get?_of_alloc halloc hb
    · refine ⟨hstate, fun q hq => ?_⟩
      cases hparent.symm.trans hq
    · cases hdead.symm.trans hk
  | child p event halloc hlive =>
    obtain ⟨parent, hparent⟩ := hlive
    obtain ⟨-, rfl⟩ | ⟨-, rfl, -⟩ | ⟨-, -, hk⟩ := get?_of_child ht halloc hparent hb
    · refine ⟨(alloc_cases halloc).2.2.2.1, fun q hq => ?_⟩
      cases hq
      exact ⟨parent, hparent⟩
    · cases hdead.symm.trans hparent
    · cases hdead.symm.trans hk
  | arm now k timeout label hlive =>
    obtain ⟨c, hc, -⟩ := get?_of_get?_modify hb
    cases hdead.symm.trans hc
  | pop hpop => cases hdead.symm.trans hb

/-- An instance that comes to life by a change is in the initial state. -/
theorem Change.state_of_new {b : Instance} (hc : e.Change written e') (ht : e.store.Tidy)
    (hdead : e.get? h = none) (hb : e'.get? h = some b) : b.state = 0 :=
  (hc.born ht hdead hb).1

/-! ## Timers -/

/-- A change keeps the timer queue coherent. -/
theorem Change.coherent (hc : e.Change written e') (hq : e.timers.Coherent) :
    e'.timers.Coherent := by
  cases hc with
  | aside hstore htimers => rwa [htimers]
  | edit | write => exact hq
  | free => exact hq.cancel
  | alloc halloc => rwa [(alloc_cases halloc).2.1]
  | @child d payload level id h inst allocated p event halloc hparent =>
    show allocated.timers.Coherent
    rwa [(alloc_cases halloc).2.1]
  | arm => exact hq.schedule
  | pop hpop => exact (hq.popExpired hpop).1

/-- A change leaves no timer to a dead handle. -/
theorem Change.live_of_deadline? (hc : e.Change written e') (hq : e.timers.Coherent)
    (hlive : ∀ h d, e.timers.deadline? h = some d → ∃ inst, e.get? h = some inst) (h : Handle)
    (d : Deadline) (hd : e'.timers.deadline? h = some d) : ∃ inst, e'.get? h = some inst := by
  cases hc with
  | aside hstore htimers =>
    rw [htimers] at hd
    rw [get?, hstore]
    exact hlive h d hd
  | edit | write => exact live_modify (hlive h d hd)
  | free k =>
    -- A release takes the timer of its instance along.
    rw [deadline?_free] at hd
    split at hd
    next => cases hd
    next hne =>
      rw [get?_free_of_ne hne]
      exact hlive h d hd
  | alloc halloc =>
    rw [(alloc_cases halloc).2.1] at hd
    exact live_alloc halloc (hlive h d hd)
  | @child _ _ _ _ _ _ allocated p event halloc hparent =>
    have hd' : allocated.timers.deadline? h = some d := hd
    rw [(alloc_cases halloc).2.1] at hd'
    exact live_modify (live_modify (live_alloc halloc (hlive h d hd')))
  | arm now k timeout label hlive' =>
    by_cases hk : h = k
    · exact live_modify (hk ▸ hlive')
    · rw [Engine.arm, TimerQueue.deadline?_schedule, if_neg hk] at hd
      exact live_modify (hlive h d hd)
  | pop hpop =>
    have hafter := (hq.popExpired hpop).2.2 h
    rw [hafter] at hd
    split at hd
    next => cases hd
    next => exact hlive h d hd

/-! ## Sound engines -/

/-- The store is tidy and the timer queue coherent, only live instances have a timer, and parents
are handles that were issued. -/
structure Sound (e : Engine) : Prop where
  /-- The vacant slots are the empty ones. -/
  tidy : e.store.Tidy
  /-- The two halves of the timer queue agree. -/
  coherent : e.timers.Coherent
  /-- A handle with a pending deadline is live. -/
  live_of_deadline? : ∀ h d, e.timers.deadline? h = some d → ∃ inst, e.get? h = some inst
  /-- A parent is a handle that was issued. -/
  issued_of_parent : ∀ h inst p, e.get? h = some inst → inst.parent = some p →
    e.store.Issued p

/-- A fresh engine is sound. -/
theorem sound_fresh (config : Config) : Sound { config } :=
  ⟨Store.tidy_empty, TimerQueue.coherent_empty, fun h d hd => by simp [TimerQueue.deadline?] at hd,
    fun h inst p hlive => by simp at hlive⟩

/-- A dead handle has no timer if only live instances have one. -/
theorem deadline?_eq_none_of_dead
    (hlive : ∀ h d, e.timers.deadline? h = some d → ∃ inst, e.get? h = some inst)
    (hdead : e.get? h = none) : e.timers.deadline? h = none := by
  cases hd : e.timers.deadline? h with
  | none => rfl
  | some d =>
    obtain ⟨inst, hinst⟩ := hlive h d hd
    cases hdead.symm.trans hinst

/-- A dead handle of a sound engine has no timer. -/
theorem Sound.deadline?_eq_none (hs : e.Sound) (hdead : e.get? h = none) :
    e.timers.deadline? h = none :=
  deadline?_eq_none_of_dead hs.live_of_deadline? hdead

/-- After a change under which the store evolves, parents are still handles that were issued. -/
theorem Change.issued_of_parent {b : Instance} (hc : e.Change written e') (hs : e.Sound)
    (he : e.store.Evolves e'.store) (hb : e'.get? h = some b) (hp : b.parent = some p) :
    e'.store.Issued p := by
  apply he.issued
  cases ha : e.get? h with
  | none =>
    -- A new instance is the child of a live one.
    obtain ⟨parent, hparent⟩ := (hc.born hs.tidy ha hb).2 p hp
    exact Store.issued_of_get? hparent
  | some a =>
    have hcontinues := (hc.continues_of_live hs.tidy ha hb).1
    exact hs.issued_of_parent h a p ha (hcontinues.parent_eq ▸ hp)

/-- A change under which the store evolves keeps an engine sound. -/
theorem Change.sound (hc : e.Change written e') (hs : e.Sound) (he : e.store.Evolves e'.store) :
    e'.Sound := by
  constructor
  · exact hc.tidy hs.tidy
  · exact hc.coherent hs.coherent
  · exact hc.live_of_deadline? hs.coherent hs.live_of_deadline?
  · intro h b p hb hp
    exact hc.issued_of_parent hs he hb hp

end Engine

end StateMachines
