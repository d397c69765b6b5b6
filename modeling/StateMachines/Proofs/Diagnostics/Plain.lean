import StateMachines.Engine
import StateMachines.Execution.Script

/-!
# What diagnostics do not touch

Display names, correlation identifiers and levels are there for the log. Taken away they leave the
plain part of an engine, and every operation on an engine is the same operation on its plain part:
what it does there and what it answers does not depend on what was taken away.

## Main definitions

* `Instance.plain`, `Store.plain`, `Engine.plain`: the plain parts.
* `Refusal.plain`, `Fault.plain`, `Reply.plain`: answers without display names.

## Main results

* `Engine.get?_plain`, `Engine.alloc_plain`, `Engine.free_plain` and so on: operations commute with
  taking the plain part.
-/

namespace StateMachines

/-- An instance without correlation identifier, and with the same display name and level as every
other instance of its class. -/
def Instance.plain (a : Instance) : Instance :=
  { a with id := none, name := a.descriptor.name, level := .error }

/-- A slot with the plain part of its occupant. -/
def Slot.plain (s : Slot) : Slot := { s with occupant := s.occupant.map Instance.plain }

/-- A store with the plain parts of its instances. -/
def Store.plain (s : Store) : Store := { s with slots := s.slots.map Slot.plain }

/-- An engine with the plain parts of its instances and without diagnostic settings. -/
def Engine.plain (e : Engine) : Engine :=
  { e with
    config := { logAddr := false, defaultLevel := .error }
    store := e.store.plain
    lastAddr := 0 }

/-- A refusal without the display name of the instance. -/
def Refusal.plain : Refusal → Refusal
  | .invalidInstance handle => .invalidInstance handle
  | .eventNotPermitted _ state event => .eventNotPermitted "" state event
  | .transitionNotPermitted _ state target => .transitionNotPermitted "" state target
  | .parentTerminating _ => .parentTerminating ""

/-- A fault without the display name of the instance. -/
def Fault.plain : Fault → Fault
  | .stateOutsideTable _ state count => .stateOutsideTable "" state count
  | fault => fault

/-- An answer without display names. -/
def Reply.plain : Reply → Reply
  | .refused why => .refused why.plain
  | reply => reply

namespace Store

variable {s : Store} {h : Handle} {f g : Instance → Instance}

/-- The plain store has the plain slots. -/
theorem slot?_plain : s.plain.slot? h = (s.slot? h).map Slot.plain := by
  simp only [slot?, plain, Array.getElem?_map]
  cases s.slots[h.index]? with
  | none => rfl
  | some slot =>
    simp only [Option.map_some, Option.filter_some, Slot.plain]
    split <;> rfl

/-- The plain store has the plain instances. -/
theorem get?_plain : s.plain.get? h = (s.get? h).map Instance.plain := by
  rw [get?, get?, slot?_plain]
  cases s.slot? h <;> rfl

/-- Changing an instance changes its plain part. -/
theorem modify_plain (hfg : ∀ a, (f a).plain = g a.plain) :
    (s.modify h f).plain = s.plain.modify h g := by
  unfold modify
  rw [slot?_plain]
  rcases s.slot? h with _ | ⟨generation, _ | inst⟩
  · rfl
  · rfl
  · simp [plain, Slot.plain, hfg]

/-- Changing an instance to itself changes nothing. -/
theorem modify_id : s.modify h id = s := by
  unfold modify
  split
  next generation inst hslot =>
    have hself : s.slots[h.index]? = some ⟨generation, some inst⟩ :=
      (Option.filter_eq_some_iff.1 hslot).1
    have hset : s.slots.setIfInBounds h.index ⟨generation, some inst⟩ = s.slots := by
      obtain ⟨hindex, hget⟩ := Array.getElem?_eq_some_iff.1 hself
      rw [Array.setIfInBounds_def, dif_pos hindex, ← hget, Array.set_getElem_self]
    rw [id_eq, hset]
  next => rfl

/-- Releasing an instance releases its plain part. -/
theorem remove_plain : (s.remove h).plain = s.plain.remove h := by
  unfold remove
  rw [slot?_plain]
  rcases s.slot? h with _ | ⟨generation, _ | inst⟩
  · rfl
  · rfl
  · simp [plain, Slot.plain, Instance.plain]

/-- Inserting an instance inserts its plain part under the same handle. -/
theorem insert_plain (inst : Instance) :
    s.plain.insert inst.plain = (s.insert inst).map fun (h, s') => (h, s'.plain) := by
  unfold insert
  dsimp only [plain]
  rcases s.vacant with _ | ⟨index, vacant⟩
  · simp only [Array.size_map]
    split
    · simp [Except.map, Slot.plain, Instance.plain]
    · rfl
  · simp only [Array.getElem?_map, Array.size_map]
    cases s.slots[index]? with
    | none => rfl
    | some slot => simp [Except.map, Slot.plain, Instance.plain]

end Store

namespace Engine

variable {e : Engine} {h p : Handle} {f g : Instance → Instance}

/-- The plain engine has the plain instances. -/
theorem get?_plain : e.plain.get? h = (e.get? h).map Instance.plain := Store.get?_plain

/-- The plain engine has the same live handles. -/
theorem isAlive_plain : e.plain.isAlive h = e.isAlive h := by
  simp [isAlive, Store.contains, plain, Store.get?_plain]

/-- Changing an instance changes its plain part. -/
theorem modify_plain (hfg : ∀ a, (f a).plain = g a.plain) :
    (e.modify h f).plain = e.plain.modify h g := by
  simp only [modify, plain, Store.modify_plain hfg]

/-- A change that treats all instances alike changes the plain part likewise. -/
theorem modify_plain_self (hf : ∀ a, (f a).plain = f a.plain) :
    (e.modify h f).plain = e.plain.modify h f := modify_plain hf

/-- Changing what is diagnostic leaves the plain part alone. -/
theorem modify_plain_eq (hf : ∀ a, (f a).plain = a.plain) : (e.modify h f).plain = e.plain := by
  rw [modify_plain (g := id) hf]
  simp only [modify, Store.modify_id]

/-- Releasing an instance releases its plain part. -/
theorem free_plain : (e.free h).plain = e.plain.free h := by
  simp only [free, plain, Store.remove_plain]

/-- Allocating an instance allocates its plain part under the same handle. -/
theorem alloc_plain (e : Engine) (d : Descriptor) (payload : Option Payload)
    (level : Option Level) (id : Option String) :
    e.plain.alloc d payload none none = (e.alloc d payload level id).map
      fun (h, inst, e') => (h, inst.plain, e'.plain) := by
  obtain ⟨addr, e', hdraw, hplain, hstore⟩ :
      ∃ addr e', e.drawAddr = (addr, e') ∧ e'.plain = e.plain ∧ e'.store = e.store := by
    unfold drawAddr
    split <;> exact ⟨_, _, rfl, rfl, rfl⟩
  have hplainDraw : e.plain.drawAddr = (none, e.plain) := rfl
  have hwith : ∀ s : Store,
      { e.plain with store := s.plain } = Engine.plain { e' with store := s } :=
    fun s => congrArg (fun e : Engine => { e with store := s.plain }) hplain.symm
  unfold alloc
  rw [hdraw, hplainDraw]
  dsimp only
  rw [hstore]
  generalize hinst : ({ descriptor := d, id, name := displayName d id addr, payload
                        level := level.getD e'.config.defaultLevel } : Instance) = inst
  -- The instance that a plain engine makes is the plain part of the one that the engine makes.
  have hsame : e.plain.store.insert
      { descriptor := d, id := none, name := displayName d none none, payload
        level := Option.getD none e.plain.config.defaultLevel } =
      e.store.plain.insert inst.plain := by
    rw [← hinst]
    rfl
  rw [hsame, Store.insert_plain]
  cases e.store.insert inst with
  | error fault => rfl
  | ok inserted =>
    obtain ⟨h, s⟩ := inserted
    show Except.ok (h, _, { e.plain with store := s.plain }) = _
    rw [hwith, ← hinst]
    rfl

/-- Linking an instance to a parent links their plain parts. -/
theorem link_plain (event : EventId) : (e.link h p event).plain = e.plain.link h p event := by
  unfold link
  dsimp only
  rw [modify_plain_self (by intro; rfl), modify_plain_self (by intro; rfl)]

/-- Unlinking an instance from a parent unlinks their plain parts. -/
theorem unlink_plain : (e.unlink h p).plain = e.plain.unlink h p :=
  modify_plain_self fun _ => rfl

/-- Arming the timer of an instance arms that of its plain part. -/
theorem arm_plain (now : Time) (timeout : Duration) (label : Nat) :
    (e.arm now h timeout label).plain = e.plain.arm now h timeout label := by
  have hlabel : (e.modify h ({ · with timerLabel := label })).plain =
      e.plain.modify h ({ · with timerLabel := label }) := modify_plain_self fun _ => rfl
  exact congrArg (fun e' : Engine => { e' with timers := e.timers.schedule now h timeout }) hlabel

/-- Attaching data to an instance attaches them to its plain part. -/
theorem setPayload_plain (payload : Option Payload) :
    (e.setPayload h payload).plain = e.plain.setPayload h payload :=
  modify_plain_self fun _ => rfl

/-- The plain engine holds the same data. -/
theorem payload?_plain : e.plain.payload? h = e.payload? h := by
  rw [payload?, payload?, get?_plain]
  cases e.get? h <;> rfl

/-- The level of an instance is not plain. -/
theorem setLevel_plain (level : Level) : (e.setLevel h level).plain = e.plain :=
  modify_plain_eq fun _ => rfl

variable {e' : Engine} {k : Handle}

/-- What a handle refers to in two engines with the same plain part. -/
theorem get?_cases_of_plain_eq (hplain : e.plain = e'.plain) (k : Handle) :
    e.get? k = none ∧ e'.get? k = none ∨
      ∃ a id name level, e.get? k = some a ∧ e'.get? k = some { a with id, name, level } := by
  have hget : (e.get? k).map Instance.plain = (e'.get? k).map Instance.plain := by
    rw [← get?_plain, ← get?_plain, hplain]
  cases ha : e.get? k with
  | none =>
    rw [ha] at hget
    exact .inl ⟨rfl, Option.map_eq_none_iff.1 hget.symm⟩
  | some a =>
    rw [ha] at hget
    obtain ⟨b, hb, hba⟩ := Option.map_eq_some_iff.1 hget.symm
    refine .inr ⟨a, b.id, b.name, b.level, rfl, hb.trans ?_⟩
    -- All other fields of the two instances are in their plain parts.
    cases a
    cases b
    cases hba
    rfl

/-- Allocating an instance in two engines with the same plain part. -/
theorem alloc_cases_of_plain_eq (hplain : e.plain = e'.plain) (d : Descriptor)
    (payload : Option Payload) (level level' : Option Level) (id id' : Option String) :
    (∃ fault, e.alloc d payload level id = .error fault ∧
      e'.alloc d payload level' id' = .error fault) ∨
    ∃ h a a' e₁ e₁', e.alloc d payload level id = .ok (h, a, e₁) ∧
      e'.alloc d payload level' id' = .ok (h, a', e₁') ∧ e₁.plain = e₁'.plain := by
  have hleft := e.alloc_plain d payload level id
  have hright := e'.alloc_plain d payload level' id'
  rw [hplain, hright] at hleft
  cases halloc : e.alloc d payload level id with
  | error fault =>
    rw [halloc] at hleft
    cases halloc' : e'.alloc d payload level' id' with
    | error fault' =>
      rw [halloc'] at hleft
      cases hleft
      exact .inl ⟨_, rfl, rfl⟩
    | ok result =>
      rw [halloc'] at hleft
      cases hleft
  | ok result =>
    rw [halloc] at hleft
    cases halloc' : e'.alloc d payload level' id' with
    | error fault' =>
      rw [halloc'] at hleft
      cases hleft
    | ok result' =>
      rw [halloc'] at hleft
      obtain ⟨h, a, e₁⟩ := result
      obtain ⟨h', a', e₁'⟩ := result'
      simp only [Except.map, Except.ok.injEq, Prod.mk.injEq] at hleft
      obtain ⟨rfl, -, hplain⟩ := hleft
      exact .inr ⟨_, _, _, _, _, rfl, rfl, hplain.symm⟩

end Engine

end StateMachines
