import Mathlib.Logic.Relation
import StateMachines.Proofs.Engine
import StateMachines.Proofs.Log.Faithful

/-!
# When generations start over

A slot that is vacated `2 ^ 32` times is in the generation in which it was before, and a handle that
was kept all the time refers to the instance that is in the slot then. A change of state keeps its
handle while the hook for leaving runs. So a hook that ends the instance, and goes on to allocate
and end others in its slot, can have the state written into an instance of another class than the
one whose edge was checked.

This is what the bound of `Execution.FewReleases` excludes, and why results that use the bound are
not true of all runs. The log is as it should be in such a run in every other respect: no instance
is released directly, names carry numbers, and nothing is published from outside.

## Main definitions

* `Script.turnover`: instances follow one another in a slot.
* `usurping`: the hooks that do so when a state is left.
* `Execution.Advances`: a step of a call that releases nothing directly, while names carry numbers.

## Main results

* `Execution.advances_turnover`: each turn raises the generation of the slot by one.
* `Execution.exists_usurped`: the change of state is carried out on an instance of another class.
-/

namespace StateMachines

/-- Ends the instance of a handle and allocates one of the class in its place, and so on with that
one, for a number of turns. -/
def Script.turnover (d : Descriptor) : Nat → Handle → Script Unit Unit
  | 0, _ => .done ()
  | turns + 1, h =>
    .call (.terminate h .regular none) () fun _ _ =>
      .call (.alloc d none none none) () fun reply _ =>
        match reply with
        | .allocated next => turnover d turns next
        | _ => .done ()

/-- An instance that is about to leave its state is replaced, again and again, by others of a
class. -/
def usurping (d : Descriptor) (turns : Nat) : Host Unit Unit where
  script _ h hook _ :=
    match hook with
    | .leave .. => .turnover d turns h
    | _ => .done ()

/-- The only instance of an engine is of the class, has no relatives, and is not being ended. Its
slot is in the given generation. Names carry numbers. -/
structure World.Houses (w : World Unit Unit) (d : Descriptor) (generation : UInt32)
    (inst : Instance) : Prop where
  slots : w.engine.store.slots = #[⟨generation, some inst⟩]
  vacant : w.engine.store.vacant = []
  descriptor : inst.descriptor = d
  parent : inst.parent = none
  children : inst.children = []
  active : inst.terminating = false
  logAddr : w.engine.config.logAddr = true

/-- The only slot of an engine is empty, and names carry numbers. -/
structure World.Void (w : World Unit Unit) (generation : UInt32) : Prop where
  slots : w.engine.store.slots = #[⟨generation, none⟩]
  vacant : w.engine.store.vacant = [0]
  logAddr : w.engine.config.logAddr = true

namespace Execution

open Relation (ReflTransGen)

variable {σ ν : Type} {host : Host σ ν} {x y : Execution σ ν} {past : List (Execution σ ν)}
  {c : Descriptor} {generation : UInt32} {inst : Instance} {w : World Unit Unit}

/-- The call in progress takes a step, which is no direct release, while names carry numbers. -/
structure Advances (host : Host σ ν) (x y : Execution σ ν) : Prop where
  step : x.step host = .running y
  freed? : x.freed? = none
  logAddr : x.world.engine.config.logAddr = true

/-- A run goes on while the call in progress does, and nothing is published from outside. -/
theorem Run.exists_of_advances (hrun : Run host x past) (hnever : NeverFrees past)
    (hon : ∀ z ∈ past, z.world.engine.config.logAddr = true) (hquiet : Undisturbed (x :: past))
    (hadvances : ReflTransGen (Advances host) x y) :
    ∃ past', Run host y past' ∧ NeverFrees past' ∧
      (∀ z ∈ past', z.world.engine.config.logAddr = true) ∧ Undisturbed (y :: past') := by
  induction hadvances with
  | refl => exact ⟨past, hrun, hnever, hon, hquiet⟩
  | @tail y z _ hnext ih =>
    obtain ⟨past', hrun', hnever', hon', hquiet'⟩ := ih
    have hfree : ∀ h, y.control ≠ .perform (.free h) := fun h hcontrol => by
      cases hnext.freed?.symm.trans (freed?_eq_some_iff.2 hcontrol)
    exact ⟨y :: past', hrun'.next (.move y.world.now (Nat.le_refl _) hnext.step),
      List.forall_mem_cons.2 ⟨hfree, hnever'⟩, List.forall_mem_cons.2 ⟨hnext.logAddr, hon'⟩,
      fun hrest => absurd hrest (not_atRest_of_step hnext.step), hquiet'⟩

section Turns

variable (d : Descriptor) (turns : Nat) (stack : List (Frame Unit Unit))

/-! ## One turn -/

/-- The instance is what its handle refers to. -/
theorem get?_of_houses (hw : w.Houses c generation inst) :
    w.engine.get? ⟨0, generation⟩ = some inst :=
  Store.get?_eq_some_iff.2 (by rw [hw.slots]; rfl)

/-- Vacating the only slot. -/
theorem slots_remove_modify {s : Store} {f : Instance → Instance}
    (hslots : s.slots = #[⟨generation, some inst⟩]) :
    ((s.modify ⟨0, generation⟩ f).remove ⟨0, generation⟩).slots = #[⟨generation + 1, none⟩] ∧
      ((s.modify ⟨0, generation⟩ f).remove ⟨0, generation⟩).vacant = 0 :: s.vacant := by
  have hslot : s.slot? ⟨0, generation⟩ = some ⟨generation, some inst⟩ := by
    simp [Store.slot?, hslots, Option.filter]
  have hmodified : s.modify ⟨0, generation⟩ f =
      { s with slots := #[⟨generation, some (f inst)⟩] } := by
    simp [Store.modify, hslot, hslots]
  rw [hmodified]
  simp [Store.remove, Store.slot?, Option.filter]

/-- An instance without relatives is ended, and its slot enters the next generation. -/
theorem advances_terminate (hw : w.Houses c generation inst) :
    ∃ w' : World Unit Unit, w'.Void (generation + 1) ∧
      ReflTransGen (Advances (usurping d turns))
        ⟨w, .perform (.terminate ⟨0, generation⟩ .regular none), stack⟩
        ⟨w', .give .done, stack⟩ := by
  let ending : Ending :=
    { target := ⟨0, generation⟩, descriptor := inst.descriptor, cause := .regular, data := none
      parent := none, parentEvent := inst.parentEvent }
  let marked : World Unit Unit :=
    { w.log (.about inst (.terminating .regular)) with
      engine := w.engine.modify ⟨0, generation⟩ ({ · with terminating := true }) }
  have hbegin : step (usurping d turns)
      ⟨w, .perform (.terminate ⟨0, generation⟩ .regular none), stack⟩ =
      .running ⟨marked, .give .done, .cascade ending [] :: stack⟩ := by
    simp only [step, begin, beginEnd, get?_of_houses hw, hw.active, hw.parent, hw.children, reply,
      goOn]
    rfl
  let cleaned : World Unit Unit := marked.enter (.hook ending.target (.cleanup .regular))
  have hlive : cleaned.engine.get? ending.target = some { inst with terminating := true } := by
    show (w.engine.modify _ _).get? _ = _
    rw [Engine.get?_modify_self, get?_of_houses hw, Option.map_some]
  let released := cleaned.log
    (.remark inst.level inst.descriptor.subsystem inst.name .released)
  have hcleaned : step (usurping d turns)
      ⟨cleaned, .give .done, .cleaning ending :: stack⟩ =
      .running ⟨{ released with engine := released.engine.free ⟨0, generation⟩ }, .give .done,
        stack⟩ := by
    simp only [step, proceed, afterCleanup, hlive, reply, goOn]
    rfl
  refine ⟨_, ?_, .head ⟨hbegin, rfl, hw.logAddr⟩ (.head ⟨rfl, rfl, hw.logAddr⟩
    (.head ⟨rfl, rfl, hw.logAddr⟩ (.head ⟨rfl, rfl, hw.logAddr⟩
      (.head ⟨hcleaned, rfl, hw.logAddr⟩ .refl))))⟩
  obtain ⟨hslots, hvacant⟩ := slots_remove_modify hw.slots (f := ({ · with terminating := true }))
  exact ⟨hslots, by rw [hw.vacant] at hvacant; exact hvacant, hw.logAddr⟩

/-- An instance is allocated in the only slot. -/
theorem advances_alloc (hw : w.Void generation) :
    ∃ (w' : World Unit Unit) (inst : Instance), w'.Houses d generation inst ∧
      ReflTransGen (Advances (usurping d turns))
        ⟨w, .perform (.alloc d none none none), stack⟩
        ⟨w', .give (.allocated ⟨0, generation⟩), stack⟩ := by
  obtain ⟨inst, e, halloc, hslots, hvacant, hconfig⟩ : ∃ inst e,
      w.engine.alloc d none none none = .ok (⟨0, generation⟩, inst, e) ∧
        e.store.slots = #[⟨generation, some inst⟩] ∧ e.store.vacant = [] ∧
        e.config.logAddr = true := by
    simp only [Engine.alloc, Engine.drawAddr, hw.logAddr, if_true, Store.insert, hw.vacant,
      hw.slots]
    exact ⟨_, _, rfl, rfl, rfl, hw.logAddr⟩
  obtain ⟨-, -, hclass, -, hparent, hchildren, hactive⟩ := Engine.alloc_cases halloc
  have hbegin : step (usurping d turns) ⟨w, .perform (.alloc d none none none), stack⟩ =
      .running ⟨{ w with engine := e }.log (.about inst .allocated),
        .give (.allocated ⟨0, generation⟩), stack⟩ := by
    simp only [step, begin, beginAlloc, halloc, reply, goOn]
  exact ⟨_, inst, ⟨hslots, hvacant, hclass, hparent, hchildren, hactive, hconfig⟩,
    .single ⟨hbegin, rfl, hw.logAddr⟩⟩

/-- In one turn the instance is replaced by another one, and the generation goes up by one. -/
theorem advances_turn (n : Nat) (hw : w.Houses c generation inst) :
    ∃ (w' : World Unit Unit) (next : Instance), w'.Houses d (generation + 1) next ∧
      ReflTransGen (Advances (usurping d turns))
        ⟨w, .run (.turnover d (n + 1) ⟨0, generation⟩), stack⟩
        ⟨w', .run (.turnover d n ⟨0, generation + 1⟩), stack⟩ := by
  obtain ⟨emptied, hempty, hend⟩ := advances_terminate d turns _ hw
  obtain ⟨filled, next, hfilled, halloc⟩ := advances_alloc d turns _ hempty
  exact ⟨filled, next, hfilled, .head ⟨rfl, rfl, hw.logAddr⟩ (hend.trans
    (.head ⟨rfl, rfl, hempty.logAddr⟩ (.head ⟨rfl, rfl, hempty.logAddr⟩ (halloc.trans
      (.single ⟨rfl, rfl, hfilled.logAddr⟩)))))⟩

/-- After a number of turns an instance of the class is in the slot, and the generation is higher by
as many. -/
theorem advances_turnover (n : Nat) (hw : w.Houses d generation inst) :
    ∃ (w' : World Unit Unit) (last : Instance),
      w'.Houses d (generation + UInt32.ofNat n) last ∧
      ReflTransGen (Advances (usurping d turns))
        ⟨w, .run (.turnover d n ⟨0, generation⟩), stack⟩ ⟨w', .run (.done ()), stack⟩ := by
  induction n generalizing w generation inst with
  | zero => exact ⟨w, inst, by simpa using hw, .refl⟩
  | succ n ih =>
    obtain ⟨between, next, hnext, hturn⟩ := advances_turn d turns stack n hw
    obtain ⟨w', last, hlast, hrest⟩ := ih hnext
    refine ⟨w', last, ?_, hturn.trans hrest⟩
    have hsum : generation + 1 + UInt32.ofNat n = generation + UInt32.ofNat (n + 1) := by
      rw [UInt32.ofNat_add, UInt32.add_assoc, UInt32.add_comm 1]
      rfl
    rwa [hsum] at hlast

end Turns

/-! ## A change of state -/

/-- A run in which an instance is allocated. -/
def besieged (d : Descriptor) : Execution Unit Unit × List (Execution Unit Unit) :=
  session (usurping d UInt32.size) 2 (idle {} ()) [] [.alloc .fork none none none]

/-- The moment at which the state of the instance is about to be changed. -/
def leaving (d : Descriptor) : Execution Unit Unit :=
  ofCall (besieged d).1.world (.changeState ⟨0, 0⟩ 2 0 0)

/-- The change is carried out on an instance of the other class. -/
theorem exists_advances_leaving (d : Descriptor) :
    ∃ (x : Execution Unit Unit) (inst : Instance),
      ReflTransGen (Advances (usurping d UInt32.size)) (leaving d) x ∧
      x.world.engine.get? ⟨0, 0⟩ = some inst ∧ inst.descriptor = d ∧ inst.state = 2 ∧
      Record.latestState? (x.recordsOf inst.name) = some "C" := by
  let host := usurping d UInt32.size
  let stack : List (Frame Unit Unit) := [.leaving ⟨0, 0⟩ .fork 0 2 0 0]
  let w := (leaving d).world.enter (.hook ⟨0, 0⟩ (.leave 0 2))
  obtain ⟨first, hfirst⟩ : ∃ inst, w.Houses .fork 0 inst := ⟨_, rfl, rfl, rfl, rfl, rfl, rfl, rfl⟩
  have hhook : ReflTransGen (Advances host) (leaving d)
      ⟨w, .run (.turnover d (4294967295 + 1) ⟨0, 0⟩), stack⟩ :=
    .head (b := ⟨(leaving d).world, .hook .fork ⟨0, 0⟩ (.leave 0 2), stack⟩) ⟨rfl, rfl, rfl⟩
      (.single ⟨rfl, rfl, rfl⟩)
  -- The first turn brings in the other class, and the last one the first generation.
  obtain ⟨w₁, second, hsecond, hturn⟩ := advances_turn d UInt32.size stack 4294967295 hfirst
  obtain ⟨w₂, last, hlast, hrest⟩ := advances_turnover d UInt32.size stack 4294967295 hsecond
  have hlast : w₂.Houses d 0 last := hlast
  have hlive := get?_of_houses hlast
  let before : Execution Unit Unit := ⟨w₂, .give .done, stack⟩
  let logged := w₂.log (.remark last.level "fsm" last.name (.stateChanged "C"))
  let after : Execution Unit Unit :=
    ⟨{ logged with engine := w₂.engine.modify ⟨0, 0⟩ ({ · with state := 2 }) },
      .hook .fork ⟨0, 0⟩ (.enter 2 0), [.entering ⟨0, 0⟩ .fork 0 0]⟩
  have hwrite : before.step host = .running after := by
    simp only [before, step, proceed, afterLeave, stack, hlive, goOn]
    rfl
  refine ⟨after, { last with state := 2 }, hhook.trans (hturn.trans (hrest.trans
    (.head ⟨rfl, rfl, hlast.logAddr⟩ (.single ⟨hwrite, rfl, hlast.logAddr⟩)))), ?_,
    hlast.descriptor, rfl, ?_⟩
  · show (w₂.engine.modify _ _).get? _ = _
    rw [Engine.get?_modify_self, hlive, Option.map_some]
  · have hlog : after.chronicle =
        .remark last.level "fsm" last.name (.stateChanged "C") :: before.chronicle :=
      World.chronicle_log (Record.tag?_remark _ _ _ _)
    show Record.latestState? (after.recordsOf last.name) = _
    rw [recordsOf_cons hlog (Record.tag?_remark _ _ _ _)]
    rfl

/-- For every class there is a run without direct releases, undisturbed and with numbers in all
names, in which an instance of it comes to be in the third state without having been in a state with
an edge to it. What was told last is the name of the third state of another class. -/
theorem exists_usurped (d : Descriptor) :
    ∃ (x : Execution Unit Unit) (past : List (Execution Unit Unit)) (inst : Instance),
      Run (usurping d UInt32.size) x past ∧ NeverFrees past ∧
      (∀ y ∈ past, y.world.engine.config.logAddr = true) ∧ Undisturbed (x :: past) ∧
      x.world.engine.get? ⟨0, 0⟩ = some inst ∧ inst.descriptor = d ∧ inst.state = 2 ∧
      Record.latestState? (x.recordsOf inst.name) = some "C" := by
  have hrun : Run (usurping d UInt32.size) (besieged d).1 (besieged d).2 :=
    run_session 2 _ (run_idle _ _)
  have hstart : Undisturbed [(idle {} () : Execution Unit Unit)] := rfl
  have hquiet : Undisturbed ((besieged d).1 :: (besieged d).2) := hstart.session _ 2 _
  -- The class has not mattered yet.
  have hsame : besieged d = besieged .plain := rfl
  have hnever : NeverFrees ((besieged d).1 :: (besieged d).2) := by
    rw [hsame]
    decide
  have hon : ∀ y ∈ (besieged d).1 :: (besieged d).2, y.world.engine.config.logAddr = true := by
    rw [hsame]
    decide
  obtain ⟨x, inst, hadvances, hlive, hclass, hstate, htold⟩ := exists_advances_leaving d
  obtain ⟨past, hrun', hnever', hon', hquiet'⟩ := Run.exists_of_advances
    (hrun.next (.call _ _ rfl rfl (Nat.le_refl _))) hnever hon ⟨fun _ => rfl, hquiet⟩ hadvances
  exact ⟨x, past, inst, hrun', hnever', hon', hquiet', hlive, hclass, hstate, htold⟩

end Execution

end StateMachines
