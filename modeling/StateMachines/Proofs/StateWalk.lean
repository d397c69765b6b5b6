import StateMachines.Proofs.Execution.Session
import StateMachines.Proofs.Execution.Soundness

/-!
# The states of an instance

A change of state checks its edge before it calls the hook for leaving, and writes the state after
the hook has returned. In between the hook may have changed the state itself. So a write follows
an edge of the table, and the hook for entering is told the state that was replaced, exactly if
the hook for leaving has left the instance in the state in which it was called.

If that is true of all writes of a run, the states that an instance has been in are a walk through
the table of its class which begins at the initial state.

## Main definitions

* `StateWrite.Declared`: the write follows an edge, and its hook for entering is told so.
* `StateWrite.Undisturbed`: the hook for leaving has left the instance as it was.
* `Execution.statesHeld`: the states that an instance has been in.

## Main results

* `Execution.Run.states_walk`: when writes follow edges, and the states of instances are walks.
* `Execution.detour_undeclared`: a run in which they are not.
-/

namespace StateMachines

/-- The states are a walk through the table that begins at the initial state, the latest first. -/
inductive Descriptor.Walk (d : Descriptor) : List StateId → Prop where
  | initial : d.Walk [0]
  | step {old new : StateId} {earlier : List StateId} (hwalk : d.Walk (old :: earlier))
      (hedge : d.permits old new = true) : d.Walk (new :: old :: earlier)

/-- The write follows an edge of the table, and the hook for entering is told the state that is
replaced. -/
def StateWrite.Declared (w : StateWrite) : Prop :=
  w.descriptor.permits w.old w.new = true ∧ w.previous = w.old

/-- The instance is still of the class and in the state in which the hook for leaving was called. -/
def StateWrite.Undisturbed (w : StateWrite) : Prop :=
  w.descriptor = w.checked ∧ w.old = w.previous

/-- Whether a write was disturbed can be computed. -/
instance (w : StateWrite) : Decidable w.Undisturbed := inferInstanceAs (Decidable (_ ∧ _))

namespace Execution

variable {σ ν : Type} {host : Host σ ν} {x x' y : Execution σ ν}
  {past span before : List (Execution σ ν)} {h : Handle} {a b inst : Instance} {w : StateWrite}

/-! ## Single writes -/

/-- A step that changes the state of an instance performs the write that was announced. -/
theorem Run.exists_stateWrite?_of_ne (hrun : Run host x past) (hnext : Next host x x')
    (ha : x.world.engine.get? h = some a) (hb : x'.world.engine.get? h = some b)
    (hne : b.state ≠ a.state) :
    ∃ w, x.stateWrite? = some w ∧ w.target = h ∧ w.descriptor = a.descriptor ∧
      w.old = a.state ∧ w.new = b.state := by
  have hstate := (hnext.change.continues_of_live hrun.tidy ha hb).2
  rw [hstate] at hne ⊢
  obtain ⟨w, hwrite, rfl, hnew⟩ :=
    written?_eq_some_iff.1 (Engine.written_of_stateAfter_ne hne)
  obtain ⟨-, -, -, -, inst, -, -, hlive, hdescriptor, hold⟩ := stateWrite?_eq_some_iff.1 hwrite
  cases ha.symm.trans hlive
  exact ⟨w, hwrite, rfl, hdescriptor, hold, hnew⟩

/-- A write that was announced is performed by the next step, which calls the hook for entering. -/
theorem Next.control_of_stateWrite? (hnext : Next host x x') (hwrite : x.stateWrite? = some w) :
    x'.control = .hook w.checked w.target (.enter w.new w.previous) ∧
      x'.world.engine.state? w.target = some w.new := by
  obtain ⟨answer, timeout, label, rest, inst, hcontrol, hstack, hlive, -⟩ :=
    stateWrite?_eq_some_iff.1 hwrite
  obtain ⟨t, -, ht⟩ | ⟨_, _, _, -, -, hempty, -⟩ := hnext.cases
  · obtain ⟨world, control, stack⟩ := x
    obtain rfl : control = .give answer := hcontrol
    obtain rfl : stack =
      .leaving w.target w.checked w.previous w.new timeout label :: rest := hstack
    cases ht with
    | closes hcloses =>
      -- The change of state is given up only if the instance is gone.
      cases hcloses with
      | leaving _ _ _ _ _ hdead => cases hdead.symm.trans hlive
    | enters hlive' =>
      refine ⟨rfl, ?_⟩
      rw [Engine.state?, Engine.get?_modify_self, hlive', Option.map_some, Option.map_some]
  · rw [hstack] at hempty
    cases hempty

/-- A write is preceded by the hook for leaving, which was called when the instance was in a state
with an edge to the one that is written, and which returns now. -/
theorem Run.left_of_stateWrite? (hrun : Run host x past) (hwrite : x.stateWrite? = some w) :
    ∃ y span before, past = span ++ before ∧ Run host y before ∧ Spans host y x span ∧
      y.Returned x ∧ y.control = .hook w.checked w.target (.leave w.previous w.new) ∧
      w.checked.permits w.previous w.new = true ∧
      ∃ inst, y.world.engine.get? w.target = some inst ∧ inst.descriptor = w.checked ∧
        inst.state = w.previous := by
  obtain ⟨answer, timeout, label, rest, -, hcontrol, hstack, -⟩ :=
    stateWrite?_eq_some_iff.1 hwrite
  have hframe : .leaving w.target w.checked w.previous w.new timeout label :: rest <:+ x.stack :=
    hstack ▸ List.suffix_rfl
  obtain ⟨y, span, before, hpast, hy, hspan, hystack, hycontrol, hpermits, hlive⟩ :=
    hrun.opened hframe
  have hlength : x.stack.length ≤ y.stack.length :=
    Nat.le_of_eq (congrArg List.length (hstack.trans hystack.symm))
  exact ⟨y, span, before, hpast, hy, hspan, ⟨⟨answer, hcontrol⟩, hlength⟩, hycontrol, hpermits,
    hlive⟩

/-- An instance that was live at one moment and still is at a later one was live in between. -/
theorem Run.live_between (hrun : Run host y before) (hfollows : Follows host y x span)
    (hfew : FewReleases (x :: (span ++ before))) (ha : y.world.engine.get? h = some a)
    (hb : x.world.engine.get? h = some b) :
    ∀ z ∈ x :: span, ∃ inst, z.world.engine.get? h = some inst := by
  induction hfollows generalizing b with
  | refl =>
    intro z hz
    rw [List.mem_singleton.1 hz]
    exact ⟨a, ha⟩
  | @next x x' span hfollows hnext ih =>
    -- The handle was issued at `y`, so what it refers to now it referred to one moment before.
    intro z hz
    have hx := hfollows.run hrun
    have hy : y ∈ x :: (span ++ before) := List.mem_append_left before hfollows.first_mem
    have hissued := (hx.evolves hfew.of_cons hy).issued (Store.issued_of_get? ha)
    obtain ⟨m, hm, -⟩ := (hx.evolves_next hnext hfew).continues hissued hb
    rcases List.mem_cons.1 hz with rfl | hz
    · exact ⟨b, hb⟩
    · exact ih hfew.of_cons hm z hz

/-- An instance stays in its state for as long as no other one is written. -/
theorem Run.state_eq_of_unwritten (hrun : Run host y before) (hfollows : Follows host y x span)
    (hlive : ∀ z ∈ x :: span, ∃ inst, z.world.engine.get? h = some inst)
    (hunwritten : ∀ z ∈ span, ∀ w, z.stateWrite? = some w → w.target ≠ h)
    (ha : y.world.engine.get? h = some a) (hb : x.world.engine.get? h = some b) :
    b.state = a.state := by
  induction hfollows generalizing b with
  | refl =>
    cases ha.symm.trans hb
    rfl
  | @next x x' span hfollows hnext ih =>
    obtain ⟨m, hm⟩ := hlive x (List.mem_cons_of_mem x' List.mem_cons_self)
    have hbefore : m.state = a.state :=
      ih (fun z hz => hlive z (List.mem_cons_of_mem x' hz))
        (fun z hz => hunwritten z (List.mem_cons_of_mem x hz)) hm
    by_cases hsame : b.state = m.state
    · rw [hsame, hbefore]
    · obtain ⟨w, hwrite, htarget, -⟩ :=
        (hfollows.run hrun).exists_stateWrite?_of_ne hnext hm hb hsame
      exact absurd htarget (hunwritten x List.mem_cons_self w hwrite)

/-- A write was not disturbed if the state of the instance was not written while the hook for
leaving ran. -/
theorem Run.undisturbed_of_unwritten (hrun : Run host y before) (hspan : Spans host y x span)
    (hfew : FewReleases (x :: (span ++ before))) (hwrite : x.stateWrite? = some w)
    (ha : y.world.engine.get? w.target = some a) (hdescriptor : a.descriptor = w.checked)
    (hstate : a.state = w.previous)
    (hunwritten : ∀ z ∈ span, ∀ w', z.stateWrite? = some w' → w'.target ≠ w.target) :
    w.Undisturbed := by
  obtain ⟨-, -, -, -, b, -, -, hb, hclass, hold⟩ := stateWrite?_eq_some_iff.1 hwrite
  have hlive := hrun.live_between hspan.follows hfew ha hb
  have hcontinues := hspan.follows.continues hrun hlive ha hb
  have hsame := hrun.state_eq_of_unwritten hspan.follows hlive hunwritten ha hb
  constructor
  · rw [hclass, hcontinues.descriptor_eq, hdescriptor]
  · rw [hold, hsame, hstate]

/-- A write that was not disturbed follows an edge of the table. -/
theorem Run.declared_of_undisturbed (hrun : Run host x past) (hwrite : x.stateWrite? = some w)
    (hw : w.Undisturbed) : w.Declared := by
  obtain ⟨hdescriptor, hold⟩ := hw
  obtain ⟨-, -, -, -, -, -, -, -, hpermits, -⟩ := hrun.left_of_stateWrite? hwrite
  refine ⟨?_, hold.symm⟩
  rwa [hdescriptor, hold]

/-- A write that follows an edge, and whose hook for entering is told so, was not disturbed. -/
theorem Run.undisturbed_of_declared (hrun : Run host x past) (hfew : FewReleases (x :: past))
    (hwrite : x.stateWrite? = some w) (hw : w.Declared) : w.Undisturbed := by
  obtain ⟨-, timeout, label, rest, inst, -, hstack, hlive, hdescriptor, -⟩ :=
    stateWrite?_eq_some_iff.1 hwrite
  refine ⟨?_, hw.2.symm⟩
  rw [hdescriptor]
  exact hrun.descriptor_eq_of_leaving hfew (hstack ▸ List.mem_cons_self) hlive

/-! ## The states an instance has been in -/

/-- The states that the instance a handle refers to has been in, the latest first, without
repetitions. The history begins anew with each instance. -/
def statesHeld (h : Handle) : List (Execution σ ν) → List StateId
  | [] => []
  | x :: past =>
    match x.world.engine.state? h, statesHeld h past with
    | none, _ => []
    | some state, [] => [state]
    | some state, old :: earlier =>
      if state = old then old :: earlier else state :: old :: earlier

/-- A dead instance is in no state. -/
theorem statesHeld_of_dead (hdead : x.world.engine.get? h = none) :
    statesHeld h (x :: past) = [] := by
  rw [statesHeld, Engine.state?, hdead, Option.map_none]

/-- The last state that a live instance has been in is its current one. -/
theorem statesHeld_of_live (hlive : x.world.engine.get? h = some inst) :
    ∃ earlier, statesHeld h (x :: past) = inst.state :: earlier := by
  rw [statesHeld, Engine.state?, hlive, Option.map_some]
  cases statesHeld h past with
  | nil => exact ⟨[], rfl⟩
  | cons old earlier =>
    dsimp only
    split
    next heq => exact ⟨earlier, by rw [heq]⟩
    next => exact ⟨old :: earlier, rfl⟩

/-- An instance that comes to life has been in its current state only. -/
theorem statesHeld_of_new (hdead : x.world.engine.get? h = none)
    (hlive : x'.world.engine.get? h = some inst) :
    statesHeld h (x' :: x :: past) = [inst.state] := by
  rw [statesHeld, statesHeld_of_dead hdead, Engine.state?, hlive, Option.map_some]

/-- The states of an instance are a walk if all writes follow edges of its table. -/
theorem Run.walk_of_declared (hrun : Run host x past)
    (hdeclared : ∀ z ∈ past, ∀ w, z.stateWrite? = some w → w.Declared)
    (hlive : x.world.engine.get? h = some inst) :
    inst.descriptor.Walk (statesHeld h (x :: past)) := by
  induction hrun generalizing inst with
  | start w config hfresh =>
    simp [hfresh] at hlive
  | @next x x' past hrun hnext ih =>
    have hchange := hnext.change
    cases hbefore : x.world.engine.get? h with
    | none =>
      -- The instance is new, and so is its history.
      rw [statesHeld_of_new hbefore hlive, hchange.state_of_new hrun.tidy hbefore hlive]
      exact .initial
    | some a =>
      have hdescriptor := (hchange.continues_of_live hrun.tidy hbefore hlive).1.descriptor_eq
      have hwalk := ih (fun z hz => hdeclared z (List.mem_cons_of_mem x hz)) hbefore
      obtain ⟨earlier, hheld⟩ := statesHeld_of_live hbefore
      rw [statesHeld, Engine.state?, hlive, Option.map_some, hheld, hdescriptor]
      rw [hheld] at hwalk
      dsimp only
      split
      next => exact hwalk
      next hne =>
        -- The state has changed, so it was written, along an edge of the table.
        obtain ⟨w, hwrite, -, hclass, hold, hnew⟩ :=
          hrun.exists_stateWrite?_of_ne hnext hbefore hlive hne
        refine hwalk.step ?_
        rw [← hnew, ← hclass, ← hold]
        exact (hdeclared x List.mem_cons_self w hwrite).1

/-- A change of the state of an instance is a write that was announced, and a write that is
announced is performed together with its hook for entering. Each write is preceded by the hook for
leaving, which was called in a state with an edge to the one that is written and returns right
before the write. If the hook has not changed the instance, the write follows an edge from the
state that it replaces, and the hook for entering is told that state. With few releases this
condition is necessary, and it holds if no write was announced for the instance while the hook
ran. If it is true of all writes, the states of every instance are a walk that begins at the
initial state. -/
theorem Run.states_walk (hrun : Run host x past) :
    (∀ x' h a b, Next host x x' → x.world.engine.get? h = some a →
      x'.world.engine.get? h = some b → b.state ≠ a.state →
      ∃ w, x.stateWrite? = some w ∧ w.target = h ∧ w.descriptor = a.descriptor ∧
        w.old = a.state ∧ w.new = b.state) ∧
    (∀ w, x.stateWrite? = some w →
      (∀ x', Next host x x' →
        x'.control = .hook w.checked w.target (.enter w.new w.previous) ∧
          x'.world.engine.state? w.target = some w.new) ∧
      (∃ y span before, past = span ++ before ∧ Spans host y x span ∧ y.Returned x ∧
        y.control = .hook w.checked w.target (.leave w.previous w.new) ∧
        w.checked.permits w.previous w.new = true ∧
        (∃ inst, y.world.engine.get? w.target = some inst ∧ inst.descriptor = w.checked ∧
          inst.state = w.previous) ∧
        (FewReleases (x :: past) →
          (∀ z ∈ span, ∀ w', z.stateWrite? = some w' → w'.target ≠ w.target) →
          w.Undisturbed)) ∧
      (w.Undisturbed → w.Declared) ∧
      (FewReleases (x :: past) → w.Declared → w.Undisturbed)) ∧
    ((∀ z ∈ past, ∀ w, z.stateWrite? = some w → w.Undisturbed) →
      ∀ h inst, x.world.engine.get? h = some inst →
        inst.descriptor.Walk (statesHeld h (x :: past))) := by
  refine ⟨fun x' h a b hnext ha hb hne => hrun.exists_stateWrite?_of_ne hnext ha hb hne,
    fun w hwrite => ⟨fun x' hnext => hnext.control_of_stateWrite? hwrite, ?_,
      hrun.declared_of_undisturbed hwrite, fun hfew => hrun.undisturbed_of_declared hfew hwrite⟩,
    fun hundisturbed h inst hlive => hrun.walk_of_declared (fun z hz w hwrite => ?_) hlive⟩
  · obtain ⟨y, span, before, rfl, hy, hspan, hreturned, hcontrol, hpermits, a, ha, hd, hs⟩ :=
      hrun.left_of_stateWrite? hwrite
    exact ⟨y, span, before, rfl, hspan, hreturned, hcontrol, hpermits, ⟨a, ha, hd, hs⟩,
      fun hfew => hy.undisturbed_of_unwritten hspan hfew hwrite ha hd hs⟩
  · obtain ⟨after, before, -, hz'⟩ := hrun.exists_run_of_mem (List.mem_cons_of_mem x hz)
    exact hz'.declared_of_undisturbed hwrite (hundisturbed z hz w hwrite)

/-- A run in which an instance moves along an edge. -/
def moved : Execution Unit Unit × List (Execution Unit Unit) :=
  session passive 10 (idle { logAddr := false } ()) []
    [.alloc .fork none none none, .changeState ⟨0, 0⟩ 1 0 0]

/-- The states of an instance that moves along an edge are a walk. -/
theorem moved_walk : statesHeld ⟨0, 0⟩ (moved.1 :: moved.2) = [1, 0] ∧
    ∃ inst, moved.1.world.engine.get? ⟨0, 0⟩ = some inst ∧
      inst.descriptor.Walk (statesHeld ⟨0, 0⟩ (moved.1 :: moved.2)) := by
  have hmoved : Run passive moved.1 moved.2 := run_session 10 _ (run_idle _ _)
  obtain ⟨inst, hlive⟩ : ∃ inst, moved.1.world.engine.get? ⟨0, 0⟩ = some inst :=
    Engine.isAlive_eq_true_iff.1 (by decide)
  have hundisturbed : ∀ z ∈ moved.2, z.stateWrite?.all (decide <| ·.Undisturbed) = true := by
    decide
  refine ⟨by decide, inst, hlive, (Run.states_walk hmoved).2.2 (fun z hz w hwrite => ?_) _ _ hlive⟩
  simpa [hwrite] using hundisturbed z hz

/-- When an instance is about to move to state `1`, its hook for leaving moves it to state `2`. -/
def detourer : Host Unit Unit where
  script _ h hook _ :=
    match hook with
    | .leave 0 1 => .call (.changeState h 2 0 0) () fun _ _ => .done ()
    | _ => .done ()

/-- A run in which an instance is moved by its hook while it is about to move, at the moment
before the state is written for the second time. -/
def detoured : Execution Unit Unit × List (Execution Unit Unit) :=
  session detourer 12 (idle { logAddr := false } ()) []
    [.alloc .fork none none none, .changeState ⟨0, 0⟩ 1 0 0]

/-- A write need not follow an edge, and its hook for entering may be told a state that the
instance was not in. -/
theorem detour_undeclared : ¬ ∀ (x : Execution Unit Unit) (past : List (Execution Unit Unit))
    (w : StateWrite), Run detourer x past → x.stateWrite? = some w →
      w.descriptor.permits w.old w.new = true ∧ w.previous = w.old := by
  intro hdeclared
  have hdetoured : Run detourer detoured.1 detoured.2 := run_session 12 _ (run_idle _ _)
  have hwrite : detoured.1.stateWrite? = some ⟨⟨0, 0⟩, .fork, .fork, 2, 1, 0⟩ := rfl
  obtain ⟨hpermits, -⟩ := hdeclared _ _ _ hdetoured hwrite
  exact absurd hpermits (by decide)

end Execution

end StateMachines
