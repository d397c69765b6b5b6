import StateMachines.Proofs.Execution.Session
import StateMachines.Proofs.Execution.Soundness
import StateMachines.Proofs.Execution.Wraparound

/-!
# Passive hooks

If no hook does anything, a permitted change of state is carried out, and so is every sequence of
changes along the edges of a table. Such changes are runs in which nothing is released. So the
states that are reachable in a table are those that some instance of the class comes to be in: that
no others are is true of all runs with few releases, whatever the hooks do, and not true of all
runs.

## Main definitions

* `Host.Passive`: no hook does anything.
* `Execution.Carried`: calls that are made one after another and are all done.
* `Execution.Tame`: changes of state and allocations, all for one class.
* `Execution.Entered`: some instance of a class comes to be in a state.

## Main results

* `Execution.exists_moves_of_leads`: an instance can be moved along the edges of its table.
* `Execution.Run.exists_of_carried`: calls that are all done are a run.
* `Execution.Run.releases_eq_zero`: in a tame run nothing is released.
* `Execution.entered_iff_reaches`: the states that are entered are those that are reachable.
* `Execution.exists_not_reaches`: this needs the bound on the releases.
-/

namespace StateMachines

variable {σ ν : Type}

/-- No hook does anything. -/
def Host.Passive (host : Host σ ν) : Prop :=
  ∀ d h hook c, host.script d h hook c = .done c.env

/-- A frame of a change of state. -/
def Frame.IsChange : Frame σ ν → Prop
  | .leaving _ _ _ _ _ _ => True
  | .entering _ _ _ _ => True
  | _ => False

/-- A call that changes a state, or allocates an instance of the class. -/
def Call.TameFor (d : Descriptor) : Call → Prop
  | .alloc d' _ _ _ => d' = d
  | .changeState _ _ _ _ => True
  | _ => False

/-- What is done next makes no call but tame ones. -/
def Control.TameFor (d : Descriptor) : Control σ ν → Prop
  | .perform call => call.TameFor d
  | .run script => ∃ env, script = .done env
  | _ => True

namespace Execution

variable {host : Host σ ν} {x x' : Execution σ ν} {past : List (Execution σ ν)}
  {w w' w₁ : World σ ν} {h : Handle} {inst : Instance} {d : Descriptor} {state : StateId}
  {call : Call} {calls : List Call} {reply : Reply} {fuel : Nat}

/-- The hooks of `passive` are passive. -/
theorem passive_passive : passive.Passive := fun _ _ _ _ => rfl

/-! ## Changes of state that are carried out -/

/-- The world after an instance was moved to another state, without hooks that do anything. -/
def movedTo (w : World σ ν) (h : Handle) (inst : Instance) (state : StateId) : World σ ν :=
  let left := w.enter (.hook h (.leave inst.state state))
  let logged := left.log (.remark inst.level inst.descriptor.subsystem inst.name
    (.stateChanged (inst.descriptor.stateName state)))
  { logged with engine := w.engine.modify h ({ · with state }) }.enter
    (.hook h (.enter state inst.state))

/-- A permitted change of state without a timeout is done, and changes the state only. -/
theorem run_changeState (hpassive : host.Passive) (hlive : w.engine.get? h = some inst)
    (hpermits : inst.descriptor.permits inst.state state = true) (label : Nat) :
    (ofCall w (.changeState h state 0 label)).run host 8 =
      some (.ok (movedTo w h inst state, .done)) := by
  have hstill : (w.engine.modify h ({ · with state })).get? h = some { inst with state } := by
    rw [Engine.get?_modify_self, hlive, Option.map_some]
  simp only [ofCall, run, step, begin, beginChange, hlive, hpermits, if_true, goOn, hpassive _,
    Execution.reply, proceed, afterLeave, afterEnter, World.log, World.enter, hstill]
  rfl

/-- Calls are made one after another from outside, and each of them is done. -/
inductive Carried (host : Host σ ν) : World σ ν → List Call → World σ ν → Prop where
  | nil (w : World σ ν) : Carried host w [] w
  | cons {w w₁ w₂ : World σ ν} {call : Call} {calls : List Call} {fuel : Nat}
      (hrun : (ofCall w call).run host fuel = some (.ok (w₁, .done)))
      (hrest : Carried host w₁ calls w₂) : Carried host w (call :: calls) w₂

/-- The changes of state that move an instance through the given states. -/
def moves (h : Handle) (states : List StateId) : List Call :=
  states.map fun state => .changeState h state 0 0

/-- An instance can be moved along the edges of its table, and the way does not depend on anything
else. -/
theorem exists_moves_of_leads {source : StateId}
    (hleads : Relation.ReflTransGen (fun a b => d.permits a b = true) source state) :
    ∃ states, ∀ {σ ν : Type} {host : Host σ ν} {w : World σ ν} {h : Handle} {inst : Instance},
      host.Passive → w.engine.get? h = some inst → inst.descriptor = d → inst.state = source →
        ∃ w', Carried host w (moves h states) w' ∧
          w'.engine.get? h = some { inst with state } := by
  -- The path is followed from its beginning, since each change begins where the last one ended.
  induction hleads using Relation.ReflTransGen.head_induction_on with
  | refl =>
    refine ⟨[], fun {σ ν host w h inst} hpassive hlive hclass hstate => ⟨w, .nil w, ?_⟩⟩
    rw [hlive, ← hstate]
  | @head a b hedge hrest ih =>
    obtain ⟨states, hmoves⟩ := ih
    refine ⟨b :: states, fun {σ ν host w h inst} hpassive hlive hclass hstate => ?_⟩
    have hpermits : inst.descriptor.permits inst.state b = true := by
      rw [hclass, hstate]
      exact hedge
    have hmoved : (movedTo w h inst b).engine.get? h = some { inst with state := b } := by
      change (w.engine.modify h _).get? h = _
      rw [Engine.get?_modify_self, hlive, Option.map_some]
    obtain ⟨w', hcarried, hlive'⟩ := hmoves hpassive hmoved hclass rfl
    exact ⟨w', .cons (run_changeState hpassive hlive hpermits 0) hcarried, hlive'⟩

/-- An instance in a state without edges cannot be moved. -/
theorem Carried.eq_nil_of_isolated {states : List StateId} (hlive : w.engine.get? h = some inst)
    (hisolated : ∀ s, inst.descriptor.permits inst.state s = false)
    (hcarried : Carried host w (moves h states) w') : states = [] := by
  cases states with
  | nil => rfl
  | cons s states =>
    cases hcarried with
    | @cons _ w₁ _ _ _ fuel hrun hrest =>
      -- The first change is refused at once.
      cases fuel with
      | zero => cases hrun
      | succ fuel =>
        simp only [ofCall, run, step, begin, beginChange, hlive, hisolated, Bool.false_eq_true,
          if_false, Execution.reply, goOn] at hrun
        cases fuel with
        | zero => cases hrun
        | succ fuel => cases hrun

/-! ## Runs for one class -/

/-- All instances are of the class, and what is in progress are changes of state and allocations for
it, without hooks that do anything. -/
structure Tame (d : Descriptor) (x : Execution σ ν) : Prop where
  classes : ∀ h inst, x.world.engine.get? h = some inst → inst.descriptor = d
  control : x.control.TameFor d
  frames : ∀ frame ∈ x.stack, frame.IsChange

/-- The store stays as it is, or an instance is edited, or one of the class is inserted. -/
inductive StoreGrows (d : Descriptor) (s : Store) : Store → Prop where
  | refl : StoreGrows d s s
  | modify (h : Handle) (f : Instance → Instance)
      (hf : ∀ inst, (f inst).descriptor = inst.descriptor) : StoreGrows d s (s.modify h f)
  | insert {s' : Store} {h : Handle} {inst : Instance} (hclass : inst.descriptor = d)
      (hins : s.insert inst = .ok (h, s')) : StoreGrows d s s'

/-- A store that grows keeps all instances in the class. -/
theorem StoreGrows.classes {s s' : Store} (hgrows : StoreGrows d s s')
    (hclasses : ∀ h inst, s.get? h = some inst → inst.descriptor = d) :
    ∀ h inst, s'.get? h = some inst → inst.descriptor = d := by
  intro k inst hlive
  cases hgrows with
  | refl => exact hclasses k inst hlive
  | modify h f hf =>
    by_cases hk : k = h
    · subst hk
      rw [Store.get?_modify_self] at hlive
      obtain ⟨a, ha, rfl⟩ := Option.map_eq_some_iff.1 hlive
      rw [hf]
      exact hclasses k a ha
    · rw [Store.get?_modify_of_ne hk] at hlive
      exact hclasses k inst hlive
  | @insert _ h _ hclass hins =>
    by_cases hk : k = h
    · subst hk
      rw [Store.get?_insert_self hins] at hlive
      cases hlive
      exact hclass
    · rw [Store.get?_insert_of_ne hins hk] at hlive
      exact hclasses k inst hlive

/-- No slot of a store that grows is vacated. -/
theorem StoreGrows.vacated {s s' : Store} (hgrows : StoreGrows d s s') (i : Nat) :
    s.vacated s' i = false := by
  cases hgrows with
  | refl | modify => simp [Store.vacated]
  | insert _ hins =>
    unfold Store.vacated Store.occupied
    rw [Store.getElem?_slots_insert hins i]
    split <;> simp

/-- Without hooks that do anything, what is tame stays so, and the store only grows. -/
theorem Tame.transition (hx : x.Tame d) (hpassive : host.Passive) (ht : Transition host x x') :
    x'.Tame d ∧ StoreGrows d x.world.engine.store x'.world.engine.store := by
  obtain ⟨hclasses, hcontrol, hframes⟩ := hx
  -- Only the store decides about the classes of the instances.
  suffices hrest : StoreGrows d x.world.engine.store x'.world.engine.store ∧
      x'.control.TameFor d ∧ ∀ frame ∈ x'.stack, frame.IsChange by
    obtain ⟨hgrows, hcontrol', hframes'⟩ := hrest
    exact ⟨⟨hgrows.classes hclasses, hcontrol', hframes'⟩, hgrows⟩
  cases ht with
  | answered hanswers =>
    refine ⟨?_, trivial, hframes⟩
    cases hanswers with
    | alloc halloc =>
      obtain ⟨hins, -, hclass, -⟩ := Engine.alloc_cases halloc
      exact .insert (hclass.trans hcontrol) hins
    | unmoved | changeRefused => exact .refl
    | _ => cases hcontrol
  | leaves =>
    refine ⟨.refl, trivial, fun frame hframe => ?_⟩
    rcases List.mem_cons.1 hframe with rfl | hrest
    · trivial
    · exact hframes frame hrest
  | calls => exact ⟨.refl, ⟨_, hpassive _ _ _ _⟩, hframes⟩
  | scriptDone => exact ⟨.refl, trivial, hframes⟩
  | closes hcloses =>
    refine ⟨?_, trivial, fun frame hframe => hframes frame (List.mem_cons_of_mem _ hframe)⟩
    cases hcloses with
    | leaving | entering | unarmed => exact .refl
    | armed =>
      rw [World.engine_armed]
      exact .modify _ _ fun _ => rfl
    | _ => cases hframes _ List.mem_cons_self
  | enters =>
    refine ⟨.modify _ _ fun _ => rfl, trivial, fun frame hframe => ?_⟩
    rcases List.mem_cons.1 hframe with rfl | hrest
    · trivial
    · exact hframes frame (List.mem_cons_of_mem _ hrest)
  | scriptNote | scriptCall =>
    obtain ⟨env, hdone⟩ := hcontrol
    cases hdone
  | childRefused | deliversAll | delivers | ends | fires => cases hcontrol
  | resumes | endsChild | skipsChild | cleans | tells | skipsTimer | expires =>
    cases hframes _ List.mem_cons_self

/-- In a run all of whose moments are tame, no slot is vacated. -/
theorem Run.releases_eq_zero (hrun : Run host x past) (hpassive : host.Passive)
    (htame : ∀ z ∈ x :: past, z.Tame d) (i : Nat) : releases (x :: past) i = 0 := by
  induction hrun with
  | start => rfl
  | @next x x' past hrun hnext ih =>
    have hvacated : x.world.engine.store.vacated x'.world.engine.store i = false := by
      obtain ⟨t, -, ht⟩ | ⟨w, call, answer, rfl, -, -, hengine, -⟩ := hnext.cases
      · obtain ⟨hclasses, hcontrol, hframes⟩ :=
          htame x (List.mem_cons_of_mem x' List.mem_cons_self)
        have hx : (x.atTime t).Tame d := ⟨hclasses, hcontrol, hframes⟩
        exact (hx.transition hpassive ht).2.vacated i
      · -- Between two calls the engine stays as it is.
        have hgrows : StoreGrows d x.world.engine.store w.engine.store := hengine ▸ .refl
        exact hgrows.vacated i
    rw [releases, ih fun z hz => htame z (List.mem_cons_of_mem x' hz), hvacated]
    rfl

/-- A call that returns from a tame moment continues the run, and stays tame. -/
theorem Run.exists_of_run (hrun : Run host x past) (hpassive : host.Passive)
    (hx : ∀ z ∈ x :: past, z.Tame d) (hreturns : x.run host fuel = some (.ok (w, reply))) :
    ∃ past', Run host ⟨w, .give reply, []⟩ past' ∧
      ∀ z ∈ ⟨w, .give reply, []⟩ :: past', z.Tame d := by
  induction fuel generalizing x past with
  | zero => cases hreturns
  | succ fuel ih =>
    unfold Execution.run at hreturns
    split at hreturns
    next x' hstep =>
      have htame := ((hx x List.mem_cons_self).transition hpassive (transition_of_step hstep)).1
      refine ih (hrun.next (.move x.world.now (Nat.le_refl _) hstep)) (fun z hz => ?_) hreturns
      rcases List.mem_cons.1 hz with rfl | hz
      · exact htame
      · exact hx z hz
    next hstep =>
      -- The call has returned, so the run has come to the answer already.
      cases hreturns
      rw [step_eq_finished_iff.1 hstep] at hrun hx
      exact ⟨past, hrun, hx⟩
    next => cases hreturns

/-- Tame calls that are all done are a run, which stays tame. -/
theorem Run.exists_of_carried (hrun : Run host ⟨w, .give reply, []⟩ past)
    (hpassive : host.Passive) (hx : ∀ z ∈ ⟨w, .give reply, []⟩ :: past, z.Tame d)
    (hcalls : ∀ call ∈ calls, call.TameFor d) (hcarried : Carried host w calls w') :
    ∃ reply' past', Run host ⟨w', .give reply', []⟩ past' ∧
      ∀ z ∈ ⟨w', .give reply', []⟩ :: past', z.Tame d := by
  induction hcarried generalizing past reply with
  | nil w => exact ⟨reply, past, hrun, hx⟩
  | @cons w w₁ w₂ call calls fuel hcall hrest ih =>
    -- The next call begins in the world in which the last one has returned.
    have hidle := hx _ List.mem_cons_self
    have hbegins : (ofCall w call : Execution σ ν).Tame d :=
      ⟨hidle.classes, hcalls call List.mem_cons_self, List.forall_mem_nil _⟩
    have hnext := hrun.next (.call w call rfl rfl (Nat.le_refl _))
    obtain ⟨past', hrun', hx'⟩ := hnext.exists_of_run hpassive (fun z hz => by
      rcases List.mem_cons.1 hz with rfl | hz
      · exact hbegins
      · exact hx z hz) hcall
    exact ih hrun' hx' fun call' hcall' => hcalls call' (List.mem_cons_of_mem call hcall')

/-! ## States that are entered -/

/-- In a run with few releases some live instance of the class comes to be in the state. -/
def Entered (d : Descriptor) (state : StateId) : Prop :=
  ∃ (σ ν : Type) (host : Host σ ν) (x : Execution σ ν) (past : List (Execution σ ν)) (h : Handle)
    (inst : Instance), Run host x past ∧ FewReleases (x :: past) ∧
      x.world.engine.get? h = some inst ∧ inst.descriptor = d ∧ inst.state = state

/-- The first call of a run may allocate an instance of any class. -/
theorem exists_tame_alloc (d : Descriptor) :
    ∃ (w : World Unit Unit) (past : List (Execution Unit Unit)) (h : Handle) (inst : Instance),
      Run passive ⟨w, .give (.allocated h), []⟩ past ∧
        (∀ z ∈ ⟨w, .give (.allocated h), []⟩ :: past, z.Tame d) ∧
        w.engine.get? h = some inst ∧ inst.descriptor = d ∧ inst.state = 0 := by
  obtain ⟨h, inst, e, halloc⟩ :=
    ({ config := {} } : Engine).exists_alloc Store.tidy_empty (by decide) d none none none
  obtain ⟨-, -, hclass, hinitial, -⟩ := Engine.alloc_cases halloc
  have hreturns : (ofCall (idle {} ()).world (.alloc d none none none)).run passive 2 =
      some (.ok ({ (idle {} ()).world with engine := e }.log (.about inst .allocated),
        .allocated h)) := by
    simp only [ofCall, idle, Execution.run, step, begin, beginAlloc, halloc, Execution.reply]
    rfl
  -- Before the call there are no instances, and the call is for the class.
  have hidle : (idle {} () : Execution Unit Unit).Tame d :=
    ⟨fun k a ha => by simp [idle] at ha, trivial, List.forall_mem_nil _⟩
  have hcalled : (ofCall (idle {} ()).world (.alloc d none none none)).Tame d :=
    ⟨hidle.classes, rfl, List.forall_mem_nil _⟩
  have hrun : Run passive (ofCall (idle {} ()).world (.alloc d none none none)) [idle {} ()] :=
    (run_idle {} ()).next (.call _ _ rfl rfl (Nat.le_refl _))
  obtain ⟨past, hrun', htame⟩ :=
    hrun.exists_of_run passive_passive (by simpa using ⟨hcalled, hidle⟩) hreturns
  exact ⟨_, past, h, inst, hrun', htame, Engine.get?_alloc_self halloc, hclass, hinitial⟩

/-- A state that is reachable in the table of a class is entered by the first instance of a fresh
engine whose hooks do nothing. -/
theorem entered_of_reaches (hreaches : d.Reaches state) : Entered d state := by
  obtain ⟨states, hmoves⟩ := exists_moves_of_leads hreaches
  obtain ⟨w, past, h, inst, hrun, htame, hlive, hclass, hinitial⟩ := exists_tame_alloc d
  obtain ⟨w', hcarried, hlive'⟩ := hmoves passive_passive hlive hclass hinitial
  -- The moves continue the run, and nothing is released by them.
  have hcalls : ∀ call ∈ moves h states, call.TameFor d := by
    intro call hcall
    obtain ⟨state, -, rfl⟩ := List.mem_map.1 hcall
    trivial
  obtain ⟨reply, past', hrun', htame'⟩ :=
    hrun.exists_of_carried passive_passive htame hcalls hcarried
  refine ⟨Unit, Unit, passive, _, past', h, _, hrun', fun i => ?_, hlive', hclass, rfl⟩
  rw [hrun'.releases_eq_zero passive_passive htame']
  decide

/-- The states that the instances of a class enter are those that are reachable in its table. -/
theorem entered_iff_reaches : Entered d state ↔ d.Reaches state := by
  constructor
  · rintro ⟨σ, ν, host, x, past, h, inst, hrun, hfew, hlive, rfl, rfl⟩
    exact hrun.reaches_state hfew hlive
  · exact entered_of_reaches

/-- Without the bound on the releases, which `Entered` includes, an instance may come to be in a
state that is not reachable in its table, nor even in the table. -/
theorem exists_not_reaches :
    ∃ (host : Host Unit Unit) (x : Execution Unit Unit) (past : List (Execution Unit Unit))
      (h : Handle) (inst : Instance), Run host x past ∧ NeverFrees past ∧
        x.world.engine.get? h = some inst ∧ ¬ inst.descriptor.Reaches inst.state := by
  obtain ⟨x, past, inst, hrun, hnever, -, -, hlive, hclass, hstate, -⟩ := exists_usurped .plain
  refine ⟨_, x, past, ⟨0, 0⟩, inst, hrun, hnever, hlive, fun hreaches => ?_⟩
  have hlt := hreaches.lt
  rw [hclass, hstate] at hlt
  exact absurd hlt (by decide)

end Execution

end StateMachines
