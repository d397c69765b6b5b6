import Mathlib.Data.Finset.Card
import Mathlib.Data.Finset.Image
import StateMachines.Proofs.Execution.Conclusion
import StateMachines.Proofs.Termination.Once

/-!
# Terminations that call for each other

The hooks that a termination runs may end any instance again: their own, their parent, or one whose
end is in progress further down the stack. Neither the links between the instances, which need not
form trees, nor the depth of the stack bounds such a nest of terminations. What does is the number
of live instances whose end has not begun. A termination that does anything at all marks one of
them, and no hook brings one into being.

## Main definitions

* `Script.OnlyEnds`, `Host.OnlyEnds`: hooks that do nothing but end instances.
* `Engine.Untouched`: the instance is live and its end has not begun.
* `Engine.Wanes`: the second engine holds nothing that the first one does not.
* `Execution.tellings`: the instances of whose end a parent is told.

## Main results

* `Execution.terminate_concludes`: a termination comes to an end, cleans up every instance at most
  once and tells of its end at most once.
-/

namespace StateMachines

variable {σ ν : Type}

/-! ## Hooks that end instances -/

/-- The script does nothing but end instances and leave notes. -/
inductive Script.OnlyEnds : Script σ ν → Prop where
  | done (env : σ) : OnlyEnds (.done env)
  | note (note : ν) {rest : Script σ ν} (hrest : OnlyEnds rest) : OnlyEnds (.note note rest)
  | call (target : Handle) (cause : Cause) (data : Option Payload) (env : σ)
      {next : Reply → Context σ → Script σ ν} (hnext : ∀ reply ctx, OnlyEnds (next reply ctx)) :
      OnlyEnds (.call (.terminate target cause data) env next)

/-- The hooks for events and for cleaning up do nothing but end instances. -/
structure Host.OnlyEnds (host : Host σ ν) : Prop where
  action : ∀ d h state event data ctx, (host.script d h (.action state event data) ctx).OnlyEnds
  allStates : ∀ d h event data ctx, (host.script d h (.allStates event data) ctx).OnlyEnds
  cleanup : ∀ d h cause ctx, (host.script d h (.cleanup cause) ctx).OnlyEnds

/-- The frame waits for the end of an instance, or for an operation that is part of one. -/
def Frame.OfEnds : Frame σ ν → Prop
  | .resume next => ∀ reply ctx, (next reply ctx).OnlyEnds
  | .answer _ | .cascade _ _ | .cleaning _ => True
  | _ => False

/-- What is to be done is to end an instance, or is part of that. -/
def Control.OfEnds : Control σ ν → Prop
  | .perform (.terminate _ _ _) | .perform (.dispatch _ _ _) | .give _ => True
  | .hook _ _ (.action _ _ _) | .hook _ _ (.allStates _ _) | .hook _ _ (.cleanup _) => True
  | .run script => script.OnlyEnds
  | _ => False

/-! ## Engines that lose instances -/

/-- An instance is an edit of itself. -/
theorem Instance.Edits.refl (a : Instance) : a.Edits a := ⟨.refl a, rfl, fun _ hc => hc⟩

/-- Edits compose. -/
theorem Instance.Edits.trans {a b c : Instance} (hab : a.Edits b) (hbc : b.Edits c) : a.Edits c :=
  ⟨hab.continues.trans hbc.continues, hbc.state_eq.trans hab.state_eq,
    fun k hk => hab.children_subset k (hbc.children_subset k hk)⟩

namespace Engine

variable {e e' e'' : Engine} {h k : Handle} {f : Instance → Instance} {s : Finset Handle}

/-- What is live in the second engine is an edit of what was live in the first one. -/
def Wanes (e e' : Engine) : Prop :=
  ∀ k b, e'.get? k = some b → ∃ a, e.get? k = some a ∧ a.Edits b

/-- An engine holds nothing that it does not hold. -/
theorem Wanes.refl (e : Engine) : e.Wanes e := fun _ b hb => ⟨b, hb, .refl b⟩

/-- Losses compose. -/
theorem Wanes.trans (he : e.Wanes e') (he' : e'.Wanes e'') : e.Wanes e'' := by
  intro k c hc
  obtain ⟨b, hb, hbc⟩ := he' k c hc
  obtain ⟨a, ha, hab⟩ := he k b hb
  exact ⟨a, ha, hab.trans hbc⟩

/-- An edit adds nothing. -/
theorem wanes_modify (hf : ∀ a : Instance, a.Edits (f a)) : e.Wanes (e.modify h f) := by
  intro k b hb
  obtain ⟨a, ha, ⟨-, hedit⟩ | ⟨-, hsame⟩⟩ := get?_of_get?_modify hb
  · exact ⟨a, ha, hedit ▸ hf a⟩
  · exact ⟨a, ha, hsame ▸ .refl a⟩

/-- A release adds nothing. -/
theorem wanes_free : e.Wanes (e.free h) :=
  fun _ b hb => ⟨b, (get?_of_get?_free hb).2, .refl b⟩

/-- The mark of an instance whose end has begun adds nothing. -/
theorem wanes_mark : e.Wanes (e.modify h ({ · with terminating := true })) :=
  wanes_modify fun _ => ⟨⟨rfl, rfl, rfl, fun _ => rfl⟩, rfl, fun _ hc => hc⟩

/-- The handle refers to an instance whose end has not begun. -/
def Untouched (e : Engine) (k : Handle) : Prop :=
  ∃ inst, e.get? k = some inst ∧ inst.terminating = false

instance : Decidable (e.Untouched k) :=
  decidable_of_iff ((e.get? k).any (!·.terminating) = true)
    (by simp [Untouched, Option.any_eq_true])

/-- What is untouched was so before. -/
theorem Wanes.untouched (he : e.Wanes e') (hk : e'.Untouched k) : e.Untouched k := by
  obtain ⟨b, hb, hactive⟩ := hk
  obtain ⟨a, ha, hedits⟩ := he k b hb
  refine ⟨a, ha, ?_⟩
  cases hmarked : a.terminating with
  | false => rfl
  | true => exact absurd (hedits.continues.terminating_of hmarked) (by simp [hactive])

/-- An instance whose end has begun is not untouched. -/
theorem not_untouched_mark : ¬ (e.modify h ({ · with terminating := true })).Untouched h := by
  rintro ⟨b, hb, hactive⟩
  rw [get?_modify_self, Option.map_eq_some_iff] at hb
  obtain ⟨a, -, rfl⟩ := hb
  cases hactive

/-- The states of all instances are in their tables, and the untouched instances are among the
given ones. -/
structure Bounded (s : Finset Handle) (e : Engine) : Prop where
  tables : ∀ h inst, e.get? h = some inst → inst.state < inst.descriptor.states.length
  untouched : ∀ k, e.Untouched k → k ∈ s

/-- An engine remains bounded while it loses instances. -/
theorem Bounded.of_wanes (hb : Bounded s e) (he : e.Wanes e') : Bounded s e' := by
  refine ⟨fun k b hlive => ?_, fun k hk => hb.untouched k (he.untouched hk)⟩
  obtain ⟨a, ha, hedits⟩ := he k b hlive
  rw [hedits.state_eq, hedits.continues.descriptor_eq]
  exact hb.tables k a ha

/-- An untouched instance is not among those that are left when its end has begun. -/
theorem Bounded.mark [DecidableEq Handle] (hb : Bounded s e) :
    Bounded (s.erase h) (e.modify h ({ · with terminating := true })) := by
  obtain ⟨htables, huntouched⟩ := hb.of_wanes (wanes_mark (h := h))
  refine ⟨htables, fun k hk => Finset.mem_erase.2 ⟨?_, huntouched k hk⟩⟩
  rintro rfl
  exact not_untouched_mark hk

/-- There are finitely many instances. -/
theorem exists_bounded
    (htables : ∀ h inst, e.get? h = some inst → inst.state < inst.descriptor.states.length) :
    ∃ s, Bounded s e := by
  -- In each slot only the handle of its present generation is live.
  refine ⟨(Finset.range e.store.slots.size).image fun i => ⟨i, e.store.generationAt i⟩, htables,
    fun k hk => ?_⟩
  obtain ⟨inst, hlive, -⟩ := hk
  have hslot := Store.get?_eq_some_iff.1 hlive
  refine Finset.mem_image.2 ⟨k.index, Finset.mem_range.2 (Store.index_lt_of_get? hlive), ?_⟩
  rw [Store.generationAt, hslot]
  rfl

end Engine

namespace Execution

variable {host : Host σ ν} {x x' start : Execution σ ν} {span hist : List (Execution σ ν)}
  {e : Engine}
  {s : Finset Handle} {w : World σ ν} {stack rest : List (Frame σ ν)} {frame : Frame σ ν}
  {h k : Handle} {cause : Cause} {data : Option Payload}

/-! ## The end of a termination -/

/-- As long as no more than the given instances are untouched, terminations come to an end. -/
def EndsAmong (host : Host σ ν) (s : Finset Handle) : Prop :=
  ∀ (w : World σ ν) (h : Handle) (cause : Cause) (data : Option Payload)
    (stack : List (Frame σ ν)) (hist : List (Execution σ ν)), w.engine.Bounded s →
      Concludes host stack (fun _ w' => w.engine.Wanes w'.engine) (fun _ _ => False) hist
        ⟨w, .perform (.terminate h cause data), stack⟩

/-- A termination comes to its end also in an engine that has lost instances. -/
theorem EndsAmong.terminate (hends : EndsAmong host s)
    (hb : e.Bounded s) (hw : e.Wanes w.engine) :
    Concludes host stack (fun _ w' => e.Wanes w'.engine) (fun _ _ => False) hist
      ⟨w, .perform (.terminate h cause data), stack⟩ :=
  (hends w h cause data stack hist (hb.of_wanes hw)).mono (fun _ _ => hw.trans) fun _ _ => id

/-- A script that only ends instances comes to its end if the terminations do. -/
theorem concludes_script {script : Script σ ν} (hends : EndsAmong host s) (hb : e.Bounded s)
    (hscript : script.OnlyEnds) (hw : e.Wanes w.engine) :
    Concludes host stack (fun _ w' => e.Wanes w'.engine) (fun _ _ => False) hist
      ⟨w, .run script, stack⟩ := by
  induction hscript generalizing w hist with
  | done env =>
    refine .of_busy (fun _ => nofun) (fun _ _ => nofun) fun t x' ht => ?_
    cases ht
    exact .returned hw
  | note note hrest ih =>
    refine .of_busy (fun _ => nofun) (fun _ _ => nofun) fun t x' ht => ?_
    cases ht
    exact ih hw
  | call target cause data env hnext ih =>
    refine .of_busy (fun _ => nofun) (fun _ _ => nofun) fun t x' ht => ?_
    cases ht
    refine .of_frame (hends.terminate hb hw) ?_
    -- The script goes on with the answer.
    intro hist' w' reply hw'
    refine .of_give (Nat.le_refl _) fun t x' ht => ?_
    cases ht with
    | resumes => exact ih _ _ hw'
    | closes hcloses => cases hcloses

/-- A hook that only ends instances returns if the terminations do. -/
theorem concludes_hook {d : Descriptor} {hook : Hook} (hends : EndsAmong host s)
    (hb : e.Bounded s) (hscript : ∀ ctx, (host.script d h hook ctx).OnlyEnds)
    (hw : e.Wanes w.engine) :
    Concludes host stack (fun _ w' => e.Wanes w'.engine) (fun _ _ => False) hist
      ⟨w, .hook d h hook, stack⟩ := by
  refine .of_busy (fun _ => nofun) (fun _ _ => nofun) fun t x' ht => ?_
  cases ht
  exact concludes_script hends hb (hscript _) hw

/-- A delivery to an instance in a state of its table returns if the terminations do. -/
theorem concludes_dispatch {event : EventId} (hhost : host.OnlyEnds)
    (hends : EndsAmong host s) (hb : e.Bounded s) (hw : e.Wanes w.engine) :
    Concludes host stack (fun _ w' => e.Wanes w'.engine) (fun _ _ => False) hist
      ⟨w, .perform (.dispatch h event data), stack⟩ := by
  refine .of_busy (fun _ => nofun)
    (fun _ _ => beginDispatch_ne_faulted ((hb.of_wanes hw).tables h)) fun t x' ht => ?_
  cases ht with
  | answered hanswers => cases hanswers <;> exact .returned hw
  | deliversAll hlive hall =>
    refine .of_frame (concludes_hook hends hb (hhost.allStates _ h event data) hw) ?_
    exact fun hist' w' reply hw' => .of_answer fun _ => hw'
  | delivers hlive hall haccepts =>
    refine .of_frame (concludes_hook hends hb (hhost.action _ h _ event data) hw) ?_
    exact fun hist' w' reply hw' => .of_answer fun _ => hw'

/-- After the hook for cleaning up a termination comes to its end if other ones do. -/
theorem concludes_cleaning {ending : Ending} {reply : Reply} (hhost : host.OnlyEnds)
    (hends : EndsAmong host s) (hb : e.Bounded s) (hw : e.Wanes w.engine) :
    Concludes host stack (fun _ w' => e.Wanes w'.engine) (fun _ _ => False) hist
      ⟨w, .give reply, .cleaning ending :: stack⟩ := by
  refine .of_give (Nat.le_refl _) fun t x' ht => ?_
  have hfree : e.Wanes (World.released { w with now := t } ending).engine := by
    rw [World.engine_released]
    exact hw.trans Engine.wanes_free
  cases ht with
  | closes hcloses =>
    cases hcloses
    exact .returned hfree
  | tells hparent hcause =>
    refine .of_frame (concludes_dispatch hhost hends hb hfree) ?_
    exact fun hist' w' reply hw' => .of_answer fun _ => hw'

/-- Taking an instance out of the children of its parent adds nothing. -/
theorem wanes_detached (w : World σ ν) (ending : Ending) :
    w.engine.Wanes (w.detached ending).engine := by
  unfold World.detached
  cases ending.parent with
  | none => exact .refl _
  | some parent =>
    exact Engine.wanes_modify fun a =>
      ⟨⟨rfl, rfl, rfl, id⟩, rfl, fun c hc => (List.mem_filter.1 hc).1⟩

/-- A termination that has turned to the children comes to its end if other ones do. -/
theorem concludes_cascade {ending : Ending} {reply : Reply} (hhost : host.OnlyEnds)
    (hends : EndsAmong host s) (hb : e.Bounded s) (children : List Handle)
    (hw : e.Wanes w.engine) :
    Concludes host stack (fun _ w' => e.Wanes w'.engine) (fun _ _ => False) hist
      ⟨w, .give reply, .cascade ending children :: stack⟩ := by
  induction children generalizing w reply hist with
  | nil =>
    refine .of_give (Nat.le_refl _) fun t x' ht => ?_
    cases ht with
    | closes hcloses => cases hcloses
    | cleans =>
      have hdetached := hw.trans (wanes_detached { w with now := t } ending)
      refine .of_frame (concludes_hook hends hb (hhost.cleanup _ _ _) hdetached) ?_
      exact fun hist' w' reply => concludes_cleaning hhost hends hb
  | cons child rest ih =>
    refine .of_give (Nat.le_refl _) fun t x' ht => ?_
    cases ht with
    | closes hcloses => cases hcloses
    | skipsChild hdead => exact ih hw
    | endsChild hlive =>
      refine .of_frame (hends.terminate hb hw) ?_
      exact fun hist' w' reply => ih

/-- Terminations come to an end, however many instances are untouched. -/
theorem endsAmong (hhost : host.OnlyEnds) (s : Finset Handle) : EndsAmong host s := by
  -- Induction on the instances that may be untouched: what a termination waits for finds one less.
  classical
  induction s using Finset.strongInduction with
  | H s ih =>
    intro w h cause data stack hist hb
    refine .of_busy (fun _ => nofun) (fun t fault => ?_) fun t x' ht => ?_
    · simp only [step, atTime, begin, beginEnd]
      split
      next => nofun
      next => split <;> nofun
    cases ht with
    | answered hanswers => cases hanswers <;> exact .returned (.refl _)
    | @ends _ _ _ _ inst _ hlive hactive =>
      have hmem := hb.untouched h ⟨inst, hlive, hactive⟩
      have hends := ih _ (Finset.erase_ssubset hmem)
      refine .mono (concludes_cascade hhost hends (hb.mark (h := h)) _ (.refl _))
        (fun hist' w' hw' => ?_) fun _ _ => id
      exact Engine.wanes_mark.trans hw'

/-! ## Moments of a termination -/

/-- The second stack is the first one with frames on top that wait for ends of instances. -/
inductive EndsAbove (stack : List (Frame σ ν)) : List (Frame σ ν) → Prop where
  | base : EndsAbove stack stack
  | push {frame : Frame σ ν} {rest : List (Frame σ ν)} (hframe : frame.OfEnds)
      (hrest : EndsAbove stack rest) : EndsAbove stack (frame :: rest)

/-- All that goes on above the given stack is to end instances. -/
structure OfEnds (stack : List (Frame σ ν)) (x : Execution σ ν) : Prop where
  control : x.control.OfEnds
  above : EndsAbove stack x.stack

/-- The instance of whose end the next step tells the parent, and the call by which it does so. -/
def telling? (x : Execution σ ν) : Option (Handle × Call) :=
  match x.control, x.stack with
  | .give _, .cleaning ending :: _ =>
    (notice ending.parent ending.parentEvent ending.cause ending.data).head?.map (ending.target, ·)
  | _, _ => none

/-- The instances of whose end a parent was told, and the calls, the latest first. -/
def tellings (hist : List (Execution σ ν)) : List (Handle × Call) := hist.filterMap telling?

/-- The delivery of an event that begins at a moment. -/
def delivery? (x : Execution σ ν) : Option Call :=
  match x.control with
  | .perform (.dispatch target event data) => some (.dispatch target event data)
  | _ => none

/-- The deliveries of events, the latest first. -/
def deliveries (hist : List (Execution σ ν)) : List Call := hist.filterMap delivery?

/-- The deliveries up to a moment are those that begin at it and those that began before. -/
theorem deliveries_cons : deliveries (x :: span) = x.delivery?.toList ++ deliveries span :=
  filterMap_cons_eq _ _ _

/-- Parents were told at the last moment or before. -/
theorem tellings_cons : tellings (x :: span) = x.telling?.toList ++ tellings span :=
  filterMap_cons_eq _ _ _

/-- An answer to an open call is given to a frame above the stack on which it was made. -/
theorem EndsAbove.pop (ha : EndsAbove stack (frame :: rest))
    (hopen : stack.length < (frame :: rest).length) : frame.OfEnds ∧ EndsAbove stack rest := by
  cases ha with
  | base => exact absurd hopen (Nat.lt_irrefl _)
  | push hframe hrest => exact ⟨hframe, hrest⟩

/-- A step above a stack on which instances are ended only goes on in this way. No instance comes to
be by it, and it delivers no event but those by which parents are told. -/
theorem Transition.ofEnds (ht : Transition host x x') (hhost : host.OnlyEnds) (hx : OfEnds stack x)
    (hopen : (∃ reply, x.control = .give reply) → stack.length < x.stack.length) :
    OfEnds stack x' ∧ x.world.engine.Wanes x'.world.engine ∧
      x'.delivery? = x.telling?.map (·.2) := by
  obtain ⟨hcontrol, ha⟩ := hx
  cases ht with
  | answered hanswers =>
    cases hanswers with
    | endless | ending | unheard | eventRefused => exact ⟨⟨trivial, ha⟩, .refl _, rfl⟩
    | _ => cases hcontrol
  | childRefused | leaves | fires => cases hcontrol
  | deliversAll | delivers => exact ⟨⟨trivial, .push trivial ha⟩, .refl _, rfl⟩
  | ends => exact ⟨⟨trivial, .push trivial ha⟩, Engine.wanes_mark, rfl⟩
  | @calls w d target hook stack' =>
    refine ⟨⟨?_, ha⟩, .refl _, rfl⟩
    cases hook with
    | action => exact hhost.action _ _ _ _ _ _
    | allStates => exact hhost.allStates _ _ _ _ _
    | cleanup => exact hhost.cleanup _ _ _ _
    | _ => cases hcontrol
  | scriptDone => exact ⟨⟨trivial, ha⟩, .refl _, rfl⟩
  | scriptNote =>
    cases hcontrol with
    | note note hrest => exact ⟨⟨hrest, ha⟩, .refl _, rfl⟩
  | scriptCall =>
    cases hcontrol with
    | call target cause data env hnext => exact ⟨⟨trivial, .push hnext ha⟩, .refl _, rfl⟩
  | resumes =>
    obtain ⟨hframe, hrest⟩ := ha.pop (hopen ⟨_, rfl⟩)
    exact ⟨⟨hframe _ _, hrest⟩, .refl _, rfl⟩
  | closes hcloses =>
    obtain ⟨hframe, hrest⟩ := ha.pop (hopen ⟨_, rfl⟩)
    cases hcloses with
    | answer => exact ⟨⟨trivial, hrest⟩, .refl _, rfl⟩
    | released hquiet =>
      refine ⟨⟨trivial, hrest⟩, ?_, ?_⟩
      · rw [World.engine_released]
        exact Engine.wanes_free
      · simp [delivery?, telling?, notice_of_quiet hquiet]
    | _ => cases hframe
  | enters | skipsTimer | expires => cases (ha.pop (hopen ⟨_, rfl⟩)).1
  | endsChild | skipsChild =>
    obtain ⟨-, hrest⟩ := ha.pop (hopen ⟨_, rfl⟩)
    exact ⟨⟨trivial, .push trivial hrest⟩, .refl _, rfl⟩
  | cleans =>
    obtain ⟨-, hrest⟩ := ha.pop (hopen ⟨_, rfl⟩)
    exact ⟨⟨trivial, .push trivial hrest⟩, wanes_detached _ _, rfl⟩
  | tells hparent hcause =>
    obtain ⟨-, hrest⟩ := ha.pop (hopen ⟨_, rfl⟩)
    refine ⟨⟨trivial, .push trivial hrest⟩, ?_, ?_⟩
    · rw [World.engine_released]
      exact Engine.wanes_free
    · simp [delivery?, telling?, hparent, notice_of_ne hcause]

/-! ## What is still to come -/

/-- The number of ends in progress of an instance that have not come to the hook for cleaning up. -/
def awaiting (k : Handle) (ends : List Teardown) : Nat :=
  ends.countP fun t => decide (t.ending.target = k) && t.children?.isSome

/-- An end that has not come to the hook is counted under its target. -/
theorem awaiting_some (ending : Ending) (children : List Handle) (ends : List Teardown) :
    awaiting k (⟨ending, some children⟩ :: ends) =
      awaiting k ends + if ending.target = k then 1 else 0 := by
  simp [awaiting, List.countP_cons]

/-- An end that has come to the hook is not counted. -/
theorem awaiting_none (ending : Ending) (ends : List Teardown) :
    awaiting k (⟨ending, none⟩ :: ends) = awaiting k ends := by
  simp [awaiting]

/-- How often the hook for cleaning up an instance can still be called: once if its end has not
begun, and once for each end of it that has not come to the hook. -/
def cleaningsDue (k : Handle) (x : Execution σ ν) : Nat :=
  (if x.world.engine.Untouched k then 1 else 0) + awaiting k x.teardowns

/-- How often a parent can still be told of the end of an instance: once if it has not begun, and
once for each end in progress. -/
def tellingsDue (k : Handle) (x : Execution σ ν) : Nat :=
  (if x.world.engine.Untouched k then 1 else 0) + x.targets.count k

/-- An instance is not counted as untouched more often than before. -/
theorem untouched_le (hw : x.world.engine.Wanes x'.world.engine) (k : Handle) :
    (if x'.world.engine.Untouched k then 1 else 0) ≤
      if x.world.engine.Untouched k then 1 else 0 := by
  split
  next hk => rw [if_pos (hw.untouched hk)]
  next => exact Nat.zero_le _

/-- An instance whose end begins was untouched and is so no longer. -/
theorem Next.untouched_of_begins {b : Cause × Option Payload} (hnext : Next host x x')
    (hbegins : begins? h x = some b) :
    x.world.engine.Untouched h ∧ ¬ x'.world.engine.Untouched h := by
  obtain ⟨hcontrol, inst, hlive, hactive⟩ := begins?_eq_some_iff.1 hbegins
  refine ⟨⟨inst, hlive, hactive⟩, ?_⟩
  obtain ⟨t, -, ht⟩ := hnext.of_perform hcontrol
  cases ht with
  | answered hanswers =>
    cases hanswers with
    | endless data hdead => cases hdead.symm.trans hlive
    | ending data hlive' hending =>
      cases hlive.symm.trans hlive'
      cases hactive.symm.trans hending
  | ends => exact Engine.not_untouched_mark

/-- When the end of an instance begins, it is untouched once less. -/
theorem Next.untouched_add_le {ending : Ending} (hnext : Next host x x')
    (hw : x.world.engine.Wanes x'.world.engine)
    (hbegins : ∀ h, begins? h x =
      if ending.target = h then some (ending.cause, ending.data) else none) :
    ((if x'.world.engine.Untouched k then 1 else 0) + if ending.target = k then 1 else 0) ≤
      if x.world.engine.Untouched k then 1 else 0 := by
  by_cases htarget : ending.target = k
  · obtain ⟨hbefore, hafter⟩ := hnext.untouched_of_begins ((hbegins k).trans (if_pos htarget))
    rw [if_pos hbefore, if_neg hafter, if_pos htarget]
  · rw [if_neg htarget]
    exact untouched_le hw k

/-- A call of the hook for cleaning up was due before. -/
theorem Next.cleaningsDue (hnext : Next host x x') (hw : x.world.engine.Wanes x'.world.engine)
    (k : Handle) :
    (cleanup? k x').toList.length + x'.cleaningsDue k ≤ x.cleaningsDue k := by
  have hle := untouched_le hw k
  unfold Execution.cleaningsDue
  cases hnext.endStep with
  | keeps hbegins hcleanup hends =>
    rw [hcleanup, hends, Option.toList_none, List.length_nil]
    omega
  | begins ending children hbegins hcleanup hends =>
    have hadd := hnext.untouched_add_le (k := k) hw hbegins
    rw [hcleanup, hends, awaiting_some, Option.toList_none, List.length_nil]
    omega
  | turns ending children rest outer hbegins hcleanup hbefore hafter =>
    rw [hcleanup, hbefore, hafter, awaiting_some, awaiting_some, Option.toList_none,
      List.length_nil]
    omega
  | cleans ending children outer hbegins hcleanup hbefore hafter =>
    have hcalled : (cleanup? k x').toList.length = if ending.target = k then 1 else 0 := by
      rw [hcleanup]
      split <;> rfl
    rw [hcalled, hbefore, hafter, awaiting_some, awaiting_none]
    omega
  | releases ending hbegins hcleanup hends hdead =>
    rw [hcleanup, hends, awaiting_none, Option.toList_none, List.length_nil]
    omega

/-- The instance of whose end the parent is told is the target of the innermost end in progress,
which is over then. -/
theorem Next.targets_of_telling {call : Call} (hnext : Next host x x')
    (htelling : x.telling? = some (h, call)) : x.targets = h :: x'.targets := by
  unfold telling? at htelling
  split at htelling
  next reply ending rest hcontrol hstack =>
    obtain ⟨-, hgoes⟩ := hnext.of_cleaning ⟨reply, hcontrol⟩ hstack
    rw [Option.map_eq_some_iff] at htelling
    obtain ⟨_, -, heq⟩ := htelling
    cases heq
    rcases hgoes with ⟨-, -, hstack'⟩ | ⟨parent, -, -, -, hstack'⟩
    · rw [targets, targets, teardowns, teardowns, hstack, hstack']
      rfl
    · rw [targets, targets, teardowns, teardowns, hstack, hstack']
      rfl
  next => cases htelling

/-- Telling a parent was due before. -/
theorem Next.tellingsDue (hnext : Next host x x') (hw : x.world.engine.Wanes x'.world.engine)
    (k : Handle) :
    (x.telling?.toList.map (·.1)).count k + x'.tellingsDue k ≤ x.tellingsDue k := by
  have hle := untouched_le hw k
  unfold Execution.tellingsDue
  cases htelling : x.telling? with
  | some told =>
    rw [hnext.targets_of_telling htelling, List.count_cons, Option.toList_some, List.map_singleton,
      List.count_singleton]
    omega
  | none =>
    rw [Option.toList_none, List.map_nil, List.count_nil, targets, targets]
    cases hnext.endStep with
    | keeps hbegins hcleanup hends =>
      rw [hends]
      omega
    | begins ending children hbegins hcleanup hends =>
      have hadd := hnext.untouched_add_le (k := k) hw hbegins
      rw [hends, List.map_cons, List.count_cons]
      simp only [beq_iff_eq]
      omega
    | turns ending children rest outer hbegins hcleanup hbefore hafter =>
      rw [hbefore, hafter, Nat.zero_add]
      exact Nat.add_le_add_right hle _
    | cleans ending children outer hbegins hcleanup hbefore hafter =>
      rw [hbefore, hafter, Nat.zero_add]
      exact Nat.add_le_add_right hle _
    | releases ending hbegins hcleanup hends hdead =>
      rw [hends, List.map_cons, List.count_cons]
      omega

/-! ## Terminations are bounded -/

/-- What a call that ends instances has done so far, compared with what was due when it was made. -/
structure Spent (start x : Execution σ ν) (span : List (Execution σ ν)) : Prop where
  /-- Instances are ended above the stack of the call. -/
  ofEnds : OfEnds start.stack x
  /-- No instance has come to be. -/
  wanes : start.world.engine.Wanes x.world.engine
  /-- No event was delivered but to tell parents. -/
  deliveries_eq : deliveries (x :: span) = (tellings span).map (·.2)
  /-- The hooks for cleaning up that were called were due. -/
  cleanings : ∀ k, (cleanups k (x :: span)).length + x.cleaningsDue k ≤ start.cleaningsDue k
  /-- The parents that were told were to be told. -/
  tellings : ∀ k, ((tellings span).map (·.1)).count k + x.tellingsDue k ≤ start.tellingsDue k

/-- A step of an open call spends what was due. -/
theorem Spent.next (hs : Spent start x span) (hhost : host.OnlyEnds) (hopen : ¬ start.Returned x)
    (hnext : Next host x x') : Spent start x' (x :: span) := by
  have hlow : (∃ reply, x.control = .give reply) → start.stack.length < x.stack.length :=
    fun hgive => Nat.lt_of_not_le fun hle => hopen ⟨hgive, hle⟩
  obtain ⟨t, -, ht⟩ | ⟨w, call, answer, rfl, hcontrol, hstack, -⟩ := hnext.cases
  · obtain ⟨hx', hw, hdelivers⟩ := ht.ofEnds hhost ⟨hs.ofEnds.control, hs.ofEnds.above⟩ hlow
    refine ⟨hx', hs.wanes.trans hw, ?_, fun k => ?_, fun k => ?_⟩
    · rw [deliveries_cons, tellings_cons, List.map_append, hs.deliveries_eq, hdelivers]
      exact congrArg (· ++ _) Option.toList_map
    · have hspent := hs.cleanings k
      have hdue := hnext.cleaningsDue hw k
      rw [cleanups_cons, List.length_append]
      omega
    · have hspent := hs.tellings k
      have hdue := hnext.tellingsDue hw k
      rw [tellings_cons, List.map_append, List.count_append]
      omega
  · exact absurd ⟨⟨answer, hcontrol⟩, by simp [hstack]⟩ hopen

/-- A termination spends what is due when it is made. -/
theorem Spans.spent (hspan : Spans host start x span) (hhost : host.OnlyEnds)
    (hcall : start.control = .perform (.terminate h cause data)) : Spent start x span := by
  induction hspan with
  | start =>
    refine ⟨⟨by rw [hcall]; trivial, .base⟩, .refl _, ?_, fun k => ?_, fun k => ?_⟩
    · simp [deliveries, delivery?, hcall, Execution.tellings]
    · simp [cleanups, cleanup?, hcall]
    · simp [Execution.tellings]
  | next hspan hopen hnext ih => exact ih.next hhost hopen hnext

/-- The hooks for events and for cleaning up may end whatever instances they like. In every engine
whose instances are in states of their tables, a termination comes to its end all the same, however
the instances are linked. Meanwhile it calls the hook for cleaning up an instance at most once, and
the parent of an instance is told of its end at most once. Both happen only to instances that were
live at the beginning and whose end had not begun then, and no other events are delivered. -/
theorem terminate_concludes (hhost : host.OnlyEnds) (w : World σ ν)
    (htables : ∀ h inst, w.engine.get? h = some inst →
      inst.state < inst.descriptor.states.length)
    (h : Handle) (cause : Cause) (data : Option Payload) (stack : List (Frame σ ν)) :
    Concludes host stack (fun _ w' => w.engine.Wanes w'.engine) (fun _ _ => False) []
      ⟨w, .perform (.terminate h cause data), stack⟩ ∧
    ∀ x span, Spans host ⟨w, .perform (.terminate h cause data), stack⟩ x span →
      deliveries (x :: span) = (tellings span).map (·.2) ∧
      ∀ k, (cleanups k (x :: span)).length ≤ (if w.engine.Untouched k then 1 else 0) ∧
        ((tellings span).map (·.1)).count k ≤ if w.engine.Untouched k then 1 else 0 := by
  constructor
  · obtain ⟨s, hs⟩ := Engine.exists_bounded htables
    exact endsAmong hhost s w h cause data stack [] hs
  · intro x span hspan
    have hspent := hspan.spent hhost rfl
    -- The ends that were in progress at the beginning still are.
    have hends : (stack.filterMap Frame.teardown?).Sublist x.teardowns :=
      hspan.suffix.sublist.filterMap _
    refine ⟨hspent.deliveries_eq, fun k => ⟨?_, ?_⟩⟩
    · have hdue := hspent.cleanings k
      have hawait : awaiting k (stack.filterMap Frame.teardown?) ≤ awaiting k x.teardowns :=
        hends.countP_le
      unfold cleaningsDue teardowns at hdue
      unfold teardowns at hawait
      dsimp only at hdue
      omega
    · have hdue := hspent.tellings k
      have hcount := (hends.map (·.ending.target)).count_le k
      unfold tellingsDue targets teardowns at hdue
      unfold teardowns at hcount
      dsimp only at hdue
      omega

/-- Every hook ends the first two instances. -/
def zealot : Host Unit Unit where
  script _ _ _ _ :=
    .call (.terminate ⟨0, 0⟩ .failure none) () fun _ _ =>
      .call (.terminate ⟨1, 0⟩ .request none) () fun _ _ => .done ()

/-- Two instances, each of which is the parent and a child of the other. The first one also lists a
child that is gone. -/
def tangled : Engine where
  config := { logAddr := false }
  store :=
    { slots :=
        #[⟨0, some { descriptor := .fork, name := "A", level := .debug, parent := some ⟨1, 0⟩
                     children := [⟨1, 0⟩, ⟨4, 2⟩, ⟨1, 0⟩] }⟩,
          ⟨0, some { descriptor := .fork, name := "B", level := .debug, parent := some ⟨0, 0⟩
                     children := [⟨0, 0⟩] }⟩] }

/-- The two instances end each other, and each of them is cleaned up at most once. -/
theorem tangled_concludes :
    Concludes zealot [] (fun _ w' => tangled.Wanes w'.engine) (fun _ _ => False) []
      ⟨{ engine := tangled, now := 0, env := () }, .perform (.terminate ⟨0, 0⟩ .regular none), []⟩ ∧
    ∀ x span, Spans zealot
        ⟨{ engine := tangled, now := 0, env := () }, .perform (.terminate ⟨0, 0⟩ .regular none),
          []⟩ x span →
      deliveries (x :: span) = (tellings span).map (·.2) ∧
      ∀ k, (cleanups k (x :: span)).length ≤ (if tangled.Untouched k then 1 else 0) ∧
        ((tellings span).map (·.1)).count k ≤ if tangled.Untouched k then 1 else 0 := by
  have hscript : ∀ d h hook ctx, (zealot.script d h hook ctx).OnlyEnds := fun d h hook ctx =>
    .call _ _ _ _ fun _ _ => .call _ _ _ _ fun _ _ => .done ()
  have htables : ∀ h inst, tangled.get? h = some inst →
      inst.state < inst.descriptor.states.length := by
    have hslots : ∀ slot ∈ tangled.store.slots, slot.occupant.all fun inst =>
        decide (inst.state < inst.descriptor.states.length) := by
      decide
    intro h inst hlive
    have hslot := Array.mem_of_getElem? (Store.get?_eq_some_iff.1 hlive)
    exact of_decide_eq_true (hslots _ hslot)
  exact terminate_concludes ⟨fun d h _ _ _ => hscript d h _, fun d h _ _ => hscript d h _,
    fun d h _ => hscript d h _⟩ { engine := tangled, now := 0, env := () } htables _ _ _ _

end Execution

end StateMachines
