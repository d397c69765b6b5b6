import StateMachines.Proofs.Execution.Session
import StateMachines.Proofs.Termination.Course
import StateMachines.Proofs.Termination.Order

/-!
# Every instance is ended once

Several terminations of one instance may be open at a time: siblings end each other, a parent meets
a child that is being ended already, a hook for cleaning up ends its own instance. Only the first of
them finds the instance live and its end not begun, and it is that one which cleans the instance up,
with its own cause, and tells the parent, with its own data.

The end of an instance goes through stages. It has not begun, or it is in progress before or after
the hook for cleaning up was called, or the instance is gone. Each stage fixes how often the end was
begun and how often the hook was called; a step leaves an instance in its stage or takes it to the
next one.

## Main definitions

* `Execution.begun`: the terminations that have begun the end of an instance.
* `Execution.cleanups`: the calls of the hook for cleaning up an instance.
* `Execution.Stage`: how far the end of an instance has got.

## Main results

* `Execution.Run.stage`: every instance is in one of the stages.
* `Execution.Run.ended_once`: when an outermost call has returned, every instance that has died was
  ended once, and no other one was.
-/

namespace StateMachines.Execution

variable {σ ν : Type} {host : Host σ ν} {x x' y z : Execution σ ν}
  {past before after hist : List (Execution σ ν)} {h p : Handle} {inst : Instance} {cause : Cause}
  {data : Option Payload} {t : Teardown}

/-! ## Beginnings and cleanings -/

/-- The cause and the data with which the end of an instance is called for at a moment, if the
instance is live then and its end has not begun. -/
def begins? (h : Handle) (x : Execution σ ν) : Option (Cause × Option Payload) :=
  match x.control with
  | .perform (.terminate target cause data) =>
    if target = h ∧ (x.world.engine.get? target).any (!·.terminating) then some (cause, data)
    else none
  | _ => none

/-- The causes and the data of the calls that have begun the end of an instance, the latest
first. -/
def begun (h : Handle) (hist : List (Execution σ ν)) : List (Cause × Option Payload) :=
  hist.filterMap (begins? h)

/-- The cause with which the hook for cleaning up an instance is called at a moment. -/
def cleanup? (h : Handle) (x : Execution σ ν) : Option Cause :=
  match x.control with
  | .hook _ target (.cleanup cause) => if target = h then some cause else none
  | _ => none

/-- The causes with which the hook for cleaning up an instance was called, the latest first. -/
def cleanups (h : Handle) (hist : List (Execution σ ν)) : List Cause :=
  hist.filterMap (cleanup? h)

/-- The moments at which the end of an instance begins. -/
theorem begins?_eq_some_iff : begins? h x = some (cause, data) ↔
    x.control = .perform (.terminate h cause data) ∧
      ∃ inst, x.world.engine.get? h = some inst ∧ inst.terminating = false := by
  unfold begins?
  split
  next target cause' data' hcontrol =>
    rw [hcontrol]
    simp only [Option.any_eq_true, Bool.not_eq_true', Option.ite_none_right_eq_some,
      Option.some.injEq, Prod.mk.injEq, Control.perform.injEq, Call.terminate.injEq]
    constructor
    · rintro ⟨⟨rfl, hinst⟩, rfl, rfl⟩
      exact ⟨⟨rfl, rfl, rfl⟩, hinst⟩
    · rintro ⟨⟨rfl, rfl, rfl⟩, hinst⟩
      exact ⟨⟨rfl, hinst⟩, rfl, rfl⟩
  next hcontrol =>
    constructor
    · nofun
    · rintro ⟨hcall, -⟩
      exact absurd hcall (hcontrol h cause data)

/-- The end of an instance was begun at the last moment or before. -/
theorem begun_cons : begun h (x :: hist) = (begins? h x).toList ++ begun h hist :=
  filterMap_cons_eq _ _ _

/-- The hook for cleaning up was called at the last moment or before. -/
theorem cleanups_cons : cleanups h (x :: hist) = (cleanup? h x).toList ++ cleanups h hist :=
  filterMap_cons_eq _ _ _

/-! ## Steps -/

/-- What a step does to the ends in progress, and to which end it belongs. -/
inductive EndStep (x x' : Execution σ ν) : Prop where
  /-- The same ends are in progress. -/
  | keeps (hbegins : ∀ h, begins? h x = none) (hcleanup : ∀ h, cleanup? h x' = none)
      (hends : x'.teardowns = x.teardowns)
  /-- The end of an instance begins. -/
  | begins (ending : Ending) (children : List Handle)
      (hbegins : ∀ h, begins? h x =
        if ending.target = h then some (ending.cause, ending.data) else none)
      (hcleanup : ∀ h, cleanup? h x' = none)
      (hends : x'.teardowns = ⟨ending, some children⟩ :: x.teardowns)
  /-- The end of an instance turns to its next child. -/
  | turns (ending : Ending) (children rest : List Handle) (outer : List Teardown)
      (hbegins : ∀ h, begins? h x = none) (hcleanup : ∀ h, cleanup? h x' = none)
      (hbefore : x.teardowns = ⟨ending, some children⟩ :: outer)
      (hafter : x'.teardowns = ⟨ending, some rest⟩ :: outer)
  /-- The hook for cleaning up an instance is called. -/
  | cleans (ending : Ending) (children : List Handle) (outer : List Teardown)
      (hbegins : ∀ h, begins? h x = none)
      (hcleanup : ∀ h, cleanup? h x' = if ending.target = h then some ending.cause else none)
      (hbefore : x.teardowns = ⟨ending, some children⟩ :: outer)
      (hafter : x'.teardowns = ⟨ending, none⟩ :: outer)
  /-- An instance that has been cleaned up is released. -/
  | releases (ending : Ending) (hbegins : ∀ h, begins? h x = none)
      (hcleanup : ∀ h, cleanup? h x' = none)
      (hends : x.teardowns = ⟨ending, none⟩ :: x'.teardowns)
      (hdead : x'.world.engine.get? ending.target = none)

/-- A call that is answered at once begins no end. -/
theorem begins?_of_answers {w w' : World σ ν} {call : Call} {reply : Reply}
    {stack : List (Frame σ ν)} (ha : w.Answers call w' reply) (h : Handle) :
    begins? h (⟨w, .perform call, stack⟩ : Execution σ ν) = none := by
  cases ha with
  | endless data hdead => simp [begins?, hdead]
  | ending data hlive hending => simp [begins?, hlive, hending]
  | _ => rfl

/-- What an operation that ends at once does to the ends in progress. -/
theorem endStep_of_closes {w w' : World σ ν} {frame : Frame σ ν} {answer reply : Reply}
    {stack : List (Frame σ ν)} (hc : w.Closes frame w' reply) :
    EndStep (⟨w, .give answer, frame :: stack⟩ : Execution σ ν) ⟨w', .give reply, stack⟩ := by
  cases hc with
  | released hquiet =>
    refine .releases _ (fun _ => rfl) (fun _ => rfl) rfl ?_
    rw [World.engine_released]
    exact Engine.get?_free_self
  | _ => exact .keeps (fun _ => rfl) (fun _ => rfl) rfl

/-- The list of steps is complete. -/
theorem Transition.endStep (ht : Transition host x x') : EndStep x x' := by
  cases ht with
  | answered hanswers => exact .keeps (begins?_of_answers hanswers) (fun _ => rfl) rfl
  | closes hcloses => exact endStep_of_closes hcloses
  | @ends w target cause data inst stack hlive hactive =>
    refine .begins ⟨target, inst.descriptor, cause, data, inst.parent, inst.parentEvent⟩
      inst.children (fun h => ?_) (fun _ => rfl) rfl
    simp [begins?, hlive, hactive]
  | endsChild | skipsChild => exact .turns _ _ _ _ (fun _ => rfl) (fun _ => rfl) rfl rfl
  | cleans => exact .cleans _ _ _ (fun _ => rfl) (fun _ => rfl) rfl rfl
  | tells =>
    refine .releases _ (fun _ => rfl) (fun _ => rfl) rfl ?_
    rw [World.engine_released]
    exact Engine.get?_free_self
  | _ => exact .keeps (fun _ => rfl) (fun _ => rfl) rfl

/-- From one moment to the next the ends in progress change as by a step. -/
theorem Next.endStep (hnext : Next host x x') : EndStep x x' := by
  obtain ⟨t, -, ht⟩ | ⟨w, call, answer, rfl, hcontrol, hstack, -⟩ := hnext.cases
  · -- The time at which the step is taken does not matter.
    cases ht.endStep with
    | keeps hbegins hcleanup hends => exact .keeps hbegins hcleanup hends
    | begins ending children hbegins hcleanup hends =>
      exact .begins ending children hbegins hcleanup hends
    | turns ending children rest outer hbegins hcleanup hbefore hafter =>
      exact .turns ending children rest outer hbegins hcleanup hbefore hafter
    | cleans ending children outer hbegins hcleanup hbefore hafter =>
      exact .cleans ending children outer hbegins hcleanup hbefore hafter
    | releases ending hbegins hcleanup hends hdead =>
      exact .releases ending hbegins hcleanup hends hdead
  · refine .keeps (fun h => ?_) (fun h => rfl) ?_
    · simp [begins?, hcontrol]
    · simp [teardowns, ofCall, hstack]

/-- A handle under which nothing is being ended is left alone by a step, or its end begins. -/
theorem EndStep.of_not_mem (hs : EndStep x x') (hnot : h ∉ x.targets) :
    begins? h x = none ∧ cleanup? h x' = none ∧ h ∉ x'.targets ∨
      ∃ ending children, ending.target = h ∧ begins? h x = some (ending.cause, ending.data) ∧
        cleanup? h x' = none ∧ ⟨ending, some children⟩ ∈ x'.teardowns := by
  cases hs with
  | keeps hbegins hcleanup hends =>
    refine .inl ⟨hbegins h, hcleanup h, ?_⟩
    rwa [targets, hends]
  | begins ending children hbegins hcleanup hends =>
    by_cases htarget : ending.target = h
    · refine .inr ⟨ending, children, htarget, ?_, hcleanup h, ?_⟩
      · rw [hbegins, if_pos htarget]
      · rw [hends]
        exact List.mem_cons_self
    · refine .inl ⟨?_, hcleanup h, ?_⟩
      · rw [hbegins, if_neg htarget]
      · rw [targets, hends, List.map_cons, List.mem_cons]
        rintro (heq | hmem)
        · exact htarget heq.symm
        · exact hnot hmem
  | turns ending children rest outer hbegins hcleanup hbefore hafter =>
    refine .inl ⟨hbegins h, hcleanup h, ?_⟩
    rw [targets, hbefore] at hnot
    rwa [targets, hafter]
  | cleans ending children outer hbegins hcleanup hbefore hafter =>
    rw [targets, hbefore, List.map_cons, List.mem_cons, not_or] at hnot
    refine .inl ⟨hbegins h, ?_, ?_⟩
    · rw [hcleanup, if_neg (Ne.symm hnot.1)]
    · rw [targets, hafter, List.map_cons, List.mem_cons, not_or]
      exact hnot
  | releases ending hbegins hcleanup hends hdead =>
    refine .inl ⟨hbegins h, hcleanup h, ?_⟩
    rw [targets, hends, List.map_cons, List.mem_cons, not_or] at hnot
    exact hnot.2

/-- An end in progress remains so by a step, or it calls its hook for cleaning up, or it releases
its target. -/
theorem EndStep.of_mem (hs : EndStep x x') (ho : x.Orderly) (ht : t ∈ x.teardowns) :
    begins? t.ending.target x = none ∧
      (cleanup? t.ending.target x' = none ∧
          (∃ t' ∈ x'.teardowns, t'.ending = t.ending ∧
            t'.children?.isSome = t.children?.isSome) ∨
        t.children?.isSome = true ∧ cleanup? t.ending.target x' = some t.ending.cause ∧
          ⟨t.ending, none⟩ ∈ x'.teardowns ∨
        t.children? = none ∧ cleanup? t.ending.target x' = none ∧
          x'.world.engine.get? t.ending.target = none) := by
  constructor
  · -- The target is marked, so its end does not begin again.
    cases hbegins : begins? t.ending.target x with
    | none => rfl
    | some begins =>
      obtain ⟨-, inst, hlive, hactive⟩ := begins?_eq_some_iff.1 hbegins
      obtain ⟨a, ha, hmarked⟩ := ho.marked_of_ending (List.mem_map_of_mem ht)
      cases hlive.symm.trans ha
      cases hactive.symm.trans hmarked
  · cases hs with
    | keeps hbegins hcleanup hends => exact .inl ⟨hcleanup _, t, hends ▸ ht, rfl, rfl⟩
    | begins ending children hbegins hcleanup hends =>
      exact .inl ⟨hcleanup _, t, hends ▸ List.mem_cons_of_mem _ ht, rfl, rfl⟩
    | turns ending children rest outer hbegins hcleanup hbefore hafter =>
      rw [hbefore] at ht
      rcases List.mem_cons.1 ht with rfl | ht
      · exact .inl ⟨hcleanup _, ⟨ending, some rest⟩, hafter ▸ List.mem_cons_self, rfl, rfl⟩
      · exact .inl ⟨hcleanup _, t, hafter ▸ List.mem_cons_of_mem _ ht, rfl, rfl⟩
    | cleans ending children outer hbegins hcleanup hbefore hafter =>
      have hnodup := ho.nodup
      rw [targets, hbefore, List.map_cons, List.nodup_cons] at hnodup
      rw [hbefore] at ht
      rcases List.mem_cons.1 ht with rfl | ht
      · refine .inr (.inl ⟨rfl, ?_, hafter ▸ List.mem_cons_self⟩)
        rw [hcleanup, if_pos rfl]
      · -- No other end in progress has this target.
        have hne : ending.target ≠ t.ending.target := fun heq =>
          hnodup.1 (heq ▸ List.mem_map_of_mem ht)
        refine .inl ⟨?_, t, hafter ▸ List.mem_cons_of_mem _ ht, rfl, rfl⟩
        rw [hcleanup, if_neg hne]
    | releases ending hbegins hcleanup hends hdead =>
      rw [hends] at ht
      rcases List.mem_cons.1 ht with rfl | ht
      · exact .inr (.inr ⟨rfl, hcleanup _, hdead⟩)
      · exact .inl ⟨hcleanup _, t, ht, rfl, rfl⟩

/-! ## Stages -/

/-- How far the end of an instance has got at the moment `x`, the last one of `hist`, with the
terminations that have begun it and the causes with which the hook for cleaning up was called. -/
inductive Stage (x : Execution σ ν) (hist : List (Execution σ ν)) (h : Handle) :
    List (Cause × Option Payload) → List Cause → Prop where
  /-- The end has not begun, and the instance has not died. -/
  | idle (hnot : h ∉ x.targets)
      (hnew : x.world.engine.get? h = none → ∀ y ∈ hist, y.world.engine.get? h = none) :
      Stage x hist h [] []
  /-- The end has begun, and the instance is not being cleaned up yet. -/
  | ending (t : Teardown) (ht : t ∈ x.teardowns) (htarget : t.ending.target = h)
      (hchildren : t.children?.isSome = true) :
      Stage x hist h [(t.ending.cause, t.ending.data)] []
  /-- The instance is being cleaned up. -/
  | cleaning (t : Teardown) (ht : t ∈ x.teardowns) (htarget : t.ending.target = h)
      (hchildren : t.children?.isSome = false) :
      Stage x hist h [(t.ending.cause, t.ending.data)] [t.ending.cause]
  /-- The instance has died. -/
  | gone (cause : Cause) (data : Option Payload) (hdead : x.world.engine.get? h = none)
      (hsome : ∃ y ∈ hist, ∃ inst, y.world.engine.get? h = some inst) :
      Stage x hist h [(cause, data)] [cause]

/-- Without direct releases only instances that are being ended die. -/
theorem Run.mem_targets_of_released (hrun : Run host x past) (hnext : Next host x x')
    (hnever : NeverFrees (x :: past)) (hlive : x.world.engine.get? h = some inst)
    (hdead : x'.world.engine.get? h = none) : h ∈ x.targets := by
  obtain ⟨-, ending, rest, hstack, rfl⟩ :=
    (hnext.treeStep hrun.tidy).cleaning_of_released (hnever x List.mem_cons_self)
      (Engine.links?_eq_some_iff.2 ⟨inst, hlive, rfl⟩) (Engine.links?_eq_none_iff.2 hdead)
  rw [targets, teardowns, hstack]
  exact List.mem_cons_self

/-- A step leaves an instance in its stage, or takes it to the next one. -/
theorem Run.stage_next {begins : List (Cause × Option Payload)} {causes : List Cause}
    (hrun : Run host x past) (hnext : Next host x x') (hnever : NeverFrees (x :: past))
    (hfew : FewReleases (x' :: x :: past)) (hstage : Stage x (x :: past) h begins causes) :
    Stage x' (x' :: x :: past) h ((begins? h x).toList ++ begins)
      ((cleanup? h x').toList ++ causes) := by
  have ho := hrun.orderly hnever.of_cons.freesOrderly
  have hs := hnext.endStep
  -- What the step adds to the two lists depends on whether the instance is being ended at `x`.
  cases hstage with
  | idle hnot hnew =>
    rcases hs.of_not_mem hnot with ⟨hbegins, hcleanup, hnot'⟩ | ⟨ending, children, rfl, hbegins,
      hcleanup, ht⟩
    · rw [hbegins, hcleanup]
      refine .idle hnot' ?_
      intro hdead
      have hdead' : x.world.engine.get? h = none := by
        cases hlive : x.world.engine.get? h with
        | none => rfl
        | some inst => exact absurd (hrun.mem_targets_of_released hnext hnever hlive hdead) hnot
      intro y hy
      rcases List.mem_cons.1 hy with rfl | hy
      · exact hdead
      · exact hnew hdead' y hy
    · rw [hbegins, hcleanup]
      exact .ending ⟨ending, some children⟩ ht rfl rfl
  | ending t ht htarget hchildren =>
    subst htarget
    obtain ⟨hbegins, ⟨hcleanup, t', ht', heq, hsame⟩ | ⟨-, hcleanup, ht'⟩ | ⟨hnone, -, -⟩⟩ :=
      hs.of_mem ho ht
    · rw [hbegins, hcleanup, ← heq]
      exact .ending t' ht' rfl (hsame.trans hchildren)
    · rw [hbegins, hcleanup]
      exact .cleaning ⟨t.ending, none⟩ ht' rfl rfl
    · rw [hnone] at hchildren
      cases hchildren
  | cleaning t ht htarget hchildren =>
    subst htarget
    obtain ⟨hbegins, ⟨hcleanup, t', ht', heq, hsame⟩ | ⟨hsome, -, -⟩ | ⟨-, hcleanup, hdead⟩⟩ :=
      hs.of_mem ho ht
    · rw [hbegins, hcleanup, ← heq]
      exact .cleaning t' ht' rfl (hsame.trans hchildren)
    · cases hchildren.symm.trans hsome
    · rw [hbegins, hcleanup]
      obtain ⟨a, ha, -⟩ := ho.marked_of_ending (List.mem_map_of_mem ht)
      exact .gone _ _ hdead ⟨x, List.mem_cons_of_mem x' List.mem_cons_self, a, ha⟩
  | gone cause data hdead hsome =>
    have hnot : h ∉ x.targets := by
      intro hmem
      obtain ⟨l, hl, -⟩ := ho.of_mem_targets hmem
      obtain ⟨a, ha, -⟩ := Engine.links?_eq_some_iff.1 hl
      cases ha.symm.trans hdead
    obtain ⟨y, hy, a, ha⟩ := hsome
    -- The handle was issued before, so no later instance gets it.
    have hdead' : x'.world.engine.get? h = none := by
      have hissued := (hrun.evolves hfew.of_cons hy).issued (Store.issued_of_get? ha)
      exact (hrun.evolves_next hnext hfew).get?_eq_none hissued hdead
    -- A dead handle is not ended again.
    rcases hs.of_not_mem hnot with ⟨hbegins, hcleanup, -⟩ | ⟨_, _, _, hbegins, -⟩
    · rw [hbegins, hcleanup]
      exact .gone cause data hdead' ⟨y, List.mem_cons_of_mem x' hy, a, ha⟩
    · obtain ⟨-, b, hb, -⟩ := begins?_eq_some_iff.1 hbegins
      cases hb.symm.trans hdead

/-- Every instance is in one of the stages. -/
theorem Run.stage (hrun : Run host x past) (hnever : NeverFrees past)
    (hfew : FewReleases (x :: past)) (h : Handle) :
    Stage x (x :: past) h (begun h past) (cleanups h (x :: past)) := by
  induction hrun with
  | start w config hfresh =>
    refine .idle ?_ ?_
    · simp [targets, teardowns]
    · intro hdead y hy
      rwa [List.mem_singleton.1 hy]
  | @next x x' past hrun hnext ih =>
    rw [begun_cons, cleanups_cons]
    exact hrun.stage_next hnext hnever hfew (ih hnever.of_cons hfew.of_cons)

/-! ## Once -/

/-- A call in the history of a run that has come to rest has returned. -/
theorem Run.completed (hrun : Run host x past) (hgive : ∃ reply, x.control = .give reply)
    (hrest : x.stack = []) (hsplit : x :: past = after ++ z :: before) :
    Run host z before ∧ ∃ later r span, after ++ [z] = later ++ r :: span ∧
      Spans host z r span ∧ z.Returned r := by
  obtain ⟨hz, span, hspan, hfollows⟩ := hrun.of_append hsplit
  refine ⟨hz, ?_⟩
  rcases hfollows.spans_or_returned with hopen | ⟨u, sub, later, rfl, hsub, hreturned, hlater⟩
  · refine ⟨[], x, span, hspan.symm, hopen, hgive, ?_⟩
    rw [hrest]
    exact Nat.zero_le _
  · obtain ⟨l, hl⟩ := hlater.exists_append
    refine ⟨l, u, sub, ?_, hsub, hreturned⟩
    rw [← hspan, ← List.cons_append, hl, List.append_assoc]
    rfl

/-- An instance that has died was ended by one termination, which took its course. -/
theorem Run.course_of_begun (hrun : Run host x past) (hgive : ∃ reply, x.control = .give reply)
    (hrest : x.stack = []) (hnever : NeverFrees (x :: past)) (hfew : FewReleases (x :: past))
    (hbegun : begun h (x :: past) = [(cause, data)]) :
    ∃ later r span before z inst told u cleaning cascade,
      x :: past = later ++ r :: span ++ before ∧ Spans host z r span ∧ z.Returned r ∧
      z.control = .perform (.terminate h cause data) ∧
      z.world.engine.get? h = some inst ∧ inst.terminating = false ∧
      r :: span = told ++ u :: cleaning ++ cascade ∧
      Course host z h inst cause data told u cleaning cascade := by
  obtain ⟨after, z, before, hsplit, -, hbegins, -⟩ := List.filterMap_eq_cons_iff.1 hbegun
  obtain ⟨hcall, inst, hlive, hactive⟩ := begins?_eq_some_iff.1 hbegins
  obtain ⟨hz, later, r, span, heq, hspan, hreturned⟩ := hrun.completed hgive hrest hsplit
  have hhist : x :: past = later ++ r :: span ++ before := by
    rw [hsplit, ← heq, List.append_assoc]
    rfl
  rw [hhist, List.append_assoc] at hnever hfew
  obtain ⟨told, u, cleaning, cascade, hphases, hcourse⟩ :=
    hz.course hspan hreturned hnever.of_append.of_cons hfew.of_append hcall hlive hactive
  exact ⟨later, r, span, before, z, inst, told, u, cleaning, cascade, hhist, hspan, hreturned,
    hcall, hlive, hactive, hphases, hcourse⟩

/-- When an outermost call has returned, every instance that has died was ended once: one
termination found it live and its end not begun, and took its course, and the hook for cleaning up
was called in the course of that one only. The end of an instance that is still live was not begun.
Every other termination left a log record and did nothing else, and the allocation of a child below
a terminating parent delivered the event to the parent and did nothing else. -/
theorem Run.ended_once {w : World σ ν} {reply : Reply} (hrun : Run host x past)
    (hdone : x.step host = .finished w reply) (hnever : NeverFrees past)
    (hfew : FewReleases (x :: past)) :
    (∀ h, (∃ y ∈ x :: past, ∃ inst, y.world.engine.get? h = some inst) →
      (∃ inst, x.world.engine.get? h = some inst) ∧ begun h (x :: past) = [] ∧
          cleanups h (x :: past) = [] ∨
        x.world.engine.get? h = none ∧ ∃ cause data, begun h (x :: past) = [(cause, data)] ∧
          cleanups h (x :: past) = [cause] ∧
          ∃ later r span before z inst told u cleaning cascade,
            x :: past = later ++ r :: span ++ before ∧ Spans host z r span ∧ z.Returned r ∧
            z.control = .perform (.terminate h cause data) ∧
            z.world.engine.get? h = some inst ∧ inst.terminating = false ∧
            r :: span = told ++ u :: cleaning ++ cascade ∧
            Course host z h inst cause data told u cleaning cascade) ∧
    (∀ after y' y before h cause data, x :: past = after ++ y' :: y :: before →
      y.control = .perform (.terminate h cause data) → begins? h y = none →
      ∃ t record, y' = ⟨(y.atTime t).world.log record, .give .done, y.stack⟩) ∧
    ∀ after z before d p event parent, x :: past = after ++ z :: before →
      z.control = .perform (.allocChild d p event) → z.world.engine.get? p = some parent →
      parent.terminating = true →
      ∃ later r u sub y t t', after = later ++ r :: u :: sub ∧
        y = ⟨(z.atTime t).world.log (.parentEnding d.subsystem parent.name d.name),
          .perform (.dispatch p event none),
          .answer (.refused (.parentTerminating parent.name)) :: z.stack⟩ ∧
        Spans host y u sub ∧ y.Returned u ∧
        r = ⟨(u.atTime t').world, .give (.refused (.parentTerminating parent.name)), z.stack⟩ := by
  obtain rfl := step_eq_finished_iff.1 hdone
  have hnever' : NeverFrees (⟨w, .give reply, []⟩ :: past) := by
    intro y hy h
    rcases List.mem_cons.1 hy with rfl | hy
    · nofun
    · exact hnever y hy h
  have hbegun : ∀ h, begun h (⟨w, .give reply, []⟩ :: past) = begun h past := fun _ => rfl
  refine ⟨?_, ?_, ?_⟩
  · rintro h ⟨y, hy, a, ha⟩
    have hstage := hrun.stage hnever hfew h
    rw [← hbegun h] at hstage
    generalize hbegins : begun h _ = begins at hstage
    generalize hcauses : cleanups h _ = causes at hstage
    cases hstage with
    | idle hnot hnew =>
      refine .inl ⟨?_, rfl, rfl⟩
      cases hlive : w.engine.get? h with
      | none => cases ha.symm.trans (hnew hlive y hy)
      | some inst => exact ⟨inst, rfl⟩
    -- No end is in progress when the stack is empty.
    | ending t ht => cases ht
    | cleaning t ht => cases ht
    | gone cause data hdead hsome =>
      exact .inr ⟨hdead, cause, data, rfl, rfl,
        hrun.course_of_begun ⟨reply, rfl⟩ rfl hnever' hfew hbegins⟩
  · intro after y' y before h cause data hsplit hcall hnone
    obtain ⟨hy', -⟩ := hrun.of_append hsplit
    cases hy' with
    | next hy hnext =>
      refine hnext.terminate_idle hcall ?_
      intro inst hlive
      by_contra hactive
      rw [Bool.not_eq_true] at hactive
      cases hnone.symm.trans (begins?_eq_some_iff.2 ⟨hcall, inst, hlive, hactive⟩)
  · intro after z before d p event parent hsplit hcall hlive hending
    obtain ⟨-, later, r, span, heq, hspan, hreturned⟩ := hrun.completed ⟨reply, rfl⟩ rfl hsplit
    obtain ⟨y, u, sub, t, t', rfl, hy, hsub, hdelivered, hr⟩ :=
      hspan.childRefused hreturned hcall hlive hending
    refine ⟨later, r, u, sub, y, t, t', ?_, hy, hsub, hdelivered, hr⟩
    rw [← List.cons_append, ← List.append_assoc] at heq
    exact List.append_cancel_right heq

/-- When the first child of a tree is cleaned up, it ends itself and its sibling, and asks the root
for another child. -/
def squabbler : Host Unit Unit where
  script _ h hook _ :=
    match hook with
    | .cleanup _ =>
      if h = ⟨1, 0⟩ then
        .call (.terminate ⟨1, 0⟩ .failure none) () fun _ _ =>
          .call (.terminate ⟨2, 0⟩ .request (some (.number 7))) () fun _ _ =>
            .call (.allocChild .plain ⟨0, 0⟩ 0) () fun _ _ => .done ()
      else .done ()
    | _ => .done ()

/-- A run in which a root and its two children are allocated, and the root is ended. -/
def squabble : Execution Unit Unit × List (Execution Unit Unit) :=
  session squabbler 60 (idle { logAddr := false } ()) []
    [.alloc .fork none none none, .allocChild .plain ⟨0, 0⟩ 0, .allocChild .plain ⟨0, 0⟩ 0,
      .terminate ⟨0, 0⟩ .regular none]

/-- The second child is ended by its sibling, in the middle of the end of the root, and the root is
told so with the data of the sibling. -/
theorem squabble_once : ∃ later r span before z inst told u cleaning cascade,
    squabble.1 :: squabble.2 = later ++ r :: span ++ before ∧ Spans squabbler z r span ∧
    z.Returned r ∧ z.control = .perform (.terminate ⟨2, 0⟩ .request (some (.number 7))) ∧
    z.world.engine.get? ⟨2, 0⟩ = some inst ∧ inst.terminating = false ∧
    r :: span = told ++ u :: cleaning ++ cascade ∧
    Course squabbler z ⟨2, 0⟩ inst .request (some (.number 7)) told u cleaning cascade := by
  have hrun : Run squabbler squabble.1 squabble.2 := run_session 60 _ (run_idle _ _)
  have hdone : squabble.1.step squabbler = .finished squabble.1.world .done := rfl
  have hlive : ∃ y ∈ squabble.1 :: squabble.2, y.world.engine.isAlive ⟨2, 0⟩ = true := by decide
  have hbegun : begun ⟨2, 0⟩ (squabble.1 :: squabble.2) = [(.request, some (.number 7))] := by
    decide
  obtain ⟨y, hy, halive⟩ := hlive
  obtain ⟨-, hnone, -⟩ | ⟨-, cause, data, hsome, -, hcourse⟩ :=
    (Run.ended_once hrun hdone (by decide) (fewReleases_of_length_lt (by decide))).1 ⟨2, 0⟩
      ⟨y, hy, Engine.isAlive_eq_true_iff.1 halive⟩
  · cases hbegun.symm.trans hnone
  · cases hbegun.symm.trans hsome
    exact hcourse

end StateMachines.Execution
