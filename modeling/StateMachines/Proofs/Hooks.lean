import StateMachines.Proofs.Execution.Nesting
import StateMachines.Proofs.Execution.Session
import StateMachines.Proofs.Termination.Endings

/-!
# When hooks are called

A hook is called for a live instance of its class only, and only for what it is told: the event is
accepted in the state, the edge is in the table, the timer has expired, the end is in progress.
This is true at the moment of the call, although the operation that calls the hook may have found
it out long before, and other hooks may have run in between.

Conversely the delivery of an event to a live instance calls the hook that the event is meant for,
once, and no hook if the event is not permitted.

## Main definitions

* `Execution.Legitimate`: what is true when a hook is called.
* `Execution.hooksFor`: the hook that the delivery of an event is to call.

## Main results

* `Execution.Run.legitimate`: hooks are called legitimately.
* `Execution.directHooks_dispatch`: the hooks that the delivery of an event calls.
-/

namespace StateMachines.Execution

variable {σ ν : Type} {host : Host σ ν} {x x' y start : Execution σ ν}
  {past span : List (Execution σ ν)} {d : Descriptor} {h : Handle} {hook : Hook} {inst : Instance}
  {event : EventId} {data : Option Payload}

/-! ## Legitimacy -/

/-- What is true at the moment `x` at which a hook of an instance of class `d` is called, right
after the moment `y`. -/
def Legitimate (y x : Execution σ ν) (d : Descriptor) (h : Handle) (hook : Hook) : Prop :=
  ∃ inst, x.world.engine.get? h = some inst ∧ inst.descriptor = d ∧
    match hook with
    | .action state event _ =>
      inst.state = state ∧ d.accepts state event = true ∧ d.allStates.contains event = false
    | .allStates event _ => d.allStates.contains event = true
    | .leave state next => inst.state = state ∧ d.permits state next = true
    | .enter state previous => inst.state = state ∧ d.permits previous state = true
    | .timer =>
      x.world.engine.timers.deadline? h = none ∧
        ∃ deadline, y.world.engine.timers.deadline? h = some deadline ∧
          deadline.time ≤ x.world.now
    | .cleanup _ =>
      inst.terminating = true ∧ ∀ p parent, inst.parent = some p →
        x.world.engine.get? p = some parent → h ∉ parent.children

/-- The hook for entering a state is called legitimately. -/
theorem Run.legitimate_enter (hrun : Run host y past) (hfew : FewReleases (y :: past))
    {target : Handle} {source state : StateId} {timeout : Duration} {label : Nat}
    {rest : List (Frame σ ν)}
    (hstack : y.stack = .leaving target d source state timeout label :: rest)
    (hlive : y.world.engine.get? target = some inst)
    (hengine : x.world.engine = y.world.engine.modify target ({ · with state })) :
    Legitimate y x d target (.enter state source) := by
  have hframe : .leaving target d source state timeout label ∈ y.stack :=
    hstack ▸ List.mem_cons_self
  have hdescriptor := hrun.descriptor_eq_of_leaving hfew hframe hlive
  refine ⟨{ inst with state }, ?_, hdescriptor, rfl, hrun.permits_of_leaving hframe⟩
  rw [hengine, Engine.get?_modify_self, hlive, Option.map_some]

/-- The hook for cleaning up is called legitimately. -/
theorem Run.legitimate_cleanup (hrun : Run host x past) (hfrees : FreesOrderly past)
    {ending : Ending} {rest : List (Frame σ ν)} (hstack : x.stack = .cleaning ending :: rest) :
    Legitimate y x ending.descriptor ending.target (.cleanup ending.cause) := by
  have ho := hrun.orderly hfrees
  have ht : ⟨ending, none⟩ ∈ x.teardowns := by
    rw [teardowns, hstack]
    exact List.mem_cons_self
  -- The frame of an end remembers the parent, and the links have not changed it.
  obtain ⟨l, hl, hmarked, hparent⟩ := ho.ongoing _ ht
  obtain ⟨inst, hlive, rfl⟩ := Engine.links?_eq_some_iff.1 hl
  refine ⟨inst, hlive, hrun.descriptor_eq_of_ending hfrees (List.mem_map_of_mem ht) hlive, hmarked,
    fun p parent hp hpl => ?_⟩
  exact ho.unlisted _ ht rfl p parent.links (hparent.symm.trans hp)
    (Engine.links?_eq_some_iff.2 ⟨parent, hpl, rfl⟩)

/-- The hook for an expired timer is called legitimately. -/
theorem Run.legitimate_timer (hrun : Run host y past) (hfew : FewReleases (y :: past)) {now : Time}
    {count : Nat} {rest : List (Frame σ ν)} {timers : TimerQueue}
    (hstack : y.stack = .firing now count :: rest) (htime : y.world.now ≤ x.world.now)
    (hpop : y.world.engine.timers.popExpired now = some (h, timers))
    (hengine : x.world.engine = { y.world.engine with timers })
    (hlive : y.world.engine.get? h = some inst) :
    Legitimate y x inst.descriptor h .timer := by
  obtain ⟨-, ⟨deadline, hdeadline, hdue⟩, hafter⟩ := (hrun.sound hfew).coherent.popExpired hpop
  -- The deadline is due at the time at which the firing began, which is not later than now.
  have hnow : now ≤ y.world.now := hrun.firing_le (hstack ▸ List.mem_cons_self)
  refine ⟨inst, ?_, rfl, ?_, deadline, hdeadline, Nat.le_trans hdue (Nat.le_trans hnow htime)⟩
  · rw [hengine]
    exact hlive
  · rw [hengine, hafter, if_pos rfl]

/-- A hook is called legitimately. -/
theorem Run.legitimate (hrun : Run host x past) (hfrees : FreesOrderly past)
    (hfew : FewReleases (x :: past)) (hhook : x.control = .hook d h hook) :
    ∃ y earlier, past = y :: earlier ∧ Legitimate y x d h hook := by
  cases hrun with
  | start => cases hhook
  | @next y _ earlier hpast hnext =>
    refine ⟨y, earlier, rfl, ?_⟩
    obtain ⟨t, htime, ht⟩ | ⟨w, call, answer, rfl, -⟩ := hnext.cases
    · obtain ⟨w, control, stack⟩ := y
      have hrun := hpast.next hnext
      cases ht with
      | deliversAll hlive hall =>
        cases hhook
        exact ⟨_, hlive, rfl, hall⟩
      | delivers hlive hall haccepts =>
        cases hhook
        exact ⟨_, hlive, rfl, rfl, haccepts, hall⟩
      | leaves hlive hpermits =>
        cases hhook
        exact ⟨_, hlive, rfl, rfl, hpermits⟩
      | enters hlive =>
        cases hhook
        exact hpast.legitimate_enter hfew.of_cons rfl hlive rfl
      | cleans =>
        cases hhook
        exact hrun.legitimate_cleanup hfrees rfl
      | expires hpop hlive =>
        cases hhook
        exact hpast.legitimate_timer hfew.of_cons rfl htime hpop rfl hlive
      | _ => cases hhook
    · cases hhook

/-! ## Directness -/

/-- The call that begins at `start` has called a hook, and waits for it to answer. -/
def Waits (start x : Execution σ ν) : Prop :=
  (x.stack = .answer .done :: start.stack ∧ ∀ call, x.control ≠ .perform call) ∨
    ∃ next, .resume next :: .answer .done :: start.stack <:+ x.stack

/-- No hook is called by a call that waits for one, until the call returns. -/
theorem Transition.waits (ht : Transition host x x') (hwaits : start.Waits x) :
    start.directHook? x' = none ∧ (start.Waits x' ∨ start.Returned x') := by
  rcases hwaits with ⟨hstack, hcontrol⟩ | ⟨next, hsuffix⟩
  · cases ht with
    | calls | scriptDone | scriptNote => exact ⟨rfl, .inl (.inl ⟨hstack, by simp⟩)⟩
    | @scriptCall w call env next stack =>
      exact ⟨rfl, .inl (.inr ⟨next, hstack ▸ List.suffix_rfl⟩)⟩
    | closes hcloses =>
      cases hstack
      cases hcloses
      exact ⟨rfl, .inr ⟨⟨_, rfl⟩, Nat.le_refl _⟩⟩
    | answered | childRefused | deliversAll | delivers | leaves | ends | fires =>
      exact absurd rfl (hcontrol _)
    | _ => cases hstack
  · by_cases hgive : (∃ reply, x.control = .give reply) ∧
        x.stack.length ≤ (Frame.resume next :: .answer .done :: start.stack).length
    · -- The script that made the nested call goes on.
      have hstack := (hsuffix.eq_of_length_le hgive.2).symm
      obtain ⟨reply, hreply⟩ := hgive.1
      cases ht with
      | resumes =>
        cases hstack
        exact ⟨rfl, .inl (.inl ⟨rfl, by simp⟩)⟩
      | closes hcloses =>
        cases hstack
        cases hcloses
      | enters | endsChild | skipsChild | cleans | tells | skipsTimer | expires => cases hstack
      | _ => cases hreply
    · -- The nested call is still open, and its hooks are called further up the stack.
      have hsuffix' := ht.suffix hsuffix hgive
      refine ⟨?_, .inl (.inr ⟨next, hsuffix'⟩)⟩
      have hle := hsuffix'.length_le
      rw [List.length_cons, List.length_cons] at hle
      unfold directHook?
      split
      next => rw [if_neg (by omega)]
      next => rfl

/-- The hooks that the delivery of an event to an instance is to call. -/
def hooksFor (inst : Instance) (h : Handle) (event : EventId) (data : Option Payload) :
    List (Handle × Hook) :=
  if inst.descriptor.allStates.contains event then [(h, .allStates event data)]
  else if inst.descriptor.accepts inst.state event then [(h, .action inst.state event data)]
  else []

/-- The first step of a delivery calls the hook, or refuses the event. -/
theorem Next.dispatches (hnext : Next host start x)
    (hcall : start.control = .perform (.dispatch h event data))
    (hlive : start.world.engine.get? h = some inst) :
    (start.directHook? x).toList = hooksFor inst h event data ∧
      (start.Waits x ∨ start.Returned x) := by
  obtain ⟨t, -, ht⟩ | ⟨w, call, answer, rfl, hcontrol, -⟩ := hnext.cases
  · obtain ⟨w, control, stack⟩ := start
    obtain rfl : control = .perform (.dispatch h event data) := hcall
    cases ht with
    | answered hanswers =>
      cases hanswers with
      | unheard event data hdead => cases hdead.symm.trans hlive
      | eventRefused hlive' hall haccepts =>
        cases hlive.symm.trans hlive'
        exact ⟨by simp [directHook?, hooksFor, hall, haccepts], .inr ⟨⟨_, rfl⟩, Nat.le_refl _⟩⟩
    | deliversAll hlive' hall =>
      cases hlive.symm.trans hlive'
      exact ⟨by simp [directHook?, hooksFor, hall], .inl (.inl ⟨rfl, by simp⟩)⟩
    | delivers hlive' hall haccepts =>
      cases hlive.symm.trans hlive'
      exact ⟨by simp [directHook?, hooksFor, hall, haccepts], .inl (.inl ⟨rfl, by simp⟩)⟩
  · rw [hcall] at hcontrol
    cases hcontrol

/-- The delivery of an event to a live instance calls the hook that the event is meant for, once,
and no other. -/
theorem directHooks_dispatch (hspan : Spans host start x span) (hne : span ≠ [])
    (hcall : start.control = .perform (.dispatch h event data))
    (hlive : start.world.engine.get? h = some inst) :
    start.directHooks (x :: span) = hooksFor inst h event data ∧
      (start.Waits x ∨ start.Returned x) := by
  induction hspan with
  | start => exact absurd rfl hne
  | @next x x' span hspan hopen hnext ih =>
    rw [directHooks_cons]
    cases hspan with
    | start =>
      obtain ⟨hfirst, hwaits⟩ := hnext.dispatches hcall hlive
      have hnone : start.directHooks [start] = [] := by simp [directHooks, directHook?, hcall]
      rw [hfirst, hnone, List.append_nil]
      exact ⟨rfl, hwaits⟩
    | next =>
      -- The hook has been called already, so no further one is.
      obtain ⟨hbefore, hwaits⟩ := ih (List.cons_ne_nil _ _)
      have hwaits := hwaits.resolve_right hopen
      obtain ⟨t, -, ht⟩ | ⟨w, call, answer, rfl, hcontrol, hstack, -⟩ := hnext.cases
      · obtain ⟨hnone, hwaits'⟩ := ht.waits hwaits
        rw [hnone, hbefore]
        exact ⟨rfl, hwaits'⟩
      · exact absurd ⟨⟨answer, hcontrol⟩, by simp [hstack]⟩ hopen

/-- The delivery of an event to a live instance raises no fault. -/
theorem Run.step_dispatch (hrun : Run host x past) (hfew : FewReleases (x :: past))
    (hcall : x.control = .perform (.dispatch h event data))
    (hlive : x.world.engine.get? h = some inst) : ∃ x', x.step host = .running x' := by
  have hlt := hrun.state_lt hfew hlive
  rw [step, hcall]
  dsimp only [begin]
  rw [beginDispatch, hlive]
  dsimp only
  rw [if_neg (Nat.not_le.2 hlt)]
  split
  · exact ⟨_, rfl⟩
  · split
    · exact ⟨_, rfl⟩
    · exact ⟨_, rfl⟩

/-- Every hook in a run is called legitimately. The delivery of an event to a live instance raises
no fault, calls the one hook that the event is meant for if it is permitted, and no hook if it is
not. -/
theorem Run.hooks_legitimate (hrun : Run host x past) (hfrees : FreesOrderly past)
    (hfew : FewReleases (x :: past)) :
    (∀ d h hook, x.control = .hook d h hook →
      ∃ y earlier, past = y :: earlier ∧ Legitimate y x d h hook) ∧
    ∀ h event data inst, x.control = .perform (.dispatch h event data) →
      x.world.engine.get? h = some inst →
      (∃ x', x.step host = .running x') ∧
        ∀ z span, Spans host x z span → span ≠ [] →
          x.directHooks (z :: span) = hooksFor inst h event data :=
  ⟨fun _ _ _ hhook => hrun.legitimate hfrees hfew hhook,
    fun _ _ _ _ hcall hlive => ⟨hrun.step_dispatch hfew hcall hlive,
      fun _ _ hspan hne => (directHooks_dispatch hspan hne hcall hlive).1⟩⟩

/-- The action of the first instance releases the second one and then ends its own instance. -/
def quitter : Host Unit Unit where
  script _ h hook _ :=
    match hook with
    | .action .. =>
      .call (.free ⟨1, 0⟩) () fun _ _ => .call (.terminate h .regular none) () fun _ _ => .done ()
    | _ => .done ()

/-- A run in which two instances are allocated. -/
def allocated : Execution Unit Unit × List (Execution Unit Unit) :=
  session quitter 10 (idle { logAddr := false } ()) []
    [.alloc .fork none none none, .alloc .plain none none none]

/-- The delivery of an event to the first instance. -/
def quitting : Execution Unit Unit := ofCall allocated.1.world (.dispatch ⟨0, 0⟩ 0 none)

/-- The moments of the delivery until the instance is cleaned up. -/
def quit : Execution Unit Unit × List (Execution Unit Unit) := follow quitter quitting 8 quitting []

/-- The hook for cleaning up is called legitimately inside an action. -/
theorem quit_legitimate :
    ∃ y earlier, quit.2 ++ allocated.1 :: allocated.2 = y :: earlier ∧
      Legitimate y quit.1 .fork ⟨0, 0⟩ (.cleanup .regular) := by
  have hallocated : Run quitter allocated.1 allocated.2 := run_session 10 _ (run_idle _ _)
  have hquitting : Run quitter quitting (allocated.1 :: allocated.2) :=
    hallocated.next (.call allocated.1.world _ rfl rfl (Nat.le_refl _))
  have hquit : Run quitter quit.1 (quit.2 ++ allocated.1 :: allocated.2) :=
    (spans_follow 8 .start).run hquitting
  exact (Run.hooks_legitimate hquit (by decide) (fewReleases_of_length_lt (by decide))).1 _ _ _ rfl

end StateMachines.Execution
