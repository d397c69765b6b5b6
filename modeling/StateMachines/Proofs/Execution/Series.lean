import StateMachines.Proofs.Execution.Outcome
import StateMachines.Proofs.Timers.Firing

/-!
# Calls in series

A series of calls is made from outside while the clock stands still, each as soon as the one before
it has returned, and nothing else happens in between. A series has one course. It comes to its end
if the calls that its hooks make return, because hooks are finite programs; only a delivery to an
instance in a state outside its table would break it off, and that takes a slot whose generations
have started over.

## Main definitions

* `Execution.AtRest`: the call in progress has returned to the outside.
* `Execution.Series`: the moments of a series of calls.

## Main results

* `Execution.Series.run`: the moments of a series continue the run in which it begins.
* `Execution.Series.suffix_of_atRest`: a series has one course.
* `Execution.Series.exists_end`: a series of deliveries comes to its end.
* `Execution.Series.of_compute`: series of a given host can be computed.
-/

namespace StateMachines.Execution

variable {σ ν : Type} {host : Host σ ν} {x x' y z start : Execution σ ν}
  {past span hist hist' : List (Execution σ ν)} {calls left left' : List Call} {call : Call}

/-- The call in progress has returned to the outside. -/
def AtRest (x : Execution σ ν) : Prop := (∃ reply, x.control = .give reply) ∧ x.stack = []

/-- At rest no operation is left that could take a step. -/
theorem atRest_iff (host : Host σ ν) : x.AtRest ↔ ∃ w reply, x.step host = .finished w reply := by
  constructor
  · rintro ⟨⟨reply, hcontrol⟩, hstack⟩
    obtain ⟨w, control, stack⟩ := x
    obtain rfl : control = .give reply := hcontrol
    obtain rfl : stack = [] := hstack
    exact ⟨w, reply, rfl⟩
  · rintro ⟨w, reply, hstep⟩
    obtain rfl := step_eq_finished_iff.1 hstep
    exact ⟨⟨reply, rfl⟩, rfl⟩

/-- An execution that takes a step is not at rest. -/
theorem not_atRest_of_step (hstep : x.step host = .running x') : ¬ x.AtRest := by
  intro hrest
  obtain ⟨w, reply, hfinished⟩ := (atRest_iff host).1 hrest
  cases hstep.symm.trans hfinished

/-- A call from outside has returned as soon as it is at rest. -/
theorem AtRest.returned (hrest : x.AtRest) (start : Execution σ ν) : start.Returned x :=
  ⟨hrest.1, by simp [hrest.2]⟩

/-- Whether an execution is at rest can be computed. -/
instance : Decidable x.AtRest :=
  decidable_of_iff (x.givesAnswer = true ∧ x.stack.length = 0)
    (and_congr givesAnswer_iff List.length_eq_zero_iff)

/-- While the clock stands still, the call that begins at `start` is made and after it the `calls`,
each as soon as the one before it has returned. The last two indices are a moment and those before
it, the latest first; the first one is the calls that are still to be made. -/
inductive Series (host : Host σ ν) (start : Execution σ ν) (calls : List Call) :
    List Call → Execution σ ν → List (Execution σ ν) → Prop where
  | start : Series host start calls calls start []
  /-- The next call is made. -/
  | call {call : Call} {left : List Call} {x : Execution σ ν} {hist : List (Execution σ ν)}
      (hseries : Series host start calls (call :: left) x hist) (hrest : x.AtRest) :
      Series host start calls left (.ofCall x.world call) (x :: hist)
  /-- The call in progress takes a step. -/
  | step {left : List Call} {x x' : Execution σ ν} {hist : List (Execution σ ν)}
      (hseries : Series host start calls left x hist) (hstep : x.step host = .running x') :
      Series host start calls left x' (x :: hist)

namespace Series

/-- A series continues the run in which it begins. -/
theorem run (hseries : Series host start calls left x hist) (hrun : Run host start past) :
    Run host x (hist ++ past) := by
  induction hseries with
  | start => exact hrun
  | @call call left x hist hseries hrest ih =>
    obtain ⟨w, reply, hfinished⟩ := (atRest_iff host).1 hrest
    obtain rfl := step_eq_finished_iff.1 hfinished
    exact ih.next (.call w call hfinished rfl (Nat.le_refl _))
  | @step left x x' hist hseries hstep ih =>
    exact ih.next (.move x.world.now (Nat.le_refl _) hstep)

/-- Time stands still in a series. -/
theorem now_eq (hseries : Series host start calls left x hist) :
    x.world.now = start.world.now := by
  induction hseries with
  | start => rfl
  | call hseries hrest ih => exact ih
  | step hseries hstep ih => rw [(transition_of_step hstep).now_eq, ih]

/-- The calls that are still to be made are the last of all. -/
theorem suffix (hseries : Series host start calls left x hist) : left <:+ calls := by
  induction hseries with
  | start => exact List.suffix_rfl
  | call hseries hrest ih => exact (List.suffix_cons _ _).trans ih
  | step hseries hstep ih => exact ih

/-- A series goes on by the moments of a call during which the clock stands still. -/
theorem append_spans (hseries : Series host start calls left y hist)
    (hspan : Spans host y x span) (hstill : Still y (x :: span)) :
    Series host start calls left x (span ++ hist) := by
  induction hspan with
  | start => exact hseries
  | @next x x' span hspan hopen hnext ih =>
    have hearlier := ih hstill.of_cons
    -- The call is open and no time passes, so the run goes on by a step at the present time.
    cases hnext with
    | @move _ t htime hstep =>
      have ht : x'.world.now = t := (transition_of_step hstep).now_eq
      have hnow : t = x.world.now := by
        rw [← ht, hstill x' List.mem_cons_self,
          hstill x (List.mem_cons_of_mem x' List.mem_cons_self)]
      subst hnow
      exact hearlier.step hstep
    | call w call hstep =>
      exact absurd (((atRest_iff host).2 ⟨_, _, hstep⟩).returned y) hopen

/-- After so many moments a series has come to one moment only. -/
theorem eq_of_length_eq (hseries : Series host start calls left x hist)
    (hother : Series host start calls left' y hist') (hlength : hist.length = hist'.length) :
    left = left' ∧ x = y ∧ hist = hist' := by
  induction hseries generalizing left' y hist' with
  | start =>
    cases hother with
    | start => exact ⟨rfl, rfl, rfl⟩
    | call | step => simp at hlength
  | call hseries hrest ih =>
    cases hother with
    | start => simp at hlength
    | call hother hrest' =>
      obtain ⟨hleft, rfl, rfl⟩ := ih hother (Nat.succ.inj hlength)
      cases hleft
      exact ⟨rfl, rfl, rfl⟩
    | step hother hstep =>
      obtain ⟨-, rfl, -⟩ := ih hother (Nat.succ.inj hlength)
      exact absurd hrest (not_atRest_of_step hstep)
  | step hseries hstep ih =>
    cases hother with
    | start => simp at hlength
    | call hother hrest =>
      obtain ⟨-, rfl, -⟩ := ih hother (Nat.succ.inj hlength)
      exact absurd hrest (not_atRest_of_step hstep)
    | step hother hstep' =>
      obtain ⟨rfl, rfl, rfl⟩ := ih hother (Nat.succ.inj hlength)
      exact ⟨rfl, Progress.running.inj (hstep.symm.trans hstep'), rfl⟩

/-- A series has come to each of its moments. -/
theorem exists_of_le {n : Nat} (hseries : Series host start calls left x hist)
    (hn : n ≤ hist.length) :
    ∃ left' y hist', Series host start calls left' y hist' ∧ hist'.length = n ∧
      y :: hist' <:+ x :: hist := by
  have hself : ∀ {left x hist}, Series host start calls left x hist → n = hist.length →
      ∃ left' y hist', Series host start calls left' y hist' ∧ hist'.length = n ∧
        y :: hist' <:+ x :: hist :=
    fun h heq => ⟨_, _, _, h, heq.symm, List.suffix_rfl⟩
  induction hseries with
  | start => exact hself .start (Nat.le_zero.1 hn)
  | call hseries hrest ih =>
    rcases Nat.le_succ_iff.1 hn with hn | hn
    · obtain ⟨left', y, hist', h, hlength, hsuffix⟩ := ih hn
      exact ⟨left', y, hist', h, hlength, hsuffix.trans (List.suffix_cons _ _)⟩
    · exact hself (hseries.call hrest) hn
  | step hseries hstep ih =>
    rcases Nat.le_succ_iff.1 hn with hn | hn
    · obtain ⟨left', y, hist', h, hlength, hsuffix⟩ := ih hn
      exact ⟨left', y, hist', h, hlength, hsuffix.trans (List.suffix_cons _ _)⟩
    · exact hself (hseries.step hstep) hn

/-- A series has one course: what it comes to at all, it comes to before its end. -/
theorem suffix_of_atRest (hseries : Series host start calls [] x hist) (hrest : x.AtRest)
    (hother : Series host start calls left y hist') : y :: hist' <:+ x :: hist := by
  by_cases hle : hist'.length ≤ hist.length
  · obtain ⟨_, u, before, hu, hlength, hsuffix⟩ := hseries.exists_of_le hle
    obtain ⟨-, rfl, rfl⟩ := hu.eq_of_length_eq hother hlength
    exact hsuffix
  · -- The other series would go on although no call is left and the last one has returned.
    obtain ⟨_, u, before, hu, hlength, -⟩ := hother.exists_of_le (Nat.lt_of_not_le hle)
    cases hu with
    | start => simp at hlength
    | call hu hrest' =>
      obtain ⟨hleft, -⟩ := hu.eq_of_length_eq hseries (Nat.succ.inj hlength)
      cases hleft
    | step hu hstep =>
      obtain ⟨-, rfl, -⟩ := hu.eq_of_length_eq hseries (Nat.succ.inj hlength)
      exact absurd hrest (not_atRest_of_step hstep)

/-- A series has one end. -/
theorem eq_of_atRest (hseries : Series host start calls [] x hist) (hrest : x.AtRest)
    (hother : Series host start calls [] y hist') (hrest' : y.AtRest) : x = y ∧ hist = hist' := by
  have hsuffix := hseries.suffix_of_atRest hrest hother
  have hsuffix' := hother.suffix_of_atRest hrest' hseries
  exact List.cons.inj (hsuffix'.eq_of_length_le hsuffix.length_le)

end Series

/-! ## Deliveries return -/

/-- A call takes its first step without time passing. -/
theorem spans_first (hcall : start.control = .perform call) (hstep : start.step host = .running x) :
    Spans host start x [start] ∧ Still start [x, start] := by
  constructor
  · refine Spans.start.next ?_ (.move start.world.now (Nat.le_refl _) hstep)
    rintro ⟨⟨reply, hgive⟩, -⟩
    exact control_ne_give hcall reply hgive
  · intro y hy
    rcases List.mem_cons.1 hy with rfl | hy
    · exact (transition_of_step hstep).now_eq
    · exact still_self y hy

variable {h : Handle} {event : EventId} {data : Option Payload} {d : Descriptor} {hook : Hook}
  {w : World σ ν} {stack : List (Frame σ ν)}

/-- A delivery that calls a hook returns if the calls that the hook makes do. -/
theorem returns_of_hook (hcall : start.control = .perform call)
    (hstep : start.step host = .running ⟨w, .hook d h hook, .answer .done :: start.stack⟩)
    (hcalls : ∀ y sub call, Spans host start y sub → Still start (y :: sub) →
      y.control = .perform call → y.stack.length = start.stack.length + 2 → Returns host y) :
    Returns host start := by
  obtain ⟨hspan, hstill⟩ := spans_first hcall hstep
  have habove : start.stack.length < (.answer .done :: start.stack : List (Frame σ ν)).length :=
    Nat.lt_succ_self _
  -- The hook is called, its script is run to its end, and the delivery answers.
  obtain ⟨hspan, hstill⟩ := hspan.step hstill habove rfl
  obtain ⟨⟨v, control, stack⟩, sub, hspan, hstill, ⟨reply, hgive⟩, hstack⟩ :=
    hspan.script_returns _ hstill rfl rfl hcalls
  obtain rfl : control = .give reply := hgive
  obtain rfl : stack = .answer .done :: start.stack := hstack
  obtain ⟨hspan, hstill⟩ := hspan.step hstill habove rfl
  exact ⟨_, _, hspan, ⟨⟨_, rfl⟩, Nat.le_refl _⟩, hstill⟩

/-- A call that is answered at once returns. -/
theorem returns_of_answer {reply : Reply} (hcall : start.control = .perform call)
    (hstep : start.step host = .running ⟨w, .give reply, start.stack⟩) : Returns host start := by
  obtain ⟨hspan, hstill⟩ := spans_first hcall hstep
  exact ⟨_, _, hspan, ⟨⟨_, rfl⟩, Nat.le_refl _⟩, hstill⟩

/-- The first step of a delivery answers it, or calls a hook, or finds an instance in a state
outside its table. -/
theorem step_of_dispatch (host : Host σ ν) (v : World σ ν) (h : Handle) (event : EventId)
    (data : Option Payload) (stack : List (Frame σ ν)) :
    (∃ w reply, step host ⟨v, .perform (.dispatch h event data), stack⟩ =
      .running ⟨w, .give reply, stack⟩) ∨
    (∃ w d hook, step host ⟨v, .perform (.dispatch h event data), stack⟩ =
      .running ⟨w, .hook d h hook, .answer .done :: stack⟩) ∨
    ∃ fault inst, step host ⟨v, .perform (.dispatch h event data), stack⟩ = .faulted fault ∧
      v.engine.get? h = some inst ∧ inst.descriptor.states.length ≤ inst.state := by
  simp only [step, begin]
  unfold beginDispatch
  cases hlive : v.engine.get? h with
  | none => exact .inl ⟨_, _, rfl⟩
  | some inst =>
    dsimp only
    split
    next hstate => exact .inr (.inr ⟨_, inst, rfl, rfl, hstate⟩)
    next =>
      -- The event is handled in every state, or accepted by the current one, or refused.
      split
      next => exact .inr (.inl ⟨_, _, _, rfl⟩)
      next =>
        split
        next => exact .inr (.inl ⟨_, _, _, rfl⟩)
        next => exact .inl ⟨_, _, rfl⟩

/-- A delivery returns if the calls that its hook makes do, unless it finds an instance in a state
outside its table. -/
theorem returns_of_dispatch (hcall : start.control = .perform (.dispatch h event data))
    (hcalls : ∀ y sub call, Spans host start y sub → Still start (y :: sub) →
      y.control = .perform call → y.stack.length = start.stack.length + 2 → Returns host y) :
    Returns host start ∨ ∃ fault inst, start.step host = .faulted fault ∧
      start.world.engine.get? h = some inst ∧ inst.descriptor.states.length ≤ inst.state := by
  obtain ⟨v, control, stack⟩ := start
  obtain rfl : control = .perform (.dispatch h event data) := hcall
  rcases step_of_dispatch host v h event data stack with
    ⟨w, reply, hstep⟩ | ⟨w, d, hook, hstep⟩ | hfault
  · exact .inl (returns_of_answer rfl hstep)
  · exact .inl (returns_of_hook rfl hstep hcalls)
  · exact .inr hfault

namespace Series

/-- A series of deliveries comes to its end if the calls that its hooks make return; what may break
it off is a broken assumption of the engine, after a slot was vacated too often. -/
theorem exists_end (hrun : Run host start past) (hseries : Series host start calls left x hist)
    (hrest : x.AtRest) (hleft : ∀ call ∈ left, ∃ h event data, call = .dispatch h event data)
    (hreturns : ∀ left y hist call, Series host start calls left y hist →
      y.control = .perform call → y.stack.length = 2 → Returns host y) :
    ∃ left z hist, Series host start calls left z hist ∧ (left = [] ∧ z.AtRest ∨
      ∃ fault, z.step host = .faulted fault ∧ ¬ FewReleases (z :: (hist ++ past))) := by
  induction left generalizing x hist with
  | nil => exact ⟨[], x, hist, hseries, .inl ⟨rfl, hrest⟩⟩
  | cons call left ih =>
    obtain ⟨h, event, data, rfl⟩ := hleft call List.mem_cons_self
    have hbegun := hseries.call hrest
    have hcalls : ∀ y sub call, Spans host (ofCall x.world (.dispatch h event data)) y sub →
        Still (ofCall x.world (.dispatch h event data)) (y :: sub) → y.control = .perform call →
        y.stack.length = (ofCall x.world (.dispatch h event data)).stack.length + 2 →
          Returns host y :=
      fun y sub call hspan hstill => hreturns left y _ call (hbegun.append_spans hspan hstill)
    rcases returns_of_dispatch rfl hcalls with
      ⟨y, span, hspan, hreturned, hstill⟩ | ⟨fault, inst, hfault, hlive, hstate⟩
    · -- The delivery has returned, so the next one can be made.
      have hempty : y.stack = [] := hspan.stack_eq_of_returned hreturned
      exact ih (hbegun.append_spans hspan hstill) ⟨hreturned.1, hempty⟩
        fun call hcall => hleft call (List.mem_cons_of_mem _ hcall)
    · refine ⟨left, _, _, hbegun, .inr ⟨fault, hfault, fun hfew => ?_⟩⟩
      exact Nat.not_lt_of_le hstate ((hbegun.run hrun).state_lt hfew hlive)

/-! ## Series that are computed -/

/-- The moments of a call that is followed are moments of a series. -/
theorem follow (y : Execution σ ν) (fuel : Nat)
    (hspan : Series host start calls left x (span ++ hist)) :
    Series host start calls left (follow host y fuel x span).1
      ((Execution.follow host y fuel x span).2 ++ hist) := by
  induction fuel generalizing x span with
  | zero => exact hspan
  | succ fuel ih =>
    unfold Execution.follow
    split
    next => exact hspan
    next hopen =>
      split
      next x' hstep => exact ih (hspan.step hstep)
      next => exact hspan

/-- A session is a series of its calls, if it comes to its end. -/
theorem session (fuel : Nat) (hseries : Series host start calls left x hist)
    (hrest : (Execution.session host fuel x hist left).1.AtRest) :
    Series host start calls [] (Execution.session host fuel x hist left).1
      (Execution.session host fuel x hist left).2 := by
  induction left generalizing x hist with
  | nil => exact hseries
  | cons call left ih =>
    unfold Execution.session at hrest ⊢
    split at hrest
    next w reply hstep =>
      obtain rfl := step_eq_finished_iff.1 hstep
      have hcall : Series host start calls left (ofCall w call)
          ([] ++ ⟨w, .give reply, []⟩ :: hist) := hseries.call ⟨⟨reply, rfl⟩, rfl⟩
      exact ih (follow _ fuel hcall) hrest
    next hopen =>
      obtain ⟨w, reply, hstep⟩ := (atRest_iff host).1 hrest
      exact absurd hstep (hopen w reply)

/-- Follows the call that begins at `start`, and then makes the `calls`. -/
def compute (host : Host σ ν) (fuel : Nat) (start : Execution σ ν) (calls : List Call) :
    Execution σ ν × List (Execution σ ν) :=
  let (x, span) := Execution.follow host start fuel start []
  Execution.session host fuel x span calls

/-- What is computed is a series, if it comes to its end. -/
theorem of_compute (fuel : Nat) (hrest : (compute host fuel start calls).1.AtRest) :
    Series host start calls [] (compute host fuel start calls).1
      (compute host fuel start calls).2 := by
  have hbegun : Series host start calls calls start ([] ++ []) := .start
  have hfirst := hbegun.follow start fuel
  rw [List.append_nil] at hfirst
  exact hfirst.session fuel hrest

/-- In a series that has been computed, the calls that hooks make return if they do so among its
moments. -/
theorem returns_of_compute {fuel : Nat} (hrest : (compute host fuel start calls).1.AtRest)
    (hcalls : ∀ y ∈ (compute host fuel start calls).1 :: (compute host fuel start calls).2,
      y.stack.length = 2 → y.Returned (Execution.follow host y fuel y []).1 ∧
        Still y ((Execution.follow host y fuel y []).1 :: (Execution.follow host y fuel y []).2))
    (hother : Series host start calls left y hist) (hlevel : y.stack.length = 2) :
    Returns host y := by
  have hmem := ((of_compute fuel hrest).suffix_of_atRest hrest hother).subset List.mem_cons_self
  obtain ⟨hreturned, hstill⟩ := hcalls y hmem hlevel
  exact ⟨_, _, spans_follow fuel .start, hreturned, hstill⟩

end Series

end StateMachines.Execution
