import StateMachines.Proofs.Execution.Session
import StateMachines.Proofs.Timers.Expiry

/-!
# Firing

Firing takes one due deadline after the other off the queue and calls the timer hooks, until nothing
is due. The hooks may arm timers, end and release instances, and fire timers themselves. It ends all
the same while the clock stands still, since every timer hook that is called uses up one of the
deadlines that were due at the beginning.

## Main definitions

* `Execution.Returns`: a call returns if the clock stands still.
* `Execution.Fires`: how far the firing of timers has got.

## Main results

* `Execution.Spans.suffix_of_returned`: while the clock stands still, a call has one course.
* `Execution.Run.returns_of_fireExpired`: firing returns if the calls that the hooks make do.
* `Execution.Run.fires_exactly`: firing ends, calls the hooks of exactly those due timers that are
  not withdrawn, in order, and answers how many it has called itself.
-/

namespace StateMachines

/-- A class whose only state may be entered again, and which has a timer hook. -/
def Descriptor.beacon : Descriptor where
  key := 2
  name := "BEACON"
  subsystem := "fsm"
  states := [{ name := "ON", out := .ofBits 1 }]
  allStates := .empty
  eventNames := none
  timerCallback := true
  states_ne_nil := by decide
  out_lt := by decide

namespace Execution

variable {σ ν : Type} {host : Host σ ν} {x x' y s start : Execution σ ν}
  {past span hist : List (Execution σ ν)} {h : Handle} {d : Deadline} {count : Nat}

/-! ## Calls while the clock stands still -/

/-- If the clock stands still, the call that begins at a moment returns. -/
def Returns (host : Host σ ν) (start : Execution σ ν) : Prop :=
  ∃ x span, Spans host start x span ∧ start.Returned x ∧ Still start (x :: span)

/-- Whether the clock has stood still can be computed. -/
instance : Decidable (Still start hist) := inferInstanceAs (Decidable (∀ y ∈ hist, _))

/-- At the beginning of a call no time has passed. -/
theorem still_self : Still start [start] := fun y hy => by rw [List.mem_singleton.1 hy]

/-- A call goes on by a step without time passing. -/
theorem Spans.step (hspan : Spans host start x span) (hstill : Still start (x :: span))
    (habove : start.stack.length < x.stack.length) (hstep : x.step host = .running x') :
    Spans host start x' (x :: span) ∧ Still start (x' :: x :: span) := by
  constructor
  · refine hspan.next ?_ (.move x.world.now (Nat.le_refl _) hstep)
    rintro ⟨-, hlow⟩
    omega
  · intro y hy
    rcases List.mem_cons.1 hy with rfl | hy
    · rw [(transition_of_step hstep).now_eq]
      exact hstill x List.mem_cons_self
    · exact hstill y hy

/-- A call takes its first step without time passing. -/
theorem Spans.first_step {call : Call} (hcall : start.control = .perform call)
    (hstep : start.step host = .running x) :
    Spans host start x [start] ∧ Still start [x, start] := by
  constructor
  · refine Spans.start.next ?_ (.move start.world.now (Nat.le_refl _) hstep)
    rintro ⟨⟨reply, hgive⟩, -⟩
    cases hcall.symm.trans hgive
  · intro y hy
    rcases List.mem_cons.1 hy with rfl | hy
    · exact (transition_of_step hstep).now_eq
    · exact still_self y hy

/-- While the clock stands still, a call goes on by one that was made further up the stack. -/
theorem Spans.append_still {sub : List (Execution σ ν)} (hspan : Spans host start y span)
    (hstill : Still start (y :: span)) (habove : start.stack.length < y.stack.length)
    (hsub : Spans host y x sub) (hsubstill : Still y (x :: sub)) :
    Spans host start x (sub ++ span) ∧ Still start (x :: (sub ++ span)) := by
  refine ⟨hspan.append hsub habove, ?_⟩
  intro z hz
  rw [← List.cons_append] at hz
  rcases List.mem_append.1 hz with hz | hz
  · rw [hsubstill z hz]
    exact hstill y List.mem_cons_self
  · exact hstill z (List.mem_cons_of_mem y hz)

/-- At one time a moment of a call that is open is followed by one moment only. -/
theorem Next.eq_of_now_eq (hnext : Next host x x') (hnext' : Next host x y)
    (hopen : ¬ start.Returned x) (hnow : x'.world.now = y.world.now) : x' = y := by
  have hnotcall : ∀ {w answer}, x.step host ≠ .finished w answer := by
    intro w answer hstep
    obtain rfl := step_eq_finished_iff.1 hstep
    exact hopen ⟨⟨answer, rfl⟩, Nat.zero_le _⟩
  cases hnext with
  | move t htime hstep =>
    cases hnext' with
    | move t' htime' hstep' =>
      have ht : x'.world.now = t := (transition_of_step hstep).now_eq
      have ht' : y.world.now = t' := (transition_of_step hstep').now_eq
      obtain rfl : t = t' := by rw [← ht, hnow, ht']
      exact Progress.running.inj (hstep.symm.trans hstep')
    | call w' call hstep' => exact absurd hstep' hnotcall
  | call w' call hstep => exact absurd hstep hnotcall

/-- While the clock stands still, a call that returns has one course. -/
theorem Spans.suffix_of_returned {sub : List (Execution σ ν)} (hspan : Spans host start x span)
    (hreturned : start.Returned x) (hstill : Still start (x :: span))
    (hsub : Spans host start y sub) (hstill' : Still start (y :: sub)) :
    y :: sub <:+ x :: span := by
  -- Induction on the other course; up to each of its moments the two have been the same.
  induction hsub with
  | start =>
    obtain ⟨later, heq⟩ := hspan.follows.exists_append
    exact ⟨later, heq.symm⟩
  | @next y y' sub hsub hopen hnext ih =>
    obtain ⟨later, heq⟩ := ih hstill'.of_cons
    -- The call has not returned at `y`, so it goes on from there, and there is only one way.
    rcases List.eq_nil_or_concat later with rfl | ⟨later, v, rfl⟩
    · cases heq
      exact absurd hreturned hopen
    · rw [List.concat_eq_append, List.append_assoc] at heq
      obtain ⟨-, hnext'⟩ := hspan.follows.next_of_append heq.symm
      have hv : v.world.now = start.world.now := hstill v (heq ▸ by simp)
      have hy' : y'.world.now = start.world.now := hstill' y' List.mem_cons_self
      obtain rfl := hnext'.eq_of_now_eq hnext hopen (hv.trans hy'.symm)
      exact ⟨later, heq⟩

/-! ## The loop -/

/-- The firing of timers that begins at `start` goes on at the moment `x`, and has called `count`
timer hooks itself. -/
inductive Fires (start x : Execution σ ν) (count : Nat) : Prop where
  /-- The next timer is due to be looked for. -/
  | loops (hgive : ∃ reply, x.control = .give reply)
      (hstack : x.stack = .firing start.world.now count :: start.stack)
  /-- A timer hook is called. -/
  | calls (hcontrol : ∃ d h, x.control = .hook d h .timer)
      (hstack : x.stack = .firing start.world.now count :: start.stack)
  /-- The hook runs. -/
  | runs (hworking : Working (.firing start.world.now count :: start.stack) x)

/-- As long as timers are fired, the stack is higher than at the beginning. -/
theorem Fires.length_lt (hfires : Fires start x count) : start.stack.length < x.stack.length := by
  have hsuffix : .firing start.world.now count :: start.stack <:+ x.stack := by
    cases hfires with
    | loops hgive hstack => exact hstack ▸ List.suffix_rfl
    | calls hcontrol hstack => exact hstack ▸ List.suffix_rfl
    | runs hworking => exact hworking.suffix
  have hle := hsuffix.length_le
  rw [List.length_cons] at hle
  omega

/-- While timers are fired, a hook goes on, or the next one is called, or nothing is due any more
and the number of hooks is answered. -/
theorem Fires.next (hfires : Fires start x count) (hnext : Next host x x')
    (htimed : x.world.engine.Timed) :
    start.directHook? x' = none ∧ Fires start x' count ∨
      (∃ h, start.directHook? x' = some (h, .timer) ∧ x'.timerCall? = some h ∧
        Fires start x' (count + 1)) ∨
      x'.control = .give (.count count) ∧ x'.stack = start.stack ∧
        ∀ h d, x'.deadline? h = some d → start.world.now < d.time := by
  cases hfires with
  | loops hgive hstack =>
    obtain ⟨t, reply, -, ht⟩ := hnext.of_give hgive hstack
    cases ht with
    | closes hcloses =>
      cases hcloses with
      | fired count hnone =>
        refine .inr (.inr ⟨rfl, rfl, ?_⟩)
        intro h d hd
        exact htimed.ascending.lt_of_popExpired_eq_none htimed.coherent hnone hd
    | skipsTimer => exact .inl ⟨rfl, .loops ⟨_, rfl⟩ rfl⟩
    | expires => exact .inr (.inl ⟨_, if_pos rfl, rfl, .calls ⟨_, _, rfl⟩ rfl⟩)
  | calls hcontrol hstack =>
    obtain ⟨d, h, hcontrol⟩ := hcontrol
    obtain ⟨t, -, ht⟩ | ⟨w, call, answer, rfl, hgive, -⟩ := hnext.cases
    · have hbegins : ∀ reply, (x.atTime t).control ≠ .give reply := by
        intro reply hgive
        cases hcontrol.symm.trans hgive
      rcases ht.working_of_start hbegins with hworking | ⟨⟨reply, hreply⟩, hstack'⟩
      · have hworking' : Working (.firing start.world.now count :: start.stack) x' :=
          hstack ▸ hworking
        exact .inl ⟨(hworking'.direct rfl).2, .runs hworking'⟩
      · exact .inl ⟨(direct_of_give start hreply).2, .loops ⟨reply, hreply⟩ (hstack'.trans hstack)⟩
    · cases hcontrol.symm.trans hgive
  | runs hworking =>
    obtain ⟨t, -, ht⟩ | ⟨w, call, answer, rfl, hcontrol, hempty, -⟩ := hnext.cases
    · rcases ht.working (hworking.atTime t) with hworking' | ⟨⟨reply, hreply⟩, hstack⟩
      · exact .inl ⟨(hworking'.direct rfl).2, .runs hworking'⟩
      · exact .inl ⟨(direct_of_give start hreply).2, .loops ⟨reply, hreply⟩ hstack⟩
    · have hlt := (Fires.runs hworking).length_lt
      simp [hempty] at hlt

/-- What the firing of timers has done so far: all the hooks that it has called itself are timer
hooks, and it still goes on, or it has answered their number and nothing is due any more. -/
structure Fired (start x : Execution σ ν) (hist : List (Execution σ ν)) : Prop where
  /-- The hooks that were called are timer hooks. -/
  timer : ∀ call ∈ start.directHooks hist, call.2 = .timer
  /-- They are among all the timer hooks that were called. -/
  length_le : (start.directHooks hist).length ≤ (timerCalls hist).length
  /-- There are more of them to be called, or they were counted. -/
  goes : Fires start x (start.directHooks hist).length ∨
    x.control = .give (.count (start.directHooks hist).length) ∧ x.stack = start.stack ∧
      ∀ h d, x.deadline? h = some d → start.world.now < d.time

/-- What timers are fired next is added to what has been done. -/
theorem Fires.fired_next (hfires : Fires start x (start.directHooks hist).length)
    (htimer : ∀ call ∈ start.directHooks hist, call.2 = .timer)
    (hlength : (start.directHooks hist).length ≤ (timerCalls hist).length)
    (hnext : Next host x x') (htimed : x.world.engine.Timed) : Fired start x' (x' :: hist) := by
  have hcalls : (timerCalls hist).length ≤ (timerCalls (x' :: hist)).length := by
    rw [timerCalls_cons, List.length_append]
    exact Nat.le_add_left _ _
  have hsame : start.directHook? x' = none →
      start.directHooks (x' :: hist) = start.directHooks hist := by
    intro hnone
    rw [directHooks_cons, hnone]
    rfl
  rcases hfires.next hnext htimed with ⟨hnone, hfires'⟩ | ⟨h, hhook, hcall, hfires'⟩ |
    ⟨hgive, hstack, hdone⟩
  · constructor <;> rw [hsame hnone]
    · exact htimer
    · exact Nat.le_trans hlength hcalls
    · exact .inl hfires'
  · have hcons : start.directHooks (x' :: hist) = (h, .timer) :: start.directHooks hist := by
      rw [directHooks_cons, hhook]
      rfl
    constructor <;> rw [hcons]
    · intro call hmem
      rcases List.mem_cons.1 hmem with rfl | hmem
      · rfl
      · exact htimer call hmem
    · rw [timerCalls_cons, hcall]
      exact Nat.succ_le_succ hlength
    · exact .inl hfires'
  · have hnone : start.directHook? x' = none := (direct_of_give start hgive).2
    constructor <;> rw [hsame hnone]
    · exact htimer
    · exact Nat.le_trans hlength hcalls
    · exact .inr ⟨hgive, hstack, hdone⟩

/-- The first step of firing looks for the first timer. -/
theorem Next.of_fireExpired (hnext : Next host start x)
    (hcall : start.control = .perform .fireExpired)
    (hstill : x.world.now = start.world.now) :
    x.control = .give .done ∧ x.stack = .firing start.world.now 0 :: start.stack := by
  obtain ⟨t, -, ht⟩ := hnext.of_perform hcall
  cases ht with
  | answered hanswers => cases hanswers
  | fires =>
    have ht : t = start.world.now := hstill
    exact ⟨rfl, by rw [← ht]; rfl⟩

/-- While the clock stands still, timers are fired one after the other until nothing is due. -/
theorem Run.fired_of_spans (hrun : Run host start past) (hspan : Spans host start x span)
    (hstill : Still start (x :: span)) (hcall : start.control = .perform .fireExpired)
    (hne : span ≠ []) : Fired start x (x :: span) := by
  -- The loop is entered by the first step, so the induction begins at the second moment.
  induction hspan with
  | start => exact absurd rfl hne
  | @next x x' span hspan hopen hnext ih =>
    cases hspan with
    | start =>
      obtain ⟨hdone, hstack⟩ := hnext.of_fireExpired hcall (hstill x' List.mem_cons_self)
      have hnone : start.directHooks [x', start] = [] := by
        simp [directHooks, directHook?, hdone, hcall]
      refine ⟨?_, ?_, ?_⟩
      · rw [hnone]
        exact List.forall_mem_nil _
      · rw [hnone]
        exact Nat.zero_le _
      · rw [hnone]
        exact .inl (.loops ⟨_, hdone⟩ hstack)
    | @next y _ span hspan' hopen' hnext' =>
      have hspan := hspan'.next hopen' hnext'
      obtain ⟨htimer, hlength, hgoes⟩ := ih hstill.of_cons (List.cons_ne_nil _ _)
      -- The call is still open, so the loop goes on.
      have hfires := hgoes.resolve_right <| by
        rintro ⟨hgive, hstack, -⟩
        exact hopen ⟨⟨_, hgive⟩, Nat.le_of_eq (congrArg List.length hstack)⟩
      exact hfires.fired_next htimer hlength hnext (hspan.run hrun).timed

/-- Firing calls no more timer hooks itself than timers were due. -/
theorem Run.count_le (hrun : Run host start past) (hspan : Spans host start x span)
    (hstill : Still start (x :: span)) (hcall : start.control = .perform .fireExpired)
    (hne : span ≠ []) :
    (start.directHooks (x :: span)).length ≤ (start.world.engine.due start.world.now).length := by
  have hstart : start.timerCall? = none := by simp [timerCall?, hcall]
  exact Nat.le_trans (hrun.fired_of_spans hspan hstill hcall hne).length_le
    (hrun.length_timerCalls_le hspan.follows hstill hstart)

/-! ## The end of the loop -/

/-- The hook of a timer returns if the calls that its script makes do, because scripts are
finite. -/
theorem Spans.script_returns {frame : Frame σ ν} (script : Script σ ν)
    (hspan : Spans host start x span) (hstill : Still start (x :: span))
    (hcontrol : x.control = .run script) (hstack : x.stack = frame :: start.stack)
    (hcalls : ∀ y sub call, Spans host start y sub → Still start (y :: sub) →
      y.control = .perform call → y.stack.length = start.stack.length + 2 → Returns host y) :
    ∃ u sub, Spans host start u sub ∧ Still start (u :: sub) ∧
      (∃ reply, u.control = .give reply) ∧ u.stack = frame :: start.stack := by
  have habove : start.stack.length < x.stack.length := by
    rw [hstack, List.length_cons]
    omega
  obtain ⟨w, control, stack⟩ := x
  obtain rfl : control = .run script := hcontrol
  obtain rfl : stack = frame :: start.stack := hstack
  -- Induction on the script: what is left of it after each call is smaller.
  induction script generalizing w span with
  | done env =>
    obtain ⟨hspan', hstill'⟩ := hspan.step hstill habove rfl
    exact ⟨_, _, hspan', hstill', ⟨_, rfl⟩, rfl⟩
  | note note rest ih =>
    obtain ⟨hspan', hstill'⟩ := hspan.step hstill habove rfl
    exact ih _ hspan' hstill' habove
  | call call env next ih =>
    obtain ⟨hspan', hstill'⟩ := hspan.step hstill habove rfl
    have habove' : start.stack.length <
        (Frame.resume next :: frame :: start.stack : List (Frame σ ν)).length :=
      Nat.lt_succ_of_lt habove
    -- The call returns, and the script goes on with its answer.
    obtain ⟨⟨w', control, stack⟩, sub, hsub, hreturned, hsubstill⟩ :=
      hcalls _ _ call hspan' hstill' rfl rfl
    obtain ⟨reply, rfl⟩ : ∃ reply, control = .give reply := hreturned.1
    obtain rfl : stack = .resume next :: frame :: start.stack :=
      hsub.stack_eq_of_returned hreturned
    obtain ⟨hspan'', hstill''⟩ := hspan'.append_still hstill' habove' hsub hsubstill
    obtain ⟨hspan₃, hstill₃⟩ := hspan''.step hstill'' habove' rfl
    exact ih reply w'.toContext _ hspan₃ hstill₃ habove

/-- A hook that a call waits for returns if the calls that its script makes do. -/
theorem Spans.hook_returns {frame : Frame σ ν} {hook : Hook} (hspan : Spans host start x span)
    (hstill : Still start (x :: span)) (hhook : ∃ d h, x.control = .hook d h hook)
    (hstack : x.stack = frame :: start.stack)
    (hcalls : ∀ y sub call, Spans host start y sub → Still start (y :: sub) →
      y.control = .perform call → y.stack.length = start.stack.length + 2 → Returns host y) :
    ∃ u sub, Spans host start u sub ∧ Still start (u :: sub) ∧
      (∃ reply, u.control = .give reply) ∧ u.stack = frame :: start.stack := by
  have habove : start.stack.length < x.stack.length := by
    rw [hstack, List.length_cons]
    omega
  obtain ⟨w, control, stack⟩ := x
  obtain ⟨d, h, rfl⟩ : ∃ d h, control = .hook d h hook := hhook
  obtain rfl : stack = frame :: start.stack := hstack
  obtain ⟨hspan', hstill'⟩ := hspan.step hstill habove rfl
  exact hspan'.script_returns _ hstill' rfl rfl hcalls

/-- From one timer to the next: nothing is due any more and firing returns, or the next hook is
called and returns. -/
theorem Run.fires_next (hrun : Run host start past) (hspan : Spans host start x span)
    (hstill : Still start (x :: span)) (hgive : ∃ reply, x.control = .give reply)
    (hstack : x.stack = .firing start.world.now count :: start.stack)
    (hcalls : ∀ y sub call, Spans host start y sub → Still start (y :: sub) →
      y.control = .perform call → y.stack.length = start.stack.length + 2 → Returns host y) :
    Returns host start ∨ ∃ u sub, Spans host start u sub ∧ Still start (u :: sub) ∧
      (∃ reply, u.control = .give reply) ∧
      u.stack = .firing start.world.now (count + 1) :: start.stack := by
  have habove : start.stack.length < x.stack.length := by
    rw [hstack, List.length_cons]
    omega
  have htimed := (hspan.run hrun).timed
  obtain ⟨w, control, stack⟩ := x
  obtain ⟨reply, rfl⟩ : ∃ reply, control = .give reply := hgive
  obtain rfl : stack = .firing start.world.now count :: start.stack := hstack
  cases hpop : w.engine.timers.popExpired start.world.now with
  | none =>
    have hstep : step host ⟨w, .give reply, .firing start.world.now count :: start.stack⟩ =
        .running ⟨w, .give (.count count), start.stack⟩ := by
      simp [step, proceed, fireNext, hpop, StateMachines.Execution.reply, goOn]
    obtain ⟨hspan', hstill'⟩ := hspan.step hstill habove hstep
    exact .inl ⟨_, _, hspan', ⟨⟨_, rfl⟩, Nat.le_refl _⟩, hstill'⟩
  | some popped =>
    obtain ⟨h, timers⟩ := popped
    obtain ⟨-, ⟨d, hd, -⟩, -⟩ := htimed.coherent.popExpired hpop
    obtain ⟨inst, hlive⟩ := htimed.live h d hd
    -- The popped timer belongs to a live instance, so its hook is called, and its script is run.
    have hstep : step host ⟨w, .give reply, .firing start.world.now count :: start.stack⟩ =
        .running ⟨{ w with engine := { w.engine with timers } }.log
          (.about inst (.timeout inst.timerLabel)), .hook inst.descriptor h .timer,
          .firing start.world.now (count + 1) :: start.stack⟩ := by
      have hlive' : Engine.get? { w.engine with timers } h = some inst := hlive
      simp [step, proceed, fireNext, hpop, hlive', goOn]
    obtain ⟨hspan', hstill'⟩ := hspan.step hstill habove hstep
    exact .inr (hspan'.hook_returns hstill' ⟨_, _, rfl⟩ rfl hcalls)

/-- The frame of a firing counts the hooks that it has called. -/
theorem Fires.count_eq {m : Nat} (hfires : Fires start x count)
    (hgive : ∃ reply, x.control = .give reply)
    (hstack : x.stack = .firing start.world.now m :: start.stack) : m = count := by
  obtain ⟨reply, hgive⟩ := hgive
  cases hfires with
  | loops _ hstack' =>
    cases hstack.symm.trans hstack'
    rfl
  | calls hcontrol =>
    obtain ⟨d, h, hcontrol⟩ := hcontrol
    cases hgive.symm.trans hcontrol
  | runs hworking =>
    cases hworking with
    | waits frame hframe hsuffix =>
      have hle := hsuffix.length_le
      simp only [hstack, List.length_cons] at hle
      omega
    | runs hcontrol =>
      obtain ⟨script, hcontrol⟩ := hcontrol
      cases hgive.symm.trans hcontrol
    | calls next hsuffix =>
      have hle := hsuffix.length_le
      simp only [hstack, List.length_cons] at hle
      omega

/-- Between two timers, no more hooks have been called than timers were due at the beginning. -/
theorem Run.count_le_due (hrun : Run host start past) (hspan : Spans host start x span)
    (hstill : Still start (x :: span)) (hcall : start.control = .perform .fireExpired)
    (hgive : ∃ reply, x.control = .give reply)
    (hstack : x.stack = .firing start.world.now count :: start.stack) :
    count ≤ (start.world.engine.due start.world.now).length := by
  have hne : span ≠ [] := by
    rintro rfl
    cases hspan
    obtain ⟨reply, hgive⟩ := hgive
    cases hgive.symm.trans hcall
  have hgoes := (hrun.fired_of_spans hspan hstill hcall hne).goes
  rcases hgoes with hfires | ⟨-, hempty, -⟩
  · rw [hfires.count_eq hgive hstack]
    exact hrun.count_le hspan hstill hcall hne
  · have hlength := congrArg List.length (hstack.symm.trans hempty)
    simp at hlength

/-- Firing returns from between two timers, because each hook that is still to be called uses up a
timer that was due at the beginning. -/
theorem Run.returns_of_loop (hrun : Run host start past)
    (hcall : start.control = .perform .fireExpired)
    (hcalls : ∀ y sub call, Spans host start y sub → Still start (y :: sub) →
      y.control = .perform call → y.stack.length = start.stack.length + 2 → Returns host y)
    (left : Nat) (hleft : (start.world.engine.due start.world.now).length ≤ count + left)
    (hspan : Spans host start x span) (hstill : Still start (x :: span))
    (hgive : ∃ reply, x.control = .give reply)
    (hstack : x.stack = .firing start.world.now count :: start.stack) : Returns host start := by
  -- Induction on the number of hooks that may still be called.
  induction left generalizing x span count with
  | zero =>
    rcases hrun.fires_next hspan hstill hgive hstack hcalls with
      hreturns | ⟨u, sub, hsub, hsubstill, hugive, hustack⟩
    · exact hreturns
    · -- One hook more would have been called than timers were due.
      have hle := hrun.count_le_due hsub hsubstill hcall hugive hustack
      omega
  | succ left ih =>
    rcases hrun.fires_next hspan hstill hgive hstack hcalls with
      hreturns | ⟨u, sub, hsub, hsubstill, hugive, hustack⟩
    · exact hreturns
    · exact ih (by omega) hsub hsubstill hugive hustack

/-- While the clock stands still, firing returns if the calls that the timer hooks make do. -/
theorem Run.returns_of_fireExpired (hrun : Run host start past)
    (hcall : start.control = .perform .fireExpired)
    (hcalls : ∀ y sub call, Spans host start y sub → Still start (y :: sub) →
      y.control = .perform call → y.stack.length = start.stack.length + 2 → Returns host y) :
    Returns host start := by
  obtain ⟨w, control, stack⟩ := start
  obtain rfl : control = .perform .fireExpired := hcall
  have hstep : step host ⟨w, .perform .fireExpired, stack⟩ =
      .running ⟨w, .give .done, .firing w.now 0 :: stack⟩ := rfl
  obtain ⟨hspan, hstill⟩ := Spans.first_step rfl hstep
  exact hrun.returns_of_loop rfl hcalls _ (Nat.le_add_left _ 0) hspan hstill ⟨_, rfl⟩ rfl

/-- While the clock stands still, firing returns if the calls that the timer hooks make do. As far
as it has come it has called the hooks of no more timers than were due at the beginning, in the
order of their deadlines and none of them twice, counting those that were called by firings inside
hooks. When it has returned, it has called the hooks of exactly those timers that were due at the
beginning and whose deadlines were not withdrawn, nothing is due, and it answers how many hooks it
has called itself. -/
theorem Run.fires_exactly (hrun : Run host start past)
    (hcall : start.control = .perform .fireExpired) :
    ((∀ y sub call, Spans host start y sub → Still start (y :: sub) →
        y.control = .perform call → y.stack.length = start.stack.length + 2 → Returns host y) →
      Returns host start) ∧
    ∀ x span, Spans host start x span → Still start (x :: span) →
      (timerCalls (x :: span)).length ≤ (start.world.engine.due start.world.now).length ∧
      ((timerCalls (x :: span)).Pairwise fun later earlier =>
        ∃ a b, start.deadline? earlier = some a ∧ start.deadline? later = some b ∧
          a.before b = true) ∧
      (timerCalls (x :: span)).Nodup ∧
      (∀ later y' y earlier h, x :: span = later ++ y' :: y :: earlier →
        y'.timerCall? = some h → ∃ d, y.deadline? h = some d ∧ start.deadline? h = some d ∧
          d.time ≤ start.world.now) ∧
      (start.Returned x →
        (∀ h, h ∈ timerCalls (x :: span) ↔ ∃ d, start.deadline? h = some d ∧
          d.time ≤ start.world.now ∧ ¬ Withdrawn h d (x :: span)) ∧
        (∀ h d, x.deadline? h = some d → start.world.now < d.time) ∧
        x.control = .give (.count (start.directHooks (x :: span)).length) ∧
        ∀ call ∈ start.directHooks (x :: span), call.2 = .timer) := by
  have hstart : start.timerCall? = none := by simp [timerCall?, hcall]
  refine ⟨hrun.returns_of_fireExpired hcall, ?_⟩
  intro x span hspan hstill
  have hfollows := hspan.follows
  refine ⟨hrun.length_timerCalls_le hfollows hstill hstart,
    hrun.timerCalls_pairwise hfollows hstill hstart,
    hrun.timerCalls_nodup hfollows hstill hstart, ?_, ?_⟩
  · intro later y' y earlier h heq hhook
    obtain ⟨hy, hnext⟩ := hfollows.next_of_append heq
    rw [heq] at hstill
    obtain ⟨d, hd, hdstart, hdue, -⟩ := hrun.expired hy hnext hstill.of_append hhook
    exact ⟨d, hd, hdstart, hdue⟩
  intro hreturned
  have hne : span ≠ [] := by
    obtain ⟨y, later, -, -, rfl⟩ := hspan.step_of_perform hreturned hcall
    simp
  obtain ⟨htimer, -, hgoes⟩ := hrun.fired_of_spans hspan hstill hcall hne
  rcases hgoes with hfires | ⟨hanswer, -, hdone⟩
  · exact absurd hreturned.2 (Nat.not_le_of_lt hfires.length_lt)
  · exact ⟨fun h => hrun.mem_timerCalls_iff hfollows hstill hstart hdone, hdone, hanswer, htimer⟩

/-- The timer of the third instance ends the first one and fires timers, and that of the second one
arms it again. -/
def ringer : Host Unit Unit where
  script _ h hook _ :=
    match hook with
    | .timer =>
      if h = ⟨2, 0⟩ then
        .call (.terminate ⟨0, 0⟩ .regular none) () fun _ _ =>
          .call .fireExpired () fun _ _ => .done ()
      else .call (.changeState h 0 5 0) () fun _ _ => .done ()
    | _ => .done ()

/-- A run in which the timers of three instances are armed, the first one for the latest time. -/
def wound : Execution Unit Unit × List (Execution Unit Unit) :=
  session ringer 20 (idle { logAddr := false } ()) []
    [.alloc .beacon none none none, .alloc .beacon none none none, .alloc .beacon none none none,
      .changeState ⟨0, 0⟩ 0 9 0, .changeState ⟨1, 0⟩ 0 7 0, .changeState ⟨2, 0⟩ 0 3 0]

/-- The moment at which the timers are fired, when all of them are due. -/
def ringing : Execution Unit Unit := ofCall { wound.1.world with now := 10 } .fireExpired

/-- The moments of the firing. -/
def rung : Execution Unit Unit × List (Execution Unit Unit) :=
  follow ringer ringing 80 ringing []

/-- The third timer fires, and the second one inside its hook; the first one is withdrawn. -/
theorem rung_fires : Returns ringer ringing ∧
    timerCalls (rung.1 :: rung.2) = [⟨1, 0⟩, ⟨2, 0⟩] ∧
    (∀ h, h ∈ timerCalls (rung.1 :: rung.2) ↔ ∃ d, ringing.deadline? h = some d ∧
      d.time ≤ ringing.world.now ∧ ¬ Withdrawn h d (rung.1 :: rung.2)) ∧
    (∀ h d, rung.1.deadline? h = some d → ringing.world.now < d.time) ∧
    rung.1.control = .give (.count 1) := by
  have hrun : Run ringer ringing (wound.1 :: wound.2) :=
    (run_session 20 _ (run_idle _ _)).next (.call _ _ rfl rfl (Nat.zero_le _))
  have hspan : Spans ringer ringing rung.1 rung.2 := spans_follow 80 .start
  have hstill : Still ringing (rung.1 :: rung.2) := by decide
  have hreturned : ringing.Returned rung.1 := by decide
  obtain ⟨hreturns, hexact⟩ := Run.fires_exactly hrun rfl
  obtain ⟨-, -, -, -, hdone⟩ := hexact rung.1 rung.2 hspan hstill
  obtain ⟨hfired, hahead, hcount, -⟩ := hdone hreturned
  refine ⟨hreturns ?_, by decide, hfired, hahead, hcount⟩
  -- The firing has one course, so the calls that hooks make are among its moments.
  intro y sub call hsub hsubstill hcall hlevel
  have hcalls : ∀ y ∈ rung.1 :: rung.2, y.stack.length = ringing.stack.length + 2 →
      y.Returned (follow ringer y 80 y []).1 ∧
        Still y ((follow ringer y 80 y []).1 :: (follow ringer y 80 y []).2) := by
    decide
  have hmem : y ∈ rung.1 :: rung.2 :=
    (hspan.suffix_of_returned hreturned hstill hsub hsubstill).subset List.mem_cons_self
  obtain ⟨hyreturned, hystill⟩ := hcalls y hmem hlevel
  exact ⟨_, _, spans_follow 80 .start, hyreturned, hystill⟩

end Execution

end StateMachines
