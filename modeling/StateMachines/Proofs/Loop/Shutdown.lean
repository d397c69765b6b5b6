import StateMachines.Proofs.Loop.Delivery
import StateMachines.Proofs.Timers.Firing

/-!
# Loops that are told to stop at once

A loop that begins while an immediate signal is pending fires the due timers before it looks for
signals. It makes no other call, and as long as nobody replaces the signal it ends as soon as the
firing has returned. So it leaves the engine alone if no timer is due, and what it does otherwise is
what the firing does.

## Main definitions

* `Service.Awaits`: what a service comes to while an immediate signal is pending.
* `Service.Attends`: how far the loop has got with it.

## Main results

* `Service.Awaits.attends`: the loop fires the timers and then stops.
* `Service.immediate_after_firing`: what an immediate signal comes to, for the loop among its
  clients and for the loop on its own.
-/

namespace StateMachines

variable {σ ν : Type} {host : Host σ ν}

/-! ## Firing when nothing is due -/

namespace Engine

variable {e : Engine} {t t' : Time}

/-- No pending deadline has come. -/
def NothingDue (e : Engine) (t : Time) : Prop := ∀ time, e.nextDeadline? = some time → t < time

/-- What is not due now was not due before. -/
theorem NothingDue.mono (hdue : e.NothingDue t') (hle : t ≤ t') : e.NothingDue t :=
  fun time hnext => Nat.lt_of_le_of_lt hle (hdue time hnext)

/-- If nothing is due, no timer can be taken off the queue. -/
theorem NothingDue.popExpired (hdue : e.NothingDue t) : e.timers.popExpired t = none := by
  unfold TimerQueue.popExpired
  split
  next deadline h rest hagenda =>
    have hnext : e.nextDeadline? = some deadline.time := by
      simp [nextDeadline?, TimerQueue.next?, hagenda]
    exact if_neg (Nat.not_le_of_lt (hdue _ hnext))
  next => rfl

end Engine

namespace Execution

variable {w : World σ ν} {x : Execution σ ν}

/-- A firing that finds nothing due, in a world that is otherwise as `w`. -/
structure FiresNothing (w : World σ ν) (x : Execution σ ν) : Prop where
  engine : x.world.engine = w.engine
  journal : x.world.journal = w.journal
  /-- The firing is about to begin, is about to take a timer off the queue, or has returned. -/
  stage : x.control = .perform .fireExpired ∧ x.stack = [] ∨
    (∃ reply, x.control = .give reply) ∧
      (x.stack = [] ∨ ∃ t ≤ x.world.now, x.stack = [.firing t 0])

/-- As long as nothing is due, a firing goes on to find nothing, or it has returned. -/
theorem FiresNothing.step (host : Host σ ν) (hx : x.FiresNothing w)
    (hdue : w.engine.NothingDue x.world.now) :
    (∃ x', x.step host = .running x' ∧ x'.FiresNothing w) ∨
      ∃ reply, x.step host = .finished x.world reply := by
  obtain ⟨v, control, stack⟩ := x
  obtain ⟨hengine, hjournal, hstage⟩ := hx
  rcases hstage with ⟨hcontrol, hstack⟩ | ⟨⟨reply, hcontrol⟩, hstack⟩
  · obtain rfl : control = .perform .fireExpired := hcontrol
    obtain rfl : stack = [] := hstack
    exact .inl ⟨⟨v, .give .done, [.firing v.now 0]⟩, rfl, hengine, hjournal,
      .inr ⟨⟨_, rfl⟩, .inr ⟨v.now, Nat.le_refl _, rfl⟩⟩⟩
  · obtain rfl : control = .give reply := hcontrol
    rcases hstack with hstack | ⟨t, htime, hstack⟩
    · obtain rfl : stack = [] := hstack
      exact .inr ⟨reply, rfl⟩
    · obtain rfl : stack = [.firing t 0] := hstack
      -- Nothing is due now, so nothing was due when the firing began.
      have hnone : v.engine.timers.popExpired t = none := by
        rw [show v.engine = w.engine from hengine]
        exact (hdue.mono htime).popExpired
      refine .inl ⟨⟨v, .give (.count 0), []⟩, ?_, hengine, hjournal, .inr ⟨⟨_, rfl⟩, .inl rfl⟩⟩
      simp only [Execution.step, proceed, fireNext, hnone]
      rfl

end Execution

/-! ## The loop among its clients -/

namespace LoopProgress

/-- The world of a loop that works or has ended. -/
def world? : LoopProgress σ ν → Option (World σ ν)
  | .running l | .parked l => some l.task.world
  | .ended w _ => some w
  | .faulted _ => none

/-- An immediate signal is pending as long as the loop works. -/
def Pending (p : LoopProgress σ ν) : Prop :=
  ∀ l, p.loop? = some l → l.task.world.inbox.signal = some .immediate

/-- How far a loop that began in the world `w` has got while an immediate signal is pending, and
which calls it has made. -/
inductive Attends (w : World σ ν) : LoopProgress σ ν → List Call → Prop where
  /-- The loop has not made a call yet. -/
  | begins {l : Loop σ ν} (hphase : l.phase = .begin) (hwatching : l.watching = true)
      (hreturned : l.Returned) (hengine : l.task.world.engine = w.engine)
      (hjournal : l.task.world.journal = w.journal) : Attends w (.running l) []
  /-- The loop fires the timers, and then looks for signals. -/
  | fires {l : Loop σ ν} (hphase : l.phase = .watch) (hwatching : l.watching = true)
      (hnothing : w.engine.NothingDue l.task.world.now → l.task.FiresNothing w) :
      Attends w (.running l) [.fireExpired]
  /-- The loop has stopped. -/
  | stops {v : World σ ν}
      (hnothing : w.engine.NothingDue v.now →
        v.engine = w.engine ∧ v.journal = .record .loopStopped :: w.journal) :
      Attends w (.ended v .stopped) [.fireExpired]
  /-- The firing has broken an assumption of the engine. -/
  | faults (fault : Fault) : Attends w (.faulted fault) [.fireExpired]

variable {w : World σ ν} {p : LoopProgress σ ν} {l : Loop σ ν} {calls : List Call} {t : Time}

/-- The moves of clients do not keep the loop from attending to the signal. -/
theorem Attends.move (hp : p.Attends w calls) (m : ClientMove) :
    (p.update fun w => { w with inbox := w.inbox.move m }).Attends w calls := by
  cases hp with
  | begins hphase hwatching hreturned hengine hjournal =>
    exact .begins hphase hwatching hreturned hengine hjournal
  | fires hphase hwatching hnothing =>
    refine .fires hphase hwatching fun hdue => ?_
    obtain ⟨hengine, hjournal, hstage⟩ := hnothing hdue
    exact ⟨hengine, hjournal, hstage⟩
  | stops hnothing => exact .stops hnothing
  | faults fault => exact .faults fault

/-- The first decision of a loop is to fire the timers. -/
theorem Attends.begin (hphase : l.phase = .begin) (hwatching : l.watching = true)
    (hreturned : l.Returned) (hengine : l.task.world.engine = w.engine)
    (hjournal : l.task.world.journal = w.journal) :
    ((l.atTime t).step host).Attends w ((l.atTime t).step host).call?.toList := by
  obtain ⟨⟨reply, hreply⟩, hstack⟩ := hreturned
  obtain ⟨⟨v, control, stack⟩, phase, watching⟩ := l
  obtain rfl : control = .give reply := hreply
  obtain rfl : stack = [] := hstack
  obtain rfl : phase = .begin := hphase
  obtain rfl : watching = true := hwatching
  exact .fires rfl rfl fun hdue => ⟨hengine, hjournal, .inl ⟨rfl, rfl⟩⟩

/-- A loop that fires the timers goes on with the firing, and stops when it has returned. -/
theorem Attends.fire (host : Host σ ν) (hphase : l.phase = .watch) (hwatching : l.watching = true)
    (hnothing : w.engine.NothingDue l.task.world.now → l.task.FiresNothing w)
    (hsignal : l.task.world.inbox.signal = some .immediate) (htime : l.task.world.now ≤ t) :
    ((l.atTime t).step host).Attends w [.fireExpired] ∧ ((l.atTime t).step host).call? = none := by
  have hthen : w.engine.NothingDue t → (l.task.atTime t).FiresNothing w := by
    intro hdue
    obtain ⟨hengine, hjournal, hstage⟩ := hnothing (hdue.mono htime)
    refine ⟨hengine, hjournal, hstage.imp id (And.imp id (Or.imp id ?_))⟩
    rintro ⟨began, hbegan, hstack⟩
    exact ⟨began, Nat.le_trans hbegan htime, hstack⟩
  have hsteps := Loop.stepsTo_of_step host (l.atTime t)
  generalize hp : (l.atTime t).step host = p at hsteps
  cases hsteps with
  | @works x ht =>
    -- The firing takes its next step, and if nothing is due it still finds nothing.
    refine ⟨.fires hphase hwatching fun hdue => ?_, Loop.call?_eq_none_of_transition ht⟩
    have hnow : x.world.now = t := ht.now_eq
    have hdue' : w.engine.NothingDue t := by
      rw [← hnow]
      exact hdue
    rcases (hthen hdue').step host hdue' with ⟨x', hstep, hx'⟩ | ⟨reply, hstep⟩
    · unfold Loop.step at hp
      rw [show (l.atTime t).task.step host = .running x' from hstep] at hp
      cases hp
      exact hx'
    · rw [show (l.atTime t).task = _ from Execution.step_eq_finished_iff.1 hstep] at ht
      cases ht
  | faults fault => exact ⟨.faults fault, rfl⟩
  | decides hreply hstack hdecision =>
    rw [show (l.atTime t).phase = .watch from hphase] at hdecision
    -- Of what a loop may decide here only the stop fits the pending signal.
    cases hdecision with
    | stops =>
      refine ⟨.stops fun hdue => ?_, rfl⟩
      obtain ⟨hengine, hjournal, -⟩ := hthen hdue
      exact ⟨hengine, congrArg _ hjournal⟩
    | drains _ hgraceful => cases hsignal.symm.trans hgraceful
    | deserted _ hnone => cases hsignal.symm.trans hnone
    | unsignalled hnone => cases hsignal.symm.trans (hnone hwatching).1

/-- What a loop does next while it attends to the signal. -/
theorem Attends.step (hp : p.Attends w calls) (hpending : p.Pending) (hloop : p.loop? = some l)
    (htime : l.task.world.now ≤ t) :
    ((l.atTime t).step host).Attends w (calls ++ ((l.atTime t).step host).call?.toList) := by
  have hsignal := hpending l hloop
  cases hp with
  | begins hphase hwatching hreturned hengine hjournal =>
    cases hloop
    exact .begin hphase hwatching hreturned hengine hjournal
  | fires hphase hwatching hnothing =>
    cases hloop
    obtain ⟨hnext, hnone⟩ := Attends.fire host hphase hwatching hnothing hsignal htime
    rw [hnone]
    exact hnext
  | stops | faults => cases hloop

end LoopProgress

namespace Service

variable {s : Service σ ν} {w : World σ ν}

/-- What a service comes to while an immediate signal is pending, because nobody replaces it. -/
abbrev Awaits (host : Host σ ν) : Service σ ν → Service σ ν → Prop :=
  Relation.ReflTransGen fun s s' => s.loop.Pending ∧ Next host s s'

/-- While an immediate signal is pending, a loop fires the timers and then stops. -/
theorem Awaits.attends (hawaits : Awaits host (ofWorld w) s) : s.loop.Attends w s.calls := by
  induction hawaits with
  | refl => exact .begins rfl rfl ⟨⟨_, rfl⟩, rfl⟩ rfl rfl
  | tail _ hnext ih =>
    obtain ⟨hpending, hnext⟩ := hnext
    cases hnext with
    | step t hloop htime => exact ih.step hpending hloop htime
    | client m => exact ih.move m

end Service

/-! ## The loop on its own -/

namespace Loop

variable {l : Loop σ ν} {w v : World σ ν} {reply : Reply} {how : LoopEnd} {fuel : Nat}

/-- A loop makes its call and goes on with what it decides when the call has returned. -/
theorem run_of_task_run (htask : l.task.run host fuel = some (.ok (w, reply)))
    (hend : l.decide w = .ended v how) : l.run host fuel = some (.ended v how) := by
  induction fuel generalizing l with
  | zero => cases htask
  | succ fuel ih =>
    unfold Execution.run at htask
    unfold run step
    cases hstep : l.task.step host with
    | running x =>
      rw [hstep] at htask
      exact ih (l := { l with task := x }) htask hend
    | finished w' reply' =>
      rw [hstep] at htask
      cases htask
      dsimp only
      rw [hend]
    | faulted fault =>
      rw [hstep] at htask
      cases htask

/-- A loop on its own that begins while an immediate signal is pending stops when it has fired the
timers, unless a hook has replaced the signal. -/
theorem run_of_immediate
    (hfire : (Execution.ofCall w .fireExpired).run host fuel = some (.ok (v, reply)))
    (hsignal : v.inbox.signal = some .immediate) :
    (ofWorld w).run host (fuel + 1) =
      some (finish ({ v with inbox := v.inbox.seen }.log .loopStopped) .stopped) := by
  have hdecide : (⟨.ofCall w .fireExpired, .watch, true⟩ : Loop σ ν).decide v =
      finish ({ v with inbox := v.inbox.seen }.log .loopStopped) .stopped := by
    simp only [decide, watch, if_true, hsignal]
  exact run_of_task_run (l := ⟨.ofCall w .fireExpired, .watch, true⟩) hfire hdecide

/-- If nothing is due, firing the timers leaves the world as it is. -/
theorem run_fireExpired_of_nothingDue (hdue : w.engine.NothingDue w.now) :
    (Execution.ofCall w .fireExpired).run host 3 = some (.ok (w, .count 0)) := by
  have hnone := hdue.popExpired
  simp only [Execution.run, Execution.step, Execution.ofCall, Execution.begin, Execution.reply,
    Execution.goOn, Execution.proceed, Execution.fireNext, hnone]

end Loop

namespace Service

variable {w : World σ ν}

/-- A loop that begins while an immediate signal is pending fires the due timers, which is the only
call it makes, and then it stops. If nothing is due, it leaves the engine alone and calls no hook.
The first part is about the loop among its clients, until somebody replaces the signal; the others
are about the loop on its own, which ends because the firing returns. -/
theorem immediate_after_firing (hsignal : w.inbox.signal = some .immediate) :
    (∀ s, Awaits host (ofWorld w) s →
      (s.calls = [] ∨ s.calls = [.fireExpired]) ∧
      (∀ v how, s.loop = .ended v how → how = .stopped ∧ s.calls = [.fireExpired]) ∧
      ∀ v, s.loop.world? = some v → w.engine.NothingDue v.now → v.engine = w.engine ∧
        (v.journal = w.journal ∨ v.journal = .record .loopStopped :: w.journal)) ∧
    (∀ fuel v reply, (Execution.ofCall w .fireExpired).run host fuel = some (.ok (v, reply)) →
      v.inbox.signal = some .immediate →
      (Loop.ofWorld w).run host (fuel + 1) =
        some (Loop.finish ({ v with inbox := v.inbox.seen }.log .loopStopped) .stopped)) ∧
    (w.engine.NothingDue w.now →
      ∃ v, (Loop.ofWorld w).run host 4 = some (.ended v .stopped) ∧ v.engine = w.engine ∧
        v.journal = .record .loopStopped :: w.journal) := by
  refine ⟨fun s hawaits => ?_, fun _ _ _ hfire hstill => Loop.run_of_immediate hfire hstill,
    fun hdue =>
      ⟨_, Loop.run_of_immediate (Loop.run_fireExpired_of_nothingDue hdue) hsignal, rfl, rfl⟩⟩
  have hattends := hawaits.attends
  generalize s.loop = p at hattends
  generalize s.calls = calls at hattends
  cases hattends with
  | begins hphase hwatching hreturned hengine hjournal =>
    refine ⟨.inl rfl, nofun, fun v hv _ => ?_⟩
    cases hv
    exact ⟨hengine, .inl hjournal⟩
  | fires hphase hwatching hnothing =>
    refine ⟨.inr rfl, nofun, fun v hv hdue => ?_⟩
    cases hv
    exact ⟨(hnothing hdue).engine, .inl (hnothing hdue).journal⟩
  | stops hnothing =>
    refine ⟨.inr rfl, fun v how hended => ?_, fun v hv hdue => ?_⟩
    · cases hended
      exact ⟨rfl, rfl⟩
    · cases hv
      exact ⟨(hnothing hdue).1, .inr (hnothing hdue).2⟩
  | faults fault => exact ⟨.inr rfl, nofun, nofun⟩

/-- An engine with one instance whose timer is due, and an inbox with an immediate signal. -/
def overdue : World Unit Unit :=
  { (Execution.session Execution.passive 10 (Execution.idle { logAddr := false } ()) []
      [.alloc .beacon none none none, .changeState ⟨0, 0⟩ 0 3 7]).1.world with
    now := 3, inbox := { capacity := 4, signal := some .immediate } }

/-- The timer fires before the loop stops; had the loop begun earlier, it would not have fired. -/
theorem overdue_fires :
    (∃ v, (Loop.ofWorld overdue).run Execution.passive 8 = some (.ended v .stopped) ∧
      v.journal.take 2 = [.record .loopStopped, .hook ⟨0, 0⟩ .timer] ∧
      v.engine.nextDeadline? = none) ∧
    ∃ v, (Loop.ofWorld { overdue with now := 2 }).run Execution.passive 4 =
        some (.ended v .stopped) ∧ v.engine = overdue.engine := by
  obtain ⟨-, hfires, -⟩ := @immediate_after_firing _ _ Execution.passive overdue rfl
  obtain ⟨-, -, hquiet⟩ :=
    @immediate_after_firing _ _ Execution.passive { overdue with now := 2 } rfl
  refine ⟨⟨_, hfires 7 _ _ rfl rfl, rfl, rfl⟩, ?_⟩
  obtain ⟨v, hrun, hengine, -⟩ := hquiet (by unfold Engine.NothingDue; decide)
  exact ⟨v, hrun, hengine⟩

/-- An immediate signal does not keep a loop from calling hooks and taking deadlines off the
queue. -/
theorem overdue_not_obeyed : ¬ ∀ (w : World Unit Unit) (fuel : Nat) (v : World Unit Unit)
    (how : LoopEnd), w.inbox.signal = some .immediate →
      (Loop.ofWorld w).run Execution.passive fuel = some (.ended v how) →
      (∀ h hook, .hook h hook ∈ v.journal → .hook h hook ∈ w.journal) ∧
        ∀ h, v.engine.timers.deadline? h = w.engine.timers.deadline? h := by
  intro hobeyed
  obtain ⟨hhooks, -⟩ := hobeyed overdue 8 _ _ rfl rfl
  exact absurd (hhooks ⟨0, 0⟩ .timer (by decide)) (by decide)

end Service

end StateMachines
