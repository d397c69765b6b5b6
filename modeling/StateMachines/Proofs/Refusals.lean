import StateMachines.Proofs.Execution.Outcome
import StateMachines.Proofs.StateWalk
import StateMachines.Proofs.Timers.Firing

/-!
# Calls that change nothing

A call about a handle that refers to nothing is answered at once. It changes the engine in no way,
calls no hook, and leaves at most records in the log. Some of the calls need no condition for that:
they look at the instance first. Others touch the timer queue under the same handle, or edit the
store there, and those change nothing because of what is true at every moment of a run, that only
live instances have a timer.

The same is true of a delivery that answers that the event is not permitted, of a change of state
that answers that there is no such edge, and of the termination of an instance that is being
terminated.

## Main definitions

* `Call.subject?`: the handle that a call is about.
* `Call.absence`: what a call answers about a handle that refers to nothing.
* `Engine.Absent`: nothing can be read off an engine about a handle.
* `Execution.Unheeded`: a call has been answered without any effect.

## Main results

* `Engine.Timed.absent`: nothing can be read about a dead handle.
* `Execution.unheeded_of_dead`: a call about a dead handle has no effect.
* `Execution.Run.refused_unheeded`: the same along every run, and for the calls about live instances
  that are refused.
-/

namespace StateMachines

/-- The handle of the instance that a call is about. -/
def Call.subject? : Call → Option Handle
  | .allocChild _ parent _ => some parent
  | .free target | .dispatch target _ _ | .changeState target _ _ _ | .terminate target _ _ =>
    some target
  | .setLevel target _ | .setPayload target _ | .takePayload target => some target
  | _ => none

/-- What a call answers about a handle that refers to nothing. -/
def Call.absence (h : Handle) : Call → Reply
  | .allocChild .. | .dispatch .. | .changeState .. => .refused (.invalidInstance h)
  | .takePayload _ => .detached none
  | _ => .done

namespace Engine

variable {e : Engine} {h : Handle} {f : Instance → Instance}

/-- Nothing can be read off the engine about a handle. -/
structure Absent (e : Engine) (h : Handle) : Prop where
  isAlive : e.isAlive h = false
  nameOf : e.nameOf h = "NULL"
  id? : e.id? h = none
  descriptor? : e.descriptor? h = none
  state? : e.state? h = none
  parent? : e.parent? h = none
  children : e.children h = []
  level? : e.level? h = none
  timerLabel? : e.timerLabel? h = none
  payload? : e.payload? h = none
  timerRemaining? : ∀ now, e.timerRemaining? now h = none

/-- Nothing can be read about a dead handle. -/
theorem Timed.absent (htimed : e.Timed) (hdead : e.get? h = none) : e.Absent h where
  isAlive := isAlive_eq_false_iff.2 hdead
  nameOf := by rw [Engine.nameOf, hdead]
  id? := by rw [Engine.id?, hdead, Option.bind_none]
  descriptor? := by rw [Engine.descriptor?, hdead, Option.map_none]
  state? := by rw [Engine.state?, hdead, Option.map_none]
  parent? := by rw [Engine.parent?, hdead, Option.bind_none]
  children := by rw [Engine.children, hdead]
  level? := by rw [Engine.level?, hdead, Option.map_none]
  timerLabel? := by rw [Engine.timerLabel?, hdead, Option.map_none]
  payload? := by rw [Engine.payload?, hdead, Option.bind_none]
  timerRemaining? now := by
    rw [Engine.timerRemaining?, TimerQueue.remaining?, deadline?_eq_none_of_dead htimed.live hdead,
      Option.map_none]

/-- A change under a dead handle changes nothing. -/
theorem modify_eq_self (hdead : e.get? h = none) : e.modify h f = e := by
  rw [modify, Store.modify_eq_self hdead]

/-- Releasing a dead handle changes nothing, because it has no timer. -/
theorem Timed.free_eq_self (htimed : e.Timed) (hdead : e.get? h = none) : e.free h = e := by
  have hnone := deadline?_eq_none_of_dead htimed.live hdead
  rw [free, Store.remove_eq_self hdead, TimerQueue.cancel, hnone]

end Engine

namespace Execution

variable {σ ν : Type} {host : Host σ ν} {x y s : Execution σ ν} {past span : List (Execution σ ν)}
  {h : Handle} {call : Call} {inst : Instance} {event : EventId} {data : Option Payload}
  {state : StateId} {timeout : Duration} {label : Nat} {cause : Cause} {name source what : String}

/-- The moment `y` is as the moment `s` was, except that time may have passed, that records may have
been published, and that an answer is given to whoever made the call. -/
structure Unheeded (s y : Execution σ ν) (reply : Reply) : Prop where
  /-- The call is answered. -/
  control : y.control = .give reply
  /-- Whoever made the call gets the answer. -/
  stack : y.stack = s.stack
  /-- The engine is the same. -/
  engine : y.world.engine = s.world.engine
  /-- So is the inbox of the loop. -/
  inbox : y.world.inbox = s.world.inbox
  /-- So is the environment of the scripts. -/
  env : y.world.env = s.world.env
  /-- Nothing but records was added to the journal, so no hook was called. -/
  journal : ∃ records : List Record,
    y.world.journal = records.map .record ++ s.world.journal

/-- An answer after which the engine is what it was, and that was given after some records had been
published, has no effect. -/
theorem unheeded_of_records {w : World σ ν} {control : Control σ ν} {stack : List (Frame σ ν)}
    {engine : Engine} {reply : Reply} (t : Time) (records : List Record)
    (hengine : engine = w.engine) :
    Unheeded ⟨w, control, stack⟩
      ⟨{ w with engine, now := t, journal := records.map .record ++ w.journal },
        .give reply, stack⟩ reply where
  control := rfl
  stack := rfl
  engine := hengine
  inbox := rfl
  env := rfl
  journal := ⟨records, rfl⟩

/-- Whatever the time is, a call about a dead handle is answered by the next step and has no
effect. -/
theorem unheeded_of_dead (htimed : x.world.engine.Timed) (hdead : x.world.engine.get? h = none)
    (hcall : x.control = .perform call) (hsubject : call.subject? = some h) (t : Time) :
    ∃ y, (x.atTime t).step host = .running y ∧ Unheeded x y (call.absence h) := by
  obtain ⟨w, control, stack⟩ := x
  obtain rfl : control = .perform call := hcall
  have hdead' : w.engine.get? h = none := hdead
  cases call with
  -- Some calls look at the instance first, and only record that there is none.
  | allocChild d parent event =>
    cases hsubject
    refine ⟨_, ?_, unheeded_of_records t [.parentMissing d.subsystem d.name h] rfl⟩
    simp only [step, atTime, begin, beginAllocChild, hdead']
    rfl
  | dispatch target event data =>
    cases hsubject
    refine ⟨_, ?_, unheeded_of_records t [.backtrace, .targetMissing h event] rfl⟩
    simp only [step, atTime, begin, beginDispatch, hdead']
    rfl
  | changeState target state timeout label =>
    cases hsubject
    refine ⟨_, ?_, unheeded_of_records t [] rfl⟩
    simp only [step, atTime, begin, beginChange, hdead']
    rfl
  | terminate target cause data =>
    cases hsubject
    refine ⟨_, ?_, unheeded_of_records t [.endMissing h cause] rfl⟩
    simp only [step, atTime, begin, beginEnd, hdead']
    rfl
  -- The others change the store and the timers under the handle, where there is nothing.
  | free target =>
    cases hsubject
    exact ⟨_, rfl, unheeded_of_records t [] (htimed.free_eq_self hdead)⟩
  | setLevel target level =>
    cases hsubject
    exact ⟨_, rfl, unheeded_of_records t [] (Engine.modify_eq_self hdead)⟩
  | setPayload target payload =>
    cases hsubject
    exact ⟨_, rfl, unheeded_of_records t [] (Engine.modify_eq_self hdead)⟩
  | takePayload target =>
    cases hsubject
    have hnone : w.engine.payload? h = none := (htimed.absent hdead).payload?
    have hsame : w.engine.setPayload h none = w.engine := Engine.modify_eq_self hdead
    refine ⟨_, ?_, unheeded_of_records t [] hsame⟩
    simp only [step, atTime, begin, hnone]
    rfl
  | _ => cases hsubject

/-- Whatever the time is, the termination of an instance that is being terminated is answered by the
next step and has no effect. -/
theorem unheeded_of_terminating (hlive : x.world.engine.get? h = some inst)
    (hending : inst.terminating = true) (hcall : x.control = .perform (.terminate h cause data))
    (t : Time) : ∃ y, (x.atTime t).step host = .running y ∧ Unheeded x y .done := by
  obtain ⟨w, control, stack⟩ := x
  obtain rfl : control = .perform (.terminate h cause data) := hcall
  have hlive' : w.engine.get? h = some inst := hlive
  refine ⟨_, ?_, unheeded_of_records t [.about inst (.alreadyTerminating cause)] rfl⟩
  simp only [step, atTime, begin, beginEnd, hlive', hending]
  rfl

/-- The call that is about to begin returns by its first step, whatever the time is then, with the
given answer and without any effect. -/
structure Ignored (host : Host σ ν) (s : Execution σ ν) (reply : Reply) : Prop where
  /-- It returns. -/
  returns : ∀ t, ∃ y, (s.atTime t).step host = .running y ∧ s.Returned y
  /-- It has no effect. -/
  unheeded : ∀ y span, Spans host s y span → s.Returned y → span = [s] ∧ Unheeded s y reply

/-- A call that is answered by the next step without effect is ignored. -/
theorem ignored_of_unheeded {reply : Reply} (hcall : s.control = .perform call)
    (hunheeded : ∀ t, ∃ z, (s.atTime t).step host = .running z ∧ Unheeded s z reply) :
    Ignored host s reply := by
  have hanswered : ∀ {z}, Unheeded s z reply → s.Returned z := fun hz =>
    ⟨⟨reply, hz.control⟩, Nat.le_of_eq (congrArg List.length hz.stack)⟩
  constructor
  · intro t
    obtain ⟨z, hstep, hz⟩ := hunheeded t
    exact ⟨z, hstep, hanswered hz⟩
  · intro y span hspan hreturned
    obtain ⟨z, later, hnext, hfollows, rfl⟩ := hspan.step_of_perform hreturned hcall
    have hz : Unheeded s z reply := by
      cases hnext with
      | move t htime hstep =>
        obtain ⟨z', hstep', hz⟩ := hunheeded t
        cases hstep.symm.trans hstep'
        exact hz
      | call w' call' hstep =>
        obtain rfl := step_eq_finished_iff.1 hstep
        cases hcall
    -- The call has returned after its first step, so it goes on no further.
    obtain ⟨rfl, rfl⟩ := hspan.eq_of_returned hfollows (hanswered hz)
    exact ⟨rfl, hz⟩

/-- A delivery that answers that the event is not permitted has no effect. -/
theorem Spans.unheeded_of_eventNotPermitted (hspan : Spans host s y span)
    (hreturned : s.Returned y) (hcall : s.control = .perform (.dispatch h event data))
    (hrefused : y.control = .give (.refused (.eventNotPermitted name source what))) :
    span = [s] ∧ Unheeded s y (.refused (.eventNotPermitted name source what)) := by
  obtain ⟨z, earlier, rfl, hnext, ⟨rfl, rfl⟩ | hdone⟩ :=
    hspan.last_step_of_dispatch hreturned hcall
  · refine ⟨rfl, ?_⟩
    obtain ⟨t, -, ht⟩ := hnext.of_perform hcall
    cases ht with
    | answered hanswers =>
      cases hanswers with
      | unheard => cases hrefused
      | eventRefused hlive hall haccepts hwhy =>
        cases hrefused
        exact unheeded_of_records t [_, _] rfl
    | deliversAll | delivers => cases hrefused
  · cases hdone.symm.trans hrefused

/-- A change of state that answers that there is no such edge has no effect. -/
theorem Spans.unheeded_of_transitionNotPermitted (hspan : Spans host s y span)
    (hreturned : s.Returned y)
    (hcall : s.control = .perform (.changeState h state timeout label))
    (hrefused : y.control = .give (.refused (.transitionNotPermitted name source what))) :
    span = [s] ∧ Unheeded s y (.refused (.transitionNotPermitted name source what)) := by
  obtain ⟨z, earlier, rfl, hnext, ⟨rfl, rfl⟩ | ⟨frame, hframe, hstack, hgive⟩⟩ :=
    (owns_of_changeState hcall).last_step hspan hreturned (control_ne_give hcall)
  · refine ⟨rfl, ?_⟩
    rcases hnext.of_changeState hcall with ⟨t, w', reply, hanswers, rfl⟩ | ⟨hnot, -⟩
    · cases hrefused
      cases hanswers with
      | changeRefused hlive hpermits hwhy =>
        cases hwhy
        exact unheeded_of_records t [_] rfl
    · exact absurd hrefused (hnot _)
  · -- A change whose edge was found is not refused for want of one any more.
    rcases hnext.of_change hframe hstack hgive with ⟨hnot, -⟩ | ⟨-, hgone | ⟨hdone, -⟩⟩
    · exact absurd hrefused (hnot _)
    · cases hgone.symm.trans hrefused
    · cases hdone.symm.trans hrefused

/-- Nothing can be read about a dead handle, and every call about it is ignored: it answers that the
instance does not exist, or that there is nothing, and leaves the engine exactly as it was. The
termination of an instance that is being terminated is ignored as well. A delivery that answers that
the event is not permitted, and a change of state that answers that there is no such edge, have
returned by their first step and have had no effect. -/
theorem Run.refused_unheeded (hrun : Run host x past) :
    (∀ h, x.world.engine.get? h = none → x.world.engine.Absent h ∧
      ∀ call, call.subject? = some h → x.control = .perform call →
        Ignored host x (call.absence h)) ∧
    (∀ h inst cause data, x.world.engine.get? h = some inst → inst.terminating = true →
      x.control = .perform (.terminate h cause data) → Ignored host x .done) ∧
    (∀ y span h event data name source what, x.control = .perform (.dispatch h event data) →
      Spans host x y span → x.Returned y →
      y.control = .give (.refused (.eventNotPermitted name source what)) →
      span = [x] ∧ Unheeded x y (.refused (.eventNotPermitted name source what))) ∧
    ∀ y span h state timeout label name source what,
      x.control = .perform (.changeState h state timeout label) → Spans host x y span →
      x.Returned y → y.control = .give (.refused (.transitionNotPermitted name source what)) →
      span = [x] ∧ Unheeded x y (.refused (.transitionNotPermitted name source what)) := by
  refine ⟨?_, ?_, ?_, ?_⟩
  · intro h hdead
    refine ⟨hrun.timed.absent hdead, ?_⟩
    intro call hsubject hcall
    exact ignored_of_unheeded hcall (unheeded_of_dead hrun.timed hdead hcall hsubject)
  · intro h inst cause data hlive hending hcall
    exact ignored_of_unheeded hcall (unheeded_of_terminating hlive hending hcall)
  · intro y span h event data name source what hcall hspan hreturned hrefused
    exact hspan.unheeded_of_eventNotPermitted hreturned hcall hrefused
  · intro y span h state timeout label name source what hcall hspan hreturned hrefused
    exact hspan.unheeded_of_transitionNotPermitted hreturned hcall hrefused

/-- A run in which an instance is released and its slot is used again, for one with a timer. -/
def reoccupied : Execution Unit Unit × List (Execution Unit Unit) :=
  session passive 10 (idle { logAddr := false } ()) []
    [.alloc .plain none none none, .free ⟨0, 0⟩, .alloc .beacon none none none,
      .changeState ⟨0, 1⟩ 0 5 0]

/-- The handle of the instance that was released is released once more. -/
def freeing : Execution Unit Unit := ofCall reoccupied.1.world (.free ⟨0, 0⟩)

/-- An event is delivered to the instance that has taken its place. -/
def delivering : Execution Unit Unit := ofCall reoccupied.1.world (.dispatch ⟨0, 1⟩ 3 none)

/-- Releasing an instance once more is ignored, and an event that is not permitted has no effect;
the timer of the instance that has taken its place stays armed. -/
theorem reoccupied_unheeded : freeing.world.engine.Absent ⟨0, 0⟩ ∧ Ignored passive freeing .done ∧
    (∃ y, Spans passive delivering y [delivering] ∧
      Unheeded delivering y (.refused (.eventNotPermitted "BEACON" "ON" "3"))) ∧
    reoccupied.1.deadline? ⟨0, 1⟩ = some ⟨5, 0⟩ := by
  have hreoccupied : Run passive reoccupied.1 reoccupied.2 := run_session 10 _ (run_idle _ _)
  have hfreeing : Run passive freeing (reoccupied.1 :: reoccupied.2) :=
    hreoccupied.next (.call _ _ rfl rfl (Nat.le_refl _))
  have hdelivering : Run passive delivering (reoccupied.1 :: reoccupied.2) :=
    hreoccupied.next (.call _ _ rfl rfl (Nat.le_refl _))
  obtain ⟨habsent, hignored⟩ := (Run.refused_unheeded hfreeing).1 ⟨0, 0⟩ (by decide)
  refine ⟨habsent, hignored (.free ⟨0, 0⟩) rfl rfl, ?_, by decide⟩
  have hspan : Spans passive delivering _ _ := spans_follow 10 .start
  obtain ⟨hspan', hunheeded⟩ := (Run.refused_unheeded hdelivering).2.2.1 _ _ ⟨0, 1⟩ 3 none
    "BEACON" "ON" "3" rfl hspan (by decide) rfl
  exact ⟨_, hspan' ▸ hspan, hunheeded⟩

end Execution

end StateMachines
