import StateMachines.Proofs.Execution.Outcome
import StateMachines.Proofs.Timers.Firing

/-!
# Deadlines and their labels

The deadline of a timer is kept in the queue, its label in the instance. A change of state writes
both by its last step, when all its hooks have returned, and nothing else writes either of them
without taking the deadline away. So what is pending for an instance, and the label that its timeout
is recorded with, come from one change of state: the one that was the last to set the timer, no
matter how changes are nested in each other.

Releasing an instance cancels its timer. So no deadline outlives its instance, and the firing of
timers never comes upon a dead handle.

## Main definitions

* `Execution.arming?`: the timer that the next step sets.
* `Execution.Arms`: a change of state has set a timer.
* `Execution.LastArmed`: the change of state that was the last to set a timer.
* `World.timeouts`: the timeouts on record.

## Main results

* `Execution.Run.arming_of_pending`: a pending deadline was set by a step of the history, and no
  timer of the same instance was set since.
* `Execution.Run.pending_labelled`: pending deadlines and the labels of their instances are those of
  the change of state that was the last to set the timer, and timeouts are recorded with the label
  of the deadline that has expired.
-/

namespace StateMachines

/-! ## Carrying deadlines -/

namespace Engine

variable {e e₁ e' : Engine} {h k p : Handle} {inst : Instance} {f : Instance → Instance}
  {d : Descriptor} {payload : Option Payload} {level : Option Level} {id : Option String}
  {event : EventId} {now : Time} {timeout : Duration} {label : Nat} {timers : TimerQueue}

/-- What is pending in the second engine is pending in the first one, with the same label. -/
def Carries (e e' : Engine) : Prop :=
  ∀ h d, e'.timers.deadline? h = some d →
    e.timers.deadline? h = some d ∧ e'.timerLabel? h = e.timerLabel? h

/-- A change that leaves the label of an instance alone leaves all labels alone. -/
theorem timerLabel?_modify (hf : ∀ a, (f a).timerLabel = a.timerLabel) (k : Handle) :
    (e.modify h f).timerLabel? k = e.timerLabel? k := by
  by_cases hk : k = h
  · subst hk
    simp [timerLabel?, get?_modify_self, Function.comp_def, hf]
  · rw [timerLabel?, timerLabel?, get?_modify_of_ne hk]

/-- Arming sets the label of its instance only. -/
theorem timerLabel?_arm (hlive : ∃ inst, e.get? h = some inst) (k : Handle) :
    (e.arm now h timeout label).timerLabel? k = if k = h then some label else e.timerLabel? k := by
  obtain ⟨inst, hlive⟩ := hlive
  show ((e.modify h ({ · with timerLabel := label })).get? k).map (·.timerLabel) = _
  by_cases hk : k = h
  · subst hk
    simp [get?_modify_self, hlive]
  · rw [get?_modify_of_ne hk, if_neg hk, timerLabel?]

/-- An engine with the same instances and timers carries everything. -/
theorem carries_of_eq (hstore : e'.store = e.store) (htimers : e'.timers = e.timers) :
    e.Carries e' := by
  intro h d hd
  rw [htimers] at hd
  refine ⟨hd, ?_⟩
  rw [timerLabel?, timerLabel?, get?, get?, hstore]

/-- What is carried twice is carried. -/
theorem Carries.trans (he : e.Carries e₁) (he' : e₁.Carries e') : e.Carries e' := by
  intro h d hd
  obtain ⟨hbetween, hlabel'⟩ := he' h d hd
  obtain ⟨hbefore, hlabel⟩ := he h d hbetween
  exact ⟨hbefore, hlabel'.trans hlabel⟩

/-- A change that leaves the label of an instance alone carries everything. -/
theorem carries_modify (hf : ∀ a, (f a).timerLabel = a.timerLabel) : e.Carries (e.modify h f) :=
  fun k _ hd => ⟨hd, timerLabel?_modify hf k⟩

/-- A release carries everything that it leaves pending. -/
theorem carries_free : e.Carries (e.free h) := by
  intro k d hd
  rw [deadline?_free] at hd
  split at hd
  next => cases hd
  next hk =>
    refine ⟨hd, ?_⟩
    rw [timerLabel?, timerLabel?, get?_free_of_ne hk]

/-- An allocation carries everything, because its handle has no timer yet. -/
theorem carries_alloc (ht : e.store.Tidy) (htimed : e.Timed)
    (halloc : e.alloc d payload level id = .ok (h, inst, e')) : e.Carries e' := by
  intro k c hc
  rw [(alloc_cases halloc).2.1] at hc
  have hk : k ≠ h := by
    rintro rfl
    obtain ⟨a, ha⟩ := htimed.live k c hc
    cases (get?_alloc ht halloc).symm.trans ha
  refine ⟨hc, ?_⟩
  rw [timerLabel?, timerLabel?, get?_alloc_of_ne halloc hk]

/-- Linking a child to its parent carries everything. -/
theorem carries_link : e.Carries (e.link h p event) := by
  unfold link
  have hchild : e.Carries (e.modify h ({ · with parent := some p, parentEvent := event })) :=
    carries_modify fun _ => rfl
  exact hchild.trans (carries_modify fun _ => rfl)

/-- Taking the earliest deadline off the queue carries the others. -/
theorem carries_pop (hq : e.timers.Coherent) (hpop : e.timers.popExpired now = some (h, timers)) :
    e.Carries { e with timers } := by
  intro k d hd
  rw [(hq.popExpired hpop).2.2] at hd
  split at hd
  next => cases hd
  next => exact ⟨hd, rfl⟩

end Engine

/-! ## The steps that set a timer -/

/-- A timer that is set. -/
structure Arming where
  target : Handle
  timeout : Duration
  label : Nat

variable {σ ν : Type}

/-- The timeout that an entry of the journal records. -/
def Entry.timeout? : Entry ν → Option Record
  | .record (.remark level subsystem name (.timeout label)) =>
    some (.remark level subsystem name (.timeout label))
  | _ => none

/-- The timeouts that the journal records, the latest first. -/
def World.timeouts (w : World σ ν) : List Record := w.journal.filterMap Entry.timeout?

/-- A call that is answered at once carries all deadlines. -/
theorem World.Answers.carries {w w' : World σ ν} {call : Call} {reply : Reply}
    (ha : w.Answers call w' reply) (htidy : w.engine.store.Tidy) (htimed : w.engine.Timed) :
    w.engine.Carries w'.engine := by
  cases ha with
  | setLevel | setPayload | takePayload => exact Engine.carries_modify fun _ => rfl
  | free => exact Engine.carries_free
  | alloc halloc => exact Engine.carries_alloc htidy htimed halloc
  | child hlive hactive halloc =>
    exact (Engine.carries_alloc htidy htimed halloc).trans Engine.carries_link
  | _ => exact Engine.carries_of_eq rfl rfl

namespace Execution

variable {host : Host σ ν} {x x' y y' s : Execution σ ν} {past span : List (Execution σ ν)}
  {h : Handle} {d : Deadline} {a : Arming} {timeout timeout' : Duration} {label label' : Nat}
  {time time' : Time}

/-- The timer that the next step sets, if it sets one. -/
def arming? (x : Execution σ ν) : Option Arming :=
  match x.control, x.stack with
  | .give _, .entering target _ timeout label :: _ =>
    if timeout ≠ 0 ∧ x.world.engine.isAlive target = true then some ⟨target, timeout, label⟩
    else none
  | _, _ => none

/-- A timer is set when the hook for entering has returned and the instance is still there. -/
theorem arming?_eq_some_iff : x.arming? = some a ↔
    (∃ reply, x.control = .give reply) ∧
      (∃ d rest, x.stack = .entering a.target d a.timeout a.label :: rest) ∧ a.timeout ≠ 0 ∧
      ∃ inst, x.world.engine.get? a.target = some inst := by
  constructor
  · intro ha
    unfold arming? at ha
    split at ha
    next reply target d timeout label rest hcontrol hstack =>
      split at ha
      next hset =>
        cases ha
        exact ⟨⟨reply, hcontrol⟩, ⟨d, rest, hstack⟩, hset.1, Engine.isAlive_eq_true_iff.1 hset.2⟩
      next => cases ha
    next => cases ha
  · rintro ⟨⟨reply, hcontrol⟩, ⟨d, rest, hstack⟩, htimeout, hlive⟩
    have halive := Engine.isAlive_eq_true_iff.2 hlive
    simp [arming?, hcontrol, hstack, htimeout, halive]

/-- The step sets the timer that was announced, and ends the change of state. -/
theorem Next.of_arming? (hnext : Next host x x') (ha : x.arming? = some a) :
    x'.world.engine = x.world.engine.arm x'.world.now a.target a.timeout a.label ∧
      x'.control = .give .done ∧
      ∃ d, x.stack = .entering a.target d a.timeout a.label :: x'.stack := by
  obtain ⟨hgive, ⟨d, rest, hstack⟩, htimeout, inst, hlive⟩ := arming?_eq_some_iff.1 ha
  obtain ⟨target, timeout, label⟩ := a
  obtain ⟨t, reply, -, ht⟩ := hnext.of_give hgive hstack
  have hnow := ht.now_eq
  cases ht with
  | closes hcloses =>
    cases hcloses with
    | entering _ _ _ hdead => cases hdead.symm.trans hlive
    | unarmed => exact absurd rfl htimeout
    | armed =>
      refine ⟨?_, rfl, d, hstack⟩
      rw [hnow]
      exact World.engine_armed _ _ _ _ _ _

/-- A step that sets no timer carries all deadlines. -/
theorem Transition.carries (ht : Transition host x x') (htidy : x.world.engine.store.Tidy)
    (htimed : x.world.engine.Timed) (hnone : x.arming? = none) :
    x.world.engine.Carries x'.world.engine := by
  cases ht with
  | answered hanswers => exact hanswers.carries htidy htimed
  | closes hcloses =>
    cases hcloses with
    | @armed target inst d timeout label hlive htimeout =>
      have ha : none = some (⟨target, timeout, label⟩ : Arming) := hnone.symm.trans
        (arming?_eq_some_iff.2 ⟨⟨_, rfl⟩, ⟨d, _, rfl⟩, htimeout, inst, hlive⟩)
      cases ha
    | released =>
      rw [World.engine_released]
      exact Engine.carries_free
    | _ => exact Engine.carries_of_eq rfl rfl
  | ends | enters => exact Engine.carries_modify fun _ => rfl
  | @cleans w ending answer stack =>
    show w.engine.Carries (w.detached ending).engine
    unfold World.detached
    cases ending.parent with
    | none => exact Engine.carries_of_eq rfl rfl
    | some parent => exact Engine.carries_modify fun _ => rfl
  | tells =>
    rw [World.engine_released]
    exact Engine.carries_free
  | skipsTimer hpop => exact Engine.carries_pop htimed.coherent hpop
  | expires hpop => exact Engine.carries_pop htimed.coherent hpop
  | _ => exact Engine.carries_of_eq rfl rfl

/-- From one moment to the next all deadlines are carried unless a timer is set. -/
theorem Next.carries (hnext : Next host x x') (htidy : x.world.engine.store.Tidy)
    (htimed : x.world.engine.Timed) (hnone : x.arming? = none) :
    x.world.engine.Carries x'.world.engine := by
  obtain ⟨t, -, ht⟩ | ⟨w, call, answer, rfl, -, -, hengine, -⟩ := hnext.cases
  · exact ht.carries htidy htimed hnone
  · exact Engine.carries_of_eq (congrArg Engine.store hengine) (congrArg Engine.timers hengine)

/-- What is pending after a step was set by the step, or it was pending before, with the same label,
and the step set no timer of the same instance. -/
theorem Next.arming_or_carried (hnext : Next host x x') (htidy : x.world.engine.store.Tidy)
    (htimed : x.world.engine.Timed) (hd : x'.deadline? h = some d) :
    (∃ a, x.arming? = some a ∧ a.target = h ∧
      d.time = x'.world.now + min a.timeout TimerQueue.farthest ∧
      x'.world.engine.timerLabel? h = some a.label) ∨
    (∀ a, x.arming? = some a → a.target ≠ h) ∧ x.deadline? h = some d ∧
      x'.world.engine.timerLabel? h = x.world.engine.timerLabel? h := by
  cases ha : x.arming? with
  | none => exact .inr ⟨nofun, hnext.carries htidy htimed ha h d hd⟩
  | some a =>
    obtain ⟨hengine, -⟩ := hnext.of_arming? ha
    obtain ⟨-, -, -, hlive⟩ := arming?_eq_some_iff.1 ha
    rw [deadline?, hengine, Engine.arm, TimerQueue.deadline?_schedule] at hd
    rw [hengine, Engine.timerLabel?_arm hlive]
    by_cases hh : h = a.target
    · rw [if_pos hh] at hd ⊢
      cases hd
      exact .inl ⟨a, rfl, hh.symm, rfl, rfl⟩
    · rw [if_neg hh] at hd ⊢
      refine .inr ⟨?_, hd, rfl⟩
      rintro b hb rfl
      cases hb
      exact hh rfl

/-- A pending deadline was set by a step of the history, together with the label that the instance
has, and no timer of the same instance was set since. -/
theorem Run.arming_of_pending (hrun : Run host x past) (hd : x.deadline? h = some d) :
    ∃ a y y' since earlier, past = since ++ y :: earlier ∧ Run host y earlier ∧ Next host y y' ∧
      Follows host y' x since ∧ y.arming? = some a ∧ a.target = h ∧
      d.time = y'.world.now + min a.timeout TimerQueue.farthest ∧
      x.world.engine.timerLabel? h = some a.label ∧
      ∀ z ∈ since, ∀ b, z.arming? = some b → b.target ≠ h := by
  -- Induction on the run: a step sets the timer, or carries what is pending and sets another one.
  induction hrun with
  | start w config hfresh =>
    rw [deadline?, hfresh] at hd
    simp [TimerQueue.deadline?] at hd
  | @next x x' past hrun hnext ih =>
    rcases hnext.arming_or_carried hrun.tidy hrun.timed hd with
      ⟨a, ha, htarget, htime, hlabel⟩ | ⟨hother, hbefore, hlabel⟩
    · exact ⟨a, x, x', [], past, rfl, hrun, hnext, .refl, ha, htarget, htime, hlabel,
        by simp⟩
    · obtain ⟨a, y, y', since, earlier, rfl, hy, hset, hfollows, ha, htarget, htime, hlabel',
        hsince⟩ := ih hbefore
      refine ⟨a, y, y', x :: since, earlier, rfl, hy, hset, hfollows.next hnext, ha, htarget, htime,
        hlabel.trans hlabel', ?_⟩
      intro z hz
      rcases List.mem_cons.1 hz with rfl | hz
      · exact hother
      · exact hsince z hz

/-! ## The changes of state that set a timer -/

/-- The change of state that begins at `s` has returned at the moment `x`, after the listed moments,
and has set the timer of the instance. -/
structure Arms (host : Host σ ν) (s x : Execution σ ν) (span : List (Execution σ ν)) (h : Handle)
    (timeout : Duration) (label : Nat) : Prop where
  /-- It is a change of state of the instance. -/
  call : ∃ state, s.control = .perform (.changeState h state timeout label)
  /-- It was called with a timeout. -/
  timeout_ne : timeout ≠ 0
  /-- It has come to the moment `x`. -/
  spans : Spans host s x span
  /-- It has returned. -/
  returned : s.Returned x
  /-- It was carried out. -/
  done : x.control = .give .done

/-- A change of state that has returned has set the timer by its last step. -/
theorem Arms.arming (harms : Arms host s x span h timeout label) :
    ∃ y earlier, span = y :: earlier ∧ y.arming? = some ⟨h, timeout, label⟩ := by
  obtain ⟨⟨state, hcall⟩, htimeout, hspan, hreturned, hdone⟩ := harms
  obtain ⟨y, earlier, heq, hnext, ⟨rfl, -⟩ | ⟨frame, hframe, hstack, hgive⟩⟩ :=
    (owns_of_changeState hcall).last_step hspan hreturned (control_ne_give hcall)
  · -- The first step of a change does not carry it out.
    rcases hnext.of_changeState hcall with ⟨t, w', reply, hanswers, rfl⟩ | ⟨hnot, -⟩
    · cases hdone
      cases hanswers
    · exact absurd hdone (hnot _)
  · refine ⟨y, earlier, heq, ?_⟩
    rcases hnext.of_change hframe hstack hgive with ⟨hnot, -⟩ | ⟨-, hrefused | ⟨-, ⟨d, rfl⟩, hlive⟩⟩
    · exact absurd hdone (hnot _)
    · cases hdone.symm.trans hrefused
    · exact arming?_eq_some_iff.2 ⟨hgive, ⟨d, s.stack, hstack⟩, htimeout, hlive⟩

/-- A timer is set by the last step of a change of state. -/
theorem Run.arms_of_arming (hrun : Run host y past) (ha : y.arming? = some a)
    (hnext : Next host y y') :
    ∃ s span before, past = span ++ before ∧
      Arms host s y' (y :: span) a.target a.timeout a.label := by
  obtain ⟨-, hdone, d, hstack⟩ := hnext.of_arming? ha
  obtain ⟨-, -, htimeout, -⟩ := arming?_eq_some_iff.1 ha
  have hframe : (Frame.entering a.target d a.timeout a.label : Frame σ ν).change? =
      some (a.target, a.timeout, a.label) := rfl
  have hsuffix : .entering a.target d a.timeout a.label :: y'.stack <:+ y.stack :=
    hstack ▸ List.suffix_rfl
  obtain ⟨s, span, before, state, rfl, -, hspan, hrest, hcall⟩ :=
    hrun.changeState_of_change hframe hsuffix
  refine ⟨s, span, before, rfl, ⟨state, hcall⟩, htimeout, hspan.next ?_ hnext,
    ⟨⟨_, hdone⟩, ?_⟩, hdone⟩
  · rintro ⟨-, hlow⟩
    rw [hstack, List.length_cons, hrest] at hlow
    omega
  · exact Nat.le_of_eq (congrArg List.length hrest.symm)

/-- A change of state has set the timer of an instance in the past of the moment `x`. It returned at
the given time, and the listed moments have passed since. -/
def ArmedBefore (host : Host σ ν) (x : Execution σ ν) (past : List (Execution σ ν)) (h : Handle)
    (timeout : Duration) (label : Nat) (time : Time) (since : List (Execution σ ν)) : Prop :=
  ∃ s y span before, past = since ++ (span ++ before) ∧ Follows host y x since ∧
    Arms host s y span h timeout label ∧ y.world.now = time

/-- The last change of state that has set the timer of an instance was called with the given timeout
and label, and it returned at the given time. -/
def LastArmed (host : Host σ ν) (x : Execution σ ν) (past : List (Execution σ ν)) (h : Handle)
    (timeout : Duration) (label : Nat) (time : Time) : Prop :=
  ∃ since, ArmedBefore host x past h timeout label time since ∧
    ∀ timeout' label' time' since', ArmedBefore host x past h timeout' label' time' since' →
      since.length ≤ since'.length

/-- What goes on after the same moments goes on from the same one. -/
theorem Follows.first_eq (hfollows : Follows host y x span) (hfollows' : Follows host y' x span) :
    y = y' := by
  obtain ⟨later, heq⟩ := hfollows.exists_append
  obtain ⟨later', heq'⟩ := hfollows'.exists_append
  have hconcat := heq.symm.trans heq'
  exact List.singleton_inj.1 (List.append_inj_right' hconcat rfl)

/-- There is one change of state that was the last to set the timer of an instance. -/
theorem LastArmed.unique (hlast : LastArmed host x past h timeout label time)
    (hlast' : LastArmed host x past h timeout' label' time') :
    timeout' = timeout ∧ label' = label ∧ time' = time := by
  obtain ⟨since, harmed, hleast⟩ := hlast
  obtain ⟨since', harmed', hleast'⟩ := hlast'
  have hlength := Nat.le_antisymm (hleast _ _ _ _ harmed') (hleast' _ _ _ _ harmed)
  obtain ⟨s, y, span, before, hpast, hfollows, harms, rfl⟩ := harmed
  obtain ⟨s', y', span', before', hpast', hfollows', harms', rfl⟩ := harmed'
  -- The two have returned at the same moment, so it was the same step that set the timer.
  obtain ⟨rfl, hrest⟩ := List.append_inj (hpast.symm.trans hpast') hlength
  obtain ⟨z, earlier, rfl, hz⟩ := harms.arming
  obtain ⟨z', earlier', rfl, hz'⟩ := harms'.arming
  obtain ⟨rfl, -⟩ := List.cons.inj hrest
  obtain rfl := hfollows.first_eq hfollows'
  cases hz.symm.trans hz'
  exact ⟨rfl, rfl, rfl⟩

/-- A pending deadline, and the label of its instance, are those of the change of state that was the
last to set the timer. -/
theorem Run.lastArmed_of_pending (hrun : Run host x past) (hd : x.deadline? h = some d) :
    ∃ inst timeout time, x.world.engine.get? h = some inst ∧
      LastArmed host x past h timeout inst.timerLabel time ∧
      d.time = time + min timeout TimerQueue.farthest := by
  obtain ⟨a, y, y', since, earlier, rfl, hy, hnext, hfollows, ha, rfl, htime, hlabel, hsince⟩ :=
    hrun.arming_of_pending hd
  obtain ⟨s, span, before, rfl, harms⟩ := hy.arms_of_arming ha hnext
  obtain ⟨inst, hlive⟩ := hrun.timed.live _ d hd
  have hinst : inst.timerLabel = a.label := by
    rw [Engine.timerLabel?, hlive] at hlabel
    exact Option.some.inj hlabel
  rw [← hinst] at harms
  refine ⟨inst, a.timeout, y'.world.now, hlive,
    ⟨since, ⟨s, y', y :: span, before, rfl, hfollows, harms, rfl⟩, ?_⟩, htime⟩
  rintro timeout' label' time' since' ⟨s', z', span', before', hpast, -, harms', -⟩
  -- A change that returned later would have set the timer in one of the moments since.
  by_contra hlt
  obtain ⟨z, rest, rfl, hz⟩ := harms'.arming
  have hshort : (since' ++ [z]).length ≤ since.length := by
    rw [List.length_append, List.length_singleton]
    omega
  have hwhole : since' ++ [z] <+: since ++ y :: (span ++ before) := by
    rw [hpast]
    exact ⟨rest ++ before', by simp⟩
  have hamong := List.prefix_of_prefix_length_le hwhole (List.prefix_append _ _) hshort
  exact hsince z (hamong.subset (by simp)) _ hz rfl

/-- What a change of state has set when it returns. -/
theorem Run.pending_of_arms {before : List (Execution σ ν)} (hrun : Run host x (span ++ before))
    (harms : Arms host s x span h timeout label) :
    ∃ inst d, x.world.engine.get? h = some inst ∧ inst.timerLabel = label ∧
      x.deadline? h = some d ∧ d.time = x.world.now + min timeout TimerQueue.farthest := by
  obtain ⟨y, earlier, rfl, ha⟩ := harms.arming
  have htimed := hrun.timed
  cases hrun with
  | next hy hnext =>
    obtain ⟨hengine, -⟩ := hnext.of_arming? ha
    obtain ⟨-, -, -, hlive⟩ := arming?_eq_some_iff.1 ha
    have hd : x.deadline? h =
        some ⟨x.world.now + min timeout TimerQueue.farthest, y.world.engine.timers.serial⟩ := by
      rw [deadline?, hengine, Engine.arm, TimerQueue.deadline?_schedule, if_pos rfl]
    have hlabel : x.world.engine.timerLabel? h = some label := by
      rw [hengine, Engine.timerLabel?_arm hlive, if_pos rfl]
    obtain ⟨inst, hinst⟩ := htimed.live h _ hd
    rw [Engine.timerLabel?, hinst] at hlabel
    exact ⟨inst, _, hinst, Option.some.inj hlabel, hd, rfl⟩

/-! ## Timeouts on record -/

/-- A call that is answered at once records no timeout. -/
theorem timeouts_of_answers {w w' : World σ ν} {call : Call} {reply : Reply}
    (ha : w.Answers call w' reply) : w'.timeouts = w.timeouts := by
  cases ha <;> rfl

/-- An operation that ends at once records no timeout. -/
theorem timeouts_of_closes {w w' : World σ ν} {frame : Frame σ ν} {reply : Reply}
    (hc : w.Closes frame w' reply) : w'.timeouts = w.timeouts := by
  cases hc with
  | armed =>
    dsimp only [World.armed]
    split <;> rfl
  | released =>
    dsimp only [World.released]
    split <;> rfl
  | _ => rfl

/-- A step records a timeout exactly if it calls the hook of an expired timer: with the label that
its instance has. -/
theorem Transition.timeouts (ht : Transition host x x') :
    x'.world.timeouts = x.world.timeouts ∧ x'.timerCall? = none ∨
      ∃ h inst now count rest, x.stack = .firing now count :: rest ∧
        x.world.engine.timers.popExpired now = some (h, x'.world.engine.timers) ∧
        x.world.engine.get? h = some inst ∧ x'.timerCall? = some h ∧
        x'.world.timeouts = .about inst (.timeout inst.timerLabel) :: x.world.timeouts := by
  cases ht with
  | answered hanswers => exact .inl ⟨timeouts_of_answers hanswers, rfl⟩
  | closes hcloses => exact .inl ⟨timeouts_of_closes hcloses, rfl⟩
  | tells =>
    refine .inl ⟨?_, rfl⟩
    dsimp only [World.released]
    split <;> rfl
  | expires hpop hlive => exact .inr ⟨_, _, _, _, _, rfl, hpop, hlive, rfl, rfl⟩
  | _ => exact .inl ⟨rfl, rfl⟩

/-- A pending deadline belongs to a live instance. The deadline, and the label of the instance, are
those of the change of state that was the last to set the timer: the deadline lies ahead of the time
at which this change returned by its timeout, thirty years at most. There is only one such change,
and what it has set is pending, with its label, when it returns. What expires belongs to a live
instance, and a step that calls the hook of an expired timer, and no other one, records a timeout:
with the label of the deadline that has expired. -/
theorem Run.pending_labelled (hrun : Run host x past) :
    (∀ h d, x.deadline? h = some d → ∃ inst timeout time, x.world.engine.get? h = some inst ∧
      LastArmed host x past h timeout inst.timerLabel time ∧
      d.time = time + min timeout TimerQueue.farthest) ∧
    (∀ h timeout label time timeout' label' time', LastArmed host x past h timeout label time →
      LastArmed host x past h timeout' label' time' →
      timeout' = timeout ∧ label' = label ∧ time' = time) ∧
    (∀ s span before h timeout label, past = span ++ before →
      Arms host s x span h timeout label →
      ∃ inst d, x.world.engine.get? h = some inst ∧ inst.timerLabel = label ∧
        x.deadline? h = some d ∧ d.time = x.world.now + min timeout TimerQueue.farthest) ∧
    (∀ now h timers, x.world.engine.timers.popExpired now = some (h, timers) →
      ∃ inst, x.world.engine.get? h = some inst) ∧
    ∀ t x', x.world.now ≤ t → (x.atTime t).step host = .running x' →
      x'.world.timeouts = x.world.timeouts ∧ x'.timerCall? = none ∨
      ∃ h d inst timeout time, x'.timerCall? = some h ∧ x.deadline? h = some d ∧
        x'.deadline? h = none ∧ d.time ≤ t ∧ x.world.engine.get? h = some inst ∧
        LastArmed host x past h timeout inst.timerLabel time ∧
        d.time = time + min timeout TimerQueue.farthest ∧
        x'.world.timeouts = .about inst (.timeout inst.timerLabel) :: x.world.timeouts := by
  refine ⟨fun h d => hrun.lastArmed_of_pending,
    fun h timeout label time timeout' label' time' => LastArmed.unique, ?_, ?_, ?_⟩
  · rintro s span before h timeout label rfl harms
    exact hrun.pending_of_arms harms
  · -- What is popped was pending, and only live instances have a timer.
    intro now h timers hpop
    obtain ⟨-, ⟨d, hd, -⟩, -⟩ := hrun.timed.coherent.popExpired hpop
    exact hrun.timed.live h d hd
  · -- The record is written with the label that the instance has, which is that of its deadline.
    intro t x' htime hstep
    rcases (transition_of_step hstep).timeouts with
      hsame | ⟨h, inst, now, count, rest, hstack, hpop, hlive, hcall, htimeouts⟩
    · exact .inl hsame
    · obtain ⟨-, ⟨d, hd, hdue⟩, hafter⟩ := hrun.timed.coherent.popExpired hpop
      have hnow : now ≤ x.world.now := hrun.firing_le (hstack ▸ List.mem_cons_self)
      obtain ⟨inst', timeout, time, hlive', hlast, htime'⟩ := hrun.lastArmed_of_pending hd
      cases hlive.symm.trans hlive'
      refine .inr ⟨h, d, inst, timeout, time, hcall, hd, ?_,
        Nat.le_trans hdue (Nat.le_trans hnow htime), hlive, hlast, htime', htimeouts⟩
      rw [deadline?, hafter, if_pos rfl]

/-- The first time that an instance is entered it changes its own state, with another timeout. -/
def nester : Host Nat Unit where
  script _ h hook ctx :=
    match hook, ctx.env with
    | .enter .., 0 => .call (.changeState h 0 5 1) 1 fun _ _ => .done 1
    | _, env => .done env

/-- A run in which a change of state is made inside another one. -/
def nested : Execution Nat Unit × List (Execution Nat Unit) :=
  session nester 20 (idle { logAddr := false } 0) []
    [.alloc .beacon none none none, .changeState ⟨0, 0⟩ 0 9 2]

/-- The outer change of state returns last, and the timer is the one it has set. -/
theorem nested_labelled : ∃ inst timeout time,
    nested.1.world.engine.get? ⟨0, 0⟩ = some inst ∧ inst.timerLabel = 2 ∧
      LastArmed nester nested.1 nested.2 ⟨0, 0⟩ timeout inst.timerLabel time ∧
      9 = time + min timeout TimerQueue.farthest := by
  have hnested : Run nester nested.1 nested.2 := run_session 20 _ (run_idle _ _)
  have hd : nested.1.deadline? ⟨0, 0⟩ = some ⟨9, 1⟩ := by decide
  have hlabel : nested.1.world.engine.timerLabel? ⟨0, 0⟩ = some 2 := by decide
  obtain ⟨inst, timeout, time, hlive, hlast, htime⟩ := (Run.pending_labelled hnested).1 _ _ hd
  rw [Engine.timerLabel?, hlive] at hlabel
  exact ⟨inst, timeout, time, hlive, Option.some.inj hlabel, hlast, htime⟩

end Execution

end StateMachines
