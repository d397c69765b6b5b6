import Mathlib.Data.List.Perm.Subperm
import StateMachines.Proofs.Execution.Nesting
import StateMachines.Proofs.Execution.Soundness
import StateMachines.Proofs.Timers.Order

/-!
# Expiry while the clock stands still

While the clock stands still no deadline becomes due. A deadline that is set lies ahead, because no
timer is armed for a delay of zero, so the deadlines that are due can only become fewer: their
timers expire, or they are withdrawn. Timers expire in the order of their deadlines, also when the
hook of one fires others, because what is popped comes before everything that remains pending.

All of this is true whether or not generations start over.

## Main definitions

* `Engine.Timed`: the timers are in order and belong to live instances.
* `Execution.TimerStep`: the steps, as far as timers are concerned.
* `Execution.timerCalls`: the instances whose timer hook was called.
* `Execution.Withdrawn`: a deadline was taken away before its timer expired.

## Main results

* `Execution.Run.timed`: the engine is timed at every moment of a run.
* `Execution.Run.timerCalls_pairwise`: timers expire in the order of their deadlines.
* `Execution.Run.pending_or_fired`: a due deadline is pending, or its timer has expired, or it was
  withdrawn.
-/

namespace StateMachines

/-- The timer queue is coherent and ascending, and only live instances have a timer. -/
structure Engine.Timed (e : Engine) : Prop where
  coherent : e.timers.Coherent
  ascending : e.timers.Ascending
  live : ∀ h d, e.timers.deadline? h = some d → ∃ inst, e.get? h = some inst

/-- A change keeps an engine timed. -/
theorem Engine.Change.timed {e e' : Engine} {written : Option (Handle × StateId)}
    (hc : e.Change written e') (ht : e.Timed) : e'.Timed := by
  refine ⟨hc.coherent ht.coherent, ?_, hc.live_of_deadline? ht.coherent ht.live⟩
  have hascending := ht.ascending
  cases hc with
  | aside hstore htimers => rwa [htimers]
  | edit | write => exact hascending
  | free => exact hascending.cancel
  | alloc halloc => rwa [(alloc_cases halloc).2.1]
  | @child _ _ _ _ _ _ allocated p event halloc hparent =>
    show allocated.timers.Ascending
    rwa [(alloc_cases halloc).2.1]
  | arm => exact hascending.schedule ht.coherent
  | pop hpop => exact hascending.popExpired hpop

/-- The handles with a deadline that has come, in the order of expiry. -/
def Engine.due (e : Engine) (now : Time) : List Handle :=
  (e.timers.agenda.filter fun entry => entry.1.time ≤ now).map (·.2)

namespace Execution

variable {σ ν : Type} {host : Host σ ν} {x x' start : Execution σ ν}
  {past span hist : List (Execution σ ν)} {h k : Handle} {c d : Deadline}

/-- The pending deadline of a handle at a moment. -/
abbrev deadline? (x : Execution σ ν) (h : Handle) : Option Deadline :=
  x.world.engine.timers.deadline? h

/-- The engine is timed at every moment of a run. -/
theorem Run.timed (hrun : Run host x past) : x.world.engine.Timed := by
  induction hrun with
  | start w config hfresh =>
    rw [hfresh]
    refine ⟨TimerQueue.coherent_empty, TimerQueue.ascending_empty, ?_⟩
    intro h d hd
    simp [TimerQueue.deadline?] at hd
  | next hrun hnext ih => exact hnext.change.timed ih

/-! ## Steps -/

/-- The instance whose timer hook is called at a moment. -/
def timerCall? (x : Execution σ ν) : Option Handle :=
  match x.control with
  | .hook _ h .timer => some h
  | _ => none

/-- The instances whose timer hook was called, the latest first. -/
def timerCalls (hist : List (Execution σ ν)) : List Handle := hist.filterMap timerCall?

/-- What a step does to the timers. -/
inductive TimerStep (x x' : Execution σ ν) : Prop where
  /-- The timers remain as they are. -/
  | keeps (hcall : x'.timerCall? = none)
      (htimers : x'.world.engine.timers = x.world.engine.timers)
  /-- An instance is released, and its timer is cancelled. -/
  | releases (h : Handle) (hcall : x'.timerCall? = none)
      (htimers : x'.world.engine.timers = x.world.engine.timers.cancel h)
      (hdead : x'.world.engine.get? h = none)
  /-- The timer of an instance is armed. -/
  | arms (h : Handle) (timeout : Duration) (hcall : x'.timerCall? = none)
      (htimeout : timeout ≠ 0)
      (htimers : x'.world.engine.timers = x.world.engine.timers.schedule x'.world.now h timeout)
  /-- A timer expires, and its hook is called. -/
  | expires (h : Handle) (now : Time) (count : Nat) (rest : List (Frame σ ν))
      (hstack : x.stack = .firing now count :: rest)
      (hpop : x.world.engine.timers.popExpired now = some (h, x'.world.engine.timers))
      (hcall : x'.timerCall? = some h)
      (hlive : ∃ inst, x'.world.engine.get? h = some inst)

/-- What a call that is answered at once does to the timers. -/
theorem timerStep_of_answers {w w' : World σ ν} {call : Call} {reply : Reply}
    {stack : List (Frame σ ν)} (ha : w.Answers call w' reply) :
    TimerStep (⟨w, .perform call, stack⟩ : Execution σ ν) ⟨w', .give reply, stack⟩ := by
  cases ha with
  | free target => exact .releases target rfl rfl Engine.get?_free_self
  | alloc halloc => exact .keeps rfl (Engine.alloc_cases halloc).2.1
  | child hlive hactive halloc => exact .keeps rfl (Engine.alloc_cases halloc).2.1
  | _ => exact .keeps rfl rfl

/-- What an operation that ends at once does to the timers. -/
theorem timerStep_of_closes {w w' : World σ ν} {frame : Frame σ ν} {answer reply : Reply}
    {stack : List (Frame σ ν)} (hc : w.Closes frame w' reply) :
    TimerStep (⟨w, .give answer, frame :: stack⟩ : Execution σ ν) ⟨w', .give reply, stack⟩ := by
  cases hc with
  | @armed target inst d timeout label hlive htimeout =>
    refine .arms target timeout rfl htimeout ?_
    dsimp only [World.armed]
    split <;> rfl
  | @released ending hquiet =>
    refine .releases ending.target rfl ?_ ?_
    · exact congrArg Engine.timers (w.engine_released ending)
    · show (w.released ending).engine.get? ending.target = none
      rw [World.engine_released]
      exact Engine.get?_free_self
  | _ => exact .keeps rfl rfl

/-- The list of steps is complete. -/
theorem Transition.timerStep (ht : Transition host x x') (htimed : x.world.engine.Timed) :
    TimerStep x x' := by
  cases ht with
  | answered hanswers => exact timerStep_of_answers hanswers
  | closes hcloses => exact timerStep_of_closes hcloses
  | @cleans w ending answer stack =>
    refine .keeps rfl ?_
    show (w.detached ending).engine.timers = w.engine.timers
    unfold World.detached
    dsimp only
    split <;> rfl
  | @tells w ending parent answer stack hparent hcause =>
    refine .releases ending.target rfl ?_ ?_
    · exact congrArg Engine.timers (w.engine_released ending)
    · show (w.released ending).engine.get? ending.target = none
      rw [World.engine_released]
      exact Engine.get?_free_self
  | skipsTimer hpop hdead =>
    -- The queue holds no deadline of a dead handle.
    obtain ⟨-, ⟨d, hd, -⟩, -⟩ := htimed.coherent.popExpired hpop
    obtain ⟨inst, hlive⟩ := htimed.live _ d hd
    cases hdead.symm.trans hlive
  | expires hpop hlive => exact .expires _ _ _ _ rfl hpop rfl ⟨_, hlive⟩
  | _ => exact .keeps rfl rfl

/-- From one moment to the next the timers change as by a step. -/
theorem Next.timerStep (hnext : Next host x x') (htimed : x.world.engine.Timed) :
    TimerStep x x' := by
  obtain ⟨t, -, ht⟩ | ⟨w, call, answer, rfl, -, -, hengine, -⟩ := hnext.cases
  · -- The time at which the step is taken does not matter.
    cases ht.timerStep htimed with
    | keeps hcall htimers => exact .keeps hcall htimers
    | releases h hcall htimers hdead => exact .releases h hcall htimers hdead
    | arms h timeout hcall htimeout htimers => exact .arms h timeout hcall htimeout htimers
    | expires h now count rest hstack hpop hcall hlive =>
      exact .expires h now count rest hstack hpop hcall hlive
  · exact .keeps rfl (congrArg Engine.timers hengine)

/-- A deadline that is pending after a step was pending before, or it lies ahead. -/
theorem TimerStep.pending (hs : TimerStep x x') (htimed : x.world.engine.Timed)
    (hd : x'.deadline? h = some d) : x.deadline? h = some d ∨ x'.world.now < d.time := by
  cases hs with
  | keeps hcall htimers =>
    rw [deadline?, htimers] at hd
    exact .inl hd
  | releases k hcall htimers hdead =>
    rw [deadline?, htimers, TimerQueue.deadline?_cancel] at hd
    split at hd
    next => cases hd
    next => exact .inl hd
  | arms k timeout hcall htimeout htimers =>
    rw [deadline?, htimers, TimerQueue.deadline?_schedule] at hd
    split at hd
    next =>
      cases hd
      refine .inr (Nat.lt_add_of_pos_right ?_)
      exact Nat.lt_min.2 ⟨Nat.pos_of_ne_zero htimeout, by decide⟩
    next => exact .inl hd
  | expires k now count rest hstack hpop hcall hlive =>
    rw [deadline?, (htimed.coherent.popExpired hpop).2.2] at hd
    split at hd
    next => cases hd
    next => exact .inl hd

/-- The timer whose hook is called was pending and due, and comes before everything that remains
pending. -/
theorem TimerStep.expired (hs : TimerStep x x') (htimed : x.world.engine.Timed)
    (hfiring : ∀ now count, .firing now count ∈ x.stack → now ≤ x'.world.now)
    (hcall : x'.timerCall? = some h) :
    ∃ d, x.deadline? h = some d ∧ d.time ≤ x'.world.now ∧ x'.deadline? h = none ∧
      ∀ k c, x'.deadline? k = some c → d.before c = true := by
  cases hs with
  | keeps hnone => cases hnone.symm.trans hcall
  | releases k hnone => cases hnone.symm.trans hcall
  | arms k timeout hnone => cases hnone.symm.trans hcall
  | expires k now count rest hstack hpop hcall' hlive =>
    cases hcall.symm.trans hcall'
    obtain ⟨-, ⟨d, hd, hdue⟩, hafter⟩ := htimed.coherent.popExpired hpop
    have hnow : now ≤ x'.world.now := hfiring now count (hstack ▸ List.mem_cons_self)
    refine ⟨d, hd, Nat.le_trans hdue hnow, ?_, ?_⟩
    · rw [deadline?, hafter, if_pos rfl]
    · intro k c hc
      exact htimed.ascending.before_of_popExpired htimed.coherent hpop hd hc

/-! ## Withdrawals -/

/-- A step takes a pending deadline away without running its timer: the instance is released, or it
gets another deadline. -/
def Withdraws (x x' : Execution σ ν) (h : Handle) (d : Deadline) : Prop :=
  x.deadline? h = some d ∧
    (x'.world.engine.get? h = none ∨ ∃ c, x'.deadline? h = some c ∧ c ≠ d)

/-- A deadline was taken away in a history before its timer expired. -/
def Withdrawn (h : Handle) (d : Deadline) : List (Execution σ ν) → Prop
  | x' :: x :: past => Withdraws x x' h d ∨ Withdrawn h d (x :: past)
  | _ => False

/-- A step that leaves a deadline pending does not withdraw it. -/
theorem not_withdraws_of_pending (htimed' : x'.world.engine.Timed)
    (hd : x'.deadline? h = some d) : ¬ Withdraws x x' h d := by
  rintro ⟨-, hdead | ⟨c, hc, hne⟩⟩
  · obtain ⟨inst, hlive⟩ := htimed'.live h d hd
    cases hdead.symm.trans hlive
  · cases hd.symm.trans hc
    exact hne rfl

/-- A deadline that is pending no longer has been withdrawn, or its timer has expired, and not
both. -/
theorem TimerStep.withdraws_iff (hs : TimerStep x x') (htimed : x.world.engine.Timed)
    (hd : x.deadline? h = some d) (hd' : x'.deadline? h ≠ some d) :
    Withdraws x x' h d ↔ x'.timerCall? ≠ some h := by
  cases hs with
  | keeps hcall htimers =>
    rw [deadline?, htimers] at hd'
    exact absurd hd hd'
  | releases k hcall htimers hdead =>
    rw [deadline?, htimers, TimerQueue.deadline?_cancel] at hd'
    split at hd'
    next heq => exact iff_of_true ⟨hd, .inl (heq ▸ hdead)⟩ (by simp [hcall])
    next => exact absurd hd hd'
  | arms k timeout hcall htimeout htimers =>
    have hafter : x'.deadline? h =
        if h = k then some ⟨x'.world.now + min timeout TimerQueue.farthest,
          x.world.engine.timers.serial⟩ else x.deadline? h := by
      rw [deadline?, htimers, TimerQueue.deadline?_schedule]
    by_cases heq : h = k
    · -- The new deadline has a serial number that was not drawn before.
      rw [if_pos heq] at hafter
      refine iff_of_true ⟨hd, .inr ⟨_, hafter, ?_⟩⟩ (by simp [hcall])
      rintro rfl
      exact Nat.lt_irrefl _ (htimed.coherent.serial_lt h _ hd)
    · rw [if_neg heq] at hafter
      exact absurd (hafter.trans hd) hd'
  | expires k now count rest hstack hpop hcall hlive =>
    have hafter := (htimed.coherent.popExpired hpop).2.2 h
    by_cases heq : h = k
    · subst heq
      rw [if_pos rfl] at hafter
      refine iff_of_false ?_ (by simp [hcall])
      rintro ⟨-, hdead | ⟨c, hc, -⟩⟩
      · obtain ⟨inst, hinst⟩ := hlive
        cases hdead.symm.trans hinst
      · cases hafter.symm.trans hc
    · rw [if_neg heq] at hafter
      exact absurd (hafter.trans hd) hd'

/-! ## While the clock stands still -/

/-- The clock has stood still since the moment `start`. -/
def Still (start : Execution σ ν) (hist : List (Execution σ ν)) : Prop :=
  ∀ y ∈ hist, y.world.now = start.world.now

/-- The clock had stood still at each earlier moment. -/
theorem Still.of_cons (hstill : Still start (x :: hist)) : Still start hist :=
  fun y hy => hstill y (List.mem_cons_of_mem x hy)

/-- The clock had stood still in each earlier part of a history. -/
theorem Still.of_append {later : List (Execution σ ν)} (hstill : Still start (later ++ hist)) :
    Still start hist :=
  fun y hy => hstill y (List.mem_append_right later hy)

/-- The timer hooks called up to a moment are those called at it and those called before. -/
theorem timerCalls_cons : timerCalls (x :: hist) = x.timerCall?.toList ++ timerCalls hist :=
  filterMap_cons_eq _ _ _

/-- A deadline that is due has been pending ever since the clock stopped. -/
theorem Run.pending_at_start (hrun : Run host start past) (hfollows : Follows host start x span)
    (hstill : Still start (x :: span)) (hd : x.deadline? h = some d)
    (hdue : d.time ≤ start.world.now) : start.deadline? h = some d := by
  -- Back from `x`, step by step: what is armed in between lies ahead, so it is not due.
  induction hfollows with
  | refl => exact hd
  | @next x x' span hfollows hnext ih =>
    have htimed := (hfollows.run hrun).timed
    rcases (hnext.timerStep htimed).pending htimed hd with hbefore | hahead
    · exact ih hstill.of_cons hbefore
    · rw [hstill x' List.mem_cons_self] at hahead
      exact absurd hdue (Nat.not_le_of_lt hahead)

/-- The timer whose hook is called by a step was pending and due when the clock stopped, and it
comes before everything that remains pending. -/
theorem Run.expired (hrun : Run host start past) (hfollows : Follows host start x span)
    (hnext : Next host x x') (hstill : Still start (x' :: x :: span))
    (hcall : x'.timerCall? = some h) :
    ∃ d, x.deadline? h = some d ∧ start.deadline? h = some d ∧ d.time ≤ start.world.now ∧
      x'.deadline? h = none ∧ ∀ k c, x'.deadline? k = some c → d.before c = true := by
  have hx := hfollows.run hrun
  have hnow : x'.world.now = x.world.now := by
    rw [hstill x' List.mem_cons_self, hstill x (List.mem_cons_of_mem x' List.mem_cons_self)]
  have hfiring : ∀ now count, .firing now count ∈ x.stack → now ≤ x'.world.now := by
    intro now count hframe
    rw [hnow]
    exact hx.firing_le hframe
  obtain ⟨d, hd, hdue, hnone, hfirst⟩ :=
    (hnext.timerStep hx.timed).expired hx.timed hfiring hcall
  rw [hstill x' List.mem_cons_self] at hdue
  exact ⟨d, hd, hrun.pending_at_start hfollows hstill.of_cons hd hdue, hdue, hnone, hfirst⟩

/-- A timer whose hook was called while the clock stood still was pending and due when it stopped,
and it comes before everything that is pending still. -/
theorem Run.fired (hrun : Run host start past) (hfollows : Follows host start x span)
    (hstill : Still start (x :: span)) (hstart : start.timerCall? = none)
    (hmem : h ∈ timerCalls (x :: span)) :
    ∃ d, start.deadline? h = some d ∧ d.time ≤ start.world.now ∧
      ∀ k c, x.deadline? k = some c → d.before c = true := by
  induction hfollows with
  | refl => simp [timerCalls, hstart] at hmem
  | @next x x' span hfollows hnext ih =>
    rw [timerCalls_cons, List.mem_append, Option.mem_toList] at hmem
    rcases hmem with hcall | hbefore
    · obtain ⟨d, -, hd, hdue, -, hfirst⟩ := hrun.expired hfollows hnext hstill hcall
      exact ⟨d, hd, hdue, hfirst⟩
    · obtain ⟨d, hd, hdue, hfirst⟩ := ih hstill.of_cons hbefore
      refine ⟨d, hd, hdue, ?_⟩
      -- What has become pending since lies ahead of the clock.
      intro k c hc
      have htimed := (hfollows.run hrun).timed
      rcases (hnext.timerStep htimed).pending htimed hc with hpending | hahead
      · exact hfirst k c hpending
      · rw [hstill x' List.mem_cons_self] at hahead
        exact Deadline.before_iff.2 (.inl (Nat.lt_of_le_of_lt hdue hahead))

/-- While the clock stands still, timers expire in the order of the deadlines that were pending
when it stopped. -/
theorem Run.timerCalls_pairwise (hrun : Run host start past)
    (hfollows : Follows host start x span) (hstill : Still start (x :: span))
    (hstart : start.timerCall? = none) :
    (timerCalls (x :: span)).Pairwise fun later earlier =>
      ∃ a b, start.deadline? earlier = some a ∧ start.deadline? later = some b ∧
        a.before b = true := by
  induction hfollows with
  | refl => simp [timerCalls, hstart]
  | @next x x' span hfollows hnext ih =>
    have hbefore := ih hstill.of_cons
    rw [timerCalls_cons]
    cases hcall : x'.timerCall? with
    | none => exact hbefore
    | some later =>
      refine List.pairwise_cons.2 ⟨?_, hbefore⟩
      intro earlier hmem
      obtain ⟨b, hb, hbstart, -⟩ := hrun.expired hfollows hnext hstill hcall
      obtain ⟨a, ha, -, hfirst⟩ := hrun.fired hfollows hstill.of_cons hstart hmem
      exact ⟨a, b, ha, hbstart, hfirst later b hb⟩

/-- While the clock stands still, no timer expires twice. -/
theorem Run.timerCalls_nodup (hrun : Run host start past) (hfollows : Follows host start x span)
    (hstill : Still start (x :: span)) (hstart : start.timerCall? = none) :
    (timerCalls (x :: span)).Nodup := by
  apply (hrun.timerCalls_pairwise hfollows hstill hstart).imp
  rintro later earlier ⟨a, b, ha, hb, hbefore⟩ rfl
  cases ha.symm.trans hb
  exact Deadline.before_irrefl a hbefore

/-- While the clock stands still, no more timers expire than were due when it stopped. -/
theorem Run.length_timerCalls_le (hrun : Run host start past)
    (hfollows : Follows host start x span) (hstill : Still start (x :: span))
    (hstart : start.timerCall? = none) :
    (timerCalls (x :: span)).length ≤ (start.world.engine.due start.world.now).length := by
  have hsubset : timerCalls (x :: span) ⊆ start.world.engine.due start.world.now := by
    intro h hmem
    obtain ⟨d, hd, hdue, -⟩ := hrun.fired hfollows hstill hstart hmem
    refine List.mem_map.2 ⟨(d, h), List.mem_filter.2 ⟨?_, by simpa using hdue⟩, rfl⟩
    exact (hrun.timed.coherent.mem_agenda_iff d h).2 hd
  exact ((hrun.timerCalls_nodup hfollows hstill hstart).subperm hsubset).length_le

/-- A deadline that was due when the clock stopped is pending still, or its timer has expired or it
was withdrawn, and not both. -/
theorem Run.pending_or_fired (hrun : Run host start past) (hfollows : Follows host start x span)
    (hstill : Still start (x :: span)) (hstart : start.timerCall? = none)
    (hd : start.deadline? h = some d) (hdue : d.time ≤ start.world.now) :
    x.deadline? h = some d ∧ ¬ Withdrawn h d (x :: span) ∨
      x.deadline? h ≠ some d ∧ (h ∈ timerCalls (x :: span) ↔ ¬ Withdrawn h d (x :: span)) := by
  induction hfollows with
  | refl => exact .inl ⟨hd, id⟩
  | @next x x' span hfollows hnext ih =>
    have hx := hfollows.run hrun
    have hs := hnext.timerStep hx.timed
    have hcalls : h ∈ timerCalls (x' :: x :: span) ↔
        x'.timerCall? = some h ∨ h ∈ timerCalls (x :: span) := by
      rw [timerCalls_cons, List.mem_append, Option.mem_toList]
    have hwithdrawn : Withdrawn h d (x' :: x :: span) ↔
        Withdraws x x' h d ∨ Withdrawn h d (x :: span) := Iff.rfl
    rw [hcalls, hwithdrawn]
    rcases ih hstill.of_cons with ⟨hpending, hnot⟩ | ⟨hgone, hiff⟩
    · by_cases hd' : x'.deadline? h = some d
      · have hnone := not_withdraws_of_pending (x := x) (hx.next hnext).timed hd'
        exact .inl ⟨hd', not_or.2 ⟨hnone, hnot⟩⟩
      · -- The step takes the deadline away, and no hook was called for it before.
        have hnew : h ∉ timerCalls (x :: span) := by
          intro hmem
          obtain ⟨c, hc, -, hfirst⟩ := hrun.fired hfollows hstill.of_cons hstart hmem
          cases hd.symm.trans hc
          exact Deadline.before_irrefl d (hfirst h d hpending)
        refine .inr ⟨hd', ?_⟩
        rw [hs.withdraws_iff hx.timed hpending hd', or_iff_left hnew, or_iff_left hnot,
          Classical.not_not]
    · -- The deadline is gone for good, because no deadline becomes due again.
      have hsame : ∀ c, x.deadline? h = some c → ¬ c.time ≤ start.world.now := by
        intro c hc hcdue
        have hc' := hrun.pending_at_start hfollows hstill.of_cons hc hcdue
        cases hd.symm.trans hc'
        exact hgone hc
      refine .inr ⟨?_, ?_⟩
      · intro hd'
        rcases hs.pending hx.timed hd' with hbefore | hahead
        · exact hgone hbefore
        · rw [hstill x' List.mem_cons_self] at hahead
          exact absurd hdue (Nat.not_le_of_lt hahead)
      · have hcall : x'.timerCall? ≠ some h := by
          intro hcall
          obtain ⟨c, hc, -, hcdue, -⟩ := hrun.expired hfollows hnext hstill hcall
          exact hsame c hc hcdue
        have hnone : ¬ Withdraws x x' h d := fun hw => hgone hw.1
        rw [or_iff_right hcall, or_iff_right hnone]
        exact hiff

/-- When nothing is due any more, exactly those timers have expired that were due when the clock
stopped and whose deadlines were not withdrawn. -/
theorem Run.mem_timerCalls_iff (hrun : Run host start past)
    (hfollows : Follows host start x span) (hstill : Still start (x :: span))
    (hstart : start.timerCall? = none)
    (hdone : ∀ h d, x.deadline? h = some d → start.world.now < d.time) :
    h ∈ timerCalls (x :: span) ↔ ∃ d, start.deadline? h = some d ∧ d.time ≤ start.world.now ∧
      ¬ Withdrawn h d (x :: span) := by
  have hcase : ∀ d, start.deadline? h = some d → d.time ≤ start.world.now →
      (h ∈ timerCalls (x :: span) ↔ ¬ Withdrawn h d (x :: span)) := by
    intro d hd hdue
    rcases hrun.pending_or_fired hfollows hstill hstart hd hdue with ⟨hpending, -⟩ | ⟨-, hiff⟩
    · exact absurd hdue (Nat.not_le_of_lt (hdone h d hpending))
    · exact hiff
  constructor
  · intro hmem
    obtain ⟨d, hd, hdue, -⟩ := hrun.fired hfollows hstill hstart hmem
    exact ⟨d, hd, hdue, (hcase d hd hdue).1 hmem⟩
  · rintro ⟨d, hd, hdue, hnot⟩
    exact (hcase d hd hdue).2 hnot

end Execution

end StateMachines
