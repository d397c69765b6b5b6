import StateMachines.Proofs.Execution.Session
import StateMachines.Proofs.Loop.Service

/-!
# Deliveries of a loop

Whatever clients do while a loop works, the loop delivers the requests that are accepted into its
inbox in the order in which they were accepted, each of them once and without data. As long as it
works, what is accepted and not yet delivered is what is queued. So a loop that ends because the
queue is empty and all senders are gone has delivered everything, and so has a loop that ends after
a graceful signal at the moment at which it finds the queue empty. After an immediate signal was
read nothing is delivered.

## Main definitions

* `Service.Accounted`: the accounts of a service balance.
* `Loop.Reads`, `Loop.FindsEmpty`: the moments at which a signal is read, and at which the queue is
  found empty.
* `Service.Faithful`: neither is a request lost, nor is one delivered twice or out of order.

## Main results

* `Service.Next.accounted`: the accounts go on to balance.
* `Service.faithful_of_reaches`: every service is faithful.
-/

namespace StateMachines

variable {σ ν : Type} {host : Host σ ν}

/-- Requests as they are delivered, without data. -/
def withoutData (rs : List Request) : List (Request × Option Payload) := rs.map (·, none)

/-- Requests are delivered one by one. -/
@[simp]
theorem withoutData_append (rs rs' : List Request) :
    withoutData (rs ++ rs') = withoutData rs ++ withoutData rs' :=
  List.map_append

namespace Loop

variable {l : Loop σ ν} {mode : ShutdownMode}

/-- The call of the loop has returned. -/
def Returned (l : Loop σ ν) : Prop :=
  (∃ reply, l.task.control = .give reply) ∧ l.task.stack = []

/-- The loop looks for a signal and finds the given one. -/
structure Reads (l : Loop σ ν) (mode : ShutdownMode) : Prop where
  phase : l.phase = .watch
  watching : l.watching = true
  returned : l.Returned
  signal : l.task.world.inbox.signal = some mode

/-- After a graceful signal the loop finds nothing in the queue. -/
structure FindsEmpty (l : Loop σ ν) : Prop where
  phase : l.phase = .drain
  returned : l.Returned
  queue : l.task.world.inbox.queue = []

/-- The calls that a loop makes fit its phase, and its deliveries carry no data. -/
def Coherent (l : Loop σ ν) : Prop :=
  ∀ call, l.call? = some call → call = .fireExpired ∨
    (∃ r : Request, call = .dispatch r.target r.event none) ∧
      (l.phase = .begin ∨ l.phase = .drain)

/-- A loop that has returned from a call is not about to begin one. -/
theorem move?_eq_none_of_give {reply : Reply} (hreply : l.task.control = .give reply) :
    l.task.move? = none := by
  simp [Execution.move?, hreply]

end Loop

/-! ## The accounts balance -/

namespace LoopProgress

variable {p : LoopProgress σ ν} {delivered : List (Request × Option Payload)}
  {accepted : List Request}

/-- What was delivered and what is queued is what was accepted, in this order, as long as the loop
works. After its end nothing is accepted any more. -/
def Balances (p : LoopProgress σ ν) (delivered : List (Request × Option Payload))
    (accepted : List Request) : Prop :=
  match p with
  | .running l | .parked l =>
    delivered ++ withoutData l.task.world.inbox.queue = withoutData accepted
  | .ended w how =>
    w.inbox.closed = true ∧ delivered <+: withoutData accepted ∧
      (how = .abandoned → delivered = withoutData accepted)
  | .faulted _ => delivered <+: withoutData accepted

/-- While the loop works, accepted requests are either delivered or queued. -/
theorem balances_iff {l : Loop σ ν} (hloop : p.loop? = some l) :
    p.Balances delivered accepted ↔
      delivered ++ withoutData l.task.world.inbox.queue = withoutData accepted := by
  cases p <;> cases hloop <;> rfl

/-- What was delivered begins the list of what was accepted. -/
theorem Balances.prefix_accepted (hp : p.Balances delivered accepted) :
    delivered <+: withoutData accepted := by
  cases p with
  | running l | parked l => exact ⟨_, hp⟩
  | ended w how => exact hp.2.1
  | faulted fault => exact hp

/-- The moves of clients keep the balance: what they append to the queue is accepted. -/
theorem Balances.move (hp : p.Balances delivered accepted) (m : ClientMove) :
    (p.update fun w => { w with inbox := w.inbox.move m }).Balances delivered
      (accepted ++ (p.inbox?.bind (·.accepts? m)).toList) := by
  have hworks : ∀ b : Inbox, delivered ++ withoutData b.queue = withoutData accepted →
      delivered ++ withoutData (b.move m).queue =
        withoutData (accepted ++ (b.accepts? m).toList) := by
    intro b hb
    rw [b.queue_move m, withoutData_append, withoutData_append, ← List.append_assoc, hb]
  cases p with
  | running l | parked l => exact hworks _ hp
  | ended w how =>
    -- A loop closes its inbox when it ends, so no move gets anything accepted.
    obtain ⟨hclosed, hprefix, hall⟩ := hp
    have hnone : w.inbox.accepts? m = none := Inbox.accepts?_of_closed hclosed m
    rw [inbox?, Option.bind_some, hnone, Option.toList_none, List.append_nil]
    exact ⟨(w.inbox.closed_move m).trans hclosed, hprefix, hall⟩
  | faulted fault =>
    rw [inbox?, Option.bind_none, Option.toList_none, List.append_nil]
    exact hp

end LoopProgress

namespace Loop

variable {l : Loop σ ν} {w : World σ ν} {p : LoopProgress σ ν} {watching : Bool}
  {phase : LoopPhase} {delivered : List (Request × Option Payload)} {accepted : List Request}

/-- What a loop does between two calls keeps the balance: what it takes out of the queue it
delivers. -/
theorem Decision.balances (hdecision : Decision w watching phase p)
    (hw : delivered ++ withoutData w.inbox.queue = withoutData accepted) :
    p.Balances (delivered ++ (p.call?.bind Call.delivery?).toList) accepted := by
  -- What is taken from the front of the queue is appended to the deliveries.
  have hcall : ∀ {r : Request} {inbox : Inbox}, w.inbox.receive? = some (r, inbox) →
      delivered ++ [(r, none)] ++ withoutData inbox.queue = withoutData accepted := by
    intro r inbox hreceive
    rw [← hw, Inbox.queue_of_receive? hreceive, List.append_assoc]
    rfl
  have hquiet : delivered ++ [] = delivered := List.append_nil delivered
  cases hdecision with
  | fires | concludes | drains | deserted | unsignalled | waits | parks =>
    exact hquiet.symm ▸ hw
  | delivers hreceive | goesOn hreceive => exact hcall hreceive
  | stops | ends => exact ⟨rfl, hquiet.symm ▸ ⟨_, hw⟩, nofun⟩
  | abandons hempty =>
    -- Nothing is queued, so everything that was accepted was delivered.
    rw [hempty, withoutData, List.map_nil, List.append_nil] at hw
    exact ⟨rfl, hquiet.symm ▸ hw ▸ List.prefix_rfl, fun _ => hquiet.symm ▸ hw⟩

/-- The steps of a loop keep the balance. -/
theorem StepsTo.balances (hsteps : StepsTo host l p)
    (hl : delivered ++ withoutData l.task.world.inbox.queue = withoutData accepted) :
    p.Balances (delivered ++ (p.call?.bind Call.delivery?).toList)
      (accepted ++ (l.task.move?.bind l.task.world.inbox.accepts?).toList) := by
  cases hsteps with
  | @works x ht =>
    -- A hook may get a request accepted; the loop itself makes no call.
    have hcall : (LoopProgress.running { l with task := x }).call? = none :=
      call?_eq_none_of_transition ht
    rw [hcall, Option.bind_none, Option.toList_none, List.append_nil]
    change delivered ++ withoutData x.world.inbox.queue = _
    rw [ht.inbox_eq]
    cases l.task.move? with
    | none => simpa using hl
    | some m =>
      rw [Option.elim_some, Inbox.queue_move, Option.bind_some, withoutData_append,
        withoutData_append, ← List.append_assoc, hl]
  | faults fault =>
    -- There is no queue any more, but the order of what was delivered is still right.
    change delivered ++ [] <+: _
    rw [List.append_nil, withoutData_append, ← hl, List.append_assoc]
    exact List.prefix_append _ _
  | decides hreply hstack hdecision =>
    rw [move?_eq_none_of_give hreply, Option.bind_none, Option.toList_none, List.append_nil]
    exact hdecision.balances hl

end Loop

namespace Service

variable {s s' : Service σ ν} {w : World σ ν}

/-- The accounts of a service balance. -/
def Accounted (s : Service σ ν) : Prop := s.loop.Balances s.deliveries s.accepted

/-- What is picked out of the calls after a step is what was picked out before, and what is picked
out of the call that the step begins. -/
theorem filterMap_calls_stepped {β : Type} (g : Call → Option β) (s : Service σ ν)
    (host : Host σ ν) (l : Loop σ ν) :
    (s.stepped host l).calls.filterMap g =
      s.calls.filterMap g ++ ((l.step host).call?.bind g).toList := by
  unfold stepped
  rw [List.filterMap_append]
  cases (l.step host).call? with
  | none => rfl
  | some call => cases hcall : g call <;> simp [hcall]

/-- At its beginning a loop has delivered nothing of what is queued. -/
theorem accounted_ofWorld (w : World σ ν) : (ofWorld w).Accounted :=
  List.nil_append _

/-- The accounts go on to balance. -/
theorem Next.accounted (hnext : Next host s s') (hs : s.Accounted) : s'.Accounted := by
  cases hnext with
  | @step l t hloop htime =>
    have hsteps := Loop.stepsTo_of_step host (l.atTime t)
    unfold Accounted deliveries
    rw [filterMap_calls_stepped]
    exact hsteps.balances ((LoopProgress.balances_iff hloop).1 hs)
  | client m => exact LoopProgress.Balances.move hs m

/-- The accounts of a service balance from its beginning on. -/
theorem Reaches.accounted (hreach : Reaches host (ofWorld w) s) : s.Accounted := by
  induction hreach with
  | refl => exact accounted_ofWorld w
  | tail _ hnext ih => exact hnext.accounted ih

end Service

/-! ## Deliveries to dead handles -/

namespace Loop

variable {l : Loop σ ν} {w : World σ ν} {p : LoopProgress σ ν} {watching : Bool}
  {phase : LoopPhase} {target : Handle} {event : EventId} {data : Option Payload}

/-- A loop is about to begin a call if nothing waits for it. -/
theorem call?_eq_some_iff {call : Call} :
    l.call? = some call ↔ l.task.control = .perform call ∧ l.task.stack = [] := by
  unfold call?
  split
  next call' hcontrol hstack => simp [hcontrol, hstack]
  next hnot =>
    refine ⟨nofun, fun ⟨hcontrol, hstack⟩ => ?_⟩
    exact absurd hstack (hnot call hcontrol)

/-- What a loop decides fits its phase. -/
theorem Decision.coherent (hdecision : Decision w watching phase p) (hloop : p.loop? = some l) :
    l.Coherent := by
  intro call hcall
  cases hdecision with
  | fires | concludes =>
    cases hloop
    cases hcall
    exact .inl rfl
  | delivers hreceive =>
    cases hloop
    cases hcall
    exact .inr ⟨⟨_, rfl⟩, .inl rfl⟩
  | goesOn hreceive =>
    cases hloop
    cases hcall
    exact .inr ⟨⟨_, rfl⟩, .inr rfl⟩
  | drains | deserted | unsignalled | waits | parks =>
    cases hloop
    cases hcall
  | stops | abandons | ends => cases hloop

/-- After a graceful signal the loop goes on as long as something is queued, and then fires the
timers. -/
theorem exists_running_of_drain (l : Loop σ ν) (w : World σ ν) :
    ∃ l', (l.deliver? w .drain).getD (l.make w .fireExpired .conclude) = .running l' := by
  have hdecision := l.decision_drain w
  generalize (l.deliver? w .drain).getD (l.make w .fireExpired .conclude) = p at hdecision ⊢
  cases hdecision <;> exact ⟨_, rfl⟩

/-- A loop that has made a delivery goes on once the delivery has returned, whatever happens
outside in the meantime. -/
theorem exists_step_of_returned (hreturned : l.Returned)
    (hphase : l.phase = .begin ∨ l.phase = .drain) (f : World σ ν → World σ ν) (t : Time) :
    ∃ l', ((l.update f).atTime t).step host = .running l' := by
  obtain ⟨⟨reply, hreply⟩, hstack⟩ := hreturned
  obtain ⟨⟨w, control, stack⟩, phase, watching⟩ := l
  obtain rfl : control = .give reply := hreply
  obtain rfl : stack = [] := hstack
  rcases hphase with hbegin | hdrain
  · obtain rfl : phase = .begin := hbegin
    exact ⟨_, rfl⟩
  · obtain rfl : phase = .drain := hdrain
    exact exists_running_of_drain _ _

/-- The call of the loop is refused by the next step because `target` is dead, which leaves the
engine alone, and the loop goes on whatever happens outside in the meantime. -/
def PassesOver (host : Host σ ν) (l : Loop σ ν) (target : Handle) : Prop :=
  ∀ t, ∃ l', (l.atTime t).step host = .running l' ∧
    l'.task.control = .give (.refused (.invalidInstance target)) ∧
    l'.task.world.engine = l.task.world.engine ∧
    ∀ (f : World σ ν → World σ ν) (t' : Time),
      ∃ l'', ((l'.update f).atTime t').step host = .running l''

/-- A delivery to a dead handle is passed over. -/
theorem Coherent.passesOver (hl : l.Coherent)
    (hcall : l.call? = some (.dispatch target event data))
    (hdead : l.task.world.engine.get? target = none) : l.PassesOver host target := by
  intro t
  rcases hl _ hcall with hfire | ⟨-, hphase⟩
  · cases hfire
  · -- Nothing waits for the delivery, so its refusal is the answer that the loop is given.
    obtain ⟨hcontrol, hstack⟩ := call?_eq_some_iff.1 hcall
    obtain ⟨⟨w, control, stack⟩, phase, watching⟩ := l
    obtain rfl : control = .perform (.dispatch target event data) := hcontrol
    obtain rfl : stack = [] := hstack
    have hdead' : w.engine.get? target = none := hdead
    refine ⟨⟨⟨(({ w with now := t } : World σ ν).log (.targetMissing target event)).log .backtrace,
      .give (.refused (.invalidInstance target)), []⟩, phase, watching⟩, ?_, rfl, rfl, ?_⟩
    · simp only [Loop.step, atTime, Execution.atTime, Execution.step, Execution.begin,
        Execution.beginDispatch, hdead']
      rfl
    · exact exists_step_of_returned ⟨⟨_, rfl⟩, rfl⟩ hphase

end Loop

namespace Service

variable {s s' : Service σ ν} {l : Loop σ ν} {w : World σ ν}

/-- What a loop does next fits its phase. -/
theorem Next.coherent (hnext : Next host s s')
    (hs : ∀ l, s.loop.loop? = some l → l.Coherent) : ∀ l, s'.loop.loop? = some l → l.Coherent := by
  intro l' hl'
  cases hnext with
  | @step l t hloop htime =>
    have hsteps := Loop.stepsTo_of_step host (l.atTime t)
    change ((l.atTime t).step host).loop? = some l' at hl'
    generalize (l.atTime t).step host = p at hsteps hl'
    cases hsteps with
    | works ht =>
      cases hl'
      intro call hcall
      cases (Loop.call?_eq_none_of_transition ht).symm.trans hcall
    | faults => cases hl'
    | decides hreply hstack hdecision => exact hdecision.coherent hl'
  | client m =>
    -- A move changes the inbox, and so neither the call nor the phase.
    change (s.loop.update _).loop? = some l' at hl'
    rw [LoopProgress.loop?_update] at hl'
    obtain ⟨l, hloop, rfl⟩ := Option.map_eq_some_iff.1 hl'
    exact hs l hloop

/-- What a loop does fits its phase from its beginning on. -/
theorem Reaches.coherent (hreach : Reaches host (ofWorld w) s) (hloop : s.loop.loop? = some l) :
    l.Coherent := by
  induction hreach generalizing l with
  | refl =>
    cases hloop
    nofun
  | tail _ hnext ih => exact hnext.coherent (fun l hl => ih hl) l hloop

end Service

/-! ## The ends of a loop -/

namespace LoopProgress

/-- A graceful signal was read. -/
def Draining : LoopProgress σ ν → Prop
  | .running l | .parked l => l.phase = .drain ∨ l.phase = .conclude
  | .ended _ how => how = .drained
  | .faulted _ => False

/-- A graceful signal was read, and later the queue was found empty. -/
def Concluding : LoopProgress σ ν → Prop
  | .running l | .parked l => l.phase = .conclude
  | .ended _ how => how = .drained
  | .faulted _ => False

/-- An immediate signal was read. -/
def Stopped : LoopProgress σ ν → Prop
  | .ended _ how => how = .stopped
  | _ => False

end LoopProgress

namespace Loop

variable {l : Loop σ ν} {p : LoopProgress σ ν} {t : Time}

/-- A loop drains its queue only because it reads a graceful signal. -/
theorem StepsTo.reads_of_draining (hsteps : StepsTo host (l.atTime t) p) (hp : p.Draining) :
    (LoopProgress.running l).Draining ∨ l.Reads .graceful := by
  cases hsteps with
  | works => exact .inl hp
  | faults => cases hp
  | @decides reply p hreply hstack hdecision =>
    generalize hphase : (l.atTime t).phase = phase at hdecision
    cases hdecision with
    | drains hwatching hsignal => exact .inr ⟨hphase, hwatching, ⟨⟨reply, hreply⟩, hstack⟩, hsignal⟩
    | goesOn | concludes => exact .inl (.inl hphase)
    | ends => exact .inl (.inr hphase)
    | waits =>
      -- Both phases that may follow belong to a round.
      dsimp only [LoopProgress.Draining] at hp
      split at hp <;> rcases hp with h | h <;> cases h
    | fires | deserted | unsignalled | delivers | parks => rcases hp with h | h <;> cases h
    | stops | abandons => cases hp

/-- A loop concludes only because it finds its queue empty after a graceful signal, and from then
on it delivers nothing. -/
theorem StepsTo.findsEmpty_of_concluding (hsteps : StepsTo host (l.atTime t) p)
    (hp : p.Concluding) :
    ((LoopProgress.running l).Concluding ∨ l.FindsEmpty) ∧ p.call?.bind Call.delivery? = none := by
  cases hsteps with
  | works ht =>
    refine ⟨.inl hp, ?_⟩
    rw [LoopProgress.call?, LoopProgress.loop?, Option.bind_some, call?_eq_none_of_transition ht]
    rfl
  | faults => cases hp
  | @decides reply p hreply hstack hdecision =>
    generalize hphase : (l.atTime t).phase = phase at hdecision
    cases hdecision with
    | concludes hempty => exact ⟨.inr ⟨hphase, ⟨⟨reply, hreply⟩, hstack⟩, hempty⟩, rfl⟩
    | ends => exact ⟨.inl hphase, rfl⟩
    | waits =>
      dsimp only [LoopProgress.Concluding] at hp
      split at hp <;> cases hp
    | fires | deserted | unsignalled | delivers | parks | drains | goesOn => cases hp
    | stops | abandons => cases hp

/-- A loop stops only because it reads an immediate signal, and then makes no call. -/
theorem StepsTo.reads_of_stopped (hsteps : StepsTo host (l.atTime t) p) (hp : p.Stopped) :
    l.Reads .immediate ∧ p.call?.bind some = none := by
  cases hsteps with
  | works | faults => cases hp
  | @decides reply p hreply hstack hdecision =>
    generalize hphase : (l.atTime t).phase = phase at hdecision
    cases hdecision with
    | stops hwatching hsignal =>
      exact ⟨⟨hphase, hwatching, ⟨⟨reply, hreply⟩, hstack⟩, hsignal⟩, rfl⟩
    | fires | drains | deserted | unsignalled | waits | delivers | parks | abandons | goesOn
    | concludes | ends => cases hp

end Loop

namespace Service

variable {s s₀ : Service σ ν} {w : World σ ν}

/-- What is true of a loop now and was not true of it before has become so by a step of the loop.
If it has become so only by steps that begin none of certain calls, there were none since. -/
theorem Reaches.since {β : Type} {P : LoopProgress σ ν → Prop} {R : Loop σ ν → Prop}
    {g : Call → Option β} (hreach : Reaches host s₀ s)
    (hworks : ∀ p l, p.loop? = some l → P (.running l) → P p)
    (hclient : ∀ p f, P (p.update f) → P p)
    (hstep : ∀ l t p, Loop.StepsTo host (l.atTime t) p → P p →
      (P (.running l) ∨ R l) ∧ p.call?.bind g = none)
    (h₀ : ¬ P s₀.loop) (hs : P s.loop) :
    ∃ s₁ l₁, Reaches host s₀ s₁ ∧ s₁.loop.loop? = some l₁ ∧ R l₁ ∧ Reaches host s₁ s ∧
      s.calls.filterMap g = s₁.calls.filterMap g := by
  induction hreach with
  | refl => exact absurd hs h₀
  | @tail s s' hreach hnext ih =>
    cases hnext with
    | @step l t hloop htime =>
      obtain ⟨hbefore, hnone⟩ := hstep l t _ (Loop.stepsTo_of_step host (l.atTime t)) hs
      have hcalls : (s.stepped host (l.atTime t)).calls.filterMap g = s.calls.filterMap g := by
        rw [filterMap_calls_stepped, hnone, Option.toList_none, List.append_nil]
      -- It was true before the step already, or it is this step that has made it true.
      rcases hbefore with hbefore | hR
      · obtain ⟨s₁, l₁, hreach₁, hloop₁, hR, hrest, hcalls₁⟩ := ih (hworks _ _ hloop hbefore)
        exact ⟨s₁, l₁, hreach₁, hloop₁, hR, hrest.tail (.step t hloop htime),
          hcalls.trans hcalls₁⟩
      · exact ⟨s, l, hreach, hloop, hR, .single (.step t hloop htime), hcalls⟩
    | client m =>
      obtain ⟨s₁, l₁, hreach₁, hloop₁, hR, hrest, hcalls₁⟩ := ih (hclient _ _ hs)
      exact ⟨s₁, l₁, hreach₁, hloop₁, hR, hrest.tail (.client m), hcalls₁⟩

/-- A loop that drains its queue has read a graceful signal. -/
theorem Reaches.exists_reads_of_draining (hreach : Reaches host (ofWorld w) s)
    (hs : s.loop.Draining) :
    ∃ s₁ l₁, Reaches host (ofWorld w) s₁ ∧ s₁.loop.loop? = some l₁ ∧ l₁.Reads .graceful ∧
      Reaches host s₁ s := by
  have hfresh : ¬ (ofWorld w).loop.Draining := by
    rintro (h | h) <;> cases h
  obtain ⟨s₁, l₁, hreach₁, hloop₁, hreads, hrest, -⟩ :=
    hreach.since (g := fun _ => (none : Option Unit)) (R := (Loop.Reads · .graceful))
      (fun p l hloop h => by cases p <;> cases hloop <;> exact h)
      (fun p f h => by cases p <;> exact h)
      (fun l t p hsteps hp => ⟨hsteps.reads_of_draining hp, by cases p.call? <;> rfl⟩) hfresh hs
  exact ⟨s₁, l₁, hreach₁, hloop₁, hreads, hrest⟩

/-- A loop that concludes has found its queue empty, and has delivered nothing since. -/
theorem Reaches.exists_findsEmpty_of_concluding (hreach : Reaches host (ofWorld w) s)
    (hs : s.loop.Concluding) :
    ∃ s₁ l₁, Reaches host (ofWorld w) s₁ ∧ s₁.loop.loop? = some l₁ ∧ l₁.FindsEmpty ∧
      Reaches host s₁ s ∧ s.deliveries = s₁.deliveries := by
  have hfresh : ¬ (ofWorld w).loop.Concluding := nofun
  exact hreach.since (fun p l hloop h => by cases p <;> cases hloop <;> exact h)
    (fun p f h => by cases p <;> exact h)
    (fun l t p hsteps hp => hsteps.findsEmpty_of_concluding hp) hfresh hs

/-- A loop that was stopped has read an immediate signal, and has made no call since. -/
theorem Reaches.exists_reads_of_stopped (hreach : Reaches host (ofWorld w) s)
    (hs : s.loop.Stopped) :
    ∃ s₁ l₁, Reaches host (ofWorld w) s₁ ∧ s₁.loop.loop? = some l₁ ∧ l₁.Reads .immediate ∧
      Reaches host s₁ s ∧ s.calls = s₁.calls := by
  have hfresh : ¬ (ofWorld w).loop.Stopped := nofun
  obtain ⟨s₁, l₁, hreach₁, hloop₁, hreads, hrest, hcalls⟩ :=
    hreach.since (R := (Loop.Reads · .immediate))
      (fun p l hloop h => by cases h)
      (fun p f h => by cases p <;> exact h)
      (fun l t p hsteps hp =>
        have hreads := hsteps.reads_of_stopped hp
        ⟨.inr hreads.1, hreads.2⟩) hfresh hs
  rw [List.filterMap_some, List.filterMap_some] at hcalls
  exact ⟨s₁, l₁, hreach₁, hloop₁, hreads, hrest, hcalls⟩

/-- The call that a loop is about to begin is the latest of its calls. -/
theorem Reaches.getLast?_calls {call : Call} (hreach : Reaches host (ofWorld w) s)
    (hcall : s.loop.call? = some call) : s.calls.getLast? = some call := by
  induction hreach with
  | refl => cases hcall
  | tail _ hnext ih =>
    cases hnext with
    | @step l t hloop htime =>
      change (Loop.step _ (l.atTime t)).call? = some call at hcall
      rw [stepped, hcall, Option.toList_some, List.getLast?_concat]
    | client m =>
      refine ih (hcall ▸ ?_)
      rw [moved, LoopProgress.call?, LoopProgress.call?, LoopProgress.loop?_update]
      cases LoopProgress.loop? _ <;> rfl

/-! ## Requests are neither lost nor delivered twice nor reordered -/

/-- What a loop that began as `s₀` has done with the requests of its inbox when it has come to
`s`. -/
structure Faithful (host : Host σ ν) (s₀ s : Service σ ν) : Prop where
  /-- The deliveries are the first of the accepted requests, in order, each once and without
  data. -/
  delivered : s.deliveries <+: withoutData s.accepted
  /-- While the loop works, the rest is queued. -/
  queued : ∀ l, s.loop.loop? = some l →
    s.deliveries ++ withoutData l.task.world.inbox.queue = withoutData s.accepted
  /-- A delivery to a dead handle counts as one and does not stop the loop. -/
  dead : ∀ l target event data, s.loop.loop? = some l →
    l.call? = some (.dispatch target event data) → l.task.world.engine.get? target = none →
      s.calls.getLast? = some (.dispatch target event data) ∧ l.PassesOver host target
  /-- A loop that ends because all senders are gone has delivered everything. -/
  abandoned : ∀ w, s.loop = .ended w .abandoned → s.deliveries = withoutData s.accepted
  /-- A loop that ends after a graceful signal has later found its queue empty. By then it had
  delivered everything, and since then it has delivered nothing. -/
  drained : ∀ w, s.loop = .ended w .drained →
    ∃ s₁ l₁ s₂ l₂, Reaches host s₀ s₁ ∧ s₁.loop.loop? = some l₁ ∧ l₁.Reads .graceful ∧
      Reaches host s₁ s₂ ∧ s₂.loop.loop? = some l₂ ∧ l₂.FindsEmpty ∧
      s₂.deliveries = withoutData s₂.accepted ∧
      Reaches host s₂ s ∧ s.deliveries = s₂.deliveries
  /-- A loop that ends after an immediate signal has made no call since it read the signal. -/
  stopped : ∀ w, s.loop = .ended w .stopped →
    ∃ s₁ l₁, Reaches host s₀ s₁ ∧ s₁.loop.loop? = some l₁ ∧ l₁.Reads .immediate ∧
      Reaches host s₁ s ∧ s.calls = s₁.calls

/-- Whatever the state of the engine, the hooks and the inbox at the beginning of a loop, and
however time passes and clients act between its steps, the loop is faithful. -/
theorem faithful_of_reaches (hreach : Reaches host (ofWorld w) s) :
    Faithful host (ofWorld w) s where
  delivered := hreach.accounted.prefix_accepted
  queued l hloop := (LoopProgress.balances_iff hloop).1 hreach.accounted
  dead l target event data hloop hcall hdead := by
    refine ⟨hreach.getLast?_calls ?_, (hreach.coherent hloop).passesOver hcall hdead⟩
    rw [LoopProgress.call?, hloop, Option.bind_some, hcall]
  abandoned w hended := by
    have hbalance := hreach.accounted
    rw [Accounted, hended] at hbalance
    exact hbalance.2.2 rfl
  drained w hended := by
    -- The end is traced back to the empty queue, and that to the signal.
    obtain ⟨s₂, l₂, hreach₂, hloop₂, hempty, hrest, hdeliveries⟩ :=
      hreach.exists_findsEmpty_of_concluding (by rw [hended]; rfl)
    have hdraining : s₂.loop.Draining := by
      cases hs : s₂.loop <;> rw [hs] at hloop₂ <;> cases hloop₂ <;> exact .inl hempty.phase
    obtain ⟨s₁, l₁, hreach₁, hloop₁, hreads, hbetween⟩ :=
      hreach₂.exists_reads_of_draining hdraining
    have hall := (LoopProgress.balances_iff hloop₂).1 hreach₂.accounted
    rw [hempty.queue, withoutData, List.map_nil, List.append_nil] at hall
    exact ⟨s₁, l₁, s₂, l₂, hreach₁, hloop₁, hreads, hbetween, hloop₂, hempty, hall, hrest,
      hdeliveries⟩
  stopped w hended := hreach.exists_reads_of_stopped (by rw [hended]; rfl)

/-- The loop takes steps while time stands still and no client acts, at most `fuel` of them. -/
def work (host : Host σ ν) : Nat → Service σ ν → Service σ ν
  | 0, s => s
  | fuel + 1, s =>
    match s.loop.loop? with
    | some l => work host fuel (s.stepped host (l.atTime l.task.world.now))
    | none => s

/-- A service comes to what its loop makes of it. -/
theorem reaches_work (fuel : Nat) (s : Service σ ν) : Reaches host s (work host fuel s) := by
  induction fuel generalizing s with
  | zero => exact .refl
  | succ fuel ih =>
    unfold work
    split
    next l hloop => exact .head (.step _ hloop (Nat.le_refl _)) (ih _)
    next => exact .refl

/-- A service comes to what its clients make of it. -/
theorem reaches_foldl_moved (ms : List ClientMove) (s : Service σ ν) :
    Reaches host s (ms.foldl moved s) := by
  induction ms generalizing s with
  | nil => exact .refl
  | cons m ms ih => exact .head (.client m) (ih _)

/-- An engine with one live instance, and an empty inbox with two places. -/
def staffed : World Unit Unit :=
  { (Execution.session Execution.passive 10 (Execution.idle { logAddr := false } ()) []
      [.alloc .fork none none none]).1.world with inbox := { capacity := 2 } }

/-- Clients send a request for the live instance, one for a dead handle, and one that does not fit
in. Then they ask the loop to end, and it takes its steps. -/
def busied : Service Unit Unit :=
  work Execution.passive 40 <|
    [.trySend ⟨⟨0, 0⟩, 0⟩, .trySend ⟨⟨5, 0⟩, 1⟩, .trySend ⟨⟨0, 0⟩, 2⟩, .shutdown .graceful].foldl
      moved (ofWorld staffed)

/-- The loop delivers the two requests that were accepted, also the one for the dead handle. -/
theorem busied_faithful :
    (∃ w, busied.loop = .ended w .drained) ∧
      busied.deliveries = [(⟨⟨0, 0⟩, 0⟩, none), (⟨⟨5, 0⟩, 1⟩, none)] ∧
      Faithful Execution.passive (ofWorld staffed) busied := by
  have hreach : Reaches Execution.passive (ofWorld staffed) busied :=
    (reaches_foldl_moved _ _).trans (reaches_work 40 _)
  exact ⟨⟨_, rfl⟩, rfl, faithful_of_reaches hreach⟩

end Service

end StateMachines
