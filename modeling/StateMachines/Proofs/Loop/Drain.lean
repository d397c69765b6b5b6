import StateMachines.Proofs.Execution.Likeness
import StateMachines.Proofs.Execution.Series
import StateMachines.Proofs.Loop.Shutdown

/-!
# The two ways to empty a queue

A loop delivers everything that is queued before it ends, both after a graceful signal and when all
senders are gone. The first way fires the timers before and after the whole queue, the second one
before each request. While the clock stands still both come to the same as firing the timers once
and delivering the requests: a firing leaves nothing that is due, what a hook arms lies ahead, and
so all further firings find nothing.

A loop is compared with a series of calls that is made without it. The two differ in their inboxes
only, and hooks that leave the inbox alone do not notice that.

## Main definitions

* `Host.Internal`: the hooks leave the inbox of the loop alone.
* `Likeness.besides`: executions that differ in their inboxes.
* `Loop.Empties`: the loop is about to deliver what is queued and to end in the given way.
* `Loop.KeepsPace`: the loop is as far as a series of deliveries.

## Main results

* `Likeness.kept_besides`: executions that differ in their inboxes remain alike.
* `Execution.Series.nothingDue`: after a firing nothing becomes due in a series.
* `Loop.drains_alike`: both ways to empty the queue come to the same as plain deliveries.
-/

namespace StateMachines

variable {σ ν : Type} {host : Host σ ν}

/-! ## The inbox does not matter -/

/-- Whether a call leaves the inbox of the loop alone. -/
def Call.Internal : Call → Prop
  | .trySend _ | .shutdown _ => False
  | _ => True

/-- The hooks are programs over the operations of the engine: they leave the inbox of the loop
alone. -/
def Host.Internal (host : Host σ ν) : Prop :=
  ∀ d h hook c, (host.script d h hook c).Only Call.Internal

/-- The right execution has the inbox `b`, and is like the left one besides. -/
def Likeness.besides (b : Inbox) : Likeness σ ν where
  toOutlook := .same Call.Internal
  world w v := v = { w with inbox := b }
  fault := Eq
  scope _ := True
  frame := Frame.IsOperation

namespace Likeness

variable {b : Inbox} {w v : World σ ν} {call : Call} {frame : Frame σ ν}
  {stack stack' : List (Frame σ ν)}

open Execution

/-- Answers are given alike, whatever the inbox is. -/
theorem reply_besides {reply : Reply} (hstack : Stacked (besides b) stack stack') :
    (Execution.reply w reply stack).Alike (besides b)
      (Execution.reply { w with inbox := b } reply stack') :=
  .running ⟨rfl, .give rfl, hstack⟩

/-- Operations begin alike, whatever the inbox is. -/
theorem begin_besides (hcall : call.Internal) (hstack : Stacked (besides b) stack stack') :
    (begin w call stack).Alike (besides b) (begin { w with inbox := b } call stack') := by
  cases call with
  | register | unregister | free | setLogAddr | setLevel | setPayload | takePayload =>
    exact reply_besides hstack
  | trySend | shutdown => exact hcall.elim
  | alloc d payload level id =>
    simp only [begin, beginAlloc]
    split
    next => exact reply_besides hstack
    next => exact .faulted rfl
  | allocChild d parent event =>
    simp only [begin, beginAllocChild]
    split
    next => exact reply_besides hstack
    next p _ =>
      split
      next => exact .running ⟨rfl, .perform ⟨rfl, trivial⟩, .cons (.answer rfl) hstack⟩
      next =>
        split
        next => exact reply_besides hstack
        next => exact .faulted rfl
  | dispatch target event data =>
    simp only [begin, beginDispatch]
    split
    next => exact reply_besides hstack
    next inst _ =>
      split
      next => exact .faulted rfl
      next =>
        split
        next => exact .running ⟨rfl, .hook _ _ trivial, .cons (.answer rfl) hstack⟩
        next =>
          split
          next => exact .running ⟨rfl, .hook _ _ trivial, .cons (.answer rfl) hstack⟩
          next => exact reply_besides hstack
  | changeState target state timeout label =>
    simp only [begin, beginChange]
    split
    next => exact reply_besides hstack
    next inst _ =>
      split
      next => exact .running ⟨rfl, .hook _ _ trivial, .cons (.operation trivial) hstack⟩
      next => exact reply_besides hstack
  | terminate target cause data =>
    simp only [begin, beginEnd]
    split
    next => exact reply_besides hstack
    next inst _ =>
      split
      next => exact reply_besides hstack
      next => exact .running ⟨rfl, .give rfl, .cons (.operation trivial) hstack⟩
  | fireExpired => exact .running ⟨rfl, .give rfl, .cons (.operation trivial) hstack⟩

/-- Unfinished operations go on alike, whatever the inbox is. -/
theorem proceed_besides (answer answer' : Reply) (hframe : frame.IsOperation)
    (hstack : Stacked (besides b) stack stack') :
    (proceed w frame answer stack).Alike (besides b)
      (proceed { w with inbox := b } frame answer' stack') := by
  cases frame with
  | resume | answer => exact hframe.elim
  | leaving target d source state timeout label =>
    simp only [proceed, afterLeave]
    split
    next => exact reply_besides hstack
    next => exact .running ⟨rfl, .hook _ _ trivial, .cons (.operation trivial) hstack⟩
  | entering target d timeout label =>
    simp only [proceed, afterEnter]
    split
    next => exact reply_besides hstack
    next =>
      split
      next => exact reply_besides hstack
      next => split <;> exact reply_besides hstack
  | cascade ending children =>
    cases children with
    | nil => exact .running ⟨rfl, .hook _ _ trivial, .cons (.operation trivial) hstack⟩
    | cons child rest =>
      simp only [proceed, afterChild]
      split
      next => exact .running ⟨rfl, .perform ⟨rfl, trivial⟩, .cons (.operation trivial) hstack⟩
      next => exact .running ⟨rfl, .give rfl, .cons (.operation trivial) hstack⟩
  | cleaning ending =>
    refine .afterCleanup ?_ rfl (fun _ _ => ⟨rfl, trivial⟩) hstack
    unfold World.released
    dsimp only
    split <;> rfl
  | firing now count =>
    simp only [proceed, fireNext]
    split
    next => exact reply_besides hstack
    next target timers _ =>
      split
      next => exact .running ⟨rfl, .give rfl, .cons (.operation trivial) hstack⟩
      next => exact .running ⟨rfl, .hook _ _ trivial, .cons (.operation trivial) hstack⟩

/-- If the hooks leave the inbox alone, executions that differ in it remain alike. -/
theorem kept_besides (hinternal : host.Internal) (b : Inbox) : (besides b).Kept host where
  done := rfl
  context := by
    rintro w _ rfl
    rfl
  env := by
    rintro w _ env _ rfl rfl
    rfl
  note := by
    rintro w _ note rfl
    rfl
  hook := by
    rintro w _ target hook rfl -
    rfl
  script := by
    rintro target c _ d hook - rfl
    exact (hinternal d target hook c).alike
  begin := by
    rintro w _ call _ stack stack' rfl ⟨rfl, hcall⟩ hstack
    exact begin_besides hcall hstack
  proceed := by
    rintro w _ frame stack stack' answer answer' rfl hframe hstack
    exact proceed_besides answer answer' hframe hstack

end Likeness

/-! ## Nothing becomes due -/

namespace Execution

variable {w : World σ ν} {x y : Execution σ ν} {past hist : List (Execution σ ν)}
  {calls left : List Call}

/-- Nothing is due if every pending deadline lies ahead. -/
theorem nothingDue_of_lt (htimed : x.world.engine.Timed)
    (hahead : ∀ h d, x.deadline? h = some d → x.world.now < d.time) :
    x.world.engine.NothingDue x.world.now := by
  intro time hnext
  obtain ⟨⟨d, h⟩, hhead, rfl⟩ := Option.map_eq_some_iff.1 hnext
  exact hahead h d ((htimed.coherent.mem_agenda_iff d h).1 (List.mem_of_head? hhead))

/-- A firing that has returned leaves nothing that is due. -/
theorem Run.ahead_of_atRest (hrun : Run host (.ofCall w .fireExpired) past)
    (hspan : Spans host (.ofCall w .fireExpired) x hist)
    (hstill : Still (.ofCall w .fireExpired) (x :: hist)) (hrest : x.AtRest) (h : Handle)
    (d : Deadline) (hd : x.deadline? h = some d) : x.world.now < d.time := by
  have hne : hist ≠ [] := by
    rintro rfl
    cases hspan
    obtain ⟨⟨reply, hgive⟩, -⟩ := hrest
    cases hgive
  rw [hstill x List.mem_cons_self]
  rcases (hrun.fired_of_spans hspan hstill rfl hne).goes with hfires | ⟨-, -, hahead⟩
  · have hlt := hfires.length_lt
    simp [hrest.2] at hlt
  · exact hahead h d hd

/-- In a series that begins with a firing, nothing is due from the end of the firing on. -/
theorem Series.ahead (hrun : Run host (.ofCall w .fireExpired) past)
    (hseries : Series host (.ofCall w .fireExpired) calls left x hist) :
    Spans host (.ofCall w .fireExpired) x hist ∧ Still (.ofCall w .fireExpired) (x :: hist) ∨
      ∀ h d, x.deadline? h = some d → x.world.now < d.time := by
  induction hseries with
  | start => exact .inl ⟨.start, still_self⟩
  | @call call left x hist hseries hrest ih =>
    rcases ih with ⟨hspan, hstill⟩ | hahead
    · exact .inr fun h d hd => hrun.ahead_of_atRest hspan hstill hrest h d hd
    · exact .inr hahead
  | @step left x x' hist hseries hstep ih =>
    have hnow := (transition_of_step hstep).now_eq
    rcases ih with ⟨hspan, hstill⟩ | hahead
    · by_cases hreturned : (ofCall w .fireExpired).Returned x
      · -- A firing from outside that has returned is at rest.
        exact absurd ⟨hreturned.1, hspan.stack_eq_of_returned hreturned⟩ (not_atRest_of_step hstep)
      · refine .inl ⟨hspan.next hreturned (.move x.world.now (Nat.le_refl _) hstep), ?_⟩
        intro y hy
        rcases List.mem_cons.1 hy with rfl | hy
        · rw [hnow]
          exact hstill x List.mem_cons_self
        · exact hstill y hy
    · -- What the step arms lies ahead, and the rest was pending before.
      have htimed := (hseries.run hrun).timed
      refine .inr fun h d hd => ?_
      rcases ((transition_of_step hstep).timerStep htimed).pending htimed hd with hbefore | hlater
      · rw [hnow]
        exact hahead h d hbefore
      · exact hlater

/-- In a series that begins with a firing, nothing is due whenever a call has returned. -/
theorem Series.nothingDue (hrun : Run host (.ofCall w .fireExpired) past)
    (hseries : Series host (.ofCall w .fireExpired) calls left x hist) (hrest : x.AtRest) :
    x.world.engine.NothingDue x.world.now := by
  refine nothingDue_of_lt (hseries.run hrun).timed ?_
  rcases hseries.ahead hrun with ⟨hspan, hstill⟩ | hahead
  · exact hrun.ahead_of_atRest hspan hstill hrest
  · exact hahead

/-- What is like an execution at rest is at rest, in the same world but for the inbox. -/
theorem Alike.atRest {b : Inbox} (hxy : x.Alike (.besides b) y) (hrest : x.AtRest) :
    y.AtRest ∧ y.world = { x.world with inbox := b } := by
  obtain ⟨w, control, stack⟩ := x
  obtain ⟨v, control', stack'⟩ := y
  obtain ⟨hworld, hcontrol, hstack⟩ := hxy
  obtain ⟨⟨reply, rfl⟩, rfl⟩ := hrest
  cases hstack
  cases hcontrol
  exact ⟨⟨⟨_, rfl⟩, rfl⟩, hworld⟩

end Execution

/-! ## Emptying the queue -/

/-- The calls by which requests are delivered, in order and without data. -/
def deliveries (requests : List Request) : List Call :=
  requests.map fun r => .dispatch r.target r.event none

namespace Inbox

variable {b : Inbox} {r : Request} {rest : List Request}

/-- Taking the oldest request out of the queue leaves the signal and the senders alone. -/
theorem exists_receive? (hqueue : b.queue = r :: rest) :
    ∃ inbox, b.receive? = some (r, inbox) ∧ inbox.queue = rest ∧ inbox.signal = b.signal ∧
      inbox.senders = b.senders := by
  unfold receive?
  rw [hqueue]
  dsimp only
  split
  · exact ⟨_, rfl, rfl, rfl, rfl⟩
  · exact ⟨_, rfl, rfl, rfl, rfl⟩

/-- A loop that begins with this inbox is to end in the given way. -/
def Bids (b : Inbox) : LoopEnd → Prop
  | .drained => b.signal = some .graceful
  | .abandoned => b.signal = none ∧ b.senders = 0
  | .stopped => False

end Inbox

/-- What a loop publishes at its end. -/
def World.concluded (w : World σ ν) : LoopEnd → World σ ν
  | .drained => w.log .loopDrained
  | _ => w

namespace Loop

variable {l l' : Loop σ ν} {p : LoopProgress σ ν} {v w : World σ ν} {phase : LoopPhase}
  {watching : Bool} {how : LoopEnd} {x : Execution σ ν} {r : Request} {rest : List Request}
  {calls left : List Call} {past hist : List (Execution σ ν)} {b : Inbox}

/-- What a loop comes to on its own while the clock stands still. -/
abbrev Steps (host : Host σ ν) : Loop σ ν → Loop σ ν → Prop :=
  Relation.ReflTransGen fun l l' => l.step host = .running l'

/-- What a loop comes to leads on to its end. -/
theorem exists_run_of_steps (hsteps : Steps host l l') (hstep : l'.step host = p)
    (hend : p.loop? = none) : ∃ fuel, l.run host fuel = some p := by
  induction hsteps using Relation.ReflTransGen.head_induction_on with
  | refl =>
    refine ⟨1, ?_⟩
    unfold run
    rw [hstep]
    cases p with
    | running | parked => cases hend
    | ended | faulted => rfl
  | head hfirst _ ih =>
    obtain ⟨fuel, hrun⟩ := ih
    refine ⟨fuel + 1, ?_⟩
    unfold run
    rw [hfirst]
    exact hrun

/-- A loop whose call has returned decides what to do next. -/
theorem step_of_atRest (hrest : l.task.AtRest) : l.step host = l.decide l.task.world := by
  obtain ⟨w, reply, hstep⟩ := (Execution.atRest_iff host).1 hrest
  have hworld : l.task.world = w := by rw [Execution.step_eq_finished_iff.1 hstep]
  unfold step
  rw [hstep, hworld]

/-- A firing of the loop that finds nothing due leaves the world as it is. -/
theorem steps_of_nothingDue (hdue : v.engine.NothingDue v.now) :
    Steps host ⟨.ofCall v .fireExpired, phase, watching⟩
      ⟨⟨v, .give (.count 0), []⟩, phase, watching⟩ := by
  refine .head (b := ⟨⟨v, .give .done, [.firing v.now 0]⟩, phase, watching⟩) rfl (.single ?_)
  simp only [step, Execution.step, Execution.proceed, Execution.fireNext, hdue.popExpired]
  rfl

/-- The loop is about to deliver everything that is queued, and to end in the given way. -/
def Empties (l : Loop σ ν) : LoopEnd → Prop
  | .drained => l.watching = true ∧
      (l.phase = .watch ∧ l.task.world.inbox.signal = some .graceful ∨ l.phase = .drain)
  | .abandoned => l.task.world.inbox.senders = 0 ∧
      (l.phase = .watch ∧ l.watching = true ∧ l.task.world.inbox.signal = none ∨
        l.phase = .begin ∧ l.watching = false)
  | .stopped => False

/-- Whether a loop is about to empty its queue depends on its phase and the inbox only. -/
theorem Empties.step (hempties : l.Empties how)
    (hinbox : x.world.inbox = l.task.world.inbox) : Empties { l with task := x } how := by
  cases how with
  | drained | abandoned =>
    dsimp only [Empties]
    rw [hinbox]
    exact hempties
  | stopped => exact hempties

/-- After a graceful signal a loop that is at rest goes on to drain its queue. -/
theorem steps_to_drain (host : Host σ ν) (hrest : l.task.AtRest) (hempties : l.Empties .drained) :
    ∃ (x : Execution σ ν) (b : Inbox), Steps host l ⟨x, .drain, true⟩ ∧ x.AtRest ∧
      x.world = { l.task.world with inbox := b } ∧ b.queue = l.task.world.inbox.queue := by
  obtain ⟨task, phase, watching⟩ := l
  obtain ⟨hwatching, ⟨hphase, hsignal⟩ | hphase⟩ := hempties
  · obtain rfl : watching = true := hwatching
    obtain rfl : phase = .watch := hphase
    have hsignal : task.world.inbox.signal = some .graceful := hsignal
    have hstep : step host (⟨task, .watch, true⟩ : Loop σ ν) =
        .running ⟨idle { task.world with inbox := task.world.inbox.seen }, .drain, true⟩ := by
      rw [step_of_atRest hrest]
      simp only [decide, watch, if_true, hsignal]
      rfl
    exact ⟨_, _, .single hstep, ⟨⟨_, rfl⟩, rfl⟩, rfl, rfl⟩
  · obtain rfl : watching = true := hwatching
    obtain rfl : phase = .drain := hphase
    exact ⟨task, task.world.inbox, .refl, hrest, rfl, rfl⟩

/-- A loop that does not look for signals goes through a round in which nothing is due. -/
theorem steps_of_round (hrest : x.AtRest) (hdue : x.world.engine.NothingDue x.world.now) :
    Steps host ⟨x, .begin, false⟩ ⟨idle x.world, .receive, false⟩ := by
  have hfire : step host (⟨x, .begin, false⟩ : Loop σ ν) =
      .running ⟨.ofCall x.world .fireExpired, .watch, false⟩ := step_of_atRest hrest
  have hwatch : step host (⟨⟨x.world, .give (.count 0), []⟩, .watch, false⟩ : Loop σ ν) =
      .running ⟨idle x.world, .wait, false⟩ := rfl
  have hnone : timerDue x.world = false := by
    unfold timerDue
    split
    next time hnext => exact decide_eq_false (Nat.not_le_of_lt (hdue time hnext))
    next => rfl
  have hwait : step host (⟨idle x.world, .wait, false⟩ : Loop σ ν) =
      .running ⟨idle x.world, .receive, false⟩ := by
    rw [step_of_atRest ⟨⟨_, rfl⟩, rfl⟩]
    simp only [decide, wait, idle, hnone]
    rfl
  exact .head hfire ((steps_of_nothingDue hdue).trans (.head hwatch (.single hwait)))

/-- A loop whose senders are gone goes on to look into its queue, because nothing is due. -/
theorem steps_to_receive (host : Host σ ν) (hrest : l.task.AtRest) (hempties : l.Empties .abandoned)
    (hdue : l.task.world.engine.NothingDue l.task.world.now) :
    Steps host l ⟨idle l.task.world, .receive, false⟩ := by
  obtain ⟨task, phase, watching⟩ := l
  obtain ⟨hsenders, ⟨hphase, hwatching, hsignal⟩ | ⟨hphase, hwatching⟩⟩ := hempties
  · obtain rfl : watching = true := hwatching
    obtain rfl : phase = .watch := hphase
    have hsignal : task.world.inbox.signal = none := hsignal
    have hsenders : task.world.inbox.senders = 0 := hsenders
    -- The disappearance of the senders is noticed, and answered by another round.
    have hstep : step host (⟨task, .watch, true⟩ : Loop σ ν) =
        .running ⟨idle task.world, .begin, false⟩ := by
      rw [step_of_atRest hrest]
      simp only [decide, watch, if_true, hsignal, hsenders]
      rfl
    exact .head hstep (steps_of_round ⟨⟨_, rfl⟩, rfl⟩ hdue)
  · obtain rfl : watching = false := hwatching
    obtain rfl : phase = .begin := hphase
    exact steps_of_round hrest hdue

/-- A loop at rest that is to empty its queue delivers the oldest request. -/
theorem steps_to_delivery (host : Host σ ν) (hrest : l.task.AtRest) (hempties : l.Empties how)
    (hdue : l.task.world.engine.NothingDue l.task.world.now)
    (hqueue : l.task.world.inbox.queue = r :: rest) :
    ∃ m b, Steps host l m ∧ m.Empties how ∧ (b : Inbox).queue = rest ∧
      m.task = .ofCall { l.task.world with inbox := b } (.dispatch r.target r.event none) := by
  cases how with
  | stopped => exact hempties.elim
  | drained =>
    obtain ⟨x, b, hsteps, hx, hworld, hb⟩ := steps_to_drain host hrest hempties
    obtain ⟨inbox, hreceive, hrest', -⟩ := Inbox.exists_receive? (hb.trans hqueue)
    have hstep : step host (⟨x, .drain, true⟩ : Loop σ ν) =
        .running ⟨.ofCall { l.task.world with inbox } (.dispatch r.target r.event none),
          .drain, true⟩ := by
      rw [step_of_atRest hx]
      simp only [decide, deliver?, hworld, hreceive]
      rfl
    exact ⟨_, inbox, hsteps.tail hstep, ⟨rfl, .inr rfl⟩, hrest', rfl⟩
  | abandoned =>
    obtain ⟨inbox, hreceive, hrest', -, hsenders⟩ := Inbox.exists_receive? hqueue
    have hstep : step host (⟨idle l.task.world, .receive, false⟩ : Loop σ ν) =
        .running ⟨.ofCall { l.task.world with inbox } (.dispatch r.target r.event none),
          .begin, false⟩ := by
      rw [step_of_atRest ⟨⟨_, rfl⟩, rfl⟩]
      simp only [decide, receive, deliver?, idle, hreceive]
      rfl
    exact ⟨_, inbox, (steps_to_receive host hrest hempties hdue).tail hstep,
      ⟨hsenders.trans hempties.1, .inr ⟨rfl, rfl⟩⟩, hrest', rfl⟩

/-- A loop at rest that has emptied its queue ends. -/
theorem steps_to_end (host : Host σ ν) (hrest : l.task.AtRest) (hempties : l.Empties how)
    (hdue : l.task.world.engine.NothingDue l.task.world.now)
    (hqueue : l.task.world.inbox.queue = []) :
    ∃ m b, Steps host l m ∧
      m.step host = .ended { l.task.world.concluded how with inbox := b } how := by
  cases how with
  | stopped => exact hempties.elim
  | drained =>
    obtain ⟨x, b, hsteps, hx, hworld, hb⟩ := steps_to_drain host hrest hempties
    have hreceive : b.receive? = none := by
      unfold Inbox.receive?
      rw [hb, hqueue]
    -- The timers are fired once more, but none is due.
    have hfire : step host (⟨x, .drain, true⟩ : Loop σ ν) =
        .running ⟨.ofCall x.world .fireExpired, .conclude, true⟩ := by
      rw [step_of_atRest hx]
      simp only [decide, deliver?, hworld, hreceive]
      rfl
    have hdue' : x.world.engine.NothingDue x.world.now := by
      rw [hworld]
      exact hdue
    refine ⟨_, b.close, (hsteps.tail hfire).trans (steps_of_nothingDue hdue'), ?_⟩
    rw [step_of_atRest ⟨⟨_, rfl⟩, rfl⟩]
    simp only [decide, finish, hworld]
    rfl
  | abandoned =>
    have hreceive : l.task.world.inbox.receive? = none := by
      unfold Inbox.receive?
      rw [hqueue]
    refine ⟨_, l.task.world.inbox.close, steps_to_receive host hrest hempties hdue, ?_⟩
    rw [step_of_atRest ⟨⟨_, rfl⟩, rfl⟩]
    simp only [decide, receive, deliver?, idle, hreceive, Option.map_none, hempties.1]
    rfl

open Execution (Run Series Returns FewReleases)

/-- The loop keeps pace with a series: its call is at the same moment, and what is still to be
delivered is queued. -/
structure KeepsPace (left : List Call) (x : Execution σ ν) (l : Loop σ ν) (how : LoopEnd) :
    Prop where
  task : x.Alike (.besides l.task.world.inbox) l.task
  queue : left = deliveries l.task.world.inbox.queue
  empties : l.Empties how

/-- A loop that is to empty its queue keeps pace with the series of a firing and the deliveries. -/
theorem exists_keepsPace (hinternal : host.Internal) (hrun : Run host (.ofCall w .fireExpired) past)
    (hbids : b.Bids how)
    (hseries : Series host (.ofCall w .fireExpired) (deliveries b.queue) left x hist) :
    ∃ l, Steps host (ofWorld { w with inbox := b }) l ∧ l.KeepsPace left x how := by
  induction hseries with
  | start =>
    have hstep : step host (ofWorld { w with inbox := b }) =
        .running ⟨.ofCall { w with inbox := b } .fireExpired, .watch, true⟩ := rfl
    refine ⟨_, .single hstep, ⟨rfl, .perform ⟨rfl, trivial⟩, .nil⟩, rfl, ?_⟩
    cases how with
    | drained => exact ⟨rfl, .inl ⟨rfl, hbids⟩⟩
    | abandoned => exact ⟨hbids.2, .inl ⟨rfl, rfl, hbids.1⟩⟩
    | stopped => exact hbids.elim
  | @call call left x hist hseries hrest ih =>
    obtain ⟨l, hsteps, htask, hqueue, hempties⟩ := ih
    obtain ⟨hrest', hworld⟩ := htask.atRest hrest
    have hdue : l.task.world.engine.NothingDue l.task.world.now := by
      rw [hworld]
      exact hseries.nothingDue hrun hrest
    -- The next call of the series is the delivery of the oldest request.
    cases hrequests : l.task.world.inbox.queue with
    | nil =>
      rw [hrequests] at hqueue
      cases hqueue
    | cons r rest =>
      rw [hrequests] at hqueue
      obtain ⟨rfl, rfl⟩ := List.cons.inj hqueue
      obtain ⟨m, b', hdelivery, hempties', hrest', htask'⟩ :=
        steps_to_delivery host hrest' hempties hdue hrequests
      refine ⟨m, hsteps.trans hdelivery, ?_, ?_, hempties'⟩
      · rw [htask', hworld]
        exact ⟨rfl, .perform ⟨rfl, trivial⟩, .nil⟩
      · rw [htask', ← hrest']
        rfl
  | @step left x x' hist hseries hstep ih =>
    obtain ⟨l, hsteps, htask, hqueue, hempties⟩ := ih
    have halike := (Likeness.kept_besides hinternal _).step htask
    rw [hstep] at halike
    generalize hnext : l.task.step host = p at halike
    cases halike with
    | @running _ y hxy =>
      have hinbox : y.world.inbox = l.task.world.inbox := by rw [hxy.world]
      refine ⟨{ l with task := y }, hsteps.tail ?_, ?_, ?_, hempties.step hinbox⟩
      · unfold step
        rw [hnext]
      · show x'.Alike (.besides y.world.inbox) y
        rw [hinbox]
        exact hxy
      · show left = deliveries y.world.inbox.queue
        rw [hinbox]
        exact hqueue

/-- A loop that has kept pace with a series up to its end ends, in the same world. -/
theorem KeepsPace.ends (host : Host σ ν) (hpace : l.KeepsPace [] x how) (hrest : x.AtRest)
    (hdue : x.world.engine.NothingDue x.world.now) :
    ∃ m b, Steps host l m ∧ m.step host = .ended { x.world.concluded how with inbox := b } how := by
  obtain ⟨htask, hqueue, hempties⟩ := hpace
  obtain ⟨hrest', hworld⟩ := htask.atRest hrest
  have hempty : l.task.world.inbox.queue = [] := List.map_eq_nil_iff.1 hqueue.symm
  have hdue' : l.task.world.engine.NothingDue l.task.world.now := by
    rw [hworld]
    exact hdue
  obtain ⟨m, b, hsteps, hend⟩ := steps_to_end host hrest' hempties hdue' hempty
  refine ⟨m, b, hsteps, ?_⟩
  rw [hend, hworld]
  cases how <;> rfl

/-- A loop that has kept pace with a series breaks off where the series does. -/
theorem KeepsPace.faults (hinternal : host.Internal) {fault : Fault}
    (hpace : l.KeepsPace left x how) (hfault : x.step host = .faulted fault) :
    l.step host = .faulted fault := by
  have halike := (Likeness.kept_besides hinternal _).step hpace.task
  rw [hfault] at halike
  generalize hnext : l.task.step host = p at halike
  cases halike with
  | faulted hsame =>
    unfold step
    rw [hnext, hsame]

/-- The two ways in which a loop empties its queue, after a graceful signal and after all senders
are gone, come to the same as firing the due timers once and then delivering what is queued, while
the clock stands still: if the calls that the hooks make return, then so do the firing and the
deliveries, and both loops end in the world that these leave behind, with the same engine and the
same journal of records, hooks and notes, but for the inbox and the last record of a graceful end.
Only a delivery to an instance outside its table would break off all three at the same moment, and
that takes a slot whose generations have started over. -/
theorem drains_alike (hinternal : host.Internal) (hrun : Run host (.ofCall w .fireExpired) past)
    {b₁ b₂ : Inbox} (hqueue : b₁.queue = b₂.queue) (hgraceful : b₁.signal = some .graceful)
    (hnone : b₂.signal = none) (hgone : b₂.senders = 0)
    (hreturns : ∀ left y hist call,
      Series host (.ofCall w .fireExpired) (deliveries b₁.queue) left y hist →
      y.control = .perform call → y.stack.length = 2 → Returns host y) :
    ∃ left z hist,
      Series host (.ofCall w .fireExpired) (deliveries b₁.queue) left z hist ∧
      ((left = [] ∧ z.AtRest ∧
        (∃ fuel b, (ofWorld { w with inbox := b₁ }).run host fuel =
          some (.ended { z.world.log .loopDrained with inbox := b } .drained)) ∧
        ∃ fuel b, (ofWorld { w with inbox := b₂ }).run host fuel =
          some (.ended { z.world with inbox := b } .abandoned)) ∨
      ∃ fault, z.step host = .faulted fault ∧ ¬ FewReleases (z :: (hist ++ past)) ∧
        (∃ fuel, (ofWorld { w with inbox := b₁ }).run host fuel = some (.faulted fault)) ∧
        ∃ fuel, (ofWorld { w with inbox := b₂ }).run host fuel = some (.faulted fault)) := by
  -- The firing returns, and after it the deliveries do, or one of them breaks off.
  obtain ⟨y, span, hspan, hreturned, hstill⟩ :=
    hrun.returns_of_fireExpired rfl fun y sub call hspan hstill hcontrol hlevel =>
      hreturns _ y _ call (Series.start.append_spans hspan hstill) hcontrol hlevel
  have hfired : Series host (.ofCall w .fireExpired) (deliveries b₁.queue) (deliveries b₁.queue) y
      (span ++ []) := Series.start.append_spans hspan hstill
  have hdispatch : ∀ call ∈ deliveries b₁.queue, ∃ h event data, call = .dispatch h event data := by
    intro call hcall
    obtain ⟨r, -, rfl⟩ := List.mem_map.1 hcall
    exact ⟨_, _, _, rfl⟩
  obtain ⟨left, z, hist, hseries, hend⟩ := hfired.exists_end hrun
    ⟨hreturned.1, hspan.stack_eq_of_returned hreturned⟩ hdispatch hreturns
  obtain ⟨l₁, hsteps₁, hpace₁⟩ : ∃ l, Steps host (ofWorld { w with inbox := b₁ }) l ∧
      l.KeepsPace left z .drained := exists_keepsPace hinternal hrun hgraceful hseries
  rw [hqueue] at hseries
  obtain ⟨l₂, hsteps₂, hpace₂⟩ : ∃ l, Steps host (ofWorld { w with inbox := b₂ }) l ∧
      l.KeepsPace left z .abandoned := exists_keepsPace hinternal hrun ⟨hnone, hgone⟩ hseries
  refine ⟨left, z, hist, hqueue ▸ hseries, ?_⟩
  rcases hend with ⟨rfl, hrest⟩ | ⟨fault, hfault, hfew⟩
  · have hdue := hseries.nothingDue hrun hrest
    obtain ⟨m₁, c₁, hon₁, hend₁⟩ := hpace₁.ends host hrest hdue
    obtain ⟨m₂, c₂, hon₂, hend₂⟩ := hpace₂.ends host hrest hdue
    obtain ⟨fuel₁, hrun₁⟩ := exists_run_of_steps (hsteps₁.trans hon₁) hend₁ rfl
    obtain ⟨fuel₂, hrun₂⟩ := exists_run_of_steps (hsteps₂.trans hon₂) hend₂ rfl
    exact .inl ⟨rfl, hrest, ⟨fuel₁, c₁, hrun₁⟩, fuel₂, c₂, hrun₂⟩
  · have hfault₁ := hpace₁.faults hinternal hfault
    have hfault₂ := hpace₂.faults hinternal hfault
    exact .inr ⟨fault, hfault, hfew, exists_run_of_steps hsteps₁ hfault₁ rfl,
      exists_run_of_steps hsteps₂ hfault₂ rfl⟩

/-- An event makes the first instance arm the timer of the second one, which sends it the event
again. -/
def relay : Host Unit Unit where
  script _ _ hook _ :=
    match hook with
    | .action .. => .call (.changeState ⟨1, 0⟩ 0 5 0) () fun _ _ => .done ()
    | .timer => .call (.dispatch ⟨0, 0⟩ 0 none) () fun _ _ => .done ()
    | _ => .done ()

/-- A run in which the timer of the second instance is armed. -/
def charged : Execution Unit Unit × List (Execution Unit Unit) :=
  Execution.session relay 20 (Execution.idle { logAddr := false } ()) []
    [.alloc .fork none none none, .alloc .beacon none none none, .changeState ⟨1, 0⟩ 0 3 7]

/-- The world when the timer is due. -/
def charging : World Unit Unit := { charged.1.world with now := 3 }

/-- A request for the first instance and one for a dead handle are queued, and the loop is to
stop. -/
def signalled : Inbox :=
  { capacity := 2, queue := [⟨⟨0, 0⟩, 0⟩, ⟨⟨5, 0⟩, 1⟩], signal := some .graceful }

/-- The same requests are queued, and nobody is left to send another one. -/
def deserted : Inbox := { capacity := 2, queue := [⟨⟨0, 0⟩, 0⟩, ⟨⟨5, 0⟩, 1⟩], senders := 0 }

/-- The moments of the firing and the deliveries. -/
def discharged : Execution Unit Unit × List (Execution Unit Unit) :=
  Series.compute relay 60 (.ofCall charging .fireExpired) (deliveries signalled.queue)

/-- Both ways to empty the queue call the timer hook and the hooks of two events, and leave the
same world. -/
theorem discharged_alike :
    discharged.1.world.journal.countP (· matches .hook _ (.action ..)) = 2 ∧
    (∃ fuel b, (ofWorld { charging with inbox := signalled }).run relay fuel =
      some (.ended { discharged.1.world.log .loopDrained with inbox := b } .drained)) ∧
    ∃ fuel b, (ofWorld { charging with inbox := deserted }).run relay fuel =
      some (.ended { discharged.1.world with inbox := b } .abandoned) := by
  have hinternal : relay.Internal := by
    intro d h hook c
    cases hook with
    | action | timer => exact .call () trivial fun _ _ => .done ()
    | _ => exact .done ()
  have hrun : Run relay (.ofCall charging .fireExpired) (charged.1 :: charged.2) :=
    (Execution.run_session 20 _ (Execution.run_idle _ _)).next (.call _ _ rfl rfl (Nat.zero_le _))
  have hrest : discharged.1.AtRest := by decide
  have hseries : Series relay (.ofCall charging .fireExpired) (deliveries signalled.queue) []
      discharged.1 discharged.2 := Series.of_compute 60 hrest
  have hqueue : signalled.queue = deserted.queue := rfl
  obtain ⟨left, z, hist, hreached, hend⟩ := drains_alike hinternal hrun hqueue rfl rfl rfl
    fun left y hist call hother _ => Series.returns_of_compute hrest (by decide) hother
  refine ⟨by decide, ?_⟩
  rcases hend with ⟨rfl, hz, hends⟩ | ⟨fault, -, hfew, -⟩
  · -- A series has one end, which is the one that was computed.
    obtain ⟨rfl, -⟩ := hseries.eq_of_atRest hrest hreached hz
    exact hends
  · have hlength := (hseries.suffix_of_atRest hrest hreached).length_le
    refine absurd (Execution.fewReleases_of_length_lt ?_) hfew
    have hshort : (discharged.1 :: discharged.2).length + (charged.1 :: charged.2).length <
        1000 := by decide
    simp only [List.length_cons, List.length_append] at hlength hshort ⊢
    exact Nat.lt_trans (by omega) (show 1000 < UInt32.size by decide)

end Loop

end StateMachines
