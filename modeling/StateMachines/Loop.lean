import StateMachines.Execution.Step

/-!
# The loop

The loop runs an engine on its own: it fires timers, delivers the requests of an inbox, and stops
when it is signalled to or when all senders are gone.

Each round begins by firing the timers that are due. Then the loop looks for the first of these
that applies, one after the other: a stop signal it has not seen, the disappearance of all senders
(noticed once, and answered by another round), a timer that has become due, a request in the queue,
the end of the queue. If none does, it is parked until the inbox or the clock changes. Each look is
a step of its own, so what happens outside may come between any two of them.

An immediate signal ends the loop at once. A graceful one makes it deliver everything that is
queued, also by the deliveries themselves, and fire the due timers once more before it ends.
-/

namespace StateMachines

/-- How a loop ended. -/
inductive LoopEnd where
  /-- An immediate signal was seen. -/
  | stopped
  /-- A graceful signal was seen and the queue is empty. -/
  | drained
  /-- All senders are gone and the queue is empty. -/
  | abandoned
deriving DecidableEq, Inhabited

/-- What a loop does once the call it made has returned. -/
inductive LoopPhase where
  /-- Begins a round. -/
  | begin
  /-- Looks for a stop signal. -/
  | watch
  /-- Looks whether a timer has become due. -/
  | wait
  /-- Takes a request out of the queue. -/
  | receive
  /-- Delivers what is queued. -/
  | drain
  /-- Ends after a graceful signal. -/
  | conclude
deriving DecidableEq, Inhabited

/-- A loop at work. -/
structure Loop (σ ν : Type) where
  /-- The latest call of the loop. Its world is the world of the loop. -/
  task : Execution σ ν
  phase : LoopPhase := .begin
  /-- Whether the loop still looks for signals. -/
  watching : Bool := true

/-- What one step of a loop leads to. -/
inductive LoopProgress (σ ν : Type) where
  | running (l : Loop σ ν)
  /-- Nothing applies. -/
  | parked (l : Loop σ ν)
  | ended (world : World σ ν) (how : LoopEnd)
  | faulted (fault : Fault)

namespace Loop

variable {σ ν : Type}

/-- An execution that has nothing to do. -/
def idle (w : World σ ν) : Execution σ ν := { world := w, control := .give .done, stack := [] }

/-- A loop that begins its first round. -/
def ofWorld (w : World σ ν) : Loop σ ν := { task := idle w }

/-- Changes the world from outside. -/
def update (l : Loop σ ν) (f : World σ ν → World σ ν) : Loop σ ν :=
  { l with task.world := f l.task.world }

/-- Makes a call, and goes on with `phase` once it has returned. -/
def make (l : Loop σ ν) (w : World σ ν) (call : Call) (phase : LoopPhase) : LoopProgress σ ν :=
  .running { l with task := .ofCall w call, phase }

/-- Goes on with `phase`. -/
def turnTo (l : Loop σ ν) (w : World σ ν) (phase : LoopPhase) (watching : Bool) :
    LoopProgress σ ν :=
  .running { l with task := idle w, phase, watching }

/-- Ends the loop and closes the inbox. -/
def finish (w : World σ ν) (how : LoopEnd) : LoopProgress σ ν :=
  .ended { w with inbox := w.inbox.close } how

/-- Delivers the oldest request, if there is one, and goes on with `phase`. -/
def deliver? (l : Loop σ ν) (w : World σ ν) (phase : LoopPhase) : Option (LoopProgress σ ν) :=
  w.inbox.receive?.map fun (request, inbox) =>
    l.make { w with inbox } (.dispatch request.target request.event none) phase

/-- Whether a timer is due. -/
def timerDue (w : World σ ν) : Bool :=
  match w.engine.nextDeadline? with
  | some time => decide (time ≤ w.now)
  | none => false

/-- Looks for a stop signal, or for the disappearance of all senders. -/
def watch (l : Loop σ ν) (w : World σ ν) : LoopProgress σ ν :=
  match if l.watching then w.inbox.signal else none with
  | some .immediate => finish ({ w with inbox := w.inbox.seen }.log .loopStopped) .stopped
  | some .graceful => l.turnTo { w with inbox := w.inbox.seen } .drain l.watching
  | none =>
    if l.watching && w.inbox.senders = 0 then l.turnTo w .begin false
    else l.turnTo w .wait l.watching

/-- Begins another round if a timer has become due. -/
def wait (l : Loop σ ν) (w : World σ ν) : LoopProgress σ ν :=
  l.turnTo w (if timerDue w then .begin else .receive) l.watching

/-- Delivers the oldest request. If there is none, the loop is parked, or ends if all senders are
gone. -/
def receive (l : Loop σ ν) (w : World σ ν) : LoopProgress σ ν :=
  match l.deliver? w .begin with
  | some progress => progress
  | none =>
    if w.inbox.senders = 0 then finish w .abandoned
    else .parked { l with task := idle w, phase := .watch }

/-- What the loop does once its call has returned. -/
def decide (l : Loop σ ν) (w : World σ ν) : LoopProgress σ ν :=
  match l.phase with
  | .begin => l.make w .fireExpired .watch
  | .watch => l.watch w
  | .wait => l.wait w
  | .receive => l.receive w
  | .drain => (l.deliver? w .drain).getD (l.make w .fireExpired .conclude)
  | .conclude => finish (w.log .loopDrained) .drained

/-- One step of a loop: a step of its call, or the next decision. -/
def step (host : Host σ ν) (l : Loop σ ν) : LoopProgress σ ν :=
  match l.task.step host with
  | .running x => .running { l with task := x }
  | .finished w _ => l.decide w
  | .faulted fault => .faulted fault

/-- Takes steps until the loop is parked or has ended, at most `fuel` of them. -/
def run (host : Host σ ν) : Nat → Loop σ ν → Option (LoopProgress σ ν)
  | 0, _ => none
  | fuel + 1, l =>
    match l.step host with
    | .running l => run host fuel l
    | other => some other

end Loop

end StateMachines
