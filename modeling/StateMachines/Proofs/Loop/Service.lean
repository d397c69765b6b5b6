import Mathlib.Logic.Relation
import StateMachines.Loop
import StateMachines.Proofs.Execution.Run

/-!
# Loops and their clients

While a loop works, its clients act on the inbox: they send requests, signal, and come and go. They
may do so between any two steps of the loop, also while a hook runs. A `Service` is a loop together
with two accounts: which requests were accepted into the inbox, by clients or by hooks, and which
calls the loop itself has made.

## Main definitions

* `Loop.Decision`: what a loop does between two of its calls.
* `ClientMove`: what a client does to an inbox.
* `Service.Next`, `Service.Reaches`: the loop takes a step, or a client makes a move.
* `Service.deliveries`: the requests that the loop has delivered.

## Main results

* `Loop.stepsTo_of_step`: the steps of a loop.
* `Inbox.queue_move`: a move only appends the request that it gets accepted.
* `Execution.Transition.inbox_eq`: hooks act on the inbox in the same way as clients do.
-/

namespace StateMachines

variable {σ ν : Type}

/-! ## The steps of a loop -/

namespace Loop

/-- What a loop in a given phase does once its call has returned. -/
inductive Decision (w : World σ ν) (watching : Bool) : LoopPhase → LoopProgress σ ν → Prop where
  /-- A round begins with firing the timers. -/
  | fires : Decision w watching .begin (.running ⟨.ofCall w .fireExpired, .watch, watching⟩)
  /-- An immediate signal ends the loop. -/
  | stops (hwatching : watching = true) (hsignal : w.inbox.signal = some .immediate) :
      Decision w watching .watch
        (finish ({ w with inbox := w.inbox.seen }.log .loopStopped) .stopped)
  /-- A graceful signal makes the loop deliver what is queued. -/
  | drains (hwatching : watching = true) (hsignal : w.inbox.signal = some .graceful) :
      Decision w watching .watch
        (.running ⟨idle { w with inbox := w.inbox.seen }, .drain, watching⟩)
  /-- All senders are gone, so there will be no signal. -/
  | deserted (hwatching : watching = true) (hsignal : w.inbox.signal = none)
      (hsenders : w.inbox.senders = 0) :
      Decision w watching .watch (.running ⟨idle w, .begin, false⟩)
  /-- There is no signal. -/
  | unsignalled (hnone : watching = true → w.inbox.signal = none ∧ w.inbox.senders ≠ 0) :
      Decision w watching .watch (.running ⟨idle w, .wait, watching⟩)
  /-- A timer has become due, or none has. -/
  | waits : Decision w watching .wait
      (.running ⟨idle w, if timerDue w then .begin else .receive, watching⟩)
  /-- The oldest request is delivered, and another round begins. -/
  | delivers {r : Request} {inbox : Inbox} (hreceive : w.inbox.receive? = some (r, inbox)) :
      Decision w watching .receive
        (.running ⟨.ofCall { w with inbox } (.dispatch r.target r.event none), .begin, watching⟩)
  /-- Nothing is queued. -/
  | parks (hempty : w.inbox.queue = []) (hsenders : w.inbox.senders ≠ 0) :
      Decision w watching .receive (.parked ⟨idle w, .watch, watching⟩)
  /-- Nothing is queued, and all senders are gone. -/
  | abandons (hempty : w.inbox.queue = []) (hsenders : w.inbox.senders = 0) :
      Decision w watching .receive (finish w .abandoned)
  /-- After a graceful signal the oldest request is delivered, and then the next one. -/
  | goesOn {r : Request} {inbox : Inbox} (hreceive : w.inbox.receive? = some (r, inbox)) :
      Decision w watching .drain
        (.running ⟨.ofCall { w with inbox } (.dispatch r.target r.event none), .drain, watching⟩)
  /-- Everything queued has been delivered, so the timers are fired for the last time. -/
  | concludes (hempty : w.inbox.queue = []) :
      Decision w watching .drain (.running ⟨.ofCall w .fireExpired, .conclude, watching⟩)
  /-- The loop ends after a graceful signal. -/
  | ends : Decision w watching .conclude (finish (w.log .loopDrained) .drained)

/-- What one step of a loop leads to. -/
inductive StepsTo (host : Host σ ν) (l : Loop σ ν) : LoopProgress σ ν → Prop where
  /-- The call of the loop takes a step. -/
  | works {x : Execution σ ν} (ht : Execution.Transition host l.task x) :
      StepsTo host l (.running { l with task := x })
  /-- The call of the loop has broken an assumption of the engine. -/
  | faults (fault : Fault) : StepsTo host l (.faulted fault)
  /-- The call of the loop has returned. -/
  | decides {reply : Reply} {p : LoopProgress σ ν} (hreply : l.task.control = .give reply)
      (hstack : l.task.stack = []) (hdecision : Decision l.task.world l.watching l.phase p) :
      StepsTo host l p

variable {host : Host σ ν} {l : Loop σ ν} {w : World σ ν} {p : LoopProgress σ ν}

/-- Nothing can be taken out of an empty queue. -/
theorem queue_eq_nil_of_receive? {b : Inbox} (h : b.receive? = none) : b.queue = [] := by
  unfold Inbox.receive? at h
  split at h
  next => cases h
  next hqueue => exact hqueue

/-- The decisions that concern signals. -/
theorem decision_watch (l : Loop σ ν) (w : World σ ν) :
    Decision w l.watching .watch (l.watch w) := by
  unfold watch
  split
  next hsignal =>
    split at hsignal
    next hwatching => exact .stops hwatching hsignal
    next => cases hsignal
  next hsignal =>
    split at hsignal
    next hwatching => exact .drains hwatching hsignal
    next => cases hsignal
  next hsignal =>
    -- No signal was seen: there is none, or the loop no longer watches for one.
    split
    next hgone =>
      rw [Bool.and_eq_true, decide_eq_true_eq] at hgone
      obtain ⟨hwatching, hsenders⟩ := hgone
      rw [if_pos hwatching] at hsignal
      exact .deserted hwatching hsignal hsenders
    next hstay =>
      refine .unsignalled fun hwatching => ?_
      rw [if_pos hwatching] at hsignal
      refine ⟨hsignal, fun hsenders => hstay ?_⟩
      rw [hwatching, hsenders]
      rfl

/-- The decisions that concern the queue. -/
theorem decision_receive (l : Loop σ ν) (w : World σ ν) :
    Decision w l.watching .receive (l.receive w) := by
  unfold receive deliver?
  cases hreceive : w.inbox.receive? with
  | some taken =>
    obtain ⟨r, inbox⟩ := taken
    exact .delivers hreceive
  | none =>
    have hempty := queue_eq_nil_of_receive? hreceive
    dsimp only [Option.map_none]
    split
    next hsenders => exact .abandons hempty hsenders
    next hsenders => exact .parks hempty hsenders

/-- The decisions after a graceful signal. -/
theorem decision_drain (l : Loop σ ν) (w : World σ ν) :
    Decision w l.watching .drain
      ((l.deliver? w .drain).getD (l.make w .fireExpired .conclude)) := by
  unfold deliver?
  cases hreceive : w.inbox.receive? with
  | some taken =>
    obtain ⟨r, inbox⟩ := taken
    exact .goesOn hreceive
  | none => exact .concludes (queue_eq_nil_of_receive? hreceive)

/-- Every decision is listed. -/
theorem decision_decide (l : Loop σ ν) (w : World σ ν) :
    Decision w l.watching l.phase (l.decide w) := by
  unfold decide
  split
  next hphase => exact hphase ▸ .fires
  next hphase => exact hphase ▸ l.decision_watch w
  next hphase => exact hphase ▸ .waits
  next hphase => exact hphase ▸ l.decision_receive w
  next hphase => exact hphase ▸ l.decision_drain w
  next hphase => exact hphase ▸ .ends

/-- Every step of a loop is listed. -/
theorem stepsTo_of_step (host : Host σ ν) (l : Loop σ ν) : StepsTo host l (l.step host) := by
  unfold step
  split
  next x hstep => exact .works (Execution.transition_of_step hstep)
  next w reply hstep =>
    -- A call that has returned has given its answer to an empty stack.
    have htask := Execution.step_eq_finished_iff.1 hstep
    have hreply : l.task.control = .give reply := by rw [htask]
    have hworld : l.task.world = w := by rw [htask]
    exact .decides hreply (by rw [htask]) (hworld ▸ l.decision_decide w)
  next fault _ => exact .faults fault

/-- The same loop at another time. -/
def atTime (l : Loop σ ν) (t : Time) : Loop σ ν := { l with task := l.task.atTime t }

/-- The call that the loop itself is about to begin. -/
def call? (l : Loop σ ν) : Option Call :=
  match l.task.control, l.task.stack with
  | .perform call, [] => some call
  | _, _ => none

/-- In the course of a call the loop itself makes no other one. -/
theorem call?_eq_none_of_transition {x : Execution σ ν}
    (ht : Execution.Transition host l.task x) : call? { l with task := x } = none := by
  generalize hy : l.task = y at ht
  cases ht <;> rfl

end Loop

namespace LoopProgress

variable {l : Loop σ ν} {p : LoopProgress σ ν}

/-- The loop, as long as it works. -/
def loop? : LoopProgress σ ν → Option (Loop σ ν)
  | .running l => some l
  | .parked l => some l
  | .ended _ _ => none
  | .faulted _ => none

/-- The inbox of a loop that works or has ended. -/
def inbox? : LoopProgress σ ν → Option Inbox
  | .running l => some l.task.world.inbox
  | .parked l => some l.task.world.inbox
  | .ended w _ => some w.inbox
  | .faulted _ => none

/-- Changes the world from outside. -/
def update (p : LoopProgress σ ν) (f : World σ ν → World σ ν) : LoopProgress σ ν :=
  match p with
  | .running l => .running (l.update f)
  | .parked l => .parked (l.update f)
  | .ended w how => .ended (f w) how
  | .faulted fault => .faulted fault

/-- The call that the loop itself is about to begin. -/
def call? (p : LoopProgress σ ν) : Option Call := p.loop?.bind Loop.call?

/-- A change from outside reaches a loop that works. -/
theorem loop?_update (f : World σ ν → World σ ν) :
    (p.update f).loop? = p.loop?.map (·.update f) := by
  cases p <;> rfl

end LoopProgress

/-! ## What clients do -/

/-- What a client does to an inbox. -/
inductive ClientMove where
  /-- Sends a request without waiting. -/
  | trySend (request : Request)
  /-- Begins to send a request. -/
  | beginSend (request : Request)
  /-- Looks whether there is a place for a request that waits. -/
  | finishSend (request : Request)
  /-- Signals the loop to stop. -/
  | shutdown (mode : ShutdownMode)
  /-- Clones a handle. -/
  | addSender
  /-- Drops handles. -/
  | dropSenders (count : Nat)
deriving DecidableEq

namespace Inbox

variable {b : Inbox} {m : ClientMove} {r : Request}

/-- The inbox after a move. -/
def move (b : Inbox) : ClientMove → Inbox
  | .trySend r => (b.trySend r).2
  | .beginSend r => (b.beginSend r).2
  | .finishSend r => (b.finishSend r).2
  | .shutdown mode => b.shutdown mode
  | .addSender => b.addSender
  | .dropSenders count => b.dropSenders count

/-- The request that is accepted by a move. -/
def accepts? (b : Inbox) : ClientMove → Option Request
  | .trySend r => if (b.trySend r).1 = .accepted then some r else none
  | .beginSend r => if (b.beginSend r).1 = .accepted then some r else none
  | .finishSend r => if (b.finishSend r).1 = .accepted then some r else none
  | _ => none

/-- Sending without waiting appends a request that is accepted. -/
theorem trySend_cases (b : Inbox) (r : Request) :
    ((b.trySend r).1 ≠ .accepted ∧ (b.trySend r).2 = b) ∨
      b.closed = false ∧ b.trySend r = (.accepted, b.push r) := by
  unfold trySend
  split
  next => exact .inl ⟨nofun, rfl⟩
  next hopen =>
    split
    next => exact .inl ⟨nofun, rfl⟩
    next => exact .inr ⟨Bool.not_eq_true _ ▸ hopen, rfl⟩

/-- Beginning to send a request appends it if it is accepted. -/
theorem beginSend_cases (b : Inbox) (r : Request) :
    ((b.beginSend r).1 ≠ .accepted ∧ (b.beginSend r).2.queue = b.queue ∧
        (b.beginSend r).2.closed = b.closed) ∨
      b.closed = false ∧ b.beginSend r = (.accepted, b.push r) := by
  unfold beginSend
  rcases b.trySend_cases r with ⟨hnot, hsame⟩ | ⟨hopen, haccepted⟩
  · split
    next inbox hfull =>
      -- The request waits for a place, which is all that changes.
      rw [hfull] at hsame
      obtain rfl : inbox = b := hsame
      exact .inl ⟨nofun, rfl, rfl⟩
    next => exact .inl ⟨hnot, by rw [hsame], by rw [hsame]⟩
  · rw [haccepted]
    exact .inr ⟨hopen, rfl⟩

/-- A request that has waited is appended if there is a place for it. -/
theorem finishSend_cases (b : Inbox) (r : Request) :
    ((b.finishSend r).1 ≠ .accepted ∧ (b.finishSend r).2 = b) ∨
      b.closed = false ∧
        b.finishSend r = (.accepted, { b with reserved := b.reserved - 1 }.push r) := by
  unfold finishSend
  split
  next => exact .inl ⟨nofun, rfl⟩
  next hopen =>
    split
    next => exact .inl ⟨nofun, rfl⟩
    next => exact .inr ⟨Bool.not_eq_true _ ▸ hopen, rfl⟩

/-- A move appends the request that it gets accepted, and leaves the queue alone otherwise. -/
theorem queue_move (b : Inbox) (m : ClientMove) :
    (b.move m).queue = b.queue ++ (b.accepts? m).toList := by
  cases m with
  | trySend r =>
    rcases b.trySend_cases r with ⟨hnot, hsame⟩ | ⟨-, haccepted⟩
    · simp [move, accepts?, hnot, hsame]
    · simp [move, accepts?, haccepted, push]
  | beginSend r =>
    rcases b.beginSend_cases r with ⟨hnot, hsame, -⟩ | ⟨-, haccepted⟩
    · simp [move, accepts?, hnot, hsame]
    · simp [move, accepts?, haccepted, push]
  | finishSend r =>
    rcases b.finishSend_cases r with ⟨hnot, hsame⟩ | ⟨-, haccepted⟩
    · simp [move, accepts?, hnot, hsame]
    · simp [move, accepts?, haccepted, push]
  | shutdown mode =>
    dsimp only [move, accepts?, shutdown]
    split <;> simp
  | addSender | dropSenders => simp [move, accepts?, addSender, dropSenders]

/-- No move opens or closes an inbox. -/
@[simp]
theorem closed_move (b : Inbox) (m : ClientMove) : (b.move m).closed = b.closed := by
  cases m with
  | trySend r =>
    rcases b.trySend_cases r with ⟨-, hsame⟩ | ⟨-, haccepted⟩
    · simp [move, hsame]
    · simp [move, haccepted, push]
  | beginSend r =>
    rcases b.beginSend_cases r with ⟨-, -, hsame⟩ | ⟨-, haccepted⟩
    · simp [move, hsame]
    · simp [move, haccepted, push]
  | finishSend r =>
    rcases b.finishSend_cases r with ⟨-, hsame⟩ | ⟨-, haccepted⟩
    · simp [move, hsame]
    · simp [move, haccepted, push]
  | shutdown mode =>
    dsimp only [move, shutdown]
    split <;> rfl
  | addSender | dropSenders => rfl

/-- A closed inbox accepts nothing. -/
theorem accepts?_of_closed (hclosed : b.closed = true) (m : ClientMove) : b.accepts? m = none := by
  have hnot : ¬ b.closed = false := by simp [hclosed]
  cases m with
  | trySend r =>
    rcases b.trySend_cases r with ⟨hrefused, -⟩ | ⟨hopen, -⟩
    · exact if_neg hrefused
    · exact absurd hopen hnot
  | beginSend r =>
    rcases b.beginSend_cases r with ⟨hrefused, -⟩ | ⟨hopen, -⟩
    · exact if_neg hrefused
    · exact absurd hopen hnot
  | finishSend r =>
    rcases b.finishSend_cases r with ⟨hrefused, -⟩ | ⟨hopen, -⟩
    · exact if_neg hrefused
    · exact absurd hopen hnot
  | shutdown | addSender | dropSenders => rfl

/-- The oldest request is taken out of the queue, and nothing else is. -/
theorem queue_of_receive? {inbox : Inbox} (h : b.receive? = some (r, inbox)) :
    b.queue = r :: inbox.queue := by
  unfold receive? at h
  split at h
  next r' queue hqueue =>
    cases h
    rw [hqueue]
    split <;> rfl
  next => cases h

end Inbox

namespace Execution

variable {host : Host σ ν} {x x' : Execution σ ν}

/-- What the next step does to the inbox on behalf of a hook. -/
def move? (x : Execution σ ν) : Option ClientMove :=
  match x.control with
  | .perform (.trySend r) => some (.trySend r)
  | .perform (.shutdown mode) => some (.shutdown mode)
  | _ => none

/-- A step changes the inbox as a move does that a hook makes, and not at all otherwise. -/
theorem Transition.inbox_eq (ht : Transition host x x') :
    x'.world.inbox = x.move?.elim x.world.inbox x.world.inbox.move := by
  cases ht with
  | answered hanswers => cases hanswers <;> rfl
  | closes hcloses =>
    cases hcloses with
    | armed => exact World.inbox_armed ..
    | released => exact World.inbox_released ..
    | _ => rfl
  | tells => exact World.inbox_released ..
  | _ => rfl

end Execution

/-! ## Services -/

/-- A loop with an account of what has happened since its beginning. -/
structure Service (σ ν : Type) where
  loop : LoopProgress σ ν
  /-- The requests that were accepted into the inbox, the oldest first. -/
  accepted : List Request
  /-- The calls that the loop itself has made, the oldest first. -/
  calls : List Call := []

namespace Service

variable {host : Host σ ν} {s s' s₀ : Service σ ν} {l : Loop σ ν}

/-- A loop that begins to work in a world. What is queued there was accepted before. -/
def ofWorld (w : World σ ν) : Service σ ν :=
  { loop := .running (.ofWorld w), accepted := w.inbox.queue }

/-- The loop takes a step. -/
def stepped (s : Service σ ν) (host : Host σ ν) (l : Loop σ ν) : Service σ ν :=
  { loop := l.step host
    accepted := s.accepted ++ (l.task.move?.bind l.task.world.inbox.accepts?).toList
    calls := s.calls ++ (l.step host).call?.toList }

/-- A client makes a move. -/
def moved (s : Service σ ν) (m : ClientMove) : Service σ ν :=
  { s with
    loop := s.loop.update fun w => { w with inbox := w.inbox.move m }
    accepted := s.accepted ++ (s.loop.inbox?.bind (·.accepts? m)).toList }

/-- Time passes and the loop takes a step, or a client makes a move. -/
inductive Next (host : Host σ ν) (s : Service σ ν) : Service σ ν → Prop where
  | step {l : Loop σ ν} (t : Time) (hloop : s.loop.loop? = some l)
      (htime : l.task.world.now ≤ t) : Next host s (s.stepped host (l.atTime t))
  | client (m : ClientMove) : Next host s (s.moved m)

/-- What a service comes to. -/
abbrev Reaches (host : Host σ ν) : Service σ ν → Service σ ν → Prop :=
  Relation.ReflTransGen (Next host)

end Service

/-- The request that a call delivers, with the data that go with it. -/
def Call.delivery? : Call → Option (Request × Option Payload)
  | .dispatch target event data => some (⟨target, event⟩, data)
  | _ => none

/-- The requests that the loop has delivered, with their data, the oldest first. -/
def Service.deliveries (s : Service σ ν) : List (Request × Option Payload) :=
  s.calls.filterMap Call.delivery?

end StateMachines
