import StateMachines.Execution.Basic

/-!
# Steps of an execution

This module says what the operations do, one step at a time. `Execution.begin` is the beginning
of each operation, up to the first hook it calls or the first operation it waits for;
`Execution.proceed` is how it goes on from there; `Execution.step` is one step of an execution.

## The operations that call hooks

* Delivering an event calls the hook for events of every state, or else the action of the current
  state if the state accepts the event.
* Changing the state calls the hook for leaving, then writes the state, then calls the hook for
  entering, and last arms the timer. A hook may end the instance; then the change ends there.
* Ending an instance marks it, ends its children one by one, takes it out of its parent's
  children, calls the hook for cleaning up, releases it, and last tells its parent.
* Firing runs the hook of each timer due at the time the firing began, in the order of expiry.
-/

namespace StateMachines

namespace Execution

variable {σ ν : Type}

/-- Goes on with the given control. -/
def goOn (world : World σ ν) (control : Control σ ν) (stack : List (Frame σ ν)) :
    Progress σ ν :=
  .running { world, control, stack }

/-- Answers the topmost frame. -/
def reply (world : World σ ν) (reply : Reply) (stack : List (Frame σ ν)) :
    Progress σ ν :=
  goOn world (.give reply) stack

/-- Answers the topmost frame after a change of the engine. -/
def settle (world : World σ ν) (engine : Engine) (stack : List (Frame σ ν)) :
    Progress σ ν :=
  reply { world with engine } .done stack

/-- Delivers an event to an instance. -/
def beginDispatch (w : World σ ν) (target : Handle) (event : EventId) (data : Option Payload)
    (stack : List (Frame σ ν)) : Progress σ ν :=
  match w.engine.get? target with
  | none =>
    reply ((w.log (.targetMissing target event)).log .backtrace)
      (.refused (.invalidInstance target)) stack
  | some inst =>
    let d := inst.descriptor
    if d.states.length ≤ inst.state then
      .faulted (.stateOutsideTable inst.name inst.state d.states.length)
    else
      let w := w.log (.about inst (.received (d.eventName event)))
      if d.allStates.contains event then
        goOn w (.hook d target (.allStates event data)) (.answer .done :: stack)
      else if d.accepts inst.state event then
        goOn w (.hook d target (.action inst.state event data)) (.answer .done :: stack)
      else
        let why : Refusal :=
          .eventNotPermitted inst.name (d.stateName inst.state) (d.eventName event)
        reply (w.log (.refused d.subsystem why)) (.refused why) stack

/-- Moves an instance to another state: checks the edge and announces the leaving. -/
def beginChange (w : World σ ν) (target : Handle) (state : StateId) (timeout : Duration)
    (label : Nat) (stack : List (Frame σ ν)) : Progress σ ν :=
  match w.engine.get? target with
  | none => reply w (.refused (.invalidInstance target)) stack
  | some inst =>
    let d := inst.descriptor
    if d.permits inst.state state then
      goOn w (.hook d target (.leave inst.state state))
        (.leaving target d inst.state state timeout label :: stack)
    else
      let why : Refusal :=
        .transitionNotPermitted inst.name (d.stateName inst.state) (d.stateName state)
      reply (w.log (.refused d.subsystem why)) (.refused why) stack

/-- Goes on with a change of state after the hook for leaving: writes the state and announces
the entering. -/
def afterLeave (w : World σ ν) (target : Handle) (d : Descriptor) (source state : StateId)
    (timeout : Duration) (label : Nat) (stack : List (Frame σ ν)) : Progress σ ν :=
  match w.engine.get? target with
  | none => reply w (.refused (.invalidInstance target)) stack
  | some inst =>
    let w := w.log (.remark inst.level d.subsystem inst.name (.stateChanged (d.stateName state)))
    goOn { w with engine := w.engine.modify target ({ · with state }) }
      (.hook d target (.enter state source)) (.entering target d timeout label :: stack)

/-- Goes on with a change of state after the hook for entering: arms the timer. -/
def afterEnter (w : World σ ν) (target : Handle) (d : Descriptor) (timeout : Duration)
    (label : Nat) (stack : List (Frame σ ν)) : Progress σ ν :=
  match w.engine.get? target with
  | none => reply w (.refused (.invalidInstance target)) stack
  | some inst =>
    if timeout = 0 then reply w .done stack
    else
      let w := if d.timerCallback then w
        else w.log (.noTimerCallback d.subsystem inst.name label)
      settle w (w.engine.arm w.now target timeout label) stack

/-- Ends an instance: marks it and turns to its children. -/
def beginEnd (w : World σ ν) (target : Handle) (cause : Cause) (data : Option Payload)
    (stack : List (Frame σ ν)) : Progress σ ν :=
  match w.engine.get? target with
  | none => reply (w.log (.endMissing target cause)) .done stack
  | some inst =>
    if inst.terminating then
      reply (w.log (.about inst (.alreadyTerminating cause))) .done stack
    else
      let w := w.log (.about inst (.terminating cause))
      let ending : Ending :=
        { target, descriptor := inst.descriptor, cause, data
          parent := inst.parent, parentEvent := inst.parentEvent }
      reply { w with engine := w.engine.modify target ({ · with terminating := true }) } .done
        (.cascade ending inst.children :: stack)

/-- Goes on with the end of an instance: ends the next child, or, when there is none left, takes
the instance out of its parent's children and announces the cleaning up. -/
def afterChild (w : World σ ν) (ending : Ending) (children : List Handle)
    (stack : List (Frame σ ν)) : Progress σ ν :=
  match children with
  | child :: rest =>
    let stack := .cascade ending rest :: stack
    if w.engine.isAlive child then goOn w (.perform (.terminate child .parent none)) stack
    else reply w .done stack
  | [] =>
    let engine := match ending.parent with
      | some parent => w.engine.unlink ending.target parent
      | none => w.engine
    goOn { w with engine } (.hook ending.descriptor ending.target (.cleanup ending.cause))
      (.cleaning ending :: stack)

/-- Goes on with the end of an instance after its cleaning up: releases it and tells its
parent. -/
def afterCleanup (w : World σ ν) (ending : Ending) (stack : List (Frame σ ν)) :
    Progress σ ν :=
  let w := match w.engine.get? ending.target with
    | some inst =>
      w.log (.remark inst.level ending.descriptor.subsystem inst.name .released)
    | none => w
  let w := { w with engine := w.engine.free ending.target }
  match ending.parent with
  | some parent =>
    if ending.cause = .parent then reply w .done stack
    else goOn w (.perform (.dispatch parent ending.parentEvent ending.data))
      (.answer .done :: stack)
  | none => reply w .done stack

/-- Runs the next timer that was due at `now`, or answers how many were. -/
def fireNext (w : World σ ν) (now : Time) (count : Nat) (stack : List (Frame σ ν)) :
    Progress σ ν :=
  match w.engine.timers.popExpired now with
  | none => reply w (.count count) stack
  | some (target, timers) =>
    let w := { w with engine := { w.engine with timers } }
    match w.engine.get? target with
    | none => reply w .done (.firing now count :: stack)
    | some inst =>
      goOn (w.log (.about inst (.timeout inst.timerLabel))) (.hook inst.descriptor target .timer)
        (.firing now (count + 1) :: stack)

/-- Allocates an instance. -/
def beginAlloc (w : World σ ν) (d : Descriptor) (payload : Option Payload)
    (level : Option Level) (id : Option String) (stack : List (Frame σ ν)) : Progress σ ν :=
  match w.engine.alloc d payload level id with
  | .ok (handle, inst, engine) =>
    reply ({ w with engine }.log (.about inst .allocated)) (.allocated handle) stack
  | .error fault => .faulted fault

/-- Allocates a child with the level and the correlation identifier of its parent. A parent that
is terminating gets none, and is told of the end of the child at once. -/
def beginAllocChild (w : World σ ν) (d : Descriptor) (parent : Handle) (event : EventId)
    (stack : List (Frame σ ν)) : Progress σ ν :=
  match w.engine.get? parent with
  | none =>
    reply (w.log (.parentMissing d.subsystem d.name parent))
      (.refused (.invalidInstance parent)) stack
  | some p =>
    if p.terminating then
      goOn (w.log (.parentEnding d.subsystem p.name d.name))
        (.perform (.dispatch parent event none))
        (.answer (.refused (.parentTerminating p.name)) :: stack)
    else
      match w.engine.alloc d none (some p.level) p.id with
      | .ok (handle, inst, engine) =>
        let w := { w with engine }.log (.about inst .allocated)
        let w := { w with engine := w.engine.link handle parent event }
        reply (w.log (.about inst (.childOf p.name))) (.allocated handle) stack
      | .error fault => .faulted fault

/-- The beginning of an operation. -/
def begin (w : World σ ν) (call : Call) (stack : List (Frame σ ν)) : Progress σ ν :=
  match call with
  | .register d => settle w (w.engine.register d) stack
  | .unregister d => settle w (w.engine.unregister d) stack
  | .alloc d payload level id => beginAlloc w d payload level id stack
  | .allocChild d parent event => beginAllocChild w d parent event stack
  | .free target => settle w (w.engine.free target) stack
  | .dispatch target event data => beginDispatch w target event data stack
  | .changeState target state timeout label => beginChange w target state timeout label stack
  | .terminate target cause data => beginEnd w target cause data stack
  | .fireExpired => reply w .done (.firing w.now 0 :: stack)
  | .setLogAddr value => settle w (w.engine.setLogAddr value) stack
  | .setLevel target level => settle w (w.engine.setLevel target level) stack
  | .setPayload target payload => settle w (w.engine.setPayload target (some payload)) stack
  | .takePayload target =>
    reply { w with engine := w.engine.setPayload target none }
      (.detached (w.engine.payload? target)) stack
  | .trySend request =>
    let (delivery, inbox) := w.inbox.trySend request
    reply { w with inbox } (.sent delivery) stack
  | .shutdown mode => reply { w with inbox := w.inbox.shutdown mode } .done stack

/-- How an unfinished operation goes on with an answer. -/
def proceed (w : World σ ν) (frame : Frame σ ν) (answer : Reply) (stack : List (Frame σ ν)) :
    Progress σ ν :=
  match frame with
  | .resume next => goOn w (.run (next answer w.toContext)) stack
  | .answer answer => reply w answer stack
  | .leaving target d source state timeout label =>
    afterLeave w target d source state timeout label stack
  | .entering target d timeout label => afterEnter w target d timeout label stack
  | .cascade ending children => afterChild w ending children stack
  | .cleaning ending => afterCleanup w ending stack
  | .firing now count => fireNext w now count stack

/-- One step of an execution. -/
def step (host : Host σ ν) (x : Execution σ ν) : Progress σ ν :=
  match x.control with
  | .perform call => begin x.world call x.stack
  | .hook d target hook =>
    let w := x.world.enter (.hook target hook)
    goOn w (.run (host.script d target hook w.toContext)) x.stack
  | .run (.done env) => reply { x.world with env } .done x.stack
  | .run (.note note rest) => goOn (x.world.enter (.note note)) (.run rest) x.stack
  | .run (.call call env next) =>
    goOn { x.world with env } (.perform call) (.resume next :: x.stack)
  | .give answer =>
    match x.stack with
    | [] => .finished x.world answer
    | frame :: stack => proceed x.world frame answer stack

/-- Takes at most `fuel` steps. The answer is `none` if the call has not returned by then. -/
def run (host : Host σ ν) : Nat → Execution σ ν → Option (Except Fault (World σ ν × Reply))
  | 0, _ => none
  | fuel + 1, x =>
    match x.step host with
    | .running x => run host fuel x
    | .finished world reply => some (.ok (world, reply))
    | .faulted fault => some (.error fault)

end Execution

end StateMachines
