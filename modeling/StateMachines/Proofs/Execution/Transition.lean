import StateMachines.Execution.Step
import StateMachines.Proofs.Engine

/-!
# What a step of an execution can do

`Execution.Transition` lists the steps of an execution with the conditions under which each of
them is taken; `Execution.transition_of_step` says that the list is complete. Proofs about runs
are case analyses on it and never open `Execution.step`.

Many calls are answered within one step, and many unfinished operations end within one. Those
steps are listed by `World.Answers` and `World.Closes`.
-/

namespace StateMachines

variable {σ ν : Type}

namespace World

/-- The world after the timer of an instance was armed at the end of a change of state. -/
def armed (w : World σ ν) (target : Handle) (d : Descriptor) (name : String)
    (timeout : Duration) (label : Nat) : World σ ν :=
  let logged := if d.timerCallback then w
    else w.log (.noTimerCallback d.subsystem name label)
  { logged with engine := logged.engine.arm logged.now target timeout label }

/-- The world after an instance was released at the end of its termination. -/
def released (w : World σ ν) (ending : Ending) : World σ ν :=
  let logged := match w.engine.get? ending.target with
    | some inst =>
      w.log (.remark inst.level ending.descriptor.subsystem inst.name .released)
    | none => w
  { logged with engine := logged.engine.free ending.target }

/-- The world after an instance was taken out of the children of its parent. -/
def detached (w : World σ ν) (ending : Ending) : World σ ν :=
  { w with
    engine := match ending.parent with
      | some parent => w.engine.unlink ending.target parent
      | none => w.engine }

/-- Arming the timer of an instance changes the engine as `Engine.arm` does. -/
theorem engine_armed (w : World σ ν) (target : Handle) (d : Descriptor) (name : String)
    (timeout : Duration) (label : Nat) :
    (w.armed target d name timeout label).engine = w.engine.arm w.now target timeout label := by
  unfold armed
  split <;> rfl

/-- Releasing an instance changes the engine as `Engine.free` does. -/
@[simp]
theorem engine_released (w : World σ ν) (ending : Ending) :
    (w.released ending).engine = w.engine.free ending.target := by
  unfold released
  split <;> rfl

/-- Arming a timer takes no time. -/
@[simp]
theorem now_armed (w : World σ ν) (target : Handle) (d : Descriptor) (name : String)
    (timeout : Duration) (label : Nat) : (w.armed target d name timeout label).now = w.now := by
  unfold armed
  split <;> rfl

/-- Releasing an instance takes no time. -/
@[simp]
theorem now_released (w : World σ ν) (ending : Ending) : (w.released ending).now = w.now := by
  unfold released
  split <;> rfl

/-- Arming a timer leaves the inbox alone. -/
@[simp]
theorem inbox_armed (w : World σ ν) (target : Handle) (d : Descriptor) (name : String)
    (timeout : Duration) (label : Nat) :
    (w.armed target d name timeout label).inbox = w.inbox := by
  unfold armed
  split <;> rfl

/-- Releasing an instance leaves the inbox alone. -/
@[simp]
theorem inbox_released (w : World σ ν) (ending : Ending) :
    (w.released ending).inbox = w.inbox := by
  unfold released
  split <;> rfl

/-- The calls that are answered within one step, with the world and the answer afterwards. -/
inductive Answers (w : World σ ν) : Call → World σ ν → Reply → Prop where
  | register (d : Descriptor) :
      Answers w (.register d) { w with engine := w.engine.register d } .done
  | unregister (d : Descriptor) :
      Answers w (.unregister d) { w with engine := w.engine.unregister d } .done
  | setLogAddr (value : Bool) :
      Answers w (.setLogAddr value) { w with engine := w.engine.setLogAddr value } .done
  | setLevel (target : Handle) (level : Level) :
      Answers w (.setLevel target level) { w with engine := w.engine.setLevel target level } .done
  | setPayload (target : Handle) (payload : Payload) :
      Answers w (.setPayload target payload)
        { w with engine := w.engine.setPayload target (some payload) } .done
  | takePayload (target : Handle) :
      Answers w (.takePayload target) { w with engine := w.engine.setPayload target none }
        (.detached (w.engine.payload? target))
  | trySend (request : Request) :
      Answers w (.trySend request) { w with inbox := (w.inbox.trySend request).2 }
        (.sent (w.inbox.trySend request).1)
  | shutdown (mode : ShutdownMode) :
      Answers w (.shutdown mode) { w with inbox := w.inbox.shutdown mode } .done
  | free (target : Handle) :
      Answers w (.free target) { w with engine := w.engine.free target } .done
  | alloc {d : Descriptor} {payload : Option Payload} {level : Option Level}
      {id : Option String} {handle : Handle} {inst : Instance} {engine : Engine}
      (halloc : w.engine.alloc d payload level id = .ok (handle, inst, engine)) :
      Answers w (.alloc d payload level id) ({ w with engine }.log (.about inst .allocated))
        (.allocated handle)
  | orphan {parent : Handle} (d : Descriptor) (event : EventId)
      (hdead : w.engine.get? parent = none) :
      Answers w (.allocChild d parent event) (w.log (.parentMissing d.subsystem d.name parent))
        (.refused (.invalidInstance parent))
  | child {d : Descriptor} {parent : Handle} {event : EventId} {p : Instance}
      {handle : Handle} {inst : Instance} {engine : Engine}
      (hlive : w.engine.get? parent = some p) (hactive : p.terminating = false)
      (halloc : w.engine.alloc d none (some p.level) p.id = .ok (handle, inst, engine)) :
      Answers w (.allocChild d parent event)
        (({ w with engine := engine.link handle parent event,
                   journal := .record (.about inst .allocated) :: w.journal }).log
          (.about inst (.childOf p.name)))
        (.allocated handle)
  | unheard {target : Handle} (event : EventId) (data : Option Payload)
      (hdead : w.engine.get? target = none) :
      Answers w (.dispatch target event data)
        ((w.log (.targetMissing target event)).log .backtrace)
        (.refused (.invalidInstance target))
  | eventRefused {target : Handle} {event : EventId} {data : Option Payload} {inst : Instance}
      {why : Refusal} (hlive : w.engine.get? target = some inst)
      (hall : inst.descriptor.allStates.contains event = false)
      (haccepts : inst.descriptor.accepts inst.state event = false)
      (hwhy : why = .eventNotPermitted inst.name (inst.descriptor.stateName inst.state)
        (inst.descriptor.eventName event)) :
      Answers w (.dispatch target event data)
        ((w.log (.about inst (.received (inst.descriptor.eventName event)))).log
          (.refused inst.descriptor.subsystem why)) (.refused why)
  | unmoved {target : Handle} (state : StateId) (timeout : Duration) (label : Nat)
      (hdead : w.engine.get? target = none) :
      Answers w (.changeState target state timeout label) w (.refused (.invalidInstance target))
  | changeRefused {target : Handle} {state : StateId} {timeout : Duration} {label : Nat}
      {inst : Instance} {why : Refusal} (hlive : w.engine.get? target = some inst)
      (hpermits : inst.descriptor.permits inst.state state = false)
      (hwhy : why = .transitionNotPermitted inst.name (inst.descriptor.stateName inst.state)
        (inst.descriptor.stateName state)) :
      Answers w (.changeState target state timeout label)
        (w.log (.refused inst.descriptor.subsystem why)) (.refused why)
  | endless {target : Handle} {cause : Cause} (data : Option Payload)
      (hdead : w.engine.get? target = none) :
      Answers w (.terminate target cause data) (w.log (.endMissing target cause)) .done
  | ending {target : Handle} {cause : Cause} {inst : Instance} (data : Option Payload)
      (hlive : w.engine.get? target = some inst) (hending : inst.terminating = true) :
      Answers w (.terminate target cause data)
        (w.log (.about inst (.alreadyTerminating cause))) .done

/-- The unfinished operations that end within one step once they are given an answer, with the
world and the answer afterwards. -/
inductive Closes (w : World σ ν) : Frame σ ν → World σ ν → Reply → Prop where
  | answer (reply : Reply) : Closes w (.answer reply) w reply
  | leaving {target : Handle} (d : Descriptor) (source state : StateId) (timeout : Duration)
      (label : Nat) (hdead : w.engine.get? target = none) :
      Closes w (.leaving target d source state timeout label) w
        (.refused (.invalidInstance target))
  | entering {target : Handle} (d : Descriptor) (timeout : Duration) (label : Nat)
      (hdead : w.engine.get? target = none) :
      Closes w (.entering target d timeout label) w (.refused (.invalidInstance target))
  | unarmed {target : Handle} {inst : Instance} (d : Descriptor) (label : Nat)
      (hlive : w.engine.get? target = some inst) :
      Closes w (.entering target d 0 label) w .done
  | armed {target : Handle} {inst : Instance} {d : Descriptor} {timeout : Duration} {label : Nat}
      (hlive : w.engine.get? target = some inst) (htimeout : timeout ≠ 0) :
      Closes w (.entering target d timeout label) (w.armed target d inst.name timeout label) .done
  | released {ending : Ending} (hquiet : ending.parent = none ∨ ending.cause = .parent) :
      Closes w (.cleaning ending) (w.released ending) .done
  | fired {now : Time} (count : Nat) (hnone : w.engine.timers.popExpired now = none) :
      Closes w (.firing now count) w (.count count)

end World

namespace Execution

/-- The steps of an execution. -/
inductive Transition (host : Host σ ν) : Execution σ ν → Execution σ ν → Prop where
  /-- A call is answered at once. -/
  | answered {w w' : World σ ν} {call : Call} {reply : Reply} {stack : List (Frame σ ν)}
      (hanswers : w.Answers call w' reply) :
      Transition host ⟨w, .perform call, stack⟩ ⟨w', .give reply, stack⟩
  /-- A terminating parent is told of the end of the child that it does not get. -/
  | childRefused {w : World σ ν} {d : Descriptor} {parent : Handle} {event : EventId}
      {p : Instance} {stack : List (Frame σ ν)}
      (hlive : w.engine.get? parent = some p) (hending : p.terminating = true) :
      Transition host ⟨w, .perform (.allocChild d parent event), stack⟩
        ⟨w.log (.parentEnding d.subsystem p.name d.name),
          .perform (.dispatch parent event none),
          .answer (.refused (.parentTerminating p.name)) :: stack⟩
  /-- An event that is handled in every state is delivered. -/
  | deliversAll {w : World σ ν} {target : Handle} {event : EventId} {data : Option Payload}
      {inst : Instance} {stack : List (Frame σ ν)}
      (hlive : w.engine.get? target = some inst)
      (hall : inst.descriptor.allStates.contains event = true) :
      Transition host ⟨w, .perform (.dispatch target event data), stack⟩
        ⟨w.log (.about inst (.received (inst.descriptor.eventName event))),
          .hook inst.descriptor target (.allStates event data), .answer .done :: stack⟩
  /-- An event that the current state accepts is delivered. -/
  | delivers {w : World σ ν} {target : Handle} {event : EventId} {data : Option Payload}
      {inst : Instance} {stack : List (Frame σ ν)}
      (hlive : w.engine.get? target = some inst)
      (hall : inst.descriptor.allStates.contains event = false)
      (haccepts : inst.descriptor.accepts inst.state event = true) :
      Transition host ⟨w, .perform (.dispatch target event data), stack⟩
        ⟨w.log (.about inst (.received (inst.descriptor.eventName event))),
          .hook inst.descriptor target (.action inst.state event data), .answer .done :: stack⟩
  /-- A permitted change of state begins. -/
  | leaves {w : World σ ν} {target : Handle} {state : StateId} {timeout : Duration} {label : Nat}
      {inst : Instance} {stack : List (Frame σ ν)}
      (hlive : w.engine.get? target = some inst)
      (hpermits : inst.descriptor.permits inst.state state = true) :
      Transition host ⟨w, .perform (.changeState target state timeout label), stack⟩
        ⟨w, .hook inst.descriptor target (.leave inst.state state),
          .leaving target inst.descriptor inst.state state timeout label :: stack⟩
  /-- The termination of an instance begins. -/
  | ends {w : World σ ν} {target : Handle} {cause : Cause} {data : Option Payload}
      {inst : Instance} {stack : List (Frame σ ν)}
      (hlive : w.engine.get? target = some inst) (hactive : inst.terminating = false) :
      Transition host ⟨w, .perform (.terminate target cause data), stack⟩
        ⟨{ w.log (.about inst (.terminating cause)) with
            engine := w.engine.modify target ({ · with terminating := true }) },
          .give .done,
          .cascade ⟨target, inst.descriptor, cause, data, inst.parent, inst.parentEvent⟩
            inst.children :: stack⟩
  /-- The firing of timers begins. -/
  | fires {w : World σ ν} {stack : List (Frame σ ν)} :
      Transition host ⟨w, .perform .fireExpired, stack⟩
        ⟨w, .give .done, .firing w.now 0 :: stack⟩
  /-- A hook is called. -/
  | calls {w : World σ ν} {d : Descriptor} {target : Handle} {hook : Hook}
      {stack : List (Frame σ ν)} :
      Transition host ⟨w, .hook d target hook, stack⟩
        ⟨w.enter (.hook target hook),
          .run (host.script d target hook (w.enter (.hook target hook)).toContext), stack⟩
  /-- A script ends. -/
  | scriptDone {w : World σ ν} {env : σ} {stack : List (Frame σ ν)} :
      Transition host ⟨w, .run (.done env), stack⟩ ⟨{ w with env }, .give .done, stack⟩
  /-- A script leaves a note. -/
  | scriptNote {w : World σ ν} {note : ν} {rest : Script σ ν} {stack : List (Frame σ ν)} :
      Transition host ⟨w, .run (.note note rest), stack⟩ ⟨w.enter (.note note), .run rest, stack⟩
  /-- A script makes a call. -/
  | scriptCall {w : World σ ν} {call : Call} {env : σ} {next : Reply → Context σ → Script σ ν}
      {stack : List (Frame σ ν)} :
      Transition host ⟨w, .run (.call call env next), stack⟩
        ⟨{ w with env }, .perform call, .resume next :: stack⟩
  /-- A script goes on. -/
  | resumes {w : World σ ν} {next : Reply → Context σ → Script σ ν} {answer : Reply}
      {stack : List (Frame σ ν)} :
      Transition host ⟨w, .give answer, .resume next :: stack⟩
        ⟨w, .run (next answer w.toContext), stack⟩
  /-- An unfinished operation ends. -/
  | closes {w w' : World σ ν} {frame : Frame σ ν} {answer reply : Reply}
      {stack : List (Frame σ ν)} (hcloses : w.Closes frame w' reply) :
      Transition host ⟨w, .give answer, frame :: stack⟩ ⟨w', .give reply, stack⟩
  /-- The state of an instance is written. -/
  | enters {w : World σ ν} {target : Handle} {d : Descriptor} {source state : StateId}
      {timeout : Duration} {label : Nat} {inst : Instance} {answer : Reply}
      {stack : List (Frame σ ν)} (hlive : w.engine.get? target = some inst) :
      Transition host ⟨w, .give answer, .leaving target d source state timeout label :: stack⟩
        ⟨{ w.log (.remark inst.level d.subsystem inst.name (.stateChanged (d.stateName state)))
            with engine := w.engine.modify target ({ · with state }) },
          .hook d target (.enter state source), .entering target d timeout label :: stack⟩
  /-- The next child of a terminating instance is ended. -/
  | endsChild {w : World σ ν} {ending : Ending} {child : Handle} {rest : List Handle}
      {answer : Reply} {stack : List (Frame σ ν)} (hlive : w.engine.isAlive child = true) :
      Transition host ⟨w, .give answer, .cascade ending (child :: rest) :: stack⟩
        ⟨w, .perform (.terminate child .parent none), .cascade ending rest :: stack⟩
  /-- The next child of a terminating instance is gone already. -/
  | skipsChild {w : World σ ν} {ending : Ending} {child : Handle} {rest : List Handle}
      {answer : Reply} {stack : List (Frame σ ν)} (hdead : w.engine.isAlive child = false) :
      Transition host ⟨w, .give answer, .cascade ending (child :: rest) :: stack⟩
        ⟨w, .give .done, .cascade ending rest :: stack⟩
  /-- A terminating instance whose children have been ended is cleaned up. -/
  | cleans {w : World σ ν} {ending : Ending} {answer : Reply} {stack : List (Frame σ ν)} :
      Transition host ⟨w, .give answer, .cascade ending [] :: stack⟩
        ⟨w.detached ending, .hook ending.descriptor ending.target (.cleanup ending.cause),
          .cleaning ending :: stack⟩
  /-- An instance is released and its parent told. -/
  | tells {w : World σ ν} {ending : Ending} {parent : Handle} {answer : Reply}
      {stack : List (Frame σ ν)} (hparent : ending.parent = some parent)
      (hcause : ending.cause ≠ .parent) :
      Transition host ⟨w, .give answer, .cleaning ending :: stack⟩
        ⟨w.released ending, .perform (.dispatch parent ending.parentEvent ending.data),
          .answer .done :: stack⟩
  /-- The deadline of a dead handle is passed over. -/
  | skipsTimer {w : World σ ν} {now : Time} {count : Nat} {target : Handle} {timers : TimerQueue}
      {answer : Reply} {stack : List (Frame σ ν)}
      (hpop : w.engine.timers.popExpired now = some (target, timers))
      (hdead : w.engine.get? target = none) :
      Transition host ⟨w, .give answer, .firing now count :: stack⟩
        ⟨{ w with engine := { w.engine with timers } }, .give .done, .firing now count :: stack⟩
  /-- The timer of an instance expires. -/
  | expires {w : World σ ν} {now : Time} {count : Nat} {target : Handle} {timers : TimerQueue}
      {inst : Instance} {answer : Reply} {stack : List (Frame σ ν)}
      (hpop : w.engine.timers.popExpired now = some (target, timers))
      (hlive : w.engine.get? target = some inst) :
      Transition host ⟨w, .give answer, .firing now count :: stack⟩
        ⟨{ w with engine := { w.engine with timers } }.log (.about inst (.timeout inst.timerLabel)),
          .hook inst.descriptor target .timer, .firing now (count + 1) :: stack⟩

/-! ## The list is complete -/

variable {host : Host σ ν} {w : World σ ν} {x x' : Execution σ ν} {stack : List (Frame σ ν)}

/-- The steps by which an event is delivered. -/
theorem transition_of_beginDispatch {target : Handle} {event : EventId} {data : Option Payload}
    (h : beginDispatch w target event data stack = .running x') :
    Transition host ⟨w, .perform (.dispatch target event data), stack⟩ x' := by
  unfold beginDispatch at h
  split at h
  next hdead =>
    cases h
    exact .answered (.unheard event data hdead)
  next inst hlive =>
    dsimp only at h
    split at h
    next => cases h
    next =>
      split at h
      next hall =>
        cases h
        exact .deliversAll hlive hall
      next hall =>
        rw [Bool.not_eq_true] at hall
        split at h
        next haccepts =>
          cases h
          exact .delivers hlive hall haccepts
        next haccepts =>
          rw [Bool.not_eq_true] at haccepts
          cases h
          exact .answered (.eventRefused hlive hall haccepts rfl)

/-- The steps by which a change of state begins. -/
theorem transition_of_beginChange {target : Handle} {state : StateId} {timeout : Duration}
    {label : Nat} (h : beginChange w target state timeout label stack = .running x') :
    Transition host ⟨w, .perform (.changeState target state timeout label), stack⟩ x' := by
  unfold beginChange at h
  split at h
  next hdead =>
    cases h
    exact .answered (.unmoved state timeout label hdead)
  next inst hlive =>
    dsimp only at h
    split at h
    next hpermits =>
      cases h
      exact .leaves hlive hpermits
    next hpermits =>
      rw [Bool.not_eq_true] at hpermits
      cases h
      exact .answered (.changeRefused hlive hpermits rfl)

/-- The steps by which the termination of an instance begins. -/
theorem transition_of_beginEnd {target : Handle} {cause : Cause} {data : Option Payload}
    (h : beginEnd w target cause data stack = .running x') :
    Transition host ⟨w, .perform (.terminate target cause data), stack⟩ x' := by
  unfold beginEnd at h
  split at h
  next hdead =>
    cases h
    exact .answered (.endless data hdead)
  next inst hlive =>
    split at h
    next hending =>
      cases h
      exact .answered (.ending data hlive hending)
    next hactive =>
      rw [Bool.not_eq_true] at hactive
      cases h
      exact .ends hlive hactive

/-- The steps by which an instance is allocated. -/
theorem transition_of_beginAlloc {d : Descriptor} {payload : Option Payload}
    {level : Option Level} {id : Option String}
    (h : beginAlloc w d payload level id stack = .running x') :
    Transition host ⟨w, .perform (.alloc d payload level id), stack⟩ x' := by
  unfold beginAlloc at h
  split at h
  next handle inst engine halloc =>
    cases h
    exact .answered (.alloc halloc)
  next => cases h

/-- The steps by which a child is allocated. -/
theorem transition_of_beginAllocChild {d : Descriptor} {parent : Handle} {event : EventId}
    (h : beginAllocChild w d parent event stack = .running x') :
    Transition host ⟨w, .perform (.allocChild d parent event), stack⟩ x' := by
  unfold beginAllocChild at h
  split at h
  next hdead =>
    cases h
    exact .answered (.orphan d event hdead)
  next p hlive =>
    split at h
    next hending =>
      cases h
      exact .childRefused hlive hending
    next hactive =>
      rw [Bool.not_eq_true] at hactive
      split at h
      next handle inst engine halloc =>
        cases h
        exact .answered (.child hlive hactive halloc)
      next => cases h

/-- The steps by which operations begin. -/
theorem transition_of_begin {call : Call} (h : begin w call stack = .running x') :
    Transition host ⟨w, .perform call, stack⟩ x' := by
  cases call with
  | register d => cases h; exact .answered (.register d)
  | unregister d => cases h; exact .answered (.unregister d)
  | alloc d payload level id => exact transition_of_beginAlloc h
  | allocChild d parent event => exact transition_of_beginAllocChild h
  | free target => cases h; exact .answered (.free target)
  | dispatch target event data => exact transition_of_beginDispatch h
  | changeState target state timeout label => exact transition_of_beginChange h
  | terminate target cause data => exact transition_of_beginEnd h
  | fireExpired => cases h; exact .fires
  | setLogAddr value => cases h; exact .answered (.setLogAddr value)
  | setLevel target level => cases h; exact .answered (.setLevel target level)
  | setPayload target payload => cases h; exact .answered (.setPayload target payload)
  | takePayload target => cases h; exact .answered (.takePayload target)
  | trySend request => cases h; exact .answered (.trySend request)
  | shutdown mode => cases h; exact .answered (.shutdown mode)

/-- The steps after the hook for leaving a state. -/
theorem transition_of_afterLeave {target : Handle} {d : Descriptor} {source state : StateId}
    {timeout : Duration} {label : Nat} {answer : Reply}
    (h : afterLeave w target d source state timeout label stack = .running x') :
    Transition host ⟨w, .give answer, .leaving target d source state timeout label :: stack⟩
      x' := by
  unfold afterLeave at h
  split at h
  next hdead =>
    cases h
    exact .closes (.leaving d source state timeout label hdead)
  next inst hlive =>
    cases h
    exact .enters hlive

/-- The steps after the hook for entering a state. -/
theorem transition_of_afterEnter {target : Handle} {d : Descriptor} {timeout : Duration}
    {label : Nat} {answer : Reply}
    (h : afterEnter w target d timeout label stack = .running x') :
    Transition host ⟨w, .give answer, .entering target d timeout label :: stack⟩ x' := by
  unfold afterEnter at h
  split at h
  next hdead =>
    cases h
    exact .closes (.entering d timeout label hdead)
  next inst hlive =>
    split at h
    next htimeout =>
      cases h
      subst htimeout
      exact .closes (.unarmed d label hlive)
    next htimeout =>
      cases h
      exact .closes (.armed hlive htimeout)

/-- The steps after the end of a child. -/
theorem transition_of_afterChild {ending : Ending} {children : List Handle} {answer : Reply}
    (h : afterChild w ending children stack = .running x') :
    Transition host ⟨w, .give answer, .cascade ending children :: stack⟩ x' := by
  cases children with
  | nil => cases h; exact .cleans
  | cons child rest =>
    unfold afterChild at h
    dsimp only at h
    split at h
    next hlive =>
      cases h
      exact .endsChild hlive
    next hdead =>
      rw [Bool.not_eq_true] at hdead
      cases h
      exact .skipsChild hdead

/-- The steps after the hook for cleaning up. -/
theorem transition_of_afterCleanup {ending : Ending} {answer : Reply}
    (h : afterCleanup w ending stack = .running x') :
    Transition host ⟨w, .give answer, .cleaning ending :: stack⟩ x' := by
  unfold afterCleanup at h
  dsimp only at h
  split at h
  next parent hparent =>
    split at h
    next hcause =>
      cases h
      exact .closes (.released (.inr hcause))
    next hcause =>
      cases h
      exact .tells hparent hcause
  next hparent =>
    cases h
    exact .closes (.released (.inl hparent))

/-- The steps by which timers are fired. -/
theorem transition_of_fireNext {now : Time} {count : Nat} {answer : Reply}
    (h : fireNext w now count stack = .running x') :
    Transition host ⟨w, .give answer, .firing now count :: stack⟩ x' := by
  unfold fireNext at h
  split at h
  next hnone =>
    cases h
    exact .closes (.fired count hnone)
  next target timers hpop =>
    dsimp only at h
    split at h
    next hdead =>
      cases h
      exact .skipsTimer hpop hdead
    next inst hlive =>
      cases h
      exact .expires hpop hlive

/-- The steps by which unfinished operations go on. -/
theorem transition_of_proceed {frame : Frame σ ν} {answer : Reply}
    (h : proceed w frame answer stack = .running x') :
    Transition host ⟨w, .give answer, frame :: stack⟩ x' := by
  cases frame with
  | resume next => cases h; exact .resumes
  | answer reply => cases h; exact .closes (.answer reply)
  | leaving target d source state timeout label => exact transition_of_afterLeave h
  | entering target d timeout label => exact transition_of_afterEnter h
  | cascade ending children => exact transition_of_afterChild h
  | cleaning ending => exact transition_of_afterCleanup h
  | firing now count => exact transition_of_fireNext h

/-- Every step of an execution is listed. -/
theorem transition_of_step (h : x.step host = .running x') : Transition host x x' := by
  obtain ⟨w, control, stack⟩ := x
  cases control with
  | perform call => exact transition_of_begin h
  | hook d target hook => cases h; exact .calls
  | run script =>
    cases script with
    | done env => cases h; exact .scriptDone
    | note note rest => cases h; exact .scriptNote
    | call call env next => cases h; exact .scriptCall
  | give answer =>
    cases stack with
    | nil => cases h
    | cons frame stack => exact transition_of_proceed h

end Execution

end StateMachines
