import StateMachines.Proofs.Diagnostics.Plain
import StateMachines.Proofs.Execution.Likeness
import StateMachines.Proofs.Execution.Series

/-!
# Diagnostics do not influence behaviour

Two runs make the same calls in the same surroundings, but their engines have other settings, their
instances other levels and correlation identifiers, and each of them sets levels when it likes. The
runs differ in what they publish, in the display names they draw and in the number that was embedded
last. Nothing that decides how a call goes on depends on these, so the runs go in lockstep, at every
moment of every nesting of hooks.

## Main definitions

* `Host.Indifferent`: the hooks do not read diagnostics.
* `Likeness.diagnostics`: two executions differ in diagnostics only.
* `Execution.Paired`: two runs that make the same calls but for diagnostics.

## Main results

* `Likeness.kept_diagnostics`: what differs in diagnostics only goes on so.
* `Execution.Paired.indistinguishable`: the runs leave the same engines but for diagnostics, call
  the same hooks and give the same answers.
-/

namespace StateMachines

variable {σ ν : Type} {host : Host σ ν}

/-! ## What counts as alike -/

/-- Whether a call concerns diagnostics only. -/
def Call.isDiagnostic : Call → Bool
  | .setLogAddr _ | .setLevel .. => true
  | _ => false

/-- Two calls are the same but for diagnostics. -/
inductive Call.Alike : Call → Call → Prop where
  | same (call : Call) : Alike call call
  | alloc (d : Descriptor) (payload : Option Payload) (level level' : Option Level)
      (id id' : Option String) : Alike (.alloc d payload level id) (.alloc d payload level' id')
  | diagnostic {call call' : Call} (h : call.isDiagnostic = true) (h' : call'.isDiagnostic = true) :
      Alike call call'

/-- What scripts see and do alike if they do not read diagnostics. -/
def Outlook.plain : Outlook σ where
  call := Call.Alike
  reply r r' := r.plain = r'.plain
  context c c' := c.engine.plain = c'.engine.plain ∧ c.now = c'.now ∧ c.env = c'.env
  env := Eq

/-- The hooks do not read display names, correlation identifiers and levels: what they do depends
on the plain part of the engine, the clock and their environment, and on what their calls answer
without display names. The calls that they make may differ in what is diagnostic. -/
def Host.Indifferent (host : Host σ ν) : Prop :=
  ∀ d h hook c c', Outlook.plain.context c c' →
    (host.script d h hook c).Alike .plain (host.script d h hook c')

/-- Two worlds differ in diagnostics and in what has been published only. -/
structure World.SamePlain (w v : World σ ν) : Prop where
  engine : w.engine.plain = v.engine.plain
  now : w.now = v.now
  env : w.env = v.env
  inbox : w.inbox = v.inbox

/-- Two executions differ in diagnostics only. -/
def Likeness.diagnostics : Likeness σ ν where
  toOutlook := .plain
  world := World.SamePlain
  fault f f' := f.plain = f'.plain
  scope _ := True
  frame := Frame.IsOperation

namespace World.SamePlain

variable {w v : World σ ν} {e e' : Engine}

/-- What is entered into the journal does not matter. -/
theorem enter (hsame : w.SamePlain v) (entry entry' : Entry ν) :
    (w.enter entry).SamePlain (v.enter entry') :=
  ⟨hsame.engine, hsame.now, hsame.env, hsame.inbox⟩

/-- What is published does not matter. -/
theorem log (hsame : w.SamePlain v) (r r' : Record) : (w.log r).SamePlain (v.log r') :=
  hsame.enter _ _

/-- The engines may change to others with the same plain part. -/
theorem withEngine (hsame : w.SamePlain v) (hplain : e.plain = e'.plain) :
    World.SamePlain { w with engine := e } { v with engine := e' } :=
  ⟨hplain, hsame.now, hsame.env, hsame.inbox⟩

/-- Releasing an instance at its end. -/
theorem released (hsame : w.SamePlain v) (ending : Ending) :
    (w.released ending).SamePlain (v.released ending) := by
  have hfree : (w.engine.free ending.target).plain = (v.engine.free ending.target).plain := by
    rw [Engine.free_plain, Engine.free_plain, hsame.engine]
  rcases Engine.get?_cases_of_plain_eq hsame.engine ending.target with
    ⟨hw, hv⟩ | ⟨a, id, name, level, hw, hv⟩
  · simp only [World.released, hw, hv]
    exact hsame.withEngine hfree
  · simp only [World.released, hw, hv]
    exact (hsame.log _ _).withEngine hfree

end World.SamePlain

namespace Likeness

variable {w v : World σ ν} {call call' : Call} {frame : Frame σ ν}
  {stack stack' : List (Frame σ ν)}

open Execution

/-- Answers are given alike. -/
theorem reply_diagnostics {reply reply' : Reply} (hsame : w.SamePlain v)
    (hreply : reply.plain = reply'.plain) (hstack : Stacked diagnostics stack stack') :
    (Execution.reply w reply stack).Alike diagnostics (Execution.reply v reply' stack') :=
  .running ⟨hsame, .give hreply, hstack⟩

/-- A change of the engine that is a change of its plain part is alike. -/
theorem settle_diagnostics {e e' : Engine} (hsame : w.SamePlain v) (hplain : e.plain = e'.plain)
    (hstack : Stacked diagnostics stack stack') :
    (settle w e stack).Alike diagnostics (settle v e' stack') :=
  reply_diagnostics (hsame.withEngine hplain) rfl hstack

/-- Allocations begin alike, whatever the level and the correlation identifier. -/
theorem beginAlloc_diagnostics (hsame : w.SamePlain v) (d : Descriptor) (payload : Option Payload)
    (level level' : Option Level) (id id' : Option String)
    (hstack : Stacked diagnostics stack stack') :
    (beginAlloc w d payload level id stack).Alike diagnostics
      (beginAlloc v d payload level' id' stack') := by
  unfold beginAlloc
  rcases Engine.alloc_cases_of_plain_eq hsame.engine d payload level level' id id' with
    ⟨fault, hw, hv⟩ | ⟨h, a, a', e, e', hw, hv, hplain⟩
  · rw [hw, hv]
    exact .faulted rfl
  · rw [hw, hv]
    exact reply_diagnostics ((hsame.withEngine hplain).log _ _) rfl hstack

/-- Allocations of children begin alike. -/
theorem beginAllocChild_diagnostics (hsame : w.SamePlain v) (d : Descriptor) (parent : Handle)
    (event : EventId) (hstack : Stacked diagnostics stack stack') :
    (beginAllocChild w d parent event stack).Alike diagnostics
      (beginAllocChild v d parent event stack') := by
  unfold beginAllocChild
  rcases Engine.get?_cases_of_plain_eq hsame.engine parent with
    ⟨hw, hv⟩ | ⟨p, id, name, level, hw, hv⟩
  · rw [hw, hv]
    exact reply_diagnostics (hsame.log _ _) rfl hstack
  · rw [hw, hv]
    dsimp only
    split
    next => exact .running ⟨hsame.log _ _, .perform (.same _), .cons (.answer rfl) hstack⟩
    next =>
      -- The child takes its level and its identifier from its parent.
      rcases Engine.alloc_cases_of_plain_eq hsame.engine d none (some p.level) (some level) p.id id
        with ⟨fault, hw', hv'⟩ | ⟨h, a, a', e, e', hw', hv', hplain⟩
      · rw [hw', hv']
        exact .faulted rfl
      · rw [hw', hv']
        have hlink : (e.link h parent event).plain = (e'.link h parent event).plain := by
          rw [Engine.link_plain, Engine.link_plain, hplain]
        exact reply_diagnostics (((hsame.log _ _).withEngine hlink).log _ _) rfl hstack

/-- Deliveries begin alike. -/
theorem beginDispatch_diagnostics (hsame : w.SamePlain v) (target : Handle) (event : EventId)
    (data : Option Payload) (hstack : Stacked diagnostics stack stack') :
    (beginDispatch w target event data stack).Alike diagnostics
      (beginDispatch v target event data stack') := by
  unfold beginDispatch
  rcases Engine.get?_cases_of_plain_eq hsame.engine target with
    ⟨hw, hv⟩ | ⟨a, id, name, level, hw, hv⟩
  · rw [hw, hv]
    exact reply_diagnostics ((hsame.log _ _).log _ _) rfl hstack
  · rw [hw, hv]
    dsimp only
    split
    next => exact .faulted rfl
    next =>
      split
      next => exact .running ⟨hsame.log _ _, .hook _ _ trivial, .cons (.answer rfl) hstack⟩
      next =>
        split
        next => exact .running ⟨hsame.log _ _, .hook _ _ trivial, .cons (.answer rfl) hstack⟩
        next => exact reply_diagnostics ((hsame.log _ _).log _ _) rfl hstack

/-- Changes of state begin alike. -/
theorem beginChange_diagnostics (hsame : w.SamePlain v) (target : Handle) (state : StateId)
    (timeout : Duration) (label : Nat) (hstack : Stacked diagnostics stack stack') :
    (beginChange w target state timeout label stack).Alike diagnostics
      (beginChange v target state timeout label stack') := by
  unfold beginChange
  rcases Engine.get?_cases_of_plain_eq hsame.engine target with
    ⟨hw, hv⟩ | ⟨a, id, name, level, hw, hv⟩
  · rw [hw, hv]
    exact reply_diagnostics hsame rfl hstack
  · rw [hw, hv]
    dsimp only
    split
    next => exact .running ⟨hsame, .hook _ _ trivial, .cons (.operation trivial) hstack⟩
    next => exact reply_diagnostics (hsame.log _ _) rfl hstack

/-- Terminations begin alike. -/
theorem beginEnd_diagnostics (hsame : w.SamePlain v) (target : Handle) (cause : Cause)
    (data : Option Payload) (hstack : Stacked diagnostics stack stack') :
    (beginEnd w target cause data stack).Alike diagnostics
      (beginEnd v target cause data stack') := by
  unfold beginEnd
  rcases Engine.get?_cases_of_plain_eq hsame.engine target with
    ⟨hw, hv⟩ | ⟨a, id, name, level, hw, hv⟩
  · rw [hw, hv]
    exact reply_diagnostics (hsame.log _ _) rfl hstack
  · rw [hw, hv]
    dsimp only
    split
    next => exact reply_diagnostics (hsame.log _ _) rfl hstack
    next =>
      have hmark : (w.engine.modify target ({ · with terminating := true })).plain =
          (v.engine.modify target ({ · with terminating := true })).plain := by
        rw [Engine.modify_plain_self (by intro; rfl), Engine.modify_plain_self (by intro; rfl),
          hsame.engine]
      exact .running
        ⟨(hsame.log _ _).withEngine hmark, .give rfl, .cons (.operation trivial) hstack⟩

/-- A diagnostic call leaves the plain part of the engine alone. -/
theorem begin_of_isDiagnostic (w : World σ ν) (stack : List (Frame σ ν))
    (hcall : call.isDiagnostic = true) :
    ∃ e, begin w call stack = settle w e stack ∧ e.plain = w.engine.plain := by
  cases call with
  | setLogAddr value => exact ⟨_, rfl, rfl⟩
  | setLevel target level => exact ⟨_, rfl, Engine.setLevel_plain level⟩
  | _ => cases hcall

/-- Operations begin alike. -/
theorem begin_diagnostics (hsame : w.SamePlain v) (hcall : call.Alike call')
    (hstack : Stacked diagnostics stack stack') :
    (begin w call stack).Alike diagnostics (begin v call' stack') := by
  cases hcall with
  | alloc d payload level level' id id' =>
    exact beginAlloc_diagnostics hsame d payload level level' id id' hstack
  | diagnostic h h' =>
    obtain ⟨e, hw, he⟩ := begin_of_isDiagnostic w stack h
    obtain ⟨e', hv, he'⟩ := begin_of_isDiagnostic v stack' h'
    rw [hw, hv]
    exact settle_diagnostics hsame (he.trans (hsame.engine.trans he'.symm)) hstack
  | same =>
    cases call with
    | register d =>
      exact settle_diagnostics hsame (congrArg (·.register d) hsame.engine) hstack
    | unregister d =>
      exact settle_diagnostics hsame (congrArg (·.unregister d) hsame.engine) hstack
    | alloc d payload level id =>
      exact beginAlloc_diagnostics hsame d payload level level id id hstack
    | allocChild d parent event => exact beginAllocChild_diagnostics hsame d parent event hstack
    | free target =>
      refine settle_diagnostics hsame ?_ hstack
      rw [Engine.free_plain, Engine.free_plain, hsame.engine]
    | dispatch target event data => exact beginDispatch_diagnostics hsame target event data hstack
    | changeState target state timeout label =>
      exact beginChange_diagnostics hsame target state timeout label hstack
    | terminate target cause data => exact beginEnd_diagnostics hsame target cause data hstack
    | fireExpired =>
      simp only [begin, hsame.now]
      exact .running ⟨hsame, .give rfl, .cons (.operation trivial) hstack⟩
    | setLogAddr value => exact settle_diagnostics hsame hsame.engine hstack
    | setLevel target level =>
      refine settle_diagnostics hsame ?_ hstack
      rw [Engine.setLevel_plain, Engine.setLevel_plain, hsame.engine]
    | setPayload target payload =>
      refine settle_diagnostics hsame ?_ hstack
      rw [Engine.setPayload_plain, Engine.setPayload_plain, hsame.engine]
    | takePayload target =>
      have hpayload : w.engine.payload? target = v.engine.payload? target := by
        rw [← Engine.payload?_plain, hsame.engine, Engine.payload?_plain]
      simp only [begin, hpayload]
      refine reply_diagnostics (hsame.withEngine ?_) rfl hstack
      rw [Engine.setPayload_plain, Engine.setPayload_plain, hsame.engine]
    | trySend request =>
      simp only [begin, hsame.inbox]
      exact reply_diagnostics ⟨hsame.engine, hsame.now, hsame.env, rfl⟩ rfl hstack
    | shutdown mode =>
      simp only [begin, hsame.inbox]
      exact reply_diagnostics ⟨hsame.engine, hsame.now, hsame.env, rfl⟩ rfl hstack

/-- Unfinished operations go on alike. -/
theorem proceed_diagnostics (answer answer' : Reply) (hsame : w.SamePlain v)
    (hframe : frame.IsOperation) (hstack : Stacked diagnostics stack stack') :
    (proceed w frame answer stack).Alike diagnostics (proceed v frame answer' stack') := by
  cases frame with
  | resume | answer => exact hframe.elim
  | leaving target d source state timeout label =>
    simp only [proceed, afterLeave]
    rcases Engine.get?_cases_of_plain_eq hsame.engine target with
      ⟨hw, hv⟩ | ⟨a, id, name, level, hw, hv⟩
    · rw [hw, hv]
      exact reply_diagnostics hsame rfl hstack
    · rw [hw, hv]
      have hwrite : (w.engine.modify target ({ · with state })).plain =
          (v.engine.modify target ({ · with state })).plain := by
        rw [Engine.modify_plain_self (by intro; rfl), Engine.modify_plain_self (by intro; rfl),
          hsame.engine]
      exact .running ⟨(hsame.log _ _).withEngine hwrite, .hook _ _ trivial,
        .cons (.operation trivial) hstack⟩
  | entering target d timeout label =>
    simp only [proceed, afterEnter]
    rcases Engine.get?_cases_of_plain_eq hsame.engine target with
      ⟨hw, hv⟩ | ⟨a, id, name, level, hw, hv⟩
    · rw [hw, hv]
      exact reply_diagnostics hsame rfl hstack
    · rw [hw, hv]
      dsimp only
      have harm : (w.engine.arm w.now target timeout label).plain =
          (v.engine.arm v.now target timeout label).plain := by
        rw [Engine.arm_plain, Engine.arm_plain, hsame.engine, hsame.now]
      split
      next => exact reply_diagnostics hsame rfl hstack
      next =>
        split
        next => exact settle_diagnostics hsame harm hstack
        next => exact settle_diagnostics (hsame.log _ _) harm hstack
  | cascade ending children =>
    cases children with
    | nil =>
      refine .running ⟨hsame.withEngine ?_, .hook _ _ trivial, .cons (.operation trivial) hstack⟩
      cases ending.parent with
      | none => exact hsame.engine
      | some parent =>
        dsimp only
        rw [Engine.unlink_plain, Engine.unlink_plain, hsame.engine]
    | cons child rest =>
      have halive : w.engine.isAlive child = v.engine.isAlive child := by
        rw [← Engine.isAlive_plain, hsame.engine, Engine.isAlive_plain]
      simp only [proceed, afterChild, halive]
      split
      next => exact .running ⟨hsame, .perform (.same _), .cons (.operation trivial) hstack⟩
      next => exact .running ⟨hsame, .give rfl, .cons (.operation trivial) hstack⟩
  | cleaning ending =>
    exact .afterCleanup (hsame.released ending) rfl (fun _ _ => .same _) hstack
  | firing now count =>
    have htimers : w.engine.plain.timers = v.engine.plain.timers :=
      congrArg Engine.timers hsame.engine
    replace htimers : w.engine.timers = v.engine.timers := htimers
    simp only [proceed, fireNext, htimers]
    split
    next => exact reply_diagnostics hsame rfl hstack
    next target timers _ =>
      have hpop : Engine.plain { w.engine with timers } = Engine.plain { v.engine with timers } :=
        congrArg (fun e : Engine => { e with timers }) hsame.engine
      rcases Engine.get?_cases_of_plain_eq hpop target with
        ⟨hw, hv⟩ | ⟨a, id, name, level, hw, hv⟩
      · rw [hw, hv]
        exact .running ⟨hsame.withEngine hpop, .give rfl, .cons (.operation trivial) hstack⟩
      · rw [hw, hv]
        exact .running ⟨(hsame.withEngine hpop).log _ _, .hook _ _ trivial,
          .cons (.operation trivial) hstack⟩

/-- If the hooks do not read diagnostics, executions that differ in them remain alike. -/
theorem kept_diagnostics (hindifferent : host.Indifferent) :
    (diagnostics : Likeness σ ν).Kept host where
  done := rfl
  context hsame := ⟨hsame.engine, hsame.now, hsame.env⟩
  env := by
    rintro w v env _ hsame rfl
    exact ⟨hsame.engine, hsame.now, rfl, hsame.inbox⟩
  note note hsame := hsame.enter _ _
  hook hook hsame _ := hsame.enter _ _
  script d hook _ hcontext := hindifferent d _ hook _ _ hcontext
  begin hsame hcall hstack := begin_diagnostics hsame hcall hstack
  proceed answer answer' hsame hframe hstack :=
    proceed_diagnostics answer answer' hsame hframe hstack

end Likeness

/-! ## Pairs of runs -/

namespace Execution

variable {x x' y y' start start' : Execution σ ν} {past past' span span' : List (Execution σ ν)}

/-- Two runs that make the same calls, but for what is diagnostic, have come to corresponding
moments. Each is given with the moments before it, the latest first. -/
inductive Paired (host : Host σ ν) : Execution σ ν → List (Execution σ ν) →
    Execution σ ν → List (Execution σ ν) → Prop where
  /-- Both engines are fresh; their settings may differ. -/
  | start {w v : World σ ν} (config config' : Config) (hw : w.engine = { config })
      (hv : v.engine = { config := config' }) :
      Paired host ⟨w, .give .done, []⟩ [] ⟨v, .give .done, []⟩ []
  /-- Both calls in progress take a step at the same time. -/
  | move {x x' y y' : Execution σ ν} {past past' : List (Execution σ ν)} (t : Time)
      (hpaired : Paired host x past y past') (hx : x.world.now ≤ t) (hy : y.world.now ≤ t)
      (hstep : (x.atTime t).step host = .running x')
      (hstep' : (y.atTime t).step host = .running y') :
      Paired host x' (x :: past) y' (y :: past')
  /-- Both runs make the same call from outside, in the same surroundings. -/
  | call {x y : Execution σ ν} {past past' : List (Execution σ ν)} {w v : World σ ν}
      {call call' : Call} (hpaired : Paired host x past y past')
      (hx : Next host x (.ofCall w call)) (hy : Next host y (.ofCall v call'))
      (hcall : call.Alike call') (hnow : w.now = v.now) (henv : w.env = v.env)
      (hinbox : w.inbox = v.inbox) :
      Paired host (.ofCall w call) (x :: past) (.ofCall v call') (y :: past')
  /-- The left run makes a diagnostic call of its own. -/
  | left {x x' y : Execution σ ν} {past past' : List (Execution σ ν)} {w : World σ ν} {call : Call}
      (hpaired : Paired host x past y past') (hrest : y.AtRest) (hcall : call.isDiagnostic = true)
      (hx : Next host x (.ofCall w call)) (hnext : Next host (.ofCall w call) x') :
      Paired host x' (.ofCall w call :: x :: past) y past'
  /-- The right run makes a diagnostic call of its own. -/
  | right {x y y' : Execution σ ν} {past past' : List (Execution σ ν)} {v : World σ ν}
      {call : Call} (hpaired : Paired host x past y past') (hrest : x.AtRest)
      (hcall : call.isDiagnostic = true) (hy : Next host y (.ofCall v call))
      (hnext : Next host (.ofCall v call) y') :
      Paired host x past y' (.ofCall v call :: y :: past')

/-- A call that is made by a step is waited for. -/
theorem Transition.stack_ne_nil (ht : Transition host x x') {call : Call}
    (hcontrol : x'.control = .perform call) : x'.stack ≠ [] := by
  cases ht with
  | childRefused | scriptCall | endsChild | tells => exact List.cons_ne_nil _ _
  | _ => cases hcontrol

/-- A call from outside is made when the one before has returned. -/
theorem Next.of_ofCall {w : World σ ν} {call : Call} (hnext : Next host x (.ofCall w call)) :
    x.AtRest ∧ w.engine = x.world.engine := by
  obtain ⟨t, -, ht⟩ | ⟨w', call', answer, heq, hcontrol, hstack, hengine, -⟩ := hnext.cases
  · -- A call that is made in the course of another one is waited for.
    exact absurd rfl (ht.stack_ne_nil rfl)
  · cases heq
    exact ⟨⟨⟨answer, hcontrol⟩, hstack⟩, hengine⟩

/-- A diagnostic call returns at once and leaves the plain part of the engine alone. -/
theorem Next.of_diagnostic {w : World σ ν} {call : Call} (hcall : call.isDiagnostic = true)
    (hnext : Next host (.ofCall w call) x) :
    x.AtRest ∧ x.world.engine.plain = w.engine.plain := by
  obtain ⟨t, -, ht⟩ := hnext.of_perform rfl
  cases ht with
  | answered hanswers =>
    refine ⟨⟨⟨_, rfl⟩, rfl⟩, ?_⟩
    cases hanswers with
    | setLogAddr => rfl
    | setLevel target level => exact Engine.setLevel_plain level
    | _ => cases hcall
  | _ => cases hcall

/-- Two moments correspond: the calls in progress are alike, or both have returned. -/
inductive Matched (x y : Execution σ ν) : Prop where
  | rests (hx : x.AtRest) (hy : y.AtRest)
      (hplain : x.world.engine.plain = y.world.engine.plain) : Matched x y
  | alike (halike : x.Alike .diagnostics y) : Matched x y

/-- The engines of corresponding moments have the same plain part. -/
theorem Matched.plain_eq (hmatched : Matched x y) :
    x.world.engine.plain = y.world.engine.plain := by
  cases hmatched with
  | rests hx hy hplain => exact hplain
  | alike halike => exact halike.world.engine

/-- Of two corresponding moments both are at rest or none is. -/
theorem Matched.atRest_iff (hmatched : Matched x y) : x.AtRest ↔ y.AtRest := by
  cases hmatched with
  | rests hx hy hplain => exact iff_of_true hx hy
  | alike halike =>
    obtain ⟨w, control, stack⟩ := x
    obtain ⟨v, control', stack'⟩ := y
    obtain ⟨-, hcontrol, hstack⟩ := halike
    cases hcontrol <;> cases hstack <;> simp [AtRest]

/-- Calls in progress at corresponding moments are alike, also at a later time. -/
theorem Matched.atTime (hmatched : Matched x y) (hopen : ¬ x.AtRest) (t : Time) :
    (x.atTime t).Alike .diagnostics (y.atTime t) := by
  cases hmatched with
  | rests hx => exact absurd hx hopen
  | alike halike =>
    exact ⟨⟨halike.world.engine, rfl, halike.world.env, halike.world.inbox⟩, halike.control,
      halike.stack⟩

/-- Time does not matter to whether an execution is at rest. -/
theorem not_atRest_of_step_atTime {t : Time} (hstep : (x.atTime t).step host = .running x') :
    ¬ x.AtRest := fun hrest => not_atRest_of_step hstep hrest

/-- If the hooks do not read diagnostics, runs that make the same calls remain matched. -/
theorem Paired.matched (hindifferent : host.Indifferent) (hpaired : Paired host x past y past') :
    Matched x y := by
  induction hpaired with
  | start config config' hw hv =>
    refine .rests ⟨⟨_, rfl⟩, rfl⟩ ⟨⟨_, rfl⟩, rfl⟩ ?_
    dsimp only
    rw [hw, hv]
    rfl
  | move t hpaired hx hy hstep hstep' ih =>
    have halike := (Likeness.kept_diagnostics hindifferent).step
      (ih.atTime (not_atRest_of_step_atTime hstep) t)
    rw [hstep, hstep'] at halike
    cases halike with
    | running halike => exact .alike halike
  | call hpaired hx hy hcall hnow henv hinbox ih =>
    refine .alike ⟨⟨?_, hnow, henv, hinbox⟩, .perform hcall, .nil⟩
    exact (congrArg _ hx.of_ofCall.2).trans (ih.plain_eq.trans (congrArg _ hy.of_ofCall.2.symm))
  | left hpaired hrest hcall hx hnext ih =>
    obtain ⟨hrest', hplain⟩ := hnext.of_diagnostic hcall
    exact .rests hrest' hrest (hplain.trans ((congrArg _ hx.of_ofCall.2).trans ih.plain_eq))
  | right hpaired hrest hcall hy hnext ih =>
    obtain ⟨hrest', hplain⟩ := hnext.of_diagnostic hcall
    exact .rests hrest hrest' (ih.plain_eq.trans ((hplain.trans (congrArg _ hy.of_ofCall.2)).symm))

/-! ## What is observed -/

/-- The hook that is called at a moment, with its class and its instance. -/
def hookCall? (x : Execution σ ν) : Option (Descriptor × Handle × Hook) :=
  match x.control with
  | .hook d h hook => some (d, h, hook)
  | _ => none

/-- The hooks that were called in a history, the latest first. -/
def hookCalls (hist : List (Execution σ ν)) : List (Descriptor × Handle × Hook) :=
  hist.filterMap hookCall?

/-- The answer that is given at a moment, without display names. -/
def answer? (x : Execution σ ν) : Option Reply :=
  match x.control with
  | .give reply => some reply.plain
  | _ => none

/-- Whether a diagnostic call is made at a moment. -/
def diagnoses (x : Execution σ ν) : Bool :=
  match x.control with
  | .perform call => call.isDiagnostic
  | _ => false

/-- The answers that were given in a history to calls and to unfinished operations, the latest
first, but for those to diagnostic calls. -/
def answers : List (Execution σ ν) → List Reply
  | x' :: x :: past => (if x.diagnoses then none else x'.answer?).toList ++ answers (x :: past)
  | _ => []

/-- At alike moments the same hook is called, or none is. -/
theorem Alike.hookCall?_eq (halike : x.Alike .diagnostics y) : x.hookCall? = y.hookCall? := by
  obtain ⟨w, control, stack⟩ := x
  obtain ⟨v, control', stack'⟩ := y
  obtain ⟨-, hcontrol, -⟩ := halike
  cases hcontrol <;> rfl

/-- At alike moments the same answer is given, or none is. -/
theorem Alike.answer?_eq (halike : x.Alike .diagnostics y) : x.answer? = y.answer? := by
  obtain ⟨w, control, stack⟩ := x
  obtain ⟨v, control', stack'⟩ := y
  obtain ⟨-, hcontrol, -⟩ := halike
  cases hcontrol with
  | give hreply => exact congrArg some hreply
  | _ => rfl

/-- At alike moments a diagnostic call is made on both sides, or on none. -/
theorem Alike.diagnoses_eq (halike : x.Alike .diagnostics y) : x.diagnoses = y.diagnoses := by
  obtain ⟨w, control, stack⟩ := x
  obtain ⟨v, control', stack'⟩ := y
  obtain ⟨-, hcontrol, -⟩ := halike
  cases hcontrol with
  | perform hcall =>
    cases hcall with
    | same | alloc => rfl
    | diagnostic h h' => exact h.trans h'.symm
  | _ => rfl

/-- At rest neither a hook nor a diagnostic call is begun. -/
theorem AtRest.quiet (hrest : x.AtRest) : x.hookCall? = none ∧ x.diagnoses = false := by
  obtain ⟨⟨reply, hcontrol⟩, -⟩ := hrest
  simp [hookCall?, diagnoses, hcontrol]

/-- A diagnostic call adds nothing to what is observed. -/
theorem Next.observed_of_diagnostic {w : World σ ν} {call : Call} (hcall : call.isDiagnostic = true)
    (hnext : Next host (.ofCall w call) x') (past : List (Execution σ ν)) :
    hookCalls (x' :: .ofCall w call :: x :: past) = hookCalls (x :: past) ∧
      answers (x' :: .ofCall w call :: x :: past) = answers (x :: past) := by
  constructor
  · have hrest : x'.hookCall? = none := (hnext.of_diagnostic hcall).1.quiet.1
    have hcalled : (ofCall w call).hookCall? = none := rfl
    rw [hookCalls, List.filterMap_cons_none hrest, List.filterMap_cons_none hcalled]
    rfl
  · have hcalled : (ofCall w call).diagnoses = true := hcall
    have hsilent : (ofCall w call).answer? = none := rfl
    simp [answers, hcalled, hsilent]

/-- The hooks that were called up to a moment. -/
theorem hookCalls_cons : hookCalls (x :: past) = x.hookCall?.toList ++ hookCalls past :=
  filterMap_cons_eq _ _ _

/-- A call that is begun from outside answers nothing. -/
theorem answers_ofCall (w : World σ ν) (call : Call) :
    answers (.ofCall w call :: x :: past) = answers (x :: past) := by
  have hsilent : (ofCall w call).answer? = none := rfl
  simp [answers, hsilent]

/-- A call that is begun from outside has called no hook yet. -/
theorem hookCalls_ofCall (w : World σ ν) (call : Call) :
    hookCalls (.ofCall w call :: past) = hookCalls past :=
  List.filterMap_cons_none rfl

/-- If the hooks do not read diagnostics, runs that make the same calls call the same hooks and get
the same answers. -/
theorem Paired.observed (hindifferent : host.Indifferent) (hpaired : Paired host x past y past') :
    hookCalls (x :: past) = hookCalls (y :: past') ∧
      answers (x :: past) = answers (y :: past') := by
  induction hpaired with
  | start => exact ⟨rfl, rfl⟩
  | @move x x' y y' past past' t hpaired hx hy hstep hstep' ih =>
    have hnow := (hpaired.matched hindifferent).atTime (not_atRest_of_step_atTime hstep) t
    have hafter := (Likeness.kept_diagnostics hindifferent).step hnow
    rw [hstep, hstep'] at hafter
    cases hafter with
    | running hafter =>
      have hdiagnoses : x.diagnoses = y.diagnoses := hnow.diagnoses_eq
      constructor
      · rw [hookCalls_cons, hafter.hookCall?_eq, ih.1, ← hookCalls_cons]
      · rw [answers, answers, hafter.answer?_eq, ih.2]
        exact congrArg (fun b : Bool => (if b then none else _).toList ++ _) hdiagnoses
  | call hpaired hx hy hcall hnow henv hinbox ih =>
    rw [answers_ofCall, answers_ofCall, hookCalls_ofCall, hookCalls_ofCall]
    exact ih
  | left hpaired hrest hcall hx hnext ih =>
    obtain ⟨hhooks, hanswers⟩ := hnext.observed_of_diagnostic hcall _
    exact ⟨hhooks.trans ih.1, hanswers.trans ih.2⟩
  | right hpaired hrest hcall hy hnext ih =>
    obtain ⟨hhooks, hanswers⟩ := hnext.observed_of_diagnostic hcall _
    exact ⟨ih.1.trans hhooks.symm, ih.2.trans hanswers.symm⟩

/-! ## Runs that are computed -/

/-- A call from outside has returned exactly if it is at rest. -/
theorem returned_iff_atRest (hstack : start.stack = []) : start.Returned x ↔ x.AtRest := by
  rw [Returned, hstack]
  exact and_congr_right' (by simp)

/-- Alike calls can be followed side by side. -/
theorem Paired.follow_both (hindifferent : host.Indifferent) (hstart : start.stack = [])
    (hstart' : start'.stack = []) (fuel : Nat)
    (hpaired : Paired host x (span ++ past) y (span' ++ past')) (hnow : x.world.now = y.world.now) :
    Paired host (follow host start fuel x span).1
      ((follow host start fuel x span).2 ++ past)
      (follow host start' fuel y span').1
      ((follow host start' fuel y span').2 ++ past') := by
  induction fuel generalizing x y span span' with
  | zero => exact hpaired
  | succ fuel ih =>
    have hmatched := hpaired.matched hindifferent
    unfold Execution.follow
    by_cases hrest : x.AtRest
    · rw [if_pos ((returned_iff_atRest hstart).2 hrest),
        if_pos ((returned_iff_atRest hstart').2 (hmatched.atRest_iff.1 hrest))]
      exact hpaired
    · rw [if_neg (mt (returned_iff_atRest hstart).1 hrest),
        if_neg (mt (returned_iff_atRest hstart').1 (mt hmatched.atRest_iff.2 hrest))]
      have hstep := (Likeness.kept_diagnostics hindifferent).step
        (hmatched.atTime hrest x.world.now)
      have hx : x.atTime x.world.now = x := rfl
      have hy : y.atTime x.world.now = y := by rw [hnow]; rfl
      rw [hx, hy] at hstep
      generalize hx' : x.step host = p at hstep
      generalize hy' : y.step host = q at hstep
      cases hstep with
      | finished | faulted => exact hpaired
      | running halike =>
        refine ih (.move x.world.now hpaired (Nat.le_refl _) (Nat.le_of_eq hnow.symm) ?_ ?_)
          halike.world.now
        · rw [hx, hx']
        · rw [hy, hy']

/-- One more call of a session. -/
theorem session_singleton (fuel : Nat) (hrest : x.AtRest) (call : Call) :
    session host fuel x past [call] =
      ((follow host (ofCall x.world call) fuel (ofCall x.world call) []).1,
        (follow host (ofCall x.world call) fuel (ofCall x.world call) []).2 ++ x :: past) := by
  obtain ⟨w, reply, hstep⟩ := (atRest_iff host).1 hrest
  obtain rfl := step_eq_finished_iff.1 hstep
  rfl

/-- The next call can be made at rest. -/
theorem AtRest.next (hrest : x.AtRest) (call : Call) : Next host x (.ofCall x.world call) := by
  obtain ⟨w, reply, hstep⟩ := (atRest_iff host).1 hrest
  obtain rfl := step_eq_finished_iff.1 hstep
  exact .call w call hstep rfl (Nat.le_refl _)

/-- Alike calls can be made side by side. -/
theorem Paired.session_both (hindifferent : host.Indifferent) (fuel : Nat)
    (hpaired : Paired host x past y past') (hrest : x.AtRest) {call call' : Call}
    (hcall : call.Alike call') (hnow : x.world.now = y.world.now) (henv : x.world.env = y.world.env)
    (hinbox : x.world.inbox = y.world.inbox) :
    Paired host (session host fuel x past [call]).1 (session host fuel x past [call]).2
      (session host fuel y past' [call']).1
      (session host fuel y past' [call']).2 := by
  have hrest' := (hpaired.matched hindifferent).atRest_iff.1 hrest
  rw [session_singleton fuel hrest, session_singleton fuel hrest']
  have hcalled : Paired host (.ofCall x.world call) ([] ++ x :: past) (.ofCall y.world call')
      ([] ++ y :: past') :=
    hpaired.call (hrest.next call) (hrest'.next call') hcall hnow henv hinbox
  exact hcalled.follow_both hindifferent rfl rfl fuel hnow

/-- A diagnostic call can be made on one side. -/
theorem Paired.session_left (hpaired : Paired host x past y past') (hrest : x.AtRest)
    (hrest' : y.AtRest) (call : Call) (hcall : call.isDiagnostic = true) :
    Paired host (session host 1 x past [call]).1 (session host 1 x past [call]).2 y
      past' := by
  rw [session_singleton 1 hrest]
  obtain ⟨e, hstep, -⟩ := Likeness.begin_of_isDiagnostic x.world [] hcall
  have hopen : ¬ (ofCall x.world call).Returned (ofCall x.world call) := by
    rintro ⟨⟨reply, hgive⟩, -⟩
    cases hgive
  have hnext : Next host (.ofCall x.world call) ⟨{ x.world with engine := e }, .give .done, []⟩ :=
    .move x.world.now (Nat.le_refl _) hstep
  have hfollow : follow host (ofCall x.world call) 1 (ofCall x.world call) [] =
      (⟨{ x.world with engine := e }, .give .done, []⟩, [ofCall x.world call]) := by
    have hstep : (ofCall x.world call).step host = _ := hstep
    simp only [Execution.follow, if_neg hopen, hstep]
    rfl
  rw [hfollow]
  exact hpaired.left hrest' hcall (hrest.next call) hnext

/-! ## Diagnostics do not influence behaviour -/

/-- Diagnostics do not influence behaviour. Let two runs make the same calls in the same
surroundings, but for the settings of their engines, for calls that set levels or whether names
carry numbers, and for the levels and identifiers that are given to new instances. If the hooks do
not read diagnostics, then at all corresponding moments the engines are the same but for what is
diagnostic, with the same handles issued, and the same hooks were called with the same arguments and
the same answers given, but for display names. The calls in progress go on alike, at any time: they
take a step, return or break an assumption of the engine together. -/
theorem Paired.indistinguishable (hindifferent : host.Indifferent)
    (hpaired : Paired host x past y past') :
    x.world.engine.plain = y.world.engine.plain ∧
      hookCalls (x :: past) = hookCalls (y :: past') ∧
      answers (x :: past) = answers (y :: past') ∧
      (x.AtRest ↔ y.AtRest) ∧
      ∀ t, ¬ x.AtRest → ((x.atTime t).step host).Alike .diagnostics ((y.atTime t).step host) := by
  have hmatched := hpaired.matched hindifferent
  obtain ⟨hhooks, hanswers⟩ := hpaired.observed hindifferent
  refine ⟨hmatched.plain_eq, hhooks, hanswers, hmatched.atRest_iff, ?_⟩
  intro t hopen
  exact (Likeness.kept_diagnostics hindifferent).step (hmatched.atTime hopen t)

/-- An event makes an instance lower its level and move on. -/
def hushed : Host Unit Unit where
  script _ h hook _ :=
    match hook with
    | .action .. =>
      .call (.setLevel h .error) () fun _ _ => .call (.changeState h 1 5 0) () fun _ _ => .done ()
    | _ => .done ()

/-- An instance with an identifier is allocated, is made to tell all, and gets an event. -/
def loud : Execution Unit Unit × List (Execution Unit Unit) :=
  let (x, past) := session hushed 20 (idle {} ()) [] [.alloc .fork none (some .warn) (some "ID")]
  let (x, past) := session hushed 1 x past [.setLevel ⟨0, 0⟩ .trace]
  session hushed 20 x past [.dispatch ⟨0, 0⟩ 0 none]

/-- An instance without an identifier and without a number is allocated and gets an event. -/
def quiet : Execution Unit Unit × List (Execution Unit Unit) :=
  let (x, past) := session hushed 20 (idle { logAddr := false } ()) []
    [.alloc .fork none none none]
  session hushed 20 x past [.dispatch ⟨0, 0⟩ 0 none]

/-- The two runs use other names, but the instance moves in both of them, its timer is armed, and
the same hooks are called. -/
theorem loud_indistinguishable :
    loud.1.world.engine.nameOf ⟨0, 0⟩ = "FORK(ID)[0x1]" ∧
    quiet.1.world.engine.nameOf ⟨0, 0⟩ = "FORK" ∧
    loud.1.world.engine.plain = quiet.1.world.engine.plain ∧
    hookCalls (loud.1 :: loud.2) = hookCalls (quiet.1 :: quiet.2) ∧
    (hookCalls (quiet.1 :: quiet.2)).length = 3 ∧
    answers (loud.1 :: loud.2) = answers (quiet.1 :: quiet.2) := by
  have hindifferent : hushed.Indifferent := by
    rintro d h hook c c' ⟨-, -, -⟩
    cases hook with
    | action =>
      refine .call (.same _) rfl fun _ _ _ _ _ _ => ?_
      exact .call (.same _) rfl fun _ _ _ _ _ _ => .done rfl
    | _ => exact .done rfl
  have hstart : Paired hushed (idle {} ()) [] (idle { logAddr := false } ()) [] :=
    .start _ _ rfl rfl
  have hborn := hstart.session_both hindifferent 20 (by decide)
    (.alloc .fork none (some .warn) none (some "ID") none) rfl rfl rfl
  have htold := hborn.session_left (by decide) (by decide) (.setLevel ⟨0, 0⟩ .trace) rfl
  have hended : Paired hushed loud.1 loud.2 quiet.1 quiet.2 :=
    htold.session_both hindifferent 20 (by decide) (.same (.dispatch ⟨0, 0⟩ 0 none)) (by decide) rfl
      (by decide)
  obtain ⟨hplain, hhooks, hanswers, -⟩ := hended.indistinguishable hindifferent
  exact ⟨by decide, by decide, hplain, hhooks, by decide, hanswers⟩

end Execution

end StateMachines
