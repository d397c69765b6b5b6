import Mathlib.Data.List.Forall2
import StateMachines.Proofs.Execution.Transition

/-!
# Executions in lockstep

Two executions of one host go in step as long as everything that a step reads is alike on both
sides. What counts as alike is a parameter: worlds may differ in what no operation reads, in what
scripts do not look at, or in the instances that an operation does not reach. So the runs that a
theorem compares are related once, at their beginning, and what their steps have in common is said
for each operation, not for each nesting of hooks.

## Main definitions

* `Outlook`: what scripts see and do alike.
* `Likeness`: what counts as alike in two executions.
* `Likeness.Kept`: the obligations under which likeness is kept, one for each thing a step does.

## Main results

* `Likeness.Kept.step`: alike executions take alike steps.
* `Likeness.Kept.run`: alike executions return alike.
-/

namespace StateMachines

variable {σ ν : Type}

/-! ## Scripts -/

/-- What scripts see and do alike on both sides. -/
structure Outlook (σ : Type) where
  call : Call → Call → Prop
  reply : Reply → Reply → Prop
  /-- What a script can read after a call. -/
  context : Context σ → Context σ → Prop
  /-- What a script leaves behind in the environment. -/
  env : σ → σ → Prop

/-- What scripts see and do if they see the same and make the same calls, of the given kind. -/
def Outlook.same (p : Call → Prop) : Outlook σ where
  call c c' := c = c' ∧ p c
  reply := Eq
  context := Eq
  env := Eq

namespace Script

variable {o : Outlook σ} {p : Call → Prop}

/-- Two scripts do alike things as long as they see alike ones. -/
inductive Alike (o : Outlook σ) : Script σ ν → Script σ ν → Prop where
  | done {env env' : σ} (henv : o.env env env') : Alike o (.done env) (.done env')
  | note (note : ν) {rest rest' : Script σ ν} (hrest : Alike o rest rest') :
      Alike o (.note note rest) (.note note rest')
  | call {call call' : Call} {env env' : σ} {next next' : Reply → Context σ → Script σ ν}
      (hcall : o.call call call') (henv : o.env env env')
      (hnext : ∀ reply reply' c c', o.reply reply reply' → o.context c c' →
        Alike o (next reply c) (next' reply' c')) :
      Alike o (.call call env next) (.call call' env' next')

/-- All calls of a script are of the given kind, whatever they answer. -/
inductive Only (p : Call → Prop) : Script σ ν → Prop where
  | done (env : σ) : Only p (.done env)
  | note (note : ν) {rest : Script σ ν} (hrest : Only p rest) : Only p (.note note rest)
  | call {call : Call} (env : σ) {next : Reply → Context σ → Script σ ν} (hcall : p call)
      (hnext : ∀ reply c, Only p (next reply c)) : Only p (.call call env next)

/-- A script does the same as long as it sees the same. -/
theorem Only.alike {s : Script σ ν} (hs : s.Only p) : s.Alike (.same p) s := by
  induction hs with
  | done env => exact .done rfl
  | note note hrest ih => exact .note note ih
  | call env hcall hnext ih =>
    refine .call ⟨rfl, hcall⟩ rfl ?_
    rintro reply _ c _ rfl rfl
    exact ih reply c

end Script

/-! ## Executions -/

/-- What counts as alike in two executions. -/
structure Likeness (σ ν : Type) extends Outlook σ where
  world : World σ ν → World σ ν → Prop
  fault : Fault → Fault → Prop
  /-- The instances whose hooks may be called. -/
  scope : Handle → Prop
  /-- The operations that may be unfinished. They are the same on both sides. -/
  frame : Frame σ ν → Prop

/-- Whether a frame belongs to an operation that goes on by itself once it is given an answer. -/
def Frame.IsOperation : Frame σ ν → Prop
  | .resume _ | .answer _ => False
  | _ => True

variable {L : Likeness σ ν} {host : Host σ ν}

/-- Two unfinished operations go on alike. -/
inductive Frame.Alike (L : Likeness σ ν) : Frame σ ν → Frame σ ν → Prop where
  | resume {next next' : Reply → Context σ → Script σ ν}
      (hnext : ∀ reply reply' c c', L.reply reply reply' → L.context c c' →
        (next reply c).Alike L.toOutlook (next' reply' c')) :
      Alike L (.resume next) (.resume next')
  | answer {reply reply' : Reply} (hreply : L.reply reply reply') :
      Alike L (.answer reply) (.answer reply')
  | operation {frame : Frame σ ν} (hframe : L.frame frame) : Alike L frame frame

/-- Two executions do alike things next. -/
inductive Control.Alike (L : Likeness σ ν) : Control σ ν → Control σ ν → Prop where
  | perform {call call' : Call} (hcall : L.call call call') :
      Alike L (.perform call) (.perform call')
  | hook (d : Descriptor) {target : Handle} (hook : Hook) (hscope : L.scope target) :
      Alike L (.hook d target hook) (.hook d target hook)
  | run {script script' : Script σ ν} (hscript : script.Alike L.toOutlook script') :
      Alike L (.run script) (.run script')
  | give {reply reply' : Reply} (hreply : L.reply reply reply') :
      Alike L (.give reply) (.give reply')

/-- Two stacks hold operations that go on alike. -/
abbrev Stacked (L : Likeness σ ν) : List (Frame σ ν) → List (Frame σ ν) → Prop :=
  List.Forall₂ (Frame.Alike L)

/-- Two executions are alike. -/
structure Execution.Alike (L : Likeness σ ν) (x y : Execution σ ν) : Prop where
  world : L.world x.world y.world
  control : x.control.Alike L y.control
  stack : Stacked L x.stack y.stack

/-- Two steps lead to alike things. -/
inductive Progress.Alike (L : Likeness σ ν) : Progress σ ν → Progress σ ν → Prop where
  | running {x y : Execution σ ν} (h : x.Alike L y) : Alike L (.running x) (.running y)
  | finished {w v : World σ ν} {reply reply' : Reply} (hworld : L.world w v)
      (hreply : L.reply reply reply') : Alike L (.finished w reply) (.finished v reply')
  | faulted {fault fault' : Fault} (hfault : L.fault fault fault') :
      Alike L (.faulted fault) (.faulted fault')

/-- The end of an instance goes on alike after its cleaning up if its release is alike. -/
theorem Progress.Alike.afterCleanup {w v : World σ ν} {ending : Ending}
    {stack stack' : List (Frame σ ν)} (hworld : L.world (w.released ending) (v.released ending))
    (hdone : L.reply .done .done)
    (hcall : ∀ parent, ending.parent = some parent →
      L.call (.dispatch parent ending.parentEvent ending.data)
        (.dispatch parent ending.parentEvent ending.data))
    (hstack : Stacked L stack stack') :
    (Execution.afterCleanup w ending stack).Alike L (Execution.afterCleanup v ending stack') := by
  have hreply : (Execution.reply (w.released ending) .done stack).Alike L
      (Execution.reply (v.released ending) .done stack') :=
    .running ⟨hworld, .give hdone, hstack⟩
  obtain ⟨target, d, cause, data, parent, event⟩ := ending
  cases parent with
  | none => exact hreply
  | some parent =>
    by_cases hcause : cause = .parent
    · simp only [Execution.afterCleanup, if_pos hcause]
      exact hreply
    · simp only [Execution.afterCleanup, if_neg hcause]
      exact .running ⟨hworld, .perform (hcall parent rfl), .cons (.answer hdone) hstack⟩

namespace Likeness

/-- The obligations under which executions of a host stay alike. -/
structure Kept (L : Likeness σ ν) (host : Host σ ν) : Prop where
  done : L.reply .done .done
  context : ∀ {w v}, L.world w v → L.context w.toContext v.toContext
  env : ∀ {w v env env'}, L.world w v → L.env env env' →
    L.world { w with env := env } { v with env := env' }
  note : ∀ {w v} (note : ν), L.world w v → L.world (w.enter (.note note)) (v.enter (.note note))
  hook : ∀ {w v target} (hook : Hook), L.world w v → L.scope target →
    L.world (w.enter (.hook target hook)) (v.enter (.hook target hook))
  script : ∀ {target c c'} (d : Descriptor) (hook : Hook), L.scope target → L.context c c' →
    (host.script d target hook c).Alike L.toOutlook (host.script d target hook c')
  begin : ∀ {w v call call' stack stack'}, L.world w v → L.call call call' →
    Stacked L stack stack' →
      (Execution.begin w call stack).Alike L (Execution.begin v call' stack')
  proceed : ∀ {w v frame stack stack'} (answer answer' : Reply), L.world w v → L.frame frame →
    Stacked L stack stack' →
      (Execution.proceed w frame answer stack).Alike L (Execution.proceed v frame answer' stack')

namespace Kept

variable {x y : Execution σ ν} {w v : World σ ν} {reply reply' : Reply}

/-- Alike executions take alike steps. -/
theorem step (hk : L.Kept host) (hxy : x.Alike L y) :
    (x.step host).Alike L (y.step host) := by
  obtain ⟨w, control, stack⟩ := x
  obtain ⟨v, control', stack'⟩ := y
  obtain ⟨hworld, hcontrol, hstack⟩ := hxy
  cases hcontrol with
  | perform hcall => exact hk.begin hworld hcall hstack
  | hook d hook hscope =>
    have hentered := hk.hook hook hworld hscope
    exact .running ⟨hentered, .run (hk.script d hook hscope (hk.context hentered)), hstack⟩
  | run hscript =>
    -- What is left of a script is alike again.
    cases hscript with
    | done henv => exact .running ⟨hk.env hworld henv, .give (hk.done), hstack⟩
    | note note hrest => exact .running ⟨hk.note note hworld, .run hrest, hstack⟩
    | call hcall henv hnext =>
      exact .running ⟨hk.env hworld henv, .perform hcall, .cons (.resume hnext) hstack⟩
  | give hreply =>
    cases hstack with
    | nil => exact .finished hworld hreply
    | cons hframe hstack =>
      cases hframe with
      | resume hnext =>
        exact .running ⟨hworld, .run (hnext _ _ _ _ hreply (hk.context hworld)), hstack⟩
      | answer hreply' => exact .running ⟨hworld, .give hreply', hstack⟩
      | operation hframe => exact hk.proceed _ _ hworld hframe hstack

/-- Alike executions return alike, after the same number of steps. -/
theorem run (hk : L.Kept host) (hxy : x.Alike L y) {fuel : Nat}
    (hrun : x.run host fuel = some (.ok (w, reply))) :
    ∃ v reply', y.run host fuel = some (.ok (v, reply')) ∧ L.world w v ∧
      L.reply reply reply' := by
  induction fuel generalizing x y with
  | zero => cases hrun
  | succ fuel ih =>
    have hstep := hk.step hxy
    unfold Execution.run at hrun ⊢
    generalize x.step host = p at hstep hrun
    generalize y.step host = q at hstep
    cases hstep with
    | running hxy => exact ih hxy hrun
    | finished hworld hreply =>
      cases hrun
      exact ⟨_, _, rfl, hworld, hreply⟩
    | faulted => cases hrun

end Kept

end Likeness

end StateMachines
