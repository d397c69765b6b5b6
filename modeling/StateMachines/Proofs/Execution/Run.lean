import StateMachines.Proofs.Execution.Effect

/-!
# Runs

A run begins with a fresh engine and goes on from moment to moment: by a step of the call in
progress, or, once that call has returned, by the next call from outside. Time may pass before
each step. A run is written down as the list of its moments, the latest first.

The history of a run tells how often each slot of the store was vacated. Below `2 ^ 32` times,
the generations tell all occupants of a slot apart, and the store evolves from each moment of the
run to every later one.

## Main definitions

* `Execution.Next`: one moment follows on another.
* `Execution.Run`: the histories of runs.
* `Execution.FewReleases`, `Execution.NeverFrees`, `Execution.FreesOrderly`: conditions on what
  happens in a history.
* `Execution.Spans`: the moments of one call.

## Main results

* `Execution.Run.generationAt_eq`: generations count the releases of a run.
* `Execution.Run.evolves`: the store evolves from each moment to the last one.
* `Execution.Spans.stack_eq_of_returned`: a call that has returned leaves the stack as it was.
-/

namespace StateMachines.Execution

variable {σ ν : Type} {host : Host σ ν} {x x' y start : Execution σ ν}
  {hist past span : List (Execution σ ν)} {i : Nat}

/-! ## Moments -/

/-- The same moment at another time. -/
def atTime (x : Execution σ ν) (t : Time) : Execution σ ν :=
  { x with world := { x.world with now := t } }

/-- One moment follows on another. -/
inductive Next (host : Host σ ν) (x : Execution σ ν) : Execution σ ν → Prop where
  /-- Time passes, and the call in progress takes a step. -/
  | move {x' : Execution σ ν} (t : Time) (htime : x.world.now ≤ t)
      (hstep : (x.atTime t).step host = .running x') : Next host x x'
  /-- The call has returned, and another one is made from outside. What surrounds the engine may
  have changed. -/
  | call {w : World σ ν} {reply : Reply} (w' : World σ ν) (call : Call)
      (hstep : x.step host = .finished w reply) (hengine : w'.engine = w.engine)
      (htime : w.now ≤ w'.now) : Next host x (.ofCall w' call)

/-- No operation returns to the outside at its beginning. -/
theorem begin_ne_finished {w w' : World σ ν} {call : Call} {answer : Reply}
    {stack : List (Frame σ ν)} : begin w call stack ≠ .finished w' answer := by
  unfold begin beginAlloc beginAllocChild beginDispatch beginChange beginEnd settle reply goOn
  dsimp only
  repeat' split
  all_goals nofun

/-- No unfinished operation returns to the outside. -/
theorem proceed_ne_finished {w w' : World σ ν} {frame : Frame σ ν} {given answer : Reply}
    {stack : List (Frame σ ν)} : proceed w frame given stack ≠ .finished w' answer := by
  unfold proceed afterLeave afterEnter afterChild afterCleanup fireNext settle reply goOn
  dsimp only
  repeat' split
  all_goals nofun

/-- A call has returned exactly if there is an answer and no operation waits for it. -/
theorem step_eq_finished_iff {w : World σ ν} {answer : Reply} :
    x.step host = .finished w answer ↔ x = ⟨w, .give answer, []⟩ := by
  constructor
  · intro h
    obtain ⟨w', control, stack⟩ := x
    cases control with
    | perform call => cases begin_ne_finished h
    | hook d target hook => cases h
    | run script => cases script <;> cases h
    | give given =>
      -- An answer leaves the execution only if no frame is left to take it.
      cases stack with
      | nil =>
        cases h
        rfl
      | cons frame stack => cases proceed_ne_finished h
  · rintro rfl
    rfl

/-- One moment follows on another by a step of the call in progress or by another call. -/
theorem Next.cases (hnext : Next host x x') :
    (∃ t, x.world.now ≤ t ∧ Transition host (x.atTime t) x') ∨
      ∃ w call answer, x' = .ofCall w call ∧ x.control = .give answer ∧ x.stack = [] ∧
        w.engine = x.world.engine ∧ x.world.now ≤ w.now := by
  cases hnext with
  | move t htime hstep => exact .inl ⟨t, htime, transition_of_step hstep⟩
  | @call w answer w' call hstep hengine htime =>
    obtain rfl := step_eq_finished_iff.1 hstep
    exact .inr ⟨w', call, answer, rfl, rfl, rfl, hengine, htime⟩

/-- After a call was begun, the run goes on by a step of it. -/
theorem Next.of_perform {call : Call} (hnext : Next host x x')
    (hcontrol : x.control = .perform call) :
    ∃ t, x.world.now ≤ t ∧ Transition host ⟨(x.atTime t).world, .perform call, x.stack⟩ x' := by
  obtain ⟨t, htime, ht⟩ | ⟨w, call', answer, rfl, hgive, -⟩ := hnext.cases
  · obtain ⟨w, control, stack⟩ := x
    obtain rfl : control = .perform call := hcontrol
    exact ⟨t, htime, ht⟩
  · cases hcontrol.symm.trans hgive

/-- After an answer to an unfinished operation, the run goes on by a step of that operation. -/
theorem Next.of_give {frame : Frame σ ν} {stack : List (Frame σ ν)} (hnext : Next host x x')
    (hgive : ∃ reply, x.control = .give reply) (hstack : x.stack = frame :: stack) :
    ∃ t reply, x.world.now ≤ t ∧
      Transition host ⟨(x.atTime t).world, .give reply, frame :: stack⟩ x' := by
  obtain ⟨t, htime, ht⟩ | ⟨w, call, answer, rfl, -, hempty, -⟩ := hnext.cases
  · obtain ⟨w, control, stack'⟩ := x
    obtain ⟨reply, rfl⟩ : ∃ reply, control = .give reply := hgive
    obtain rfl : stack' = frame :: stack := hstack
    exact ⟨t, reply, htime, ht⟩
  · cases hstack.symm.trans hempty

/-- The engine changes from one moment to the next in one of the ways of `Engine.Change`. -/
theorem Next.change (hnext : Next host x x') :
    x.world.engine.Change x.written? x'.world.engine := by
  obtain ⟨t, -, ht⟩ | ⟨w, call, answer, rfl, hcontrol, hstack, hengine, -⟩ := hnext.cases
  · exact ht.change
  · have hwritten : x.written? = none := by simp [written?, stateWrite?, hcontrol, hstack]
    rw [hwritten]
    exact .aside (congrArg Engine.store hengine) (congrArg Engine.timers hengine)

/-! ## Histories -/

/-- A run has come to a moment, after the moments of its past, the latest first. -/
inductive Run (host : Host σ ν) : Execution σ ν → List (Execution σ ν) → Prop where
  /-- The engine is fresh, and no call has been made yet. -/
  | start (w : World σ ν) (config : Config) (hfresh : w.engine = { config }) :
      Run host ⟨w, .give .done, []⟩ []
  /-- The run goes on. -/
  | next {x x' : Execution σ ν} {past : List (Execution σ ν)} (hrun : Run host x past)
      (hnext : Next host x x') : Run host x' (x :: past)

/-- How often a slot was vacated in a history. -/
def releases : List (Execution σ ν) → Nat → Nat
  | x' :: x :: past, i =>
    releases (x :: past) i + if x.world.engine.store.vacated x'.world.engine.store i then 1 else 0
  | _, _ => 0

/-- No slot was vacated so often that its generations started over. -/
def FewReleases (hist : List (Execution σ ν)) : Prop := ∀ i, releases hist i < UInt32.size

/-- No instance was released by a direct call. -/
def NeverFrees (hist : List (Execution σ ν)) : Prop :=
  ∀ x ∈ hist, ∀ h, x.control ≠ .perform (.free h)

/-- No instance was released by a direct call while it was being terminated. -/
def FreesOrderly (hist : List (Execution σ ν)) : Prop :=
  ∀ x ∈ hist, ∀ h inst, x.control = .perform (.free h) → x.world.engine.get? h = some inst →
    inst.terminating = false

/-- A history without direct releases is orderly. -/
theorem NeverFrees.freesOrderly (hnever : NeverFrees hist) : FreesOrderly hist :=
  fun x hx h _ hfree => absurd hfree (hnever x hx h)

/-- What never happened in a history did not happen in its past. -/
theorem NeverFrees.of_cons (hnever : NeverFrees (x :: past)) : NeverFrees past :=
  fun y hy => hnever y (List.mem_cons_of_mem x hy)

/-- The past of an orderly history is orderly. -/
theorem FreesOrderly.of_cons (horderly : FreesOrderly (x :: past)) : FreesOrderly past :=
  fun y hy => horderly y (List.mem_cons_of_mem x hy)

/-- There were no more releases in the past of a history. -/
theorem releases_le_cons : releases past i ≤ releases (x :: past) i := by
  cases past with
  | nil => exact Nat.le_refl 0
  | cons y past => exact Nat.le_add_right _ _

/-- The past of a history has few releases if the history has. -/
theorem FewReleases.of_cons (hfew : FewReleases (x :: past)) : FewReleases past :=
  fun i => Nat.lt_of_le_of_lt releases_le_cons (hfew i)

/-- An earlier part of a history has few releases if the history has. -/
theorem FewReleases.of_append {later : List (Execution σ ν)} (hfew : FewReleases (later ++ hist)) :
    FewReleases hist := by
  induction later with
  | nil => exact hfew
  | cons y later ih => exact ih hfew.of_cons

/-- What never happened in a history did not happen in an earlier part of it. -/
theorem NeverFrees.of_append {later : List (Execution σ ν)} (hnever : NeverFrees (later ++ hist)) :
    NeverFrees hist :=
  fun y hy => hnever y (List.mem_append_right later hy)

/-- There are no more releases than moments. -/
theorem releases_le_length : releases hist i ≤ hist.length := by
  induction hist with
  | nil => exact Nat.le_refl 0
  | cons x past ih =>
    cases past with
    | nil => exact Nat.zero_le 1
    | cons y past =>
      have hstep : (if y.world.engine.store.vacated x.world.engine.store i then 1 else 0) ≤ 1 := by
        split <;> omega
      exact Nat.add_le_add ih hstep

/-- A short history has few releases. -/
theorem fewReleases_of_length_lt (hlength : hist.length < UInt32.size) : FewReleases hist :=
  fun _ => Nat.lt_of_le_of_lt releases_le_length hlength

/-! ## The store along a run -/

namespace Run

/-- A run has come to each of its moments. -/
theorem exists_run_of_mem (hrun : Run host x past) (hy : y ∈ x :: past) :
    ∃ after before, x :: past = after ++ y :: before ∧ Run host y before := by
  induction hrun with
  | start w config hfresh =>
    rw [List.mem_singleton.1 hy]
    exact ⟨[], [], rfl, .start w config hfresh⟩
  | @next x x' past hrun hnext ih =>
    rcases List.mem_cons.1 hy with rfl | hy
    · exact ⟨[], x :: past, rfl, hrun.next hnext⟩
    · obtain ⟨after, before, hsplit, hbefore⟩ := ih hy
      exact ⟨x' :: after, before, by rw [hsplit, List.cons_append], hbefore⟩

/-- A run has come to each of its moments after the earlier ones. -/
theorem of_suffix {earlier : List (Execution σ ν)} (hrun : Run host x past)
    (hsuffix : y :: earlier <:+ x :: past) : Run host y earlier := by
  induction hrun with
  | start w config hfresh =>
    rcases List.suffix_cons_iff.1 hsuffix with heq | hnil
    · cases heq
      exact .start w config hfresh
    · cases List.suffix_nil.1 hnil
  | next hrun hnext ih =>
    rcases List.suffix_cons_iff.1 hsuffix with heq | hbefore
    · cases heq
      exact hrun.next hnext
    · exact ih hbefore

/-- The store is tidy at every moment. -/
theorem tidy (hrun : Run host x past) : x.world.engine.store.Tidy := by
  induction hrun with
  | start w config hfresh =>
    rw [hfresh]
    exact Store.tidy_empty
  | next hrun hnext ih => exact hnext.change.tidy ih

/-- The generation of a slot counts its releases. -/
theorem generationAt_eq (hrun : Run host x past) (i : Nat) :
    x.world.engine.store.generationAt i = UInt32.ofNat (releases (x :: past) i) := by
  induction hrun with
  | start w config hfresh =>
    rw [hfresh]
    rfl
  | next hrun hnext ih =>
    -- Both sides go up exactly if the step vacates the slot.
    rw [hnext.change.ages i, ih, releases, UInt32.ofNat_add]
    split <;> rfl

/-- With few releases no generation ever goes down. -/
theorem generationAt_le (hrun : Run host x past) (hnext : Next host x x')
    (hfew : FewReleases (x' :: x :: past)) (i : Nat) :
    x.world.engine.store.generationAt i ≤ x'.world.engine.store.generationAt i := by
  -- The counts are below `UInt32.size`, so they can be compared as numbers.
  rw [hrun.generationAt_eq, (hrun.next hnext).generationAt_eq, UInt32.le_iff_toNat_le,
    UInt32.toNat_ofNat_of_lt' (hfew i), UInt32.toNat_ofNat_of_lt' (hfew.of_cons i)]
  exact releases_le_cons

/-- The store evolves from one moment to the next. -/
theorem evolves_next (hrun : Run host x past) (hnext : Next host x x')
    (hfew : FewReleases (x' :: x :: past)) :
    x.world.engine.store.Evolves x'.world.engine.store :=
  hnext.change.evolves hrun.tidy (hrun.generationAt_le hnext hfew)

/-- The store evolves from each moment to the last one. -/
theorem evolves (hrun : Run host x past) (hfew : FewReleases (x :: past)) (hy : y ∈ x :: past) :
    y.world.engine.store.Evolves x.world.engine.store := by
  induction hrun with
  | start =>
    rw [List.mem_singleton.1 hy]
    exact .refl _
  | next hrun hnext ih =>
    rcases List.mem_cons.1 hy with rfl | hy
    · exact .refl _
    · exact (ih hfew.of_cons hy).trans (hrun.evolves_next hnext hfew)

end Run

/-! ## From one moment to a later one -/

/-- A run goes on from `y` to a later moment, after the listed ones, the latest first. -/
inductive Follows (host : Host σ ν) (y : Execution σ ν) :
    Execution σ ν → List (Execution σ ν) → Prop where
  | refl : Follows host y y []
  | next {x x' : Execution σ ν} {span : List (Execution σ ν)} (hfollows : Follows host y x span)
      (hnext : Next host x x') : Follows host y x' (x :: span)

/-- What follows on a moment of a run continues the run. -/
theorem Follows.run (hfollows : Follows host y x span) (hrun : Run host y past) :
    Run host x (span ++ past) := by
  induction hfollows with
  | refl => exact hrun
  | next hfollows hnext ih => exact ih.next hnext

/-- The first moment is among those that lead to the last. -/
theorem Follows.first_mem (hfollows : Follows host y x span) : y ∈ x :: span := by
  induction hfollows with
  | refl => exact List.mem_cons_self
  | next hfollows hnext ih => exact List.mem_cons_of_mem _ ih

/-- The moments between two others can be split at each of them. -/
theorem Follows.split {z : Execution σ ν} (hfollows : Follows host y x span)
    (hz : z ∈ x :: span) :
    ∃ later earlier, span = later ++ earlier ∧ Follows host z x later ∧
      Follows host y z earlier := by
  induction hfollows with
  | refl =>
    rw [List.mem_singleton.1 hz]
    exact ⟨[], [], rfl, .refl, .refl⟩
  | @next x x' span hfollows hnext ih =>
    rcases List.mem_cons.1 hz with rfl | hz
    · exact ⟨[], x :: span, rfl, .refl, hfollows.next hnext⟩
    · obtain ⟨later, earlier, rfl, hlater, hearlier⟩ := ih hz
      exact ⟨x :: later, earlier, rfl, hlater.next hnext, hearlier⟩

/-- What a handle refers to throughout is one instance. -/
theorem Follows.continues {h : Handle} {a b : Instance} (hfollows : Follows host y x span)
    (hrun : Run host y past) (hlive : ∀ z ∈ x :: span, ∃ inst, z.world.engine.get? h = some inst)
    (ha : y.world.engine.get? h = some a) (hb : x.world.engine.get? h = some b) :
    a.Continues b := by
  induction hfollows generalizing b with
  | refl =>
    cases ha.symm.trans hb
    exact .refl a
  | @next x x' span hfollows hnext ih =>
    -- Between two moments at which it is live, an instance is not exchanged for another one.
    have hbefore := fun z hz => hlive z (List.mem_cons_of_mem x' hz)
    obtain ⟨m, hm⟩ := hbefore x List.mem_cons_self
    exact (ih hbefore hm).trans
      (hnext.change.continues_of_live (hfollows.run hrun).tidy hm hb).1

/-! ## The moments of one call -/

/-- The call that begins at `start` has returned. -/
def Returned (start x : Execution σ ν) : Prop :=
  (∃ reply, x.control = .give reply) ∧ x.stack.length ≤ start.stack.length

/-- The call that begins at `start` has come to a moment, after the listed ones, the latest
first. It goes on until it returns. -/
inductive Spans (host : Host σ ν) (start : Execution σ ν) :
    Execution σ ν → List (Execution σ ν) → Prop where
  | start : Spans host start start []
  | next {x x' : Execution σ ν} {span : List (Execution σ ν)} (hspan : Spans host start x span)
      (hopen : ¬ start.Returned x) (hnext : Next host x x') : Spans host start x' (x :: span)

/-- The moments of a call follow on its beginning. -/
theorem Spans.follows (hspan : Spans host start x span) : Follows host start x span := by
  induction hspan with
  | start => exact .refl
  | next hspan hopen hnext ih => exact ih.next hnext

/-- The beginning of a call is one of its moments. -/
theorem Spans.start_mem (hspan : Spans host start x span) : start ∈ x :: span :=
  hspan.follows.first_mem

/-- The moments of a call continue the run in which it was made. -/
theorem Spans.run (hspan : Spans host start x span) (hrun : Run host start past) :
    Run host x (span ++ past) :=
  hspan.follows.run hrun

/-- An open call stays above the stack on which it was made. -/
theorem Transition.suffix {stack : List (Frame σ ν)} (ht : Transition host x x')
    (hsuffix : stack <:+ x.stack)
    (hopen : ¬ ((∃ reply, x.control = .give reply) ∧ x.stack.length ≤ stack.length)) :
    stack <:+ x'.stack := by
  -- A step drops a frame only when it gives an answer to it.
  have hdrop : ∀ {frame : Frame σ ν} {rest}, x.stack = frame :: rest →
      (∃ reply, x.control = .give reply) → stack <:+ rest := fun {frame rest} hstack hgive => by
    rw [hstack] at hsuffix hopen
    rcases List.suffix_cons_iff.1 hsuffix with rfl | hrest
    · exact absurd ⟨hgive, Nat.le_refl _⟩ hopen
    · exact hrest
  cases ht with
  | answered | calls | scriptDone | scriptNote => exact hsuffix
  | childRefused | deliversAll | delivers | leaves | ends | fires | scriptCall =>
    exact hsuffix.trans (List.suffix_cons _ _)
  | resumes => exact hdrop rfl ⟨_, rfl⟩
  | closes => exact hdrop rfl ⟨_, rfl⟩
  | enters | endsChild | skipsChild | cleans | tells | skipsTimer | expires =>
    exact (hdrop rfl ⟨_, rfl⟩).trans (List.suffix_cons _ _)

/-- A call stays above the stack on which it was made. -/
theorem Spans.suffix (hspan : Spans host start x span) : start.stack <:+ x.stack := by
  induction hspan with
  | start => exact List.suffix_rfl
  | @next x x' span hspan hopen hnext ih =>
    obtain ⟨t, -, ht⟩ | ⟨w, call, answer, rfl, hcontrol, hstack, -⟩ := hnext.cases
    · exact ht.suffix ih hopen
    · exact absurd ⟨⟨answer, hcontrol⟩, by simp [hstack]⟩ hopen

/-- A call that has returned leaves the stack as it was. -/
theorem Spans.stack_eq_of_returned (hspan : Spans host start x span)
    (hreturned : start.Returned x) : x.stack = start.stack :=
  (hspan.suffix.eq_of_length_le hreturned.2).symm

end StateMachines.Execution
