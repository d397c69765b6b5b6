import StateMachines.Proofs.Execution.Run

/-!
# Runs that are computed

Runs of a given host can be computed, and so can what they are asked to fulfil. A session makes
one call after another while time stands still; each call is followed until it returns.

## Main definitions

* `Execution.follow`: the moments of a call.
* `Execution.session`: the moments of a sequence of calls.

## Main results

* `Execution.spans_follow`, `Execution.run_session`: what is computed is a call, and a run.
-/

namespace StateMachines

deriving instance DecidableEq for Descriptor

/-- A class with a single state and without events. -/
def Descriptor.plain : Descriptor where
  key := 0
  name := "PLAIN"
  subsystem := "fsm"
  states := [{ name := "UP" }]
  allStates := .empty
  eventNames := none
  timerCallback := false
  states_ne_nil := by decide
  out_lt := by decide

/-- A class whose initial state may lead to either of two others and accepts the event `0`. -/
def Descriptor.fork : Descriptor where
  key := 1
  name := "FORK"
  subsystem := "fsm"
  states :=
    [{ name := "A", events := .ofBits 1, out := .ofBits 6 }, { name := "B" }, { name := "C" }]
  allStates := .empty
  eventNames := none
  timerCallback := false
  states_ne_nil := by decide
  out_lt := by decide

namespace Execution

variable {σ ν : Type} {host : Host σ ν} {x start : Execution σ ν}
  {past span hist : List (Execution σ ν)}

/-- Whether an answer is being given. -/
def givesAnswer (x : Execution σ ν) : Bool :=
  match x.control with
  | .give _ => true
  | _ => false

/-- The moments at which an answer is being given. -/
theorem givesAnswer_iff : x.givesAnswer = true ↔ ∃ reply, x.control = .give reply := by
  unfold givesAnswer
  split
  next reply hcontrol => simp [hcontrol]
  next hcontrol => simpa using hcontrol

/-- Whether a call has returned can be computed. -/
instance : Decidable (start.Returned x) :=
  decidable_of_iff (x.givesAnswer = true ∧ x.stack.length ≤ start.stack.length)
    (and_congr_left' givesAnswer_iff)

/-- Follows the call that begins at `start`, which has come to the moment `x` after `span`, for at
most `fuel` steps. -/
def follow (host : Host σ ν) (start : Execution σ ν) :
    Nat → Execution σ ν → List (Execution σ ν) → Execution σ ν × List (Execution σ ν)
  | 0, x, span => (x, span)
  | fuel + 1, x, span =>
    if start.Returned x then (x, span)
    else
      match x.step host with
      | .running x' => follow host start fuel x' (x :: span)
      | _ => (x, span)

/-- What is followed are the moments of the call. -/
theorem spans_follow (fuel : Nat) (hspan : Spans host start x span) :
    Spans host start (follow host start fuel x span).1 (follow host start fuel x span).2 := by
  induction fuel generalizing x span with
  | zero => exact hspan
  | succ fuel ih =>
    unfold follow
    split
    next => exact hspan
    next hopen =>
      split
      next x' hstep => exact ih (hspan.next hopen (.move x.world.now (Nat.le_refl _) hstep))
      next => exact hspan

/-- No hook does anything. -/
def passive : Host Unit Unit where
  script _ _ _ _ := .done ()

/-- The moment before the first call. -/
def idle (config : Config) (env : σ) : Execution σ ν :=
  ⟨{ engine := { config }, now := 0, env }, .give .done, []⟩

/-- Makes calls one after another, the first one first, each for at most `fuel` steps. -/
def session (host : Host σ ν) (fuel : Nat) :
    Execution σ ν → List (Execution σ ν) → List Call → Execution σ ν × List (Execution σ ν)
  | x, past, [] => (x, past)
  | x, past, call :: calls =>
    match x.step host with
    | .finished w _ =>
      let start := ofCall w call
      let (y, span) := follow host start fuel start []
      session host fuel y (span ++ x :: past) calls
    | _ => (x, past)

/-- A session is a run. -/
theorem run_session (fuel : Nat) (calls : List Call) (hrun : Run host x past) :
    Run host (session host fuel x past calls).1 (session host fuel x past calls).2 := by
  induction calls generalizing x past with
  | nil => exact hrun
  | cons call calls ih =>
    unfold session
    split
    next w reply hstep =>
      exact ih ((spans_follow fuel .start).run (hrun.next (.call w call hstep rfl (Nat.le_refl _))))
    next => exact hrun

/-- Before the first call there is a run. -/
theorem run_idle (config : Config) (env : σ) : Run host (idle config env) [] :=
  .start _ config rfl

/-! ## What happened in a computed run -/

/-- The handle that is about to be released by a direct call. -/
def freed? (x : Execution σ ν) : Option Handle :=
  match x.control with
  | .perform (.free h) => some h
  | _ => none

/-- The moments before a direct release. -/
theorem freed?_eq_some_iff {h : Handle} : x.freed? = some h ↔ x.control = .perform (.free h) := by
  unfold freed?
  split
  next k hcontrol => simp [hcontrol]
  next hcontrol => simpa using hcontrol h

/-- Whether there were no direct releases can be computed. -/
instance : Decidable (NeverFrees hist) :=
  decidable_of_iff (∀ x ∈ hist, x.freed? = none) <| by
    refine forall₂_congr fun x hx => ?_
    rw [Option.eq_none_iff_forall_not_mem]
    exact forall_congr' fun h => not_congr freed?_eq_some_iff

/-- Whether no direct release hit an instance that was being terminated can be computed. -/
instance : Decidable (FreesOrderly hist) :=
  decidable_of_iff
    (∀ x ∈ hist, ((x.freed?.bind x.world.engine.get?).all (!·.terminating)) = true) <| by
    refine forall₂_congr fun x hx => ?_
    simp only [Option.all_eq_true, Option.bind_eq_some_iff, freed?_eq_some_iff, Bool.not_eq_true']
    exact ⟨fun hall h inst hcall hlive => hall inst ⟨h, hcall, hlive⟩,
      fun hall inst ⟨h, hcall, hlive⟩ => hall h inst hcall hlive⟩

/-- What is found in every slot is true of every live instance. -/
theorem of_get?_of_all {e : Engine} {h : Handle} {inst : Instance} (holds : Instance → Bool)
    (hall : e.store.slots.toList.all (·.occupant.all holds) = true)
    (hlive : e.get? h = some inst) : holds inst = true := by
  rw [List.all_eq_true] at hall
  have hslot := Store.get?_eq_some_iff.1 hlive
  exact hall _ (Array.mem_toList_iff.2 (Array.mem_of_getElem? hslot))

end Execution

end StateMachines
