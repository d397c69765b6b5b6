import StateMachines.Proofs.Faults

/-!
# Executions that come to an end

`Execution.Concludes` says of an execution that what happens above some stack comes to an end after
finitely many steps, however much time passes before each of them, and what is true then of the
moments that led there and of the world. An end is an answer to the stack, or a fault, if the
judgement allows for one. Such judgements are put together from the steps of an operation: an
operation that waits for another one concludes if that one does, and if it does so with every answer
that it is given.

## Main definitions

* `Execution.Concludes`: the execution comes to an end.

## Main results

* `Execution.Concludes.of_frame`: an operation that waits for another one.
* `Execution.Concludes.of_spans`: what is true whenever the call has returned.
-/

namespace StateMachines.Execution

variable {σ ν : Type} {host : Host σ ν} {x x' start : Execution σ ν}
  {hist span : List (Execution σ ν)} {stack rest : List (Frame σ ν)} {frame : Frame σ ν}
  {P Q : List (Execution σ ν) → World σ ν → Prop}
  {F G : List (Execution σ ν) → Execution σ ν → Prop} {w : World σ ν}

/-- Whatever time passes before its steps, the execution comes after finitely many of them to give
an answer to the given stack, or to raise a fault. The moments up to then, the latest first, and the
world fulfil `P` when the answer is given, and `F` where a fault is raised. -/
inductive Concludes (host : Host σ ν) (stack : List (Frame σ ν))
    (P : List (Execution σ ν) → World σ ν → Prop)
    (F : List (Execution σ ν) → Execution σ ν → Prop) :
    List (Execution σ ν) → Execution σ ν → Prop where
  /-- The answer is given. -/
  | returned {hist : List (Execution σ ν)} {w : World σ ν} {reply : Reply} (hend : P hist w) :
      Concludes host stack P F hist ⟨w, .give reply, stack⟩
  /-- The next step raises a fault. -/
  | faults {hist : List (Execution σ ν)} {x : Execution σ ν}
      (hstep : ∀ t, x.world.now ≤ t → ∃ fault, (x.atTime t).step host = .faulted fault)
      (hend : F hist x) : Concludes host stack P F hist x
  /-- There is a next step, and the execution comes to its end after it. -/
  | goes {hist : List (Execution σ ν)} {x : Execution σ ν}
      (hopen : (∃ reply, x.control = .give reply) → stack.length < x.stack.length)
      (hstep : ∀ t, x.world.now ≤ t → ∃ x', (x.atTime t).step host = .running x')
      (hnext : ∀ t x', x.world.now ≤ t → (x.atTime t).step host = .running x' →
        Concludes host stack P F (x :: hist) x') : Concludes host stack P F hist x

namespace Concludes

/-- What is true at the end may be weakened. -/
theorem mono (hx : Concludes host stack P F hist x) (hPQ : ∀ hist w, P hist w → Q hist w)
    (hFG : ∀ hist x, F hist x → G hist x) : Concludes host stack Q G hist x := by
  induction hx with
  | returned hend => exact .returned (hPQ _ _ hend)
  | faults hstep hend => exact .faults hstep (hFG _ _ hend)
  | goes hopen hstep _ ih => exact .goes hopen hstep ih

/-- An operation that waits for another one concludes if that one does, and if the operation does
with every answer that it is given. -/
theorem of_frame (hx : Concludes host (frame :: stack) P F hist x)
    (hgoes : ∀ hist w reply, P hist w →
      Concludes host stack Q F hist ⟨w, .give reply, frame :: stack⟩) :
    Concludes host stack Q F hist x := by
  induction hx with
  | returned hend => exact hgoes _ _ _ hend
  | faults hstep hend => exact .faults hstep hend
  | goes hopen hstep _ ih =>
    refine .goes (fun hgive => ?_) hstep ih
    exact Nat.lt_of_succ_lt (hopen hgive)

/-- An execution without a fault takes a step, unless it has returned to the outside. -/
theorem exists_step (hopen : (∃ reply, x.control = .give reply) → x.stack ≠ [])
    (hfault : ∀ fault, x.step host ≠ .faulted fault) : ∃ x', x.step host = .running x' := by
  cases hstep : x.step host with
  | running x' => exact ⟨x', rfl⟩
  | finished w answer =>
    obtain rfl := step_eq_finished_iff.1 hstep
    exact absurd rfl (hopen ⟨answer, rfl⟩)
  | faulted fault => exact absurd hstep (hfault fault)

/-- An execution that is to do something concludes if it does after each step that it can take. -/
theorem of_busy (hbusy : ∀ reply, x.control ≠ .give reply)
    (hfault : ∀ t fault, (x.atTime t).step host ≠ .faulted fault)
    (hnext : ∀ t x', Transition host (x.atTime t) x' → Concludes host stack P F (x :: hist) x') :
    Concludes host stack P F hist x := by
  refine .goes ?_ (fun t _ => ?_) fun t x' _ hstep => hnext t x' (transition_of_step hstep)
  · rintro ⟨reply, hgive⟩
    exact absurd hgive (hbusy reply)
  · refine exists_step ?_ (hfault t)
    rintro ⟨reply, hgive⟩
    exact absurd hgive (hbusy reply)

/-- An operation that is given an answer concludes if it does after each step that it can take. -/
theorem of_give {reply : Reply} (hle : stack.length ≤ rest.length)
    (hnext : ∀ t x', Transition host ⟨{ w with now := t }, .give reply, frame :: rest⟩ x' →
      Concludes host stack P F (⟨w, .give reply, frame :: rest⟩ :: hist) x') :
    Concludes host stack P F hist ⟨w, .give reply, frame :: rest⟩ := by
  refine .goes (fun _ => Nat.lt_succ_of_le hle) (fun t _ => ?_) fun t x' _ hstep =>
    hnext t x' (transition_of_step hstep)
  exact exists_step (fun _ => List.cons_ne_nil _ _) fun _ => proceed_ne_faulted

/-- An operation that only waits for an answer gives its own. -/
theorem of_answer {answer reply : Reply}
    (hend : ∀ t, P (⟨w, .give reply, .answer answer :: stack⟩ :: hist) { w with now := t }) :
    Concludes host stack P F hist ⟨w, .give reply, .answer answer :: stack⟩ := by
  refine .of_give (Nat.le_refl _) fun t x' ht => ?_
  cases ht with
  | closes hcloses =>
    cases hcloses
    exact .returned (hend t)

/-- At no moment of a call it is lost that the call comes to its end. -/
theorem of_moment (hstart : Concludes host start.stack P F [] start)
    (hspan : Spans host start x span) : Concludes host start.stack P F span x := by
  induction hspan with
  | start => exact hstart
  | @next x x' span hspan hopen hnext ih =>
    obtain ⟨t, htime, hstep⟩ : ∃ t, x.world.now ≤ t ∧ (x.atTime t).step host = .running x' := by
      cases hnext with
      | move t htime hstep => exact ⟨t, htime, hstep⟩
      | call w' call hstep =>
        obtain rfl := step_eq_finished_iff.1 hstep
        exact absurd ⟨⟨_, rfl⟩, Nat.zero_le _⟩ hopen
    cases ih with
    | returned => exact absurd ⟨⟨_, rfl⟩, Nat.le_refl _⟩ hopen
    | faults hfault =>
      obtain ⟨fault, hfaulted⟩ := hfault t htime
      cases hstep.symm.trans hfaulted
    | goes _ _ hnext => exact hnext t x' htime hstep

/-- Whenever a call that comes to its end has returned, what is stated of the end is true. -/
theorem of_spans (hstart : Concludes host start.stack P F [] start)
    (hspan : Spans host start x span) (hreturned : start.Returned x) : P span x.world := by
  cases hstart.of_moment hspan with
  | returned hend => exact hend
  | goes hopen => exact absurd (hopen hreturned.1) (Nat.not_lt_of_le hreturned.2)
  | faults hfault =>
    -- An answer is not where a fault is raised.
    obtain ⟨fault, hfaulted⟩ := hfault x.world.now (Nat.le_refl _)
    obtain ⟨w, control, stack⟩ := x
    obtain ⟨reply, rfl⟩ : ∃ reply, control = .give reply := hreturned.1
    cases stack with
    | nil => cases hfaulted
    | cons frame stack => exact absurd hfaulted proceed_ne_faulted

end Concludes

end StateMachines.Execution
