import StateMachines.Proofs.Execution.Transition

/-!
# What a step does to the engine

Of all steps of an execution, one writes a state: the one after the hook for leaving has returned.
`Execution.stateWrite?` reads off a moment what that step is about to write. Every other step
leaves all states alone.

## Main results

* `Execution.Transition.change`: a step changes the engine in one of the ways of `Engine.Change`,
  and it writes the state that `Execution.stateWrite?` announces.
-/

namespace StateMachines

variable {σ ν : Type}

/-- A write of the state of an instance. -/
structure StateWrite where
  target : Handle
  /-- The class for which the edge was checked. -/
  checked : Descriptor
  /-- The class of the instance that is written. -/
  descriptor : Descriptor
  /-- The state that is replaced. -/
  old : StateId
  /-- The state that is written. -/
  new : StateId
  /-- The state that the hook for entering is told the instance comes from. -/
  previous : StateId

namespace World

variable {w w' : World σ ν} {call : Call} {frame : Frame σ ν} {reply : Reply}

/-- A call that is answered at once writes no state. -/
theorem Answers.change (ha : w.Answers call w' reply) : w.engine.Change none w'.engine := by
  cases ha with
  | register | unregister | setLogAddr | trySend | shutdown => exact .aside rfl rfl
  | orphan | unheard | eventRefused | unmoved | changeRefused | endless | ending =>
    exact .aside rfl rfl
  | setLevel target level =>
    exact .edit target _ fun a _ => ⟨⟨rfl, rfl, rfl, id⟩, rfl, fun _ => id⟩
  | setPayload target payload =>
    exact .edit target _ fun a _ => ⟨⟨rfl, rfl, rfl, id⟩, rfl, fun _ => id⟩
  | takePayload target => exact .edit target _ fun a _ => ⟨⟨rfl, rfl, rfl, id⟩, rfl, fun _ => id⟩
  | free target => exact .free target
  | alloc halloc => exact .alloc halloc
  | @child d parent event p handle inst engine hlive hactive halloc =>
    exact .child parent event halloc ⟨p, hlive⟩

/-- An operation that ends at once writes no state. -/
theorem Closes.change (hc : w.Closes frame w' reply) : w.engine.Change none w'.engine := by
  cases hc with
  | answer | leaving | entering | unarmed | fired => exact .aside rfl rfl
  | @armed target inst d timeout label hlive htimeout =>
    rw [engine_armed]
    exact .arm w.now target timeout label ⟨inst, hlive⟩
  | @released ending hquiet =>
    rw [engine_released]
    exact .free ending.target

/-- Taking an instance out of the children of its parent writes no state. -/
theorem change_detached (ending : Ending) : w.engine.Change none (w.detached ending).engine := by
  unfold detached
  cases ending.parent with
  | none => exact .aside rfl rfl
  | some parent =>
    refine .edit parent _ fun a _ => ⟨⟨rfl, rfl, rfl, id⟩, rfl, fun c hc => ?_⟩
    exact (List.mem_filter.1 hc).1

end World

namespace Execution

/-- The write of a state that the next step performs, if it performs one. -/
def stateWrite? (x : Execution σ ν) : Option StateWrite :=
  match x.control, x.stack with
  | .give _, .leaving target d source state _ _ :: _ =>
    (x.world.engine.get? target).map fun inst =>
      ⟨target, d, inst.descriptor, inst.state, state, source⟩
  | _, _ => none

/-- The state that the next step writes, if it writes one. -/
def written? (x : Execution σ ν) : Option (Handle × StateId) :=
  x.stateWrite?.map fun w => (w.target, w.new)

variable {host : Host σ ν} {x x' : Execution σ ν} {write : StateWrite}

/-- A state is written when the hook for leaving has returned and the instance is still there. -/
theorem stateWrite?_eq_some_iff : x.stateWrite? = some write ↔
    ∃ answer timeout label rest inst, x.control = .give answer ∧
      x.stack =
        .leaving write.target write.checked write.previous write.new timeout label :: rest ∧
      x.world.engine.get? write.target = some inst ∧ write.descriptor = inst.descriptor ∧
      write.old = inst.state := by
  constructor
  · intro h
    unfold stateWrite? at h
    split at h
    next answer target d source state timeout label rest hcontrol hstack =>
      obtain ⟨inst, hlive, rfl⟩ := Option.map_eq_some_iff.1 h
      exact ⟨answer, timeout, label, rest, inst, hcontrol, hstack, hlive, rfl, rfl⟩
    next => cases h
  · rintro ⟨answer, timeout, label, rest, inst, hcontrol, hstack, hlive, hdescriptor, hold⟩
    cases write
    simp_all [stateWrite?]

/-- What a step writes is the new state of the write it performs. -/
theorem written?_eq_some_iff {h : Handle} {state : StateId} : x.written? = some (h, state) ↔
    ∃ write, x.stateWrite? = some write ∧ write.target = h ∧ write.new = state := by
  simp [written?]

/-- A moment at which no frame waits for the hook for leaving writes nothing. -/
theorem written?_of_closes {w w' : World σ ν} {frame : Frame σ ν} {answer reply : Reply}
    {stack : List (Frame σ ν)} (hc : w.Closes frame w' reply) :
    (⟨w, .give answer, frame :: stack⟩ : Execution σ ν).written? = none := by
  cases hc with
  | leaving d source state timeout label hdead => simp [written?, stateWrite?, hdead]
  | _ => rfl

/-- A step changes the engine in one of the ways of `Engine.Change`. -/
theorem Transition.change (ht : Transition host x x') :
    x.world.engine.Change x.written? x'.world.engine := by
  cases ht with
  | answered hanswers => exact hanswers.change
  | closes hcloses =>
    rw [written?_of_closes hcloses]
    exact hcloses.change
  | @enters w target d source state timeout label inst answer stack hlive =>
    have hwritten : (⟨w, .give answer, .leaving target d source state timeout label :: stack⟩ :
        Execution σ ν).written? = some (target, state) := by
      simp [written?, stateWrite?, hlive]
    rw [hwritten]
    exact .write target state
  | @ends w target cause data inst stack hlive hactive =>
    exact .edit target _ fun a _ => ⟨⟨rfl, rfl, rfl, fun _ => rfl⟩, rfl, fun _ => id⟩
  | cleans => exact World.change_detached _
  | tells =>
    rw [World.engine_released]
    exact .free _
  | skipsTimer hpop hdead => exact .pop hpop
  | expires hpop hlive => exact .pop hpop
  | childRefused | deliversAll | delivers | leaves | fires | calls => exact .aside rfl rfl
  | scriptDone | scriptNote | scriptCall | resumes | endsChild | skipsChild => exact .aside rfl rfl

end Execution

end StateMachines
