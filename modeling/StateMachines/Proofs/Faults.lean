import StateMachines.Descriptor.Build
import StateMachines.Proofs.Execution.Session
import StateMachines.Proofs.Execution.Soundness

/-!
# No faults

A fault is a broken assumption of the engine: an instance in a state that its table lacks, a
vacant slot that does not exist, or the want of a number for another slot. Whatever hooks do, the
first two are never raised in a run with few releases, and the third one only if all slot numbers
are in use.

The states of instances are reachable from the initial state along the edges of their tables. This
is true although a hook for leaving may move its instance elsewhere before the state is written:
the edge that was checked begins in a state that the instance was in.

## Main results

* `Execution.step_ne_faulted`: a step raises no fault in a tidy engine with room, all of whose
  instances are in states of their tables.
* `Execution.Run.never_faults`: no step of a run raises a fault while there is room.
-/

namespace StateMachines.Execution

variable {σ ν : Type} {host : Host σ ν} {x : Execution σ ν} {past : List (Execution σ ν)}
  {w : World σ ν} {stack : List (Frame σ ν)} {fault : Fault}

/-- The delivery of an event raises no fault if the target is in a state of its table. -/
theorem beginDispatch_ne_faulted {target : Handle} {event : EventId} {data : Option Payload}
    (hstate : ∀ inst, w.engine.get? target = some inst →
      inst.state < inst.descriptor.states.length) :
    beginDispatch w target event data stack ≠ .faulted fault := by
  unfold beginDispatch
  split
  next => nofun
  next inst hlive =>
    dsimp only
    rw [if_neg (Nat.not_le.2 (hstate inst hlive))]
    split
    next => nofun
    next => split <;> nofun

/-- An allocation raises no fault if there is a number for another slot. -/
theorem beginAlloc_ne_faulted {d : Descriptor} {payload : Option Payload} {level : Option Level}
    {id : Option String} (ht : w.engine.store.Tidy)
    (hsize : w.engine.store.slots.size < Store.maxSlots) :
    beginAlloc w d payload level id stack ≠ .faulted fault := by
  obtain ⟨h, inst, e', halloc⟩ := Engine.exists_alloc ht hsize d payload level id
  unfold beginAlloc
  rw [halloc]
  nofun

/-- The allocation of a child raises no fault if there is a number for another slot. -/
theorem beginAllocChild_ne_faulted {d : Descriptor} {parent : Handle} {event : EventId}
    (ht : w.engine.store.Tidy) (hsize : w.engine.store.slots.size < Store.maxSlots) :
    beginAllocChild w d parent event stack ≠ .faulted fault := by
  unfold beginAllocChild
  split
  next => nofun
  next p hlive =>
    split
    next => nofun
    next =>
      obtain ⟨h, inst, e', halloc⟩ := Engine.exists_alloc ht hsize d none (some p.level) p.id
      rw [halloc]
      nofun

/-- No operation raises a fault at its beginning, if the engine is tidy and has room, and its
instances are in states of their tables. -/
theorem begin_ne_faulted (call : Call) (ht : w.engine.store.Tidy)
    (hsize : w.engine.store.slots.size < Store.maxSlots)
    (hstates : ∀ h inst, w.engine.get? h = some inst →
      inst.state < inst.descriptor.states.length) : begin w call stack ≠ .faulted fault := by
  cases call with
  | dispatch target event data => exact beginDispatch_ne_faulted (hstates target)
  | alloc d payload level id => exact beginAlloc_ne_faulted ht hsize
  | allocChild d parent event => exact beginAllocChild_ne_faulted ht hsize
  | changeState target state timeout label =>
    unfold begin beginChange
    dsimp only
    split
    next => nofun
    next => split <;> nofun
  | terminate target cause data =>
    unfold begin beginEnd
    dsimp only
    split
    next => nofun
    next => split <;> nofun
  | register | unregister | free | fireExpired | setLogAddr => nofun
  | setLevel | setPayload | takePayload | trySend | shutdown => nofun

/-- No unfinished operation raises a fault when it goes on. -/
theorem proceed_ne_faulted {frame : Frame σ ν} {answer : Reply} :
    proceed w frame answer stack ≠ .faulted fault := by
  unfold proceed afterLeave afterEnter afterChild afterCleanup fireNext settle reply goOn
  dsimp only
  repeat' split
  all_goals nofun

/-- A step raises no fault if the engine is tidy and has room, and its instances are in states of
their tables. -/
theorem step_ne_faulted (ht : x.world.engine.store.Tidy)
    (hsize : x.world.engine.store.slots.size < Store.maxSlots)
    (hstates : ∀ h inst, x.world.engine.get? h = some inst →
      inst.state < inst.descriptor.states.length) : x.step host ≠ .faulted fault := by
  obtain ⟨w, control, stack⟩ := x
  cases control with
  | perform call => exact begin_ne_faulted call ht hsize hstates
  | hook d target hook => nofun
  | run script => cases script <;> nofun
  | give answer =>
    cases stack with
    | nil => nofun
    | cons frame stack => exact proceed_ne_faulted

/-- At every moment of a run with few releases each live instance is in a state that the edges of
its table lead to from the initial state, and that the table has a row for, as many rows as its
class was built with; and every slot that is listed as vacant exists. As long as there is a number
for another slot, no step raises a fault, at whatever time it is taken. -/
theorem Run.never_faults (hrun : Run host x past) (hfew : FewReleases (x :: past)) :
    (∀ h inst, x.world.engine.get? h = some inst →
      inst.descriptor.Reaches inst.state ∧ (∃ row, inst.descriptor.row? inst.state = some row) ∧
        inst.state < inst.descriptor.states.length ∧
        ∀ (b : Blueprint) (key : Nat), b.build key = .ok inst.descriptor →
          inst.state < b.states.length) ∧
    (∀ i ∈ x.world.engine.store.vacant, ∃ slot, x.world.engine.store.slots[i]? = some slot) ∧
    (x.world.engine.store.slots.size < Store.maxSlots →
      ∀ t fault, (x.atTime t).step host ≠ .faulted fault) := by
  refine ⟨fun h inst hlive => ?_, fun i hi => hrun.tidy.exists_slot_of_mem_vacant hi,
    fun hsize t fault => ?_⟩
  · have hlt := hrun.state_lt hfew hlive
    refine ⟨hrun.reaches_state hfew hlive, ⟨_, List.getElem?_eq_getElem hlt⟩, hlt, ?_⟩
    intro b key hbuild
    exact Blueprint.states_of_build hbuild ▸ hlt
  · -- The time of a moment matters neither to its store nor to its instances.
    exact step_ne_faulted (x := x.atTime t) hrun.tidy hsize fun h inst => hrun.state_lt hfew

/-- When an instance is about to leave its state, it is released, and its slot is used for an
instance of another class. -/
def usurper : Host Unit Unit where
  script _ h hook _ :=
    match hook with
    | .leave _ _ =>
      .call (.free h) () fun _ _ => .call (.alloc .plain none none none) () fun _ _ => .done ()
    | _ => .done ()

/-- A run in which an instance loses its slot while it is about to move, at the moment before the
change of state goes on. -/
def usurped : Execution Unit Unit × List (Execution Unit Unit) :=
  session usurper 9 (idle { logAddr := false } ()) []
    [.alloc .fork none none none, .changeState ⟨0, 0⟩ 1 0 0]

/-- The instance that has taken over a slot is in a state of its own table, and the change of
state goes on without a fault. -/
theorem usurped_never_faults :
    (∃ timeout label, usurped.1.stack = [.leaving ⟨0, 0⟩ .fork 0 1 timeout label]) ∧
    (∃ inst, usurped.1.world.engine.get? ⟨0, 1⟩ = some inst ∧ inst.descriptor = .plain ∧
      inst.descriptor.Reaches inst.state ∧ ∃ row, inst.descriptor.row? inst.state = some row) ∧
    ∀ t fault, (usurped.1.atTime t).step usurper ≠ .faulted fault := by
  have husurped : Run usurper usurped.1 usurped.2 := run_session 9 _ (run_idle _ _)
  obtain ⟨hstates, -, hfaults⟩ :=
    Run.never_faults husurped (fewReleases_of_length_lt (by decide))
  refine ⟨⟨0, 0, rfl⟩, ?_, hfaults (by decide)⟩
  obtain ⟨inst, hlive⟩ : ∃ inst, usurped.1.world.engine.get? ⟨0, 1⟩ = some inst :=
    Engine.isAlive_eq_true_iff.1 (by decide)
  obtain ⟨hreaches, hrow, -⟩ := hstates _ inst hlive
  have hclass : (usurped.1.world.engine.get? ⟨0, 1⟩).map (·.descriptor) = some .plain := by decide
  rw [hlive] at hclass
  exact ⟨inst, hlive, Option.some.inj hclass, hreaches, hrow⟩

end StateMachines.Execution
