import Mathlib.Logic.Relation
import StateMachines.Proofs.Execution.Run

/-!
# Sound runs

At every moment of a run with few releases the engine is sound, every live instance is in a state
that the edges of its table lead to, and what an unfinished operation has found out before it
called a hook is still true of the instance afterwards, if the instance is still there.

An unfinished operation is a frame, and a frame has an origin: the moment at which it was put on
the stack. All moments since then belong to the call that the frame waits for.

## Main results

* `Execution.Run.opened`: every frame has an origin.
* `Execution.Run.sound`: the engine is sound.
* `Execution.Run.descriptor_eq_of_leaving`: a change of state that waits for the hook for leaving
  still deals with the class for which the edge was checked.
* `Execution.Run.keepsClass`: states are written into instances of the class that was checked.
* `Execution.Run.reaches_state`: live instances are in states that are reachable in their table.
* `Execution.Run.state_lt`: live instances are in states of their table.
* `Execution.Run.firing_le`: timers are fired for times that have come.
-/

namespace StateMachines

/-- The edges of the table lead from the initial state to the given one. -/
def Descriptor.Reaches (d : Descriptor) (state : StateId) : Prop :=
  Relation.ReflTransGen (fun source target => d.permits source target = true) 0 state

/-- A state that is reachable is in the table. -/
theorem Descriptor.Reaches.lt {d : Descriptor} {state : StateId} (hreaches : d.Reaches state) :
    state < d.states.length := by
  cases hreaches with
  | refl => exact d.initial_lt
  | tail _ hedge => exact Descriptor.lt_of_permits hedge

variable {σ ν : Type}

/-- What is true at the moment at which a frame is put on the stack. -/
def Frame.Opened (frame : Frame σ ν) (x : Execution σ ν) : Prop :=
  match frame with
  | .leaving target d source state _ _ =>
    x.control = .hook d target (.leave source state) ∧ d.permits source state = true ∧
      ∃ inst, x.world.engine.get? target = some inst ∧ inst.descriptor = d ∧ inst.state = source
  | .cleaning ending => x.control = .hook ending.descriptor ending.target (.cleanup ending.cause)
  | _ => True

namespace Execution

variable {host : Host σ ν} {x x' : Execution σ ν} {past : List (Execution σ ν)}
  {frame : Frame σ ν} {rest : List (Frame σ ν)} {h target : Handle} {inst : Instance}
  {d : Descriptor} {source state : StateId} {timeout : Duration} {label : Nat}

/-! ## Origins -/

/-- A frame that is on the stack after a step was put there by the step, or it was there before
and was not given an answer. -/
theorem Transition.opened (ht : Transition host x x') (hframe : frame :: rest <:+ x'.stack) :
    (x'.stack = frame :: rest ∧ frame.Opened x') ∨
      (frame :: rest <:+ x.stack ∧
        ¬ ((∃ reply, x.control = .give reply) ∧ x.stack.length ≤ (frame :: rest).length)) := by
  -- The frames under the topmost one are those of the stack before.
  have hbelow : ∀ {f : Frame σ ν} {s}, x.stack = f :: s → frame :: rest <:+ s →
      frame :: rest <:+ x.stack ∧
        ¬ ((∃ reply, x.control = .give reply) ∧ x.stack.length ≤ (frame :: rest).length) := by
    intro f s hstack hs
    refine ⟨hstack ▸ hs.trans (List.suffix_cons f s), ?_⟩
    rintro ⟨-, hlength⟩
    have hle := hs.length_le
    rw [hstack, List.length_cons] at hlength
    omega
  cases ht with
  | answered | calls | scriptDone | scriptNote => exact .inr ⟨hframe, by simp⟩
  | resumes | closes => exact .inr (hbelow rfl hframe)
  | childRefused | deliversAll | delivers | ends | fires | scriptCall =>
    rcases List.suffix_cons_iff.1 hframe with heq | hs
    · cases heq
      exact .inl ⟨rfl, trivial⟩
    · exact .inr ⟨hs, by simp⟩
  | @leaves w target state timeout label inst stack hlive hpermits =>
    rcases List.suffix_cons_iff.1 hframe with heq | hs
    · cases heq
      exact .inl ⟨rfl, rfl, hpermits, inst, hlive, rfl, rfl⟩
    · exact .inr ⟨hs, by simp⟩
  | cleans =>
    rcases List.suffix_cons_iff.1 hframe with heq | hs
    · cases heq
      exact .inl ⟨rfl, rfl⟩
    · exact .inr (hbelow rfl hs)
  | enters | endsChild | skipsChild | tells | skipsTimer | expires =>
    rcases List.suffix_cons_iff.1 hframe with heq | hs
    · cases heq
      exact .inl ⟨rfl, trivial⟩
    · exact .inr (hbelow rfl hs)

/-- Every frame has an origin: a moment since when the call that the frame waits for is being
made. -/
theorem Run.opened (hrun : Run host x past) (hframe : frame :: rest <:+ x.stack) :
    ∃ y span before, past = span ++ before ∧ Run host y before ∧ Spans host y x span ∧
      y.stack = frame :: rest ∧ frame.Opened y := by
  induction hrun with
  | start => simp at hframe
  | @next x x' past hrun hnext ih =>
    obtain ⟨t, -, ht⟩ | ⟨w, call, answer, rfl, -⟩ := hnext.cases
    · -- The step is the origin, or the frame keeps the one it had and its call is still open.
      rcases ht.opened hframe with ⟨hstack, hopened⟩ | ⟨hbefore, hopen⟩
      · exact ⟨x', [], x :: past, rfl, hrun.next hnext, .start, hstack, hopened⟩
      · obtain ⟨y, span, before, rfl, hy, hspan, hstack, hopened⟩ := ih hbefore
        refine ⟨y, x :: span, before, rfl, hy, hspan.next ?_ hnext, hstack, hopened⟩
        rwa [← hstack] at hopen
    · simp [ofCall] at hframe

/-- Every frame has an origin in the history. -/
theorem Run.exists_opened (hrun : Run host x past) (hframe : frame ∈ x.stack) :
    ∃ y ∈ x :: past, frame.Opened y := by
  obtain ⟨above, rest, hstack⟩ := List.append_of_mem hframe
  obtain ⟨y, span, before, rfl, -, hspan, -, hopened⟩ := hrun.opened ⟨above, hstack.symm⟩
  refine ⟨y, ?_, hopened⟩
  have hmem := hspan.start_mem
  grind

/-! ## Soundness -/

/-- The engine is sound at every moment of a run. -/
theorem Run.sound (hrun : Run host x past) (hfew : FewReleases (x :: past)) :
    x.world.engine.Sound := by
  induction hrun with
  | start w config hfresh =>
    rw [hfresh]
    exact Engine.sound_fresh config
  | next hrun hnext ih =>
    exact hnext.change.sound (ih hfew.of_cons) (hrun.evolves_next hnext hfew)

/-- A live instance whose change of state waits for the hook for leaving belongs to the class for
which the edge was checked. -/
theorem Run.descriptor_eq_of_leaving (hrun : Run host x past) (hfew : FewReleases (x :: past))
    (hframe : .leaving target d source state timeout label ∈ x.stack)
    (hlive : x.world.engine.get? target = some inst) : inst.descriptor = d := by
  -- The instance had that class at the origin of the frame, and its handle was issued then.
  obtain ⟨y, hy, -, -, before, hbefore, rfl, -⟩ := hrun.exists_opened hframe
  have hevolves := hrun.evolves hfew hy
  obtain ⟨a, ha, hcontinues⟩ := hevolves.continues (Store.issued_of_get? hbefore) hlive
  cases ha.symm.trans hbefore
  exact hcontinues.descriptor_eq

/-- The edge was checked for a change of state that waits for the hook for leaving. -/
theorem Run.permits_of_leaving (hrun : Run host x past)
    (hframe : .leaving target d source state timeout label ∈ x.stack) :
    d.permits source state = true := by
  obtain ⟨-, -, -, hpermits, -⟩ := hrun.exists_opened hframe
  exact hpermits

/-- Every state was written into an instance of the class for which the edge was checked. -/
def KeepsClass (hist : List (Execution σ ν)) : Prop :=
  ∀ z ∈ hist, ∀ w, z.stateWrite? = some w → w.descriptor = w.checked

/-- With few releases the class of an instance is not mistaken. -/
theorem Run.keepsClass (hrun : Run host x past) (hfew : FewReleases (x :: past)) :
    KeepsClass (x :: past) := by
  intro z hz w hwrite
  obtain ⟨after, before, hsplit, hz'⟩ := hrun.exists_run_of_mem hz
  obtain ⟨-, timeout, label, rest, inst, -, hstack, hlive, hdescriptor, -⟩ :=
    stateWrite?_eq_some_iff.1 hwrite
  rw [hsplit] at hfew
  rw [hdescriptor]
  exact hz'.descriptor_eq_of_leaving hfew.of_append (hstack ▸ List.mem_cons_self) hlive

/-- What is written into a live instance is reachable in its table, if that is true of all states
up to now. -/
theorem Run.reaches_of_written? (hrun : Run host x past) (hkeeps : KeepsClass (x :: past))
    (hbefore : ∀ y ∈ x :: past, ∀ h inst, y.world.engine.get? h = some inst →
      inst.descriptor.Reaches inst.state)
    (hwritten : x.written? = some (h, state)) (hlive : x.world.engine.get? h = some inst) :
    inst.descriptor.Reaches state := by
  obtain ⟨write, hwrite, rfl, rfl⟩ := written?_eq_some_iff.1 hwritten
  obtain ⟨-, timeout, label, rest, b, -, hstack, hb, hclass, -⟩ := stateWrite?_eq_some_iff.1 hwrite
  obtain rfl := Option.some.inj (hb.symm.trans hlive)
  have hframe : .leaving write.target write.checked write.previous write.new timeout label ∈
      x.stack := hstack ▸ List.mem_cons_self
  -- The edge begins in the state that the instance was in at the origin of the frame.
  obtain ⟨y, hy, -, hpermits, a, ha, hchecked, hprevious⟩ := hrun.exists_opened hframe
  have hsource : write.checked.Reaches write.previous := by
    rw [← hchecked, ← hprevious]
    exact hbefore y hy write.target a ha
  rw [← hclass, hkeeps x List.mem_cons_self write hwrite]
  exact hsource.tail hpermits

/-- At every moment of a run a live instance is in a state that is reachable in its table. -/
theorem Run.reaches_state_of_mem {y : Execution σ ν} (hrun : Run host x past)
    (hkeeps : KeepsClass past) (hy : y ∈ x :: past)
    (hlive : y.world.engine.get? h = some inst) : inst.descriptor.Reaches inst.state := by
  induction hrun generalizing y h inst with
  | start w config hfresh =>
    rw [List.mem_singleton.1 hy] at hlive
    simp [hfresh] at hlive
  | @next x x' past hrun hnext ih =>
    have hearlier : KeepsClass past := fun z hz => hkeeps z (List.mem_cons_of_mem x hz)
    rcases List.mem_cons.1 hy with rfl | hy
    · have hchange := hnext.change
      cases hbefore : x.world.engine.get? h with
      | none =>
        rw [hchange.state_of_new hrun.tidy hbefore hlive]
        exact .refl
      | some a =>
        -- The instance keeps its state, or it gets the one that the step writes.
        obtain ⟨hcontinues, hstate⟩ := hchange.continues_of_live hrun.tidy hbefore hlive
        rw [hcontinues.descriptor_eq, hstate]
        unfold Engine.stateAfter
        split
        next k new hwritten =>
          split
          next hk =>
            subst hk
            exact hrun.reaches_of_written? hkeeps (fun z hz k b hb => ih hearlier hz hb)
              hwritten hbefore
          next => exact ih hearlier List.mem_cons_self hbefore
        next => exact ih hearlier List.mem_cons_self hbefore
    · exact ih hearlier hy hlive

/-- A live instance is in a state that is reachable in its table. -/
theorem Run.reaches_state (hrun : Run host x past) (hfew : FewReleases (x :: past))
    (hlive : x.world.engine.get? h = some inst) : inst.descriptor.Reaches inst.state :=
  hrun.reaches_state_of_mem
    (fun z hz => hrun.keepsClass hfew z (List.mem_cons_of_mem x hz)) List.mem_cons_self hlive

/-- A live instance is in a state of its table. -/
theorem Run.state_lt (hrun : Run host x past) (hfew : FewReleases (x :: past))
    (hlive : x.world.engine.get? h = some inst) : inst.state < inst.descriptor.states.length :=
  (hrun.reaches_state hfew hlive).lt

/-! ## The clock -/

/-- A step takes no time. -/
theorem Transition.now_eq (ht : Transition host x x') : x'.world.now = x.world.now := by
  cases ht with
  | answered hanswers => cases hanswers <;> rfl
  | closes hcloses =>
    cases hcloses with
    | armed => exact World.now_armed ..
    | released => exact World.now_released ..
    | _ => rfl
  | tells => exact World.now_released ..
  | _ => rfl

/-- After a step timers are fired for the times for which they were fired before, or for the time
of the step. -/
theorem Transition.firing (ht : Transition host x x') {now : Time} {count : Nat}
    (hframe : .firing now count ∈ x'.stack) :
    (∃ count, .firing now count ∈ x.stack) ∨ now = x.world.now := by
  cases ht with
  | answered | calls | scriptDone | scriptNote => exact .inl ⟨count, hframe⟩
  | resumes | closes => exact .inl ⟨count, List.mem_cons_of_mem _ hframe⟩
  | childRefused | deliversAll | delivers | leaves | ends | scriptCall =>
    rcases List.mem_cons.1 hframe with heq | hrest
    · cases heq
    · exact .inl ⟨count, hrest⟩
  | fires =>
    -- Only here does a new time come in.
    rcases List.mem_cons.1 hframe with heq | hrest
    · cases heq
      exact .inr rfl
    · exact .inl ⟨count, hrest⟩
  | enters | endsChild | skipsChild | cleans | tells =>
    rcases List.mem_cons.1 hframe with heq | hrest
    · cases heq
    · exact .inl ⟨count, List.mem_cons_of_mem _ hrest⟩
  | skipsTimer => exact .inl ⟨count, hframe⟩
  | expires =>
    rcases List.mem_cons.1 hframe with heq | hrest
    · cases heq
      exact .inl ⟨_, List.mem_cons_self⟩
    · exact .inl ⟨count, List.mem_cons_of_mem _ hrest⟩

/-- Timers are fired for times that have come. -/
theorem Run.firing_le (hrun : Run host x past) {now : Time} {count : Nat}
    (hframe : .firing now count ∈ x.stack) : now ≤ x.world.now := by
  induction hrun generalizing count with
  | start => cases hframe
  | @next x x' past hrun hnext ih =>
    obtain ⟨t, htime, ht⟩ | ⟨w, call, answer, rfl, -⟩ := hnext.cases
    · rw [ht.now_eq]
      rcases ht.firing hframe with ⟨count, hbefore⟩ | rfl
      · exact Nat.le_trans (ih hbefore) htime
      · exact Nat.le_refl _
    · cases hframe

end Execution

end StateMachines
