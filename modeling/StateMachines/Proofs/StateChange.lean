import StateMachines.Proofs.Refusals
import StateMachines.Proofs.StateWalk
import StateMachines.Proofs.Timers.Label

/-!
# What a change of state comes to

A change of state looks its instance up three times: at the beginning, after the hook for leaving,
and after the hook for entering. The hooks may do anything in between, also to this instance, whose
slot may have been taken over by another one when they return. Still a change has one of three
courses, and each of them has one end.

* It is answered by its first step, without a hook: the instance is dead, or there is no such edge.
* The instance does not survive the hook for leaving.
* The hook for entering is called as well. Then it depends on the third lookup whether the change is
  carried out.

## Main definitions

* `Execution.Regains`: a hook has returned to the call that waits for it.
* `Execution.Hooking`: a call waits for a hook from its beginning to its end.
* `Execution.ChangeCourse`: the courses of a change of state.
* `Execution.ChangeOutcome`: what is known about a change of state that has returned.

## Main results

* `Execution.Spans.changeCourse`: a change of state that has returned took one of the courses.
* `Execution.returns_of_changeState`: it returns if the calls that its hooks make do.
* `Execution.Run.changeState_outcome`: how it returns, and what it leaves behind.
-/

namespace StateMachines

/-- From a state of the table, the edges are those of its row. -/
theorem Descriptor.permits_of_row? {d : Descriptor} {source target : StateId} {row : StateRow}
    (hrow : d.row? source = some row) : d.permits source target = row.out.contains target := by
  rw [permits, hrow]

namespace Execution

variable {σ ν : Type} {host : Host σ ν} {s x x' y z z' u u' : Execution σ ν}
  {past span later sub sub' : List (Execution σ ν)} {frame frame' : Frame σ ν}
  {hook : Hook} {h : Handle} {state : StateId} {timeout : Duration} {label : Nat}
  {inst : Instance} {d : Descriptor}

/-! ## Waiting for a hook -/

/-- A hook has returned to the call that begins at `s` and that waits for it with a frame. -/
def Regains (s y : Execution σ ν) (frame : Frame σ ν) : Prop :=
  (∃ reply, y.control = .give reply) ∧ y.stack = frame :: s.stack

/-- A hook has returned to the change of state that begins at `s`: the one for leaving. -/
def AfterLeave (s y : Execution σ ν) (h : Handle) : Prop :=
  ∃ d source state timeout label, s.Regains y (.leaving h d source state timeout label)

/-- A hook has returned to the change of state that begins at `s`: the one for entering. -/
def AfterEnter (s y : Execution σ ν) (h : Handle) : Prop :=
  ∃ d timeout label, s.Regains y (.entering h d timeout label)

/-- After each of the hooks, a hook has returned. -/
theorem exists_regains (hafter : s.AfterLeave y h ∨ s.AfterEnter y h) :
    ∃ frame, s.Regains y frame := by
  rcases hafter with ⟨d, source, state, timeout, label, hregains⟩ | ⟨d, timeout, label, hregains⟩
  · exact ⟨_, hregains⟩
  · exact ⟨_, hregains⟩

/-- At the beginning of a call no hook has returned to it. -/
theorem not_after_of_mem (hy : y ∈ [s]) : ¬ (s.AfterLeave y h ∨ s.AfterEnter y h) := by
  intro hafter
  obtain ⟨frame, -, hstack⟩ := exists_regains hafter
  have hlength := congrArg List.length hstack
  rw [List.mem_singleton.1 hy, List.length_cons] at hlength
  omega

/-- The call that begins at `s` calls a hook at the moment `z` and waits for it with a frame. At the
moment `u`, after the listed ones, the hook has returned. -/
structure Hooking (host : Host σ ν) (s : Execution σ ν) (frame : Frame σ ν)
    (h : Handle) (hook : Hook) (z u : Execution σ ν) (sub : List (Execution σ ν)) : Prop where
  /-- The hook is called. -/
  calls : ∃ d, z.control = .hook d h hook
  /-- The frame waits for it. -/
  stack : z.stack = frame :: s.stack
  /-- The hook runs. -/
  spans : Spans host z u sub
  /-- It has returned. -/
  returned : z.Returned u

namespace Hooking

/-- The hook has returned to the frame that waits for it. -/
theorem regains (hk : Hooking host s frame h hook z u sub) : s.Regains u frame :=
  ⟨hk.returned.1, (hk.spans.stack_eq_of_returned hk.returned).trans hk.stack⟩

/-- It returns once. -/
theorem eq_of_regains (hk : Hooking host s frame h hook z u sub) (hy : y ∈ u :: sub)
    (hregains : s.Regains y frame') : y = u ∧ frame' = frame := by
  obtain ⟨hgive, hstack⟩ := hregains
  rcases List.mem_cons.1 hy with rfl | hy
  · exact ⟨rfl, (List.cons.inj (hstack.symm.trans hk.regains.2)).1⟩
  · refine absurd ⟨hgive, ?_⟩ (hk.spans.not_returned_of_mem hy)
    simp [hstack, hk.stack]

/-- A moment to which a hook has returned is that at which this hook has, or an earlier one. -/
theorem regains_cases (hk : Hooking host s frame h hook z u sub) (hy : y ∈ u :: (sub ++ later))
    (hregains : s.Regains y frame') : y = u ∧ frame' = frame ∨ y ∈ later := by
  rw [← List.cons_append] at hy
  rcases List.mem_append.1 hy with hy | hy
  · exact .inl (hk.eq_of_regains hy hregains)
  · exact .inr hy

/-- It is the only hook that the call itself calls in the meantime. -/
theorem directHooks_eq (hk : Hooking host s frame h hook z u sub) :
    s.directHooks (u :: sub) = [(h, hook)] := by
  obtain ⟨d, hcontrol⟩ := hk.calls
  have hlevel : z.stack.length = s.stack.length + 1 := congrArg List.length hk.stack
  have hbegins : ∀ reply, z.control ≠ .give reply := by
    intro reply hgive
    cases hcontrol.symm.trans hgive
  rw [(hk.spans.direct_eq s hbegins hlevel).2]
  simp [directHook?, hcontrol, hlevel]

end Hooking

/-- A hook that was called has returned before the call that waits for it goes on. -/
theorem Follows.exists_hooking (hfollows : Follows host z x later)
    (hcalls : ∃ d, z.control = .hook d h hook) (hstack : z.stack = frame :: s.stack)
    (hx : x.stack = s.stack) :
    ∃ u sub u' rest, Hooking host s frame h hook z u sub ∧ Next host u u' ∧
      Follows host u' x rest ∧ later = rest ++ u :: sub := by
  have hlow : x.stack.length < z.stack.length := by
    rw [hx, hstack, List.length_cons]
    omega
  obtain ⟨u, sub, u', rest, hsub, hreturned, hnext, hrest, rfl⟩ := hfollows.goesOn hlow
  exact ⟨u, sub, u', rest, ⟨hcalls, hstack, hsub, hreturned⟩, hnext, hrest, rfl⟩

/-! ## Courses -/

/-- The courses of a change of state that begins at `s` and has returned at the moment `x`. -/
inductive ChangeCourse (host : Host σ ν) (s : Execution σ ν) (h : Handle) (state : StateId)
    (timeout : Duration) (label : Nat) : Execution σ ν → List (Execution σ ν) → Prop where
  /-- It is answered by its first step. -/
  | answered {t : Time} {w' : World σ ν} {reply : Reply}
      (hanswers : (s.atTime t).world.Answers (.changeState h state timeout label) w' reply) :
      ChangeCourse host s h state timeout label ⟨w', .give reply, s.stack⟩ [s]
  /-- The instance does not survive the hook for leaving. -/
  | left {t : Time} {inst : Instance} {z u : Execution σ ν} {sub : List (Execution σ ν)}
      (hlive : s.world.engine.get? h = some inst)
      (hpermits : inst.descriptor.permits inst.state state = true)
      (hleave : Hooking host s
        (.leaving h inst.descriptor inst.state state timeout label)
        h (.leave inst.state state) z u sub)
      (hdead : u.world.engine.get? h = none) :
      ChangeCourse host s h state timeout label
        ⟨(u.atTime t).world, .give (.refused (.invalidInstance h)), s.stack⟩ (u :: (sub ++ [s]))
  /-- Both hooks are called. -/
  | entered {t : Time} {inst : Instance} {z u z' u' : Execution σ ν}
      {sub sub' : List (Execution σ ν)} {w' : World σ ν} {reply : Reply}
      (hlive : s.world.engine.get? h = some inst)
      (hpermits : inst.descriptor.permits inst.state state = true)
      (hleave : Hooking host s
        (.leaving h inst.descriptor inst.state state timeout label)
        h (.leave inst.state state) z u sub)
      (hsurvives : ∃ a, u.world.engine.get? h = some a)
      (henter : Hooking host s (.entering h inst.descriptor timeout label)
        h (.enter state inst.state) z' u' sub')
      (hcloses : (u'.atTime t).world.Closes (.entering h inst.descriptor timeout label) w' reply) :
      ChangeCourse host s h state timeout label ⟨w', .give reply, s.stack⟩
        (u' :: (sub' ++ u :: (sub ++ [s])))

/-- A change of state that has returned took one of the courses. -/
theorem Spans.changeCourse (hspan : Spans host s x span) (hreturned : s.Returned x)
    (hcall : s.control = .perform (.changeState h state timeout label)) :
    ChangeCourse host s h state timeout label x span := by
  -- The call returns to the stack it began on, so each hook above it has returned before.
  have hx := hspan.stack_eq_of_returned hreturned
  obtain ⟨z, later, hnext, hfollows, rfl⟩ := hspan.step_of_perform hreturned hcall
  obtain ⟨t, -, ht⟩ := hnext.of_perform hcall
  cases ht with
  | answered hanswers =>
    obtain ⟨rfl, rfl⟩ := hspan.eq_of_returned hfollows ⟨⟨_, rfl⟩, Nat.le_refl _⟩
    exact .answered hanswers
  | leaves hlive hpermits =>
    obtain ⟨u, sub, y, rest, hleave, hnext', hfollows', rfl⟩ :=
      hfollows.exists_hooking ⟨_, rfl⟩ rfl hx
    rw [List.append_assoc] at hspan ⊢
    obtain ⟨t', reply, -, ht'⟩ := hnext'.of_give hleave.regains.1 hleave.regains.2
    cases ht' with
    | closes hcloses =>
      cases hcloses with
      | leaving d source state timeout label hdead =>
        obtain ⟨rfl, rfl⟩ := hspan.eq_of_returned hfollows' ⟨⟨_, rfl⟩, Nat.le_refl _⟩
        exact .left hlive hpermits hleave hdead
    | enters hsurvives =>
      obtain ⟨u', sub', y', rest', henter, hnext'', hfollows'', rfl⟩ :=
        hfollows'.exists_hooking ⟨_, rfl⟩ rfl hx
      rw [List.append_assoc] at hspan ⊢
      obtain ⟨t'', reply', -, ht''⟩ := hnext''.of_give henter.regains.1 henter.regains.2
      cases ht'' with
      | closes hcloses =>
        obtain ⟨rfl, rfl⟩ := hspan.eq_of_returned hfollows'' ⟨⟨_, rfl⟩, Nat.le_refl _⟩
        exact .entered hlive hpermits hleave ⟨_, hsurvives⟩ henter hcloses

/-! ## Outcomes -/

/-- A change of state ends when the hook for entering has returned: the instance is gone, or the
change is carried out, and the timer is armed if there is a timeout. -/
theorem closes_entering {w w' : World σ ν} {reply : Reply}
    (hc : w.Closes (.entering h d timeout label) w' reply) :
    w.engine.get? h = none ∧ w' = w ∧ reply = .refused (.invalidInstance h) ∨
      (∃ a, w.engine.get? h = some a) ∧ reply = .done ∧ (timeout = 0 → w' = w) ∧
        (timeout ≠ 0 → w'.engine = w.engine.arm w'.now h timeout label) := by
  cases hc with
  | entering _ _ _ hdead => exact .inl ⟨hdead, rfl, rfl⟩
  | unarmed _ _ hlive => exact .inr ⟨⟨_, hlive⟩, rfl, fun _ => rfl, fun hne => absurd rfl hne⟩
  | armed hlive hne =>
    refine .inr ⟨⟨_, hlive⟩, rfl, fun htimeout => absurd htimeout hne, fun _ => ?_⟩
    rw [World.engine_armed, World.now_armed]

/-- What is known about a change of state that begins at `s` and has returned at the moment `x`,
after the listed ones. -/
structure ChangeOutcome (s : Execution σ ν) (h : Handle) (state : StateId) (timeout : Duration)
    (label : Nat) (x : Execution σ ν) (span : List (Execution σ ν)) : Prop where
  /-- It is refused for want of an edge exactly if the instance is live at the beginning and its
  state has no such target. -/
  notPermitted_iff : (∃ name source target,
      x.control = .give (.refused (.transitionNotPermitted name source target))) ↔
    ∃ inst row, s.world.engine.get? h = some inst ∧
      inst.descriptor.row? inst.state = some row ∧ row.out.contains state = false
  /-- It is refused for want of an instance exactly if the instance is dead at the beginning, or
  when the hook for leaving has returned, or when the hook for entering has. -/
  invalid_iff : x.control = .give (.refused (.invalidInstance h)) ↔
    s.world.engine.get? h = none ∨
      ∃ y ∈ span, (s.AfterLeave y h ∨ s.AfterEnter y h) ∧ y.world.engine.get? h = none
  /-- Otherwise it is carried out. -/
  answer : (∃ name source target,
      x.control = .give (.refused (.transitionNotPermitted name source target))) ∨
    x.control = .give (.refused (.invalidInstance h)) ∨ x.control = .give .done
  /-- The hook for entering is called exactly if the instance survives the hook for leaving. -/
  enters_iff : (∃ new old, (h, .enter new old) ∈ s.directHooks (x :: span)) ↔
    ∃ y ∈ span, s.AfterLeave y h ∧ ∃ a, y.world.engine.get? h = some a
  /-- The hooks are told the state that the instance was in and the one that it is moved to. -/
  hooks : ∀ call ∈ s.directHooks (x :: span), ∃ inst, s.world.engine.get? h = some inst ∧
    (call = (h, .leave inst.state state) ∨ call = (h, .enter state inst.state))
  /-- If it is carried out with a timeout, the last thing it does is to arm the timer. -/
  armed : x.control = .give .done → timeout ≠ 0 → ∃ y ∈ span, s.AfterEnter y h ∧
    x.world.engine = y.world.engine.arm x.world.now h timeout label ∧
    x.world.engine.timerLabel? h = some label ∧
    ∃ d, x.deadline? h = some d ∧ d.time = x.world.now + min timeout TimerQueue.farthest
  /-- If it is carried out without a timeout, it leaves the engine as the hooks did. -/
  unarmed : x.control = .give .done → timeout = 0 → ∃ y ∈ span, s.AfterEnter y h ∧
    x.world.engine = y.world.engine
  /-- If the instance is live at the beginning and dies, no timer is armed for it, and nothing at
  all is done after the hook in which it died. -/
  died : (∃ a, s.world.engine.get? h = some a) → (∃ y ∈ span, y.world.engine.get? h = none) →
    x.control = .give (.refused (.invalidInstance h)) ∧ x.deadline? h = none ∧
      ∃ y earlier, span = y :: earlier ∧ (s.AfterLeave y h ∨ s.AfterEnter y h) ∧
        x.world = (y.atTime x.world.now).world

namespace ChangeCourse

/-- The courses that are refused for want of an edge. -/
theorem notPermitted_iff (hc : ChangeCourse host s h state timeout label x span)
    (hstates : ∀ inst, s.world.engine.get? h = some inst →
      inst.state < inst.descriptor.states.length) :
    (∃ name source target,
      x.control = .give (.refused (.transitionNotPermitted name source target))) ↔
    ∃ inst row, s.world.engine.get? h = some inst ∧
      inst.descriptor.row? inst.state = some row ∧ row.out.contains state = false := by
  have hedge : ∀ {inst}, s.world.engine.get? h = some inst →
      inst.descriptor.permits inst.state state = true →
      ¬ ∃ inst row, s.world.engine.get? h = some inst ∧
        inst.descriptor.row? inst.state = some row ∧ row.out.contains state = false := by
    rintro inst hlive hpermits ⟨inst', row, hlive', hrow, hout⟩
    cases hlive.symm.trans hlive'
    rw [Descriptor.permits_of_row? hrow, hout] at hpermits
    cases hpermits
  cases hc with
  | answered hanswers =>
    cases hanswers with
    | unmoved _ _ _ hdead =>
      refine iff_of_false (by simp) ?_
      rintro ⟨inst, row, hlive, -⟩
      cases hdead.symm.trans hlive
    | @changeRefused _ _ _ _ inst _ hlive hpermits hwhy =>
      have hrow := List.getElem?_eq_getElem (hstates inst hlive)
      refine iff_of_true ⟨_, _, _, by rw [hwhy]⟩ ⟨inst, _, hlive, hrow, ?_⟩
      rwa [← Descriptor.permits_of_row? hrow]
  | left hlive hpermits => exact iff_of_false (by simp) (hedge hlive hpermits)
  | entered hlive hpermits hleave hsurvives henter hcloses =>
    refine iff_of_false ?_ (hedge hlive hpermits)
    rcases closes_entering hcloses with ⟨-, -, rfl⟩ | ⟨-, rfl, -⟩ <;> simp

/-- The courses that are refused for want of an instance. -/
theorem invalid_iff (hc : ChangeCourse host s h state timeout label x span) :
    x.control = .give (.refused (.invalidInstance h)) ↔ s.world.engine.get? h = none ∨
      ∃ y ∈ span, (s.AfterLeave y h ∨ s.AfterEnter y h) ∧ y.world.engine.get? h = none := by
  cases hc with
  | answered hanswers =>
    cases hanswers with
    | unmoved _ _ _ hdead => exact iff_of_true rfl (.inl hdead)
    | changeRefused hlive hpermits hwhy =>
      refine iff_of_false (by simp [hwhy]) ?_
      rintro (hdead | ⟨y, hy, hafter, -⟩)
      · cases hdead.symm.trans hlive
      · exact not_after_of_mem hy hafter
  | left hlive hpermits hleave hdead =>
    exact iff_of_true rfl
      (.inr ⟨_, List.mem_cons_self, .inl ⟨_, _, _, _, _, hleave.regains⟩, hdead⟩)
  | entered hlive hpermits hleave hsurvives henter hcloses =>
    rcases closes_entering hcloses with ⟨hdead, -, rfl⟩ | ⟨⟨a, ha⟩, rfl, -⟩
    · exact iff_of_true rfl
        (.inr ⟨_, List.mem_cons_self, .inr ⟨_, _, _, henter.regains⟩, hdead⟩)
    · refine iff_of_false (by simp) ?_
      rintro (hdead | ⟨y, hy, hafter, hdead⟩)
      · cases hdead.symm.trans hlive
      · -- The instance was there each time a hook had returned.
        obtain ⟨frame, hregains⟩ := exists_regains hafter
        rcases henter.regains_cases hy hregains with ⟨rfl, -⟩ | hy
        · cases hdead.symm.trans ha
        rcases hleave.regains_cases hy hregains with ⟨rfl, -⟩ | hy
        · obtain ⟨b, hb⟩ := hsurvives
          cases hdead.symm.trans hb
        · exact not_after_of_mem hy hafter

/-- The answers of the courses. -/
theorem answer (hc : ChangeCourse host s h state timeout label x span) :
    (∃ name source target,
      x.control = .give (.refused (.transitionNotPermitted name source target))) ∨
    x.control = .give (.refused (.invalidInstance h)) ∨ x.control = .give .done := by
  cases hc with
  | answered hanswers =>
    cases hanswers with
    | unmoved => exact .inr (.inl rfl)
    | changeRefused hlive hpermits hwhy => exact .inl ⟨_, _, _, by rw [hwhy]⟩
  | left => exact .inr (.inl rfl)
  | entered hlive hpermits hleave hsurvives henter hcloses =>
    rcases closes_entering hcloses with ⟨-, -, rfl⟩ | ⟨-, rfl, -⟩
    · exact .inr (.inl rfl)
    · exact .inr (.inr rfl)

/-- The courses with a hook for entering, and the hooks of all courses. -/
theorem hooks (hc : ChangeCourse host s h state timeout label x span)
    (hcall : s.control = .perform (.changeState h state timeout label)) :
    ((∃ new old, (h, .enter new old) ∈ s.directHooks (x :: span)) ↔
      ∃ y ∈ span, s.AfterLeave y h ∧ ∃ a, y.world.engine.get? h = some a) ∧
    ∀ call ∈ s.directHooks (x :: span), ∃ inst, s.world.engine.get? h = some inst ∧
      (call = (h, .leave inst.state state) ∨ call = (h, .enter state inst.state)) := by
  have hstart : s.directHooks [s] = [] := by simp [directHooks, directHook?, hcall]
  cases hc with
  | answered hanswers =>
    rw [directHooks_cons_of_give s _ ⟨_, rfl⟩, hstart]
    refine ⟨iff_of_false (by simp) ?_, by simp⟩
    rintro ⟨y, hy, hafter, -⟩
    exact not_after_of_mem hy (.inl hafter)
  | left hlive hpermits hleave hdead =>
    rw [directHooks_cons_of_give s _ ⟨_, rfl⟩, ← List.cons_append, directHooks_append,
      hleave.directHooks_eq, hstart, List.append_nil]
    refine ⟨iff_of_false (by simp) ?_, by simp [hlive]⟩
    rintro ⟨y, hy, hafter, a, ha⟩
    obtain ⟨frame, hregains⟩ := exists_regains (.inl hafter)
    rcases hleave.regains_cases hy hregains with ⟨rfl, -⟩ | hy
    · cases hdead.symm.trans ha
    · exact not_after_of_mem hy (.inl hafter)
  | entered hlive hpermits hleave hsurvives henter hcloses =>
    rw [directHooks_cons_of_give s _ ⟨_, rfl⟩, ← List.cons_append, directHooks_append,
      henter.directHooks_eq, ← List.cons_append, directHooks_append, hleave.directHooks_eq, hstart]
    refine ⟨iff_of_true ⟨_, _, List.mem_cons_self⟩ ?_, by simp [hlive]⟩
    exact ⟨_, by simp, ⟨_, _, _, _, _, hleave.regains⟩, hsurvives⟩

/-- The course that carries the change out ends after the hook for entering. -/
theorem of_done (hc : ChangeCourse host s h state timeout label x span)
    (hdone : x.control = .give .done) :
    ∃ y earlier, span = y :: earlier ∧ s.AfterEnter y h ∧
      (∃ a, y.world.engine.get? h = some a) ∧
      (timeout = 0 → x.world.engine = y.world.engine) ∧
      (timeout ≠ 0 → x.world.engine = y.world.engine.arm x.world.now h timeout label) := by
  cases hc with
  | answered hanswers =>
    cases hdone
    cases hanswers
  | left => cases hdone
  | entered hlive hpermits hleave hsurvives henter hcloses =>
    rcases closes_entering hcloses with ⟨-, -, rfl⟩ | ⟨hlive', -, hzero, hset⟩
    · cases hdone
    · exact ⟨_, _, rfl, ⟨_, _, _, henter.regains⟩, hlive',
        fun htimeout => congrArg (·.engine) (hzero htimeout), hset⟩

/-- A course without an instance ends after the hook in which the instance died. -/
theorem of_invalid (hc : ChangeCourse host s h state timeout label x span)
    (hlive : ∃ a, s.world.engine.get? h = some a)
    (hinvalid : x.control = .give (.refused (.invalidInstance h))) :
    ∃ y earlier, span = y :: earlier ∧ (s.AfterLeave y h ∨ s.AfterEnter y h) ∧
      x.world = (y.atTime x.world.now).world ∧ x.world.engine.get? h = none := by
  cases hc with
  | answered hanswers =>
    cases hinvalid
    cases hanswers with
    | unmoved _ _ _ hdead =>
      obtain ⟨a, ha⟩ := hlive
      cases hdead.symm.trans ha
    | changeRefused hlive hpermits hwhy => cases hwhy
  | left hlive hpermits hleave hdead =>
    exact ⟨_, _, rfl, .inl ⟨_, _, _, _, _, hleave.regains⟩, rfl, hdead⟩
  | entered hlive hpermits hleave hsurvives henter hcloses =>
    rcases closes_entering hcloses with ⟨hdead, rfl, -⟩ | ⟨-, rfl, -⟩
    · exact ⟨_, _, rfl, .inr ⟨_, _, _, henter.regains⟩, rfl, hdead⟩
    · cases hinvalid

end ChangeCourse

/-- What is known about a change of state that has returned. -/
theorem Run.outcome (hrun : Run host s past) (hspan : Spans host s x span)
    (hreturned : s.Returned x) (hfew : FewReleases (x :: (span ++ past)))
    (hcall : s.control = .perform (.changeState h state timeout label)) :
    ChangeOutcome s h state timeout label x span := by
  have hc := hspan.changeCourse hreturned hcall
  -- That the state is one of the table needs the bound on releases at the beginning only.
  have hbefore : FewReleases (s :: past) := by
    obtain ⟨later, heq⟩ := hspan.follows.exists_append
    rw [← List.cons_append, heq, List.append_assoc] at hfew
    exact hfew.of_append
  have htimed := (hspan.run hrun).timed
  obtain ⟨henters, hhooks⟩ := hc.hooks hcall
  refine ⟨hc.notPermitted_iff fun inst hlive => hrun.state_lt hbefore hlive, hc.invalid_iff,
    hc.answer, henters, hhooks, fun hdone hne => ?_, fun hdone hzero => ?_, ?_⟩
  · obtain ⟨y, earlier, rfl, hafter, hlive, -, hset⟩ := hc.of_done hdone
    have hengine := hset hne
    refine ⟨y, List.mem_cons_self, hafter, hengine, ?_, ?_⟩
    · rw [hengine, Engine.timerLabel?_arm hlive, if_pos rfl]
    · rw [deadline?, hengine, Engine.arm, TimerQueue.deadline?_schedule, if_pos rfl]
      exact ⟨_, rfl, rfl⟩
  · obtain ⟨y, earlier, rfl, hafter, -, hkept, -⟩ := hc.of_done hdone
    exact ⟨y, List.mem_cons_self, hafter, hkept hzero⟩
  · rintro ⟨a, ha⟩ ⟨z, hz, hdead⟩
    have hinvalid : x.control = .give (.refused (.invalidInstance h)) := by
      rcases hc.answer with hrefused | hinvalid | hdone
      · -- A change that is refused for want of an edge has no moment but its first one.
        obtain ⟨name, source, target, hrefused⟩ := hrefused
        obtain ⟨rfl, -⟩ := hspan.unheeded_of_transitionNotPermitted hreturned hcall hrefused
        rw [List.mem_singleton.1 hz] at hdead
        cases hdead.symm.trans ha
      · exact hinvalid
      · -- The instance is there at the end, so it was there all the time.
        obtain ⟨y, earlier, rfl, -, ⟨b, hb⟩, -⟩ := hc.of_done hdone
        cases hspan.follows with
        | next hfollows hnext =>
          obtain ⟨c, hc⟩ := hrun.live_between hfollows hfew.of_cons ha hb z hz
          cases hdead.symm.trans hc
    obtain ⟨y, earlier, heq, hafter, hworld, hgone⟩ := hc.of_invalid ⟨a, ha⟩ hinvalid
    exact ⟨hinvalid, Engine.deadline?_eq_none_of_dead htimed.live hgone, y, earlier, heq, hafter,
      hworld⟩

/-! ## Changes of state return -/

/-- A change of state takes a first step. -/
theorem exists_step_of_changeState
    (hcall : s.control = .perform (.changeState h state timeout label)) :
    ∃ x, s.step host = .running x := by
  obtain ⟨w, control, stack⟩ := s
  obtain rfl : control = .perform (.changeState h state timeout label) := hcall
  show ∃ x, beginChange w h state timeout label stack = .running x
  unfold beginChange
  split
  next => exact ⟨_, rfl⟩
  next => dsimp only; split <;> exact ⟨_, rfl⟩

/-- A change of state goes on when a hook has returned. -/
theorem exists_step_of_change (hregains : s.Regains y frame)
    (hframe : frame.change? = some (h, timeout, label)) : ∃ x, y.step host = .running x := by
  obtain ⟨w, control, stack⟩ := y
  obtain ⟨⟨reply, hgive⟩, hstack⟩ := hregains
  obtain rfl : control = .give reply := hgive
  obtain rfl : stack = frame :: s.stack := hstack
  cases frame with
  | leaving target d source state timeout label =>
    show ∃ x, afterLeave w target d source state timeout label s.stack = .running x
    unfold afterLeave
    split <;> exact ⟨_, rfl⟩
  | entering target d timeout label =>
    show ∃ x, afterEnter w target d timeout label s.stack = .running x
    unfold afterEnter
    split
    next => exact ⟨_, rfl⟩
    next => split <;> exact ⟨_, rfl⟩
  | _ => cases hframe

/-- When a hook has returned to a change of state, the change goes on without time passing. -/
theorem Spans.change_next (hspan : Spans host s u span) (hstill : Still s (u :: span))
    (hregains : s.Regains u frame) (hframe : frame.change? = some (h, timeout, label)) :
    ∃ x t reply, Spans host s x (u :: span) ∧ Still s (x :: u :: span) ∧
      Transition host ⟨(u.atTime t).world, .give reply, frame :: s.stack⟩ x := by
  have habove : s.stack.length < u.stack.length := by
    rw [hregains.2, List.length_cons]
    omega
  obtain ⟨x, hstep⟩ : ∃ x, u.step host = .running x := exists_step_of_change hregains hframe
  obtain ⟨hspan', hstill'⟩ := hspan.step hstill habove hstep
  have hnext : Next host u x := .move u.world.now (Nat.le_refl _) hstep
  obtain ⟨t, reply, -, ht⟩ := hnext.of_give hregains.1 hregains.2
  exact ⟨x, t, reply, hspan', hstill', ht⟩

/-- While the clock stands still, a change of state returns if the calls that its hooks make do. -/
theorem returns_of_changeState
    (hcall : s.control = .perform (.changeState h state timeout label))
    (hcalls : ∀ y sub call, Spans host s y sub → Still s (y :: sub) →
      y.control = .perform call → y.stack.length = s.stack.length + 2 → Returns host y) :
    Returns host s := by
  obtain ⟨z, hstep⟩ : ∃ z, s.step host = .running z := exists_step_of_changeState hcall
  have hnext : Next host s z := .move s.world.now (Nat.le_refl _) hstep
  obtain ⟨hspan, hstill⟩ := Spans.first_step hcall hstep
  obtain ⟨t, -, ht⟩ := hnext.of_perform hcall
  -- A hook returns if its calls do, and the change goes on at once. There are at most two hooks.
  cases ht with
  | answered => exact ⟨_, _, hspan, ⟨⟨_, rfl⟩, Nat.le_refl _⟩, hstill⟩
  | leaves =>
    obtain ⟨u, sub, hu, hustill, hregains⟩ := hspan.hook_returns hstill ⟨_, _, rfl⟩ rfl hcalls
    obtain ⟨x, t', reply, hx, hxstill, ht'⟩ := hu.change_next hustill hregains rfl
    cases ht' with
    | closes => exact ⟨_, _, hx, ⟨⟨_, rfl⟩, Nat.le_refl _⟩, hxstill⟩
    | enters =>
      obtain ⟨u', sub', hu', hustill', hregains'⟩ :=
        hx.hook_returns hxstill ⟨_, _, rfl⟩ rfl hcalls
      obtain ⟨x', t'', reply', hx', hxstill', ht''⟩ := hu'.change_next hustill' hregains' rfl
      cases ht'' with
      | closes => exact ⟨_, _, hx', ⟨⟨_, rfl⟩, Nat.le_refl _⟩, hxstill'⟩

/-- While the clock stands still, a change of state returns if the calls that its hooks make do.
When it has returned, its answer and what it leaves behind are determined by whether there is such
an edge, and whether the instance is there at the beginning, after the hook for leaving, and after
the hook for entering. -/
theorem Run.changeState_outcome (hrun : Run host s past)
    (hcall : s.control = .perform (.changeState h state timeout label)) :
    ((∀ y sub call, Spans host s y sub → Still s (y :: sub) → y.control = .perform call →
        y.stack.length = s.stack.length + 2 → Returns host y) → Returns host s) ∧
    ∀ x span, Spans host s x span → s.Returned x → FewReleases (x :: (span ++ past)) →
      ChangeOutcome s h state timeout label x span :=
  ⟨returns_of_changeState hcall, fun _ _ hspan hreturned hfew =>
    hrun.outcome hspan hreturned hfew hcall⟩

/-- The first time that an instance is entered it ends itself, allocates another one, and changes
the state of that one. -/
def changeling : Host Nat Unit where
  script _ h hook ctx :=
    match hook, ctx.env with
    | .enter .., 0 =>
      .call (.terminate h .failure none) 1 fun _ _ =>
        .call (.alloc .beacon none none none) 1 fun _ _ =>
          .call (.changeState ⟨0, 1⟩ 0 5 1) 1 fun _ _ => .done 1
    | _, env => .done env

/-- A run in which an instance is allocated. -/
def cradled : Execution Nat Unit × List (Execution Nat Unit) :=
  session changeling 20 (idle { logAddr := false } 0) [] [.alloc .beacon none none none]

/-- The moment at which the state of this instance is changed. -/
def swapping : Execution Nat Unit := ofCall cradled.1.world (.changeState ⟨0, 0⟩ 0 9 2)

/-- The moments of this change. -/
def swapped : Execution Nat Unit × List (Execution Nat Unit) :=
  follow changeling swapping 80 swapping []

/-- The change finds that its instance is gone, and leaves alone the timer of the instance that has
taken over the slot. -/
theorem swapped_outcome : Returns changeling swapping ∧
    ChangeOutcome swapping ⟨0, 0⟩ 0 9 2 swapped.1 swapped.2 ∧
    swapped.1.control = .give (.refused (.invalidInstance ⟨0, 0⟩)) ∧
    swapped.1.deadline? ⟨0, 0⟩ = none ∧ swapped.1.deadline? ⟨0, 1⟩ = some ⟨5, 0⟩ := by
  have hrun : Run changeling swapping (cradled.1 :: cradled.2) :=
    (run_session 20 _ (run_idle _ _)).next (.call _ _ rfl rfl (Nat.le_refl _))
  have hspan : Spans changeling swapping swapped.1 swapped.2 := spans_follow 80 .start
  have hstill : Still swapping (swapped.1 :: swapped.2) := by decide
  have hreturned : swapping.Returned swapped.1 := by decide
  have hfew : FewReleases (swapped.1 :: (swapped.2 ++ cradled.1 :: cradled.2)) :=
    fewReleases_of_length_lt (by decide)
  obtain ⟨hreturns, houtcome⟩ := Run.changeState_outcome hrun rfl
  have hout := houtcome swapped.1 swapped.2 hspan hreturned hfew
  have hdied : ∃ y ∈ swapped.2, y.world.engine.isAlive ⟨0, 0⟩ = false := by decide
  obtain ⟨y, hy, hdead⟩ := hdied
  have hlive : ∃ a, swapping.world.engine.get? ⟨0, 0⟩ = some a :=
    Engine.isAlive_eq_true_iff.1 (by decide)
  obtain ⟨hinvalid, hnone, -⟩ := hout.died hlive ⟨y, hy, Engine.isAlive_eq_false_iff.1 hdead⟩
  refine ⟨hreturns ?_, hout, hinvalid, hnone, by decide⟩
  -- The change has one course, so the calls that hooks make are among its moments.
  intro y sub call hsub hsubstill hcall hlevel
  have hcalls : ∀ y ∈ swapped.1 :: swapped.2, y.stack.length = swapping.stack.length + 2 →
      y.Returned (follow changeling y 80 y []).1 ∧
        Still y ((follow changeling y 80 y []).1 :: (follow changeling y 80 y []).2) := by
    decide
  have hmem : y ∈ swapped.1 :: swapped.2 :=
    (hspan.suffix_of_returned hreturned hstill hsub hsubstill).subset List.mem_cons_self
  obtain ⟨hyreturned, hystill⟩ := hcalls y hmem hlevel
  exact ⟨_, _, spans_follow 80 .start, hyreturned, hystill⟩

end Execution

end StateMachines
