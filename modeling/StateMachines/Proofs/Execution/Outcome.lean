import StateMachines.Proofs.Execution.Nesting

/-!
# How calls return

A call that calls a hook waits for it with a frame of its own, right above the stack on which the
call was made. Given an answer, this frame goes on to another frame of the call, or the call
returns. So the answer of a call comes from its first step, or from the last of its own frames: what
the hooks do in between decides which one it is, but they do not answer in its place.

## Main definitions

* `Execution.Owns`: the frames with which a call waits.
* `Frame.change?`: the change of state that a frame belongs to.

## Main results

* `Execution.Owns.last_step`: the step by which a call returns.
* `Execution.owns_of_changeState`, `Execution.owns_of_dispatch`: the frames of changes of state, and
  those of deliveries.
* `Execution.Run.changeState_of_change`: a frame of a change of state was put on the stack by a call
  that is still open.
-/

namespace StateMachines

variable {σ ν : Type}

/-- The target, the timeout and the label of the change of state that a frame belongs to. -/
def Frame.change? : Frame σ ν → Option (Handle × Duration × Nat)
  | .leaving target _ _ _ timeout label => some (target, timeout, label)
  | .entering target _ timeout label => some (target, timeout, label)
  | _ => none

namespace Execution

variable {host : Host σ ν} {x x' y z s : Execution σ ν} {past span : List (Execution σ ν)}
  {frame : Frame σ ν} {rest stack : List (Frame σ ν)} {p : Frame σ ν → Prop} {h : Handle}
  {event : EventId} {data : Option Payload} {state : StateId} {timeout : Duration} {label : Nat}

/-! ## The last step -/

/-- A moment at which a call is made answers nothing. -/
theorem control_ne_give {call : Call} (hcall : x.control = .perform call) (reply : Reply) :
    x.control ≠ .give reply := by
  rw [hcall]
  nofun

/-- A frame that is not given an answer stays on the stack. -/
theorem Next.suffix (hnext : Next host x x') (hsuffix : frame :: rest <:+ x.stack)
    (hopen : ¬ ((∃ reply, x.control = .give reply) ∧ x.stack.length ≤ (frame :: rest).length)) :
    frame :: rest <:+ x'.stack := by
  obtain ⟨t, -, ht⟩ | ⟨w, call, answer, rfl, -, hempty, -⟩ := hnext.cases
  · exact ht.suffix hsuffix hopen
  · rw [hempty] at hsuffix
    simp at hsuffix

/-- The frames with which a call waits for the hooks that it calls are of the given kind. -/
structure Owns (host : Host σ ν) (s : Execution σ ν) (p : Frame σ ν → Prop) : Prop where
  /-- If the call does not return by its first step, it waits with such a frame. -/
  first : ∀ z, Next host s z → ¬ s.Returned z → ∃ frame, p frame ∧ z.stack = frame :: s.stack
  /-- Once such a frame is given an answer, the call returns or waits with another one. -/
  goes : ∀ y z frame, p frame → y.stack = frame :: s.stack → (∃ reply, y.control = .give reply) →
    Next host y z → ¬ s.Returned z → ∃ frame, p frame ∧ z.stack = frame :: s.stack

/-- After its first step and until it returns, a call has one of its own frames right above the
stack on which it was made. -/
theorem Owns.exists_own (howns : Owns host s p) (hspan : Spans host s x span) :
    x = s ∧ span = [] ∨ (∃ frame, p frame ∧ frame :: s.stack <:+ x.stack) ∨ s.Returned x := by
  induction hspan with
  | start => exact .inl ⟨rfl, rfl⟩
  | @next x x' span hspan hopen hnext ih =>
    by_cases hreturned : s.Returned x'
    · exact .inr (.inr hreturned)
    · refine .inr (.inl ?_)
      rcases ih with ⟨rfl, -⟩ | ⟨frame, hframe, hsuffix⟩ | hdone
      · obtain ⟨frame, hframe, hstack⟩ := howns.first x' hnext hreturned
        exact ⟨frame, hframe, hstack ▸ List.suffix_rfl⟩
      · by_cases hgive : (∃ reply, x.control = .give reply) ∧
            x.stack.length ≤ (frame :: s.stack).length
        · -- The frame is given an answer, and another one takes its place.
          have hstack := (hsuffix.eq_of_length_le hgive.2).symm
          obtain ⟨frame', hframe', hstack'⟩ :=
            howns.goes x x' frame hframe hstack hgive.1 hnext hreturned
          exact ⟨frame', hframe', hstack' ▸ List.suffix_rfl⟩
        · -- What happens, happens further up the stack.
          exact ⟨frame, hframe, hnext.suffix hsuffix hgive⟩
      · exact absurd hdone hopen

/-- A call returns by its first step, or when one of its own frames is given an answer. -/
theorem Owns.last_step (howns : Owns host s p) (hspan : Spans host s x span)
    (hreturned : s.Returned x) (hbegins : ∀ reply, s.control ≠ .give reply) :
    ∃ y earlier, span = y :: earlier ∧ Next host y x ∧
      (y = s ∧ earlier = [] ∨ ∃ frame, p frame ∧ y.stack = frame :: s.stack ∧
        ∃ reply, y.control = .give reply) := by
  have hstack := hspan.stack_eq_of_returned hreturned
  cases hspan with
  | start =>
    obtain ⟨⟨reply, hgive⟩, -⟩ := hreturned
    exact absurd hgive (hbegins reply)
  | @next y _ earlier hspan hopen hnext =>
    refine ⟨y, earlier, rfl, hnext, ?_⟩
    rcases howns.exists_own hspan with hfirst | ⟨frame, hframe, hsuffix⟩ | hdone
    · exact .inl hfirst
    · -- The frame is gone after the step, so it was given an answer.
      by_cases hgive : (∃ reply, y.control = .give reply) ∧
          y.stack.length ≤ (frame :: s.stack).length
      · exact .inr ⟨frame, hframe, (hsuffix.eq_of_length_le hgive.2).symm, hgive.1⟩
      · have hle := (hnext.suffix hsuffix hgive).length_le
        rw [hstack, List.length_cons] at hle
        omega
    · exact absurd hdone hopen

/-! ## Changes of state -/

/-- The first step of a change of state answers it, or calls the hook for leaving. -/
theorem Next.of_changeState (hnext : Next host x x')
    (hcall : x.control = .perform (.changeState h state timeout label)) :
    (∃ t w' reply, (x.atTime t).world.Answers (.changeState h state timeout label) w' reply ∧
      x' = ⟨w', .give reply, x.stack⟩) ∨
    (∀ reply, x'.control ≠ .give reply) ∧
      ∃ frame, frame.change? = some (h, timeout, label) ∧ x'.stack = frame :: x.stack := by
  obtain ⟨t, -, ht⟩ := hnext.of_perform hcall
  cases ht with
  | answered hanswers => exact .inl ⟨t, _, _, hanswers, rfl⟩
  | leaves hlive hpermits => exact .inr ⟨by simp, _, rfl, rfl⟩

/-- Given an answer, a frame of a change of state goes on to another one with a hook, or the change
ends: the instance is gone, or the change is carried out. -/
theorem Next.of_change (hnext : Next host x x') (hframe : frame.change? = some (h, timeout, label))
    (hstack : x.stack = frame :: rest) (hgive : ∃ reply, x.control = .give reply) :
    ((∀ reply, x'.control ≠ .give reply) ∧
      ∃ frame', frame'.change? = some (h, timeout, label) ∧ x'.stack = frame' :: rest) ∨
    x'.stack = rest ∧ (x'.control = .give (.refused (.invalidInstance h)) ∨
      x'.control = .give .done ∧ (∃ d, frame = .entering h d timeout label) ∧
        ∃ inst, x.world.engine.get? h = some inst) := by
  obtain ⟨t, reply, -, ht⟩ := hnext.of_give hgive hstack
  cases ht with
  | closes hcloses =>
    cases hcloses with
    | leaving | entering =>
      cases hframe
      exact .inr ⟨rfl, .inl rfl⟩
    | unarmed d label' hlive =>
      cases hframe
      exact .inr ⟨rfl, .inr ⟨rfl, ⟨d, rfl⟩, _, hlive⟩⟩
    | @armed target inst d timeout' label' hlive htimeout =>
      cases hframe
      exact .inr ⟨rfl, .inr ⟨rfl, ⟨d, rfl⟩, inst, hlive⟩⟩
    | _ => cases hframe
  | enters hlive =>
    cases hframe
    exact .inl ⟨by simp, _, rfl, rfl⟩
  | _ => cases hframe

/-- A change of state waits with frames that remember its target, its timeout and its label. -/
theorem owns_of_changeState (hcall : s.control = .perform (.changeState h state timeout label)) :
    Owns host s fun frame => frame.change? = some (h, timeout, label) := by
  constructor
  · intro z hnext hopen
    rcases hnext.of_changeState hcall with ⟨t, w', reply, -, rfl⟩ | ⟨-, hframe⟩
    · exact absurd ⟨⟨reply, rfl⟩, Nat.le_refl _⟩ hopen
    · exact hframe
  · intro y z frame hframe hstack hgive hnext hopen
    rcases hnext.of_change hframe hstack hgive with ⟨-, hframe'⟩ | ⟨hrest, hanswer⟩
    · exact hframe'
    · refine absurd ⟨?_, Nat.le_of_eq (congrArg List.length hrest)⟩ hopen
      rcases hanswer with hreply | ⟨hreply, -⟩
      · exact ⟨_, hreply⟩
      · exact ⟨_, hreply⟩

/-- A frame of a change of state was put on the stack by a call, or another frame of the same change
was there before. -/
theorem Transition.change_origin (ht : Transition host x x')
    (hframe : frame.change? = some (h, timeout, label)) (hsuffix : frame :: rest <:+ x'.stack) :
    (x.stack = rest ∧ ∃ state, x.control = .perform (.changeState h state timeout label)) ∨
      ∃ frame', frame'.change? = some (h, timeout, label) ∧ frame' :: rest <:+ x.stack := by
  have hbelow : ∀ {f : Frame σ ν} {below}, x.stack = f :: below → frame :: rest <:+ below →
      ∃ frame', frame'.change? = some (h, timeout, label) ∧ frame' :: rest <:+ x.stack := by
    intro f below hstack hs
    exact ⟨frame, hframe, hstack ▸ hs.trans (List.suffix_cons f below)⟩
  cases ht with
  | answered | calls | scriptDone | scriptNote => exact .inr ⟨frame, hframe, hsuffix⟩
  | resumes | closes => exact .inr (hbelow rfl hsuffix)
  | @leaves w target state timeout label inst stack hlive hpermits =>
    rcases List.suffix_cons_iff.1 hsuffix with heq | hs
    · cases heq
      cases hframe
      exact .inl ⟨rfl, state, rfl⟩
    · exact .inr ⟨frame, hframe, hs⟩
  | childRefused | deliversAll | delivers | ends | fires | scriptCall =>
    rcases List.suffix_cons_iff.1 hsuffix with heq | hs
    · cases heq
      cases hframe
    · exact .inr ⟨frame, hframe, hs⟩
  | @enters w target d source state timeout label inst answer stack hlive =>
    rcases List.suffix_cons_iff.1 hsuffix with heq | hs
    · -- The frame has taken the place of the one that waited for the hook for leaving.
      cases heq
      exact .inr ⟨.leaving target d source state timeout label, hframe, List.suffix_rfl⟩
    · exact .inr (hbelow rfl hs)
  | endsChild | skipsChild | cleans | tells | skipsTimer | expires =>
    rcases List.suffix_cons_iff.1 hsuffix with heq | hs
    · cases heq
      cases hframe
    · exact .inr (hbelow rfl hs)

/-- A frame of a change of state belongs to a call that is still open. -/
theorem Run.changeState_of_change (hrun : Run host x past)
    (hframe : frame.change? = some (h, timeout, label)) (hsuffix : frame :: rest <:+ x.stack) :
    ∃ s span before state, past = span ++ before ∧ Run host s before ∧ Spans host s x span ∧
      s.stack = rest ∧ s.control = .perform (.changeState h state timeout label) := by
  induction hrun generalizing frame with
  | start => simp at hsuffix
  | @next x x' past hrun hnext ih =>
    obtain ⟨t, -, ht⟩ | ⟨w, call, answer, rfl, -⟩ := hnext.cases
    · rcases ht.change_origin hframe hsuffix with
        ⟨hstack, state, hcall⟩ | ⟨frame', hframe', hbefore⟩
      · refine ⟨x, [x], past, state, rfl, hrun, Spans.start.next ?_ hnext, hstack, hcall⟩
        rintro ⟨⟨reply, hgive⟩, -⟩
        exact control_ne_give hcall reply hgive
      · -- The call is still open, because a frame of it has been on the stack.
        obtain ⟨s, span, before, state, rfl, hs, hspan, hstack, hcall⟩ := ih hframe' hbefore
        refine ⟨s, x :: span, before, state, rfl, hs, hspan.next ?_ hnext, hstack, hcall⟩
        rintro ⟨-, hlow⟩
        have hle : rest.length + 1 ≤ x.stack.length := hbefore.length_le
        rw [hstack] at hlow
        omega
    · simp [ofCall] at hsuffix

/-! ## Deliveries of events -/

/-- A delivery waits for its hook with a frame that answers that it is done. -/
theorem owns_of_dispatch (hcall : s.control = .perform (.dispatch h event data)) :
    Owns host s (· = .answer .done) := by
  constructor
  · intro z hnext hopen
    obtain ⟨t, -, ht⟩ := hnext.of_perform hcall
    cases ht with
    | answered => exact absurd ⟨⟨_, rfl⟩, Nat.le_refl _⟩ hopen
    | deliversAll | delivers => exact ⟨_, rfl, rfl⟩
  · rintro y z frame rfl hstack hgive hnext hopen
    obtain ⟨t, reply, -, ht⟩ := hnext.of_give hgive hstack
    cases ht with
    | closes hcloses =>
      cases hcloses
      exact absurd ⟨⟨_, rfl⟩, Nat.le_refl _⟩ hopen

/-- A delivery returns by its first step, or it is done when its hook has returned. -/
theorem Spans.last_step_of_dispatch (hspan : Spans host s x span) (hreturned : s.Returned x)
    (hcall : s.control = .perform (.dispatch h event data)) :
    ∃ y earlier, span = y :: earlier ∧ Next host y x ∧
      (y = s ∧ earlier = [] ∨ x.control = .give .done) := by
  obtain ⟨y, earlier, heq, hnext, hfirst | ⟨frame, rfl, hstack, hgive⟩⟩ :=
    (owns_of_dispatch hcall).last_step hspan hreturned (control_ne_give hcall)
  · exact ⟨y, earlier, heq, hnext, .inl hfirst⟩
  · obtain ⟨t, reply, -, ht⟩ := hnext.of_give hgive hstack
    cases ht with
    | closes hcloses =>
      cases hcloses
      exact ⟨y, earlier, heq, hnext, .inr rfl⟩

end Execution

end StateMachines
