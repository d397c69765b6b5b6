import StateMachines.Proofs.Execution.Nesting
import StateMachines.Proofs.StateWalk
import StateMachines.Proofs.Termination.Endings

/-!
# The course of a termination

A termination of an instance that is live, and whose end has not begun, goes through three phases,
whatever the hooks do in the meantime. First the children of the instance are ended, one by one.
Then the hook for cleaning up is called and returns. Then the instance is released and its parent
is told, unless there is none or it is the parent that ends the instance. The instance lives
through the first two phases and is dead in the third.

A termination of any other handle is answered at once.

## Main definitions

* `notice`: the call by which a parent is told of an end.
* `Execution.Course`: the three phases of a termination.

## Main results

* `Execution.Run.course`: a termination takes this course.
* `Execution.Next.terminate_idle`: a termination that finds nothing to end changes nothing.
* `Execution.Spans.childRefused`: what the allocation of a child below a terminating parent does.
-/

namespace StateMachines

/-- The call by which a parent is told of an end, if there is a parent and it is to be told. -/
def notice (parent : Option Handle) (event : EventId) (cause : Cause) (data : Option Payload) :
    List Call :=
  match parent with
  | some parent => if cause = .parent then [] else [.dispatch parent event data]
  | none => []

/-- No parent is told of an end that it has called for itself. -/
theorem notice_of_quiet {parent : Option Handle} {cause : Cause}
    (hquiet : parent = none ∨ cause = .parent) (event : EventId) (data : Option Payload) :
    notice parent event cause data = [] := by
  rcases hquiet with rfl | rfl
  · rfl
  · cases parent <;> rfl

/-- A parent is told of an end that it has not called for. -/
theorem notice_of_ne {cause : Cause} (hcause : cause ≠ .parent) (parent : Handle)
    (event : EventId) (data : Option Payload) :
    notice (some parent) event cause data = [.dispatch parent event data] :=
  if_neg hcause

namespace Execution

variable {σ ν : Type} {host : Host σ ν} {x x' g g' r z : Execution σ ν}
  {past before span : List (Execution σ ν)} {stack : List (Frame σ ν)} {ending : Ending}
  {h p : Handle} {inst : Instance} {cause : Cause} {data : Option Payload} {d : Descriptor}
  {event : EventId}

/-! ## Steps of a termination -/

/-- A termination of a live instance whose end has not begun turns to the children. -/
theorem Next.of_terminate (hnext : Next host g g')
    (hcontrol : g.control = .perform (.terminate h cause data))
    (hlive : g.world.engine.get? h = some inst) (hactive : inst.terminating = false) :
    g'.control = .give .done ∧
      g'.stack = .cascade ⟨h, inst.descriptor, cause, data, inst.parent, inst.parentEvent⟩
        inst.children :: g.stack := by
  obtain ⟨t, -, ht⟩ := hnext.of_perform hcontrol
  cases ht with
  | answered hanswers =>
    cases hanswers with
    | endless data hdead => cases hdead.symm.trans hlive
    | ending data hlive' hending =>
      cases hlive.symm.trans hlive'
      cases hactive.symm.trans hending
  | ends hlive' hactive' =>
    cases hlive.symm.trans hlive'
    exact ⟨rfl, rfl⟩

/-- A termination that finds nothing to end is answered at once, and leaves a log record only. -/
theorem Next.terminate_idle (hnext : Next host g g')
    (hcontrol : g.control = .perform (.terminate h cause data))
    (hidle : ∀ inst, g.world.engine.get? h = some inst → inst.terminating = true) :
    ∃ t record, g' = ⟨(g.atTime t).world.log record, .give .done, g.stack⟩ := by
  obtain ⟨t, -, ht⟩ := hnext.of_perform hcontrol
  cases ht with
  | answered hanswers =>
    cases hanswers with
    | endless => exact ⟨t, _, rfl⟩
    | ending => exact ⟨t, _, rfl⟩
  | ends hlive hactive => cases hactive.symm.trans (hidle _ hlive)

/-- The end of an instance turns to the next child. -/
theorem Next.of_cascade {child : Handle} {rest : List Handle} (hnext : Next host g g')
    (hgive : ∃ reply, g.control = .give reply)
    (hstack : g.stack = .cascade ending (child :: rest) :: stack) :
    g'.stack = .cascade ending rest :: stack ∧
      (g'.control = .give .done ∨ g'.control = .perform (.terminate child .parent none)) := by
  obtain ⟨t, reply, -, ht⟩ := hnext.of_give hgive hstack
  cases ht with
  | closes hcloses => cases hcloses
  | endsChild => exact ⟨rfl, .inr rfl⟩
  | skipsChild => exact ⟨rfl, .inl rfl⟩

/-- After the last child the hook for cleaning up is called. -/
theorem Next.of_cascade_nil (hnext : Next host g g') (hgive : ∃ reply, g.control = .give reply)
    (hstack : g.stack = .cascade ending [] :: stack) :
    g'.control = .hook ending.descriptor ending.target (.cleanup ending.cause) ∧
      g'.stack = .cleaning ending :: stack := by
  obtain ⟨t, reply, -, ht⟩ := hnext.of_give hgive hstack
  cases ht with
  | closes hcloses => cases hcloses
  | cleans => exact ⟨rfl, rfl⟩

/-- After the hook for cleaning up the instance is released, and the parent is told if it is to be
told. -/
theorem Next.of_cleaning (hnext : Next host g g') (hgive : ∃ reply, g.control = .give reply)
    (hstack : g.stack = .cleaning ending :: stack) :
    g'.world.engine = g.world.engine.free ending.target ∧
      ((ending.parent = none ∨ ending.cause = .parent) ∧ g'.control = .give .done ∧
          g'.stack = stack ∨
        ∃ parent, ending.parent = some parent ∧ ending.cause ≠ .parent ∧
          g'.control = .perform (.dispatch parent ending.parentEvent ending.data) ∧
          g'.stack = .answer .done :: stack) := by
  obtain ⟨t, reply, -, ht⟩ := hnext.of_give hgive hstack
  cases ht with
  | closes hcloses =>
    cases hcloses with
    | released hquiet => exact ⟨World.engine_released _ _, .inl ⟨hquiet, rfl, rfl⟩⟩
  | tells hparent hcause =>
    exact ⟨World.engine_released _ _, .inr ⟨_, hparent, hcause, rfl, rfl⟩⟩

/-- An operation that only waits for an answer gives its own next. -/
theorem Next.of_answer {answer : Reply} (hnext : Next host g g')
    (hgive : ∃ reply, g.control = .give reply) (hstack : g.stack = .answer answer :: stack) :
    ∃ t, g' = ⟨(g.atTime t).world, .give answer, stack⟩ := by
  obtain ⟨t, reply, -, ht⟩ := hnext.of_give hgive hstack
  cases ht with
  | closes hcloses =>
    cases hcloses
    exact ⟨t, rfl⟩

/-! ## The course -/

/-- As long as an operation waits above the stack of a call, the call goes on by another step. -/
theorem Follows.step_of_frame {frame : Frame σ ν} (hfollows : Follows host g x span)
    (hstack : g.stack = frame :: z.stack) (hlow : x.stack.length ≤ z.stack.length) :
    ∃ g' later, Next host g g' ∧ Follows host g' x later ∧ span = later ++ [g] := by
  apply hfollows.step
  rintro rfl
  cases hfollows
  rw [hstack, List.length_cons] at hlow
  omega

/-- One child of an instance is ended. -/
theorem Follows.endsChild {child : Handle} {rest : List Handle} (hfollows : Follows host g x span)
    (hgive : ∃ reply, g.control = .give reply)
    (hstack : g.stack = .cascade ending (child :: rest) :: z.stack)
    (hlow : x.stack.length ≤ z.stack.length) :
    ∃ v later round, Follows host v x later ∧ (∃ reply, v.control = .give reply) ∧
      v.stack = .cascade ending rest :: z.stack ∧ span = later ++ round ∧
      z.directHooks round = [] ∧
      ∀ call ∈ z.directCalls round, call = .terminate child .parent none := by
  obtain ⟨g', later, hnext, hlater, rfl⟩ := hfollows.step_of_frame hstack hlow
  obtain ⟨hstack', hcontrol⟩ := hnext.of_cascade hgive hstack
  rcases hcontrol with hdone | hcall
  · -- The child is gone already.
    refine ⟨g', later, [g], hlater, ⟨_, hdone⟩, hstack', rfl, ?_, ?_⟩
    · exact directHooks_cons_of_give z [] hgive
    · rw [directCalls_cons_of_give z [] hgive]
      nofun
  · -- The moments of the call that ends the child are those up to its return at `v`.
    have hlt : x.stack.length < g'.stack.length := by
      rw [hstack', List.length_cons]
      omega
    obtain ⟨v, sub, later', hsub, hreturned, hlater', rfl, -⟩ := hlater.returned_of_lt hlt
    obtain ⟨hcalls, hhooks⟩ := hsub.direct_eq z (by simp [hcall])
      (by rw [hstack', List.length_cons])
    have hvstack := (hsub.stack_eq_of_returned hreturned).trans hstack'
    refine ⟨v, later', sub ++ [g], hlater', hreturned.1, hvstack, List.append_assoc .., ?_, ?_⟩
    · rw [directHooks_cons_of_give z sub hreturned.1] at hhooks
      have hsubhooks : z.directHooks sub = [] := by simpa [directHook?, hcall] using hhooks
      rw [directHooks_append, directHooks_cons_of_give z [] hgive, hsubhooks]
      rfl
    · rw [directCalls_cons_of_give z sub hreturned.1] at hcalls
      have hsubcalls : z.directCalls sub = [.terminate child .parent none] := by
        simpa [directCall?, hcall, hstack'] using hcalls
      rw [directCalls_append, directCalls_cons_of_give z [] hgive, hsubcalls]
      intro call hmem
      exact List.mem_singleton.1 hmem

/-- After the last child the hook for cleaning up is called, and returns. -/
theorem Follows.cleans (hfollows : Follows host g x span)
    (hgive : ∃ reply, g.control = .give reply) (hstack : g.stack = .cascade ending [] :: z.stack)
    (hlow : x.stack.length ≤ z.stack.length) :
    ∃ c u cleaning u' later, Spans host c u cleaning ∧ c.Returned u ∧
      c.control = .hook ending.descriptor ending.target (.cleanup ending.cause) ∧
      c.stack = .cleaning ending :: z.stack ∧ Next host u u' ∧ Follows host u' x later ∧
      span = later ++ u :: cleaning ++ [g] := by
  obtain ⟨c, later, hnext, hlater, rfl⟩ := hfollows.step_of_frame hstack hlow
  obtain ⟨hcontrol, hcstack⟩ := hnext.of_cascade_nil hgive hstack
  have hlt : x.stack.length < c.stack.length := by
    rw [hcstack, List.length_cons]
    omega
  obtain ⟨u, cleaning, u', later', hspan, hreturned, hnext', hlater', rfl⟩ := hlater.goesOn hlt
  exact ⟨c, u, cleaning, u', later', hspan, hreturned, hcontrol, hcstack, hnext', hlater', rfl⟩

/-- The children of an instance are ended, and then its hook for cleaning up is called and
returns. -/
theorem Follows.cascades {rest : List Handle} (hfollows : Follows host g x span)
    (hgive : ∃ reply, g.control = .give reply)
    (hstack : g.stack = .cascade ending rest :: z.stack)
    (hlow : x.stack.length ≤ z.stack.length) :
    ∃ c u cleaning u' later cascade, Spans host c u cleaning ∧ c.Returned u ∧
      c.control = .hook ending.descriptor ending.target (.cleanup ending.cause) ∧
      c.stack = .cleaning ending :: z.stack ∧ Next host u u' ∧ Follows host u' x later ∧
      span = later ++ u :: cleaning ++ cascade ∧ z.directHooks cascade = [] ∧
      ∀ call ∈ z.directCalls cascade, ∃ child ∈ rest, call = .terminate child .parent none := by
  -- Induction on the children that are left; `g` is the moment at which the next one is due.
  induction rest generalizing g span with
  | nil =>
    obtain ⟨c, u, cleaning, u', later, hspan, hreturned, hcontrol, hcstack, hnext, hlater, rfl⟩ :=
      hfollows.cleans hgive hstack hlow
    refine ⟨c, u, cleaning, u', later, [g], hspan, hreturned, hcontrol, hcstack, hnext, hlater,
      rfl, ?_, ?_⟩
    · exact directHooks_cons_of_give z [] hgive
    · rw [directCalls_cons_of_give z [] hgive]
      nofun
  | cons child rest ih =>
    obtain ⟨v, later, round, hlater, hvgive, hvstack, rfl, hnohooks, hround⟩ :=
      hfollows.endsChild hgive hstack hlow
    obtain ⟨c, u, cleaning, u', later', cascade, hspan, hreturned, hcontrol, hcstack, hnext,
      hlater', rfl, hhooks, hcalls⟩ := ih hlater hvgive hvstack
    refine ⟨c, u, cleaning, u', later', cascade ++ round, hspan, hreturned, hcontrol, hcstack,
      hnext, hlater', List.append_assoc .., ?_, ?_⟩
    · rw [directHooks_append, hhooks, hnohooks]
      rfl
    · intro call hmem
      rw [directCalls_append, List.mem_append] at hmem
      rcases hmem with hmem | hmem
      · obtain ⟨k, hk, rfl⟩ := hcalls call hmem
        exact ⟨k, List.mem_cons_of_mem child hk, rfl⟩
      · exact ⟨child, List.mem_cons_self, hround call hmem⟩

/-- After the release of an instance its parent is told, if it is to be told, and then the
termination returns. -/
theorem Follows.tells (hfollows : Follows host g x span)
    (hgoes : (ending.parent = none ∨ ending.cause = .parent) ∧ g.control = .give .done ∧
        g.stack = z.stack ∨
      ∃ parent, ending.parent = some parent ∧ ending.cause ≠ .parent ∧
        g.control = .perform (.dispatch parent ending.parentEvent ending.data) ∧
        g.stack = .answer .done :: z.stack)
    (hlow : x.stack.length ≤ z.stack.length) :
    ∃ r told later, z.Returned r ∧ Follows host g r told ∧ Follows host r x later ∧
      span = later ++ told ∧ z.directHooks (r :: told) = [] ∧
      z.directCalls (r :: told) =
        notice ending.parent ending.parentEvent ending.cause ending.data := by
  rcases hgoes with ⟨hquiet, hdone, hstack⟩ | ⟨parent, hparent, hcause, hcall, hstack⟩
  · have hreturned : z.Returned g := ⟨⟨_, hdone⟩, Nat.le_of_eq (congrArg List.length hstack)⟩
    refine ⟨g, [], span, hreturned, .refl, hfollows, (List.append_nil span).symm, ?_, ?_⟩
    · exact directHooks_cons_of_give z [] ⟨_, hdone⟩
    · rw [directCalls_cons_of_give z [] ⟨_, hdone⟩, notice_of_quiet hquiet]
      rfl
  · have hlt : x.stack.length < g.stack.length := by
      rw [hstack, List.length_cons]
      omega
    obtain ⟨v, sub, r, later, hsub, hreturned, hnext, hlater, rfl⟩ := hfollows.goesOn hlt
    obtain ⟨hcalls, hhooks⟩ := hsub.direct_eq z (by simp [hcall])
      (by rw [hstack, List.length_cons])
    have hvstack := (hsub.stack_eq_of_returned hreturned).trans hstack
    obtain ⟨t, hr⟩ := hnext.of_answer hreturned.1 hvstack
    have hdone : r.control = .give .done := by rw [hr]
    have hrstack : r.stack = z.stack := by rw [hr]
    have hreturned' : z.Returned r := ⟨⟨_, hdone⟩, Nat.le_of_eq (congrArg List.length hrstack)⟩
    refine ⟨r, v :: sub, later, hreturned', hsub.follows.next hnext, hlater, rfl, ?_, ?_⟩
    · rw [directHooks_cons_of_give z _ ⟨_, hdone⟩, hhooks]
      simp [directHook?, hcall]
    · rw [directCalls_cons_of_give z _ ⟨_, hdone⟩, hcalls, hparent, notice_of_ne hcause]
      simp [directCall?, hcall, hstack]

/-- The course of the termination of `inst`, which begins at `z`, in three phases, the latest
first: `told` are the moments after the release, `u :: cleaning` are those of the hook for cleaning
up, and `cascade` are those before. -/
structure Course (host : Host σ ν) (z : Execution σ ν) (h : Handle) (inst : Instance)
    (cause : Cause) (data : Option Payload) (told : List (Execution σ ν)) (u : Execution σ ν)
    (cleaning cascade : List (Execution σ ν)) : Prop where
  /-- The hook for cleaning up is called with the cause of the termination, and has returned at
  `u`. -/
  cleans : ∃ c, c.control = .hook inst.descriptor h (.cleanup cause) ∧ Spans host c u cleaning ∧
    c.Returned u
  /-- That is the only hook that the termination itself calls. -/
  hooks : z.directHooks (told ++ u :: cleaning ++ cascade) = [(h, .cleanup cause)]
  /-- Before the hook the termination itself only ends children of the instance. -/
  cascade_calls : ∀ call ∈ z.directCalls cascade,
    ∃ child ∈ inst.children, call = .terminate child .parent none
  /-- While the hook runs, the termination itself makes no calls. -/
  cleaning_calls : z.directCalls (u :: cleaning) = []
  /-- After the release the termination itself only tells the parent, if the parent is to be
  told. -/
  told_calls : z.directCalls told = notice inst.parent inst.parentEvent cause data
  /-- The instance is live until the hook has returned. -/
  live : ∀ y ∈ u :: cleaning ++ cascade, ∃ inst, y.world.engine.get? h = some inst
  /-- It is dead from then on. -/
  dead : told ≠ [] ∧ ∀ y ∈ told, y.world.engine.get? h = none

/-- An instance that is dead remains dead. -/
theorem Run.dead_since (hrun : Run host g before) (hfollows : Follows host g x span)
    (hfew : FewReleases (x :: (span ++ before))) (hissued : g.world.engine.store.Issued h)
    (hdead : g.world.engine.get? h = none) : ∀ y ∈ x :: span, y.world.engine.get? h = none := by
  induction hfollows with
  | refl =>
    intro y hy
    rwa [List.mem_singleton.1 hy]
  | @next x x' span hfollows hnext ih =>
    intro y hy
    rcases List.mem_cons.1 hy with rfl | hy
    · have hx' := (hfollows.next hnext).run hrun
      have hmem : g ∈ y :: (x :: span ++ before) :=
        List.mem_append_left before (hfollows.next hnext).first_mem
      exact (hx'.evolves hfew hmem).get?_eq_none hissued hdead
    · exact ih hfew.of_cons y hy

/-- An instance that is live when its hook for cleaning up returns has been live up to then, and is
dead from its release on. -/
theorem Run.lives_until_released {u u' : Execution σ ν} {earlier later : List (Execution σ ν)}
    (hrun : Run host z before) (hearlier : Follows host z u earlier) (hnext : Next host u u')
    (hlater : Follows host u' r later)
    (hfew : FewReleases (r :: (later ++ u :: (earlier ++ before))))
    (hlive : z.world.engine.get? h = some inst)
    (hlast : ∃ inst, u.world.engine.get? h = some inst)
    (hengine : u'.world.engine = u.world.engine.free h) :
    (∀ y ∈ u :: earlier, ∃ inst, y.world.engine.get? h = some inst) ∧
      ∀ y ∈ r :: later, y.world.engine.get? h = none := by
  have hu := hearlier.run hrun
  obtain ⟨a, ha⟩ := hlast
  constructor
  · exact hrun.live_between hearlier hfew.of_cons.of_append hlive ha
  · -- The handle was issued before, so no later instance gets it.
    have hfew' : FewReleases (u' :: u :: (earlier ++ before)) := by
      obtain ⟨l, heq⟩ := hlater.exists_append
      rw [← List.cons_append, heq, List.append_assoc] at hfew
      exact hfew.of_append
    have hissued : u'.world.engine.store.Issued h :=
      (hu.evolves_next hnext hfew').issued (Store.issued_of_get? ha)
    have hdead : u'.world.engine.get? h = none := by
      rw [hengine]
      exact Engine.get?_free_self
    exact (hu.next hnext).dead_since hlater hfew hissued hdead

/-- A termination of a live instance whose end has not begun takes its course. -/
theorem Run.course (hrun : Run host z before) (hspan : Spans host z r span)
    (hreturned : z.Returned r) (hnever : NeverFrees (span ++ before))
    (hfew : FewReleases (r :: (span ++ before)))
    (hcall : z.control = .perform (.terminate h cause data))
    (hlive : z.world.engine.get? h = some inst) (hactive : inst.terminating = false) :
    ∃ told u cleaning cascade, r :: span = told ++ u :: cleaning ++ cascade ∧
      Course host z h inst cause data told u cleaning cascade := by
  have hlow : r.stack.length ≤ z.stack.length := hreturned.2
  -- The termination begins, goes through the children and the hook, and tells the parent.
  obtain ⟨g, later, hnext, hlater, rfl⟩ := hspan.step_of_perform hreturned hcall
  obtain ⟨hdone, hstack⟩ := hnext.of_terminate hcall hlive hactive
  obtain ⟨c, u, cleaning, u', later', cascade, hclean, hcleaned, hcontrol, hcstack, hnext',
    hlater', rfl, hhooks, hcalls⟩ := hlater.cascades ⟨_, hdone⟩ hstack hlow
  have hustack := (hclean.stack_eq_of_returned hcleaned).trans hcstack
  obtain ⟨hengine, hgoes⟩ := hnext'.of_cleaning hcleaned.1 hustack
  obtain ⟨r', told, later'', hreturned', htold, hlater'', rfl, hnohooks, htells⟩ :=
    hlater'.tells hgoes hlow
  -- The moment at which that comes to its end is the one at which the termination returns.
  obtain ⟨rfl, rfl⟩ : r' = r ∧ later'' = [] := by
    simp only [List.append_assoc] at hspan
    exact hspan.eq_of_returned hlater'' hreturned'
  have hsplit : [] ++ told ++ u :: cleaning ++ cascade ++ [z] =
      told ++ u :: (cleaning ++ (cascade ++ [z])) := by simp
  rw [hsplit] at hspan hnever hfew
  have hearlier : Follows host z u (cleaning ++ (cascade ++ [z])) :=
    hspan.follows.split_append.1
  -- The instance whose end is in progress is live when the hook returns.
  have hlast : ∃ inst, u.world.engine.get? h = some inst := by
    have hpast : NeverFrees (cleaning ++ (cascade ++ [z]) ++ before) := by
      rw [List.append_assoc] at hnever
      exact hnever.of_append.of_cons
    have ho := (hearlier.run hrun).orderly hpast.freesOrderly
    have hending : ⟨h, inst.descriptor, cause, data, inst.parent, inst.parentEvent⟩ ∈
        u.endings := by
      simp [endings, teardowns, hustack, Frame.teardown?]
    obtain ⟨a, ha, -⟩ := ho.marked_of_ending hending
    exact ⟨a, ha⟩
  rw [List.append_assoc, List.cons_append] at hfew
  obtain ⟨halive, hdead⟩ :=
    hrun.lives_until_released hearlier hnext' htold hfew hlive hlast hengine
  obtain ⟨hcleancalls, hcleanhooks⟩ := hclean.direct_eq z (by simp [hcontrol])
    (by rw [hcstack, List.length_cons])
  have hbegin : z.directCall? z = none ∧ z.directHook? z = none := by
    simp [directCall?, directHook?, hcall]
  refine ⟨r' :: told, u, cleaning, cascade ++ [z], by simp, ?_⟩
  constructor
  · exact ⟨c, hcontrol, hclean, hcleaned⟩
  · rw [directHooks_append, directHooks_append, directHooks_append, hnohooks, hcleanhooks, hhooks,
      directHooks_cons, hbegin.2]
    simp [directHook?, hcontrol, hcstack, directHooks]
  · intro call hmem
    rw [directCalls_append, directCalls_cons, hbegin.1] at hmem
    exact hcalls call (by simpa [directCalls] using hmem)
  · rw [hcleancalls]
    simp [directCall?, hcontrol]
  · exact htells
  · exact halive
  · exact ⟨List.cons_ne_nil _ _, hdead⟩

/-! ## Refused children -/

/-- The allocation of a child below a terminating parent delivers the event to the parent, and is
refused after that, whatever the delivery answers. It does nothing else. -/
theorem Spans.childRefused (hspan : Spans host z r span) (hreturned : z.Returned r)
    (hcall : z.control = .perform (.allocChild d p event))
    (hlive : z.world.engine.get? p = some inst) (hending : inst.terminating = true) :
    ∃ y u sub t t', span = u :: sub ++ [z] ∧
      y = ⟨(z.atTime t).world.log (.parentEnding d.subsystem inst.name d.name),
        .perform (.dispatch p event none),
        .answer (.refused (.parentTerminating inst.name)) :: z.stack⟩ ∧
      Spans host y u sub ∧ y.Returned u ∧
      r = ⟨(u.atTime t').world, .give (.refused (.parentTerminating inst.name)), z.stack⟩ := by
  obtain ⟨y, later, hnext, hlater, rfl⟩ := hspan.step_of_perform hreturned hcall
  -- The first step announces the delivery and makes it.
  obtain ⟨t, hy⟩ : ∃ t, y = ⟨(z.atTime t).world.log (.parentEnding d.subsystem inst.name d.name),
      .perform (.dispatch p event none),
      .answer (.refused (.parentTerminating inst.name)) :: z.stack⟩ := by
    obtain ⟨t, -, ht⟩ := hnext.of_perform hcall
    cases ht with
    | answered hanswers =>
      cases hanswers with
      | orphan d event hdead => cases hdead.symm.trans hlive
      | child hlive' hactive halloc =>
        cases hlive.symm.trans hlive'
        cases hactive.symm.trans hending
    | childRefused hlive' hending' =>
      cases hlive.symm.trans hlive'
      exact ⟨t, rfl⟩
  have hystack : y.stack = .answer (.refused (.parentTerminating inst.name)) :: z.stack := by
    rw [hy]
  have hlt : r.stack.length < y.stack.length := by
    have hlow := hreturned.2
    rw [hystack, List.length_cons]
    omega
  obtain ⟨u, sub, r', later', hsub, hdelivered, hnext', hlater', rfl⟩ := hlater.goesOn hlt
  have hustack := (hsub.stack_eq_of_returned hdelivered).trans hystack
  obtain ⟨t', hr'⟩ := hnext'.of_answer hdelivered.1 hustack
  have hreturned' : z.Returned r' := by
    rw [hr']
    exact ⟨⟨_, rfl⟩, Nat.le_refl _⟩
  obtain ⟨rfl, rfl⟩ : r' = r ∧ later' = [] := by
    rw [List.append_assoc] at hspan
    exact hspan.eq_of_returned hlater' hreturned'
  exact ⟨y, u, sub, t, t', rfl, hy, hsub, hdelivered, hr'⟩

end Execution

end StateMachines
