import Mathlib.Logic.Relation
import StateMachines.Proofs.Execution.Session
import StateMachines.Proofs.Termination.Links

/-!
# Teardown leaves nothing behind

When a termination that was begun while nothing else was being ended returns, the instance and all
its descendants are gone, whatever the hooks did in the meantime. The descendants are meant at
every moment of the call: those at its beginning, and those that were allocated while it went on.

## Main results

* `Execution.Run.nothing_terminating_of_returned`: a call that begins while nothing is being ended
  returns while nothing is being ended.
* `Execution.Run.released_of_terminate_returned`: the target and its descendants are released, and
  the links of all other instances are intact.
-/

namespace StateMachines

/-- One handle refers to a descendant of what another one refers to. -/
def Engine.Descends (e : Engine) : Handle → Handle → Prop :=
  Relation.TransGen fun child parent => e.parent? child = some parent

namespace Execution

variable {σ ν : Type} {host : Host σ ν} {x x' y start : Execution σ ν}
  {past span : List (Execution σ ν)} {h p target : Handle} {inst : Instance} {cause : Cause}
  {data : Option Payload}

/-- A call that begins while nothing is being ended returns while nothing is being ended. -/
theorem Run.nothing_terminating_of_returned (hrun : Run host start past)
    (hquiet : ∀ h inst, start.world.engine.get? h = some inst → inst.terminating = false)
    (hspan : Spans host start x span) (hreturned : start.Returned x)
    (hfrees : FreesOrderly (span ++ past)) (hlive : x.world.engine.get? h = some inst) :
    inst.terminating = false := by
  have hpast : FreesOrderly past := fun y hy => hfrees y (List.mem_append_right span hy)
  -- No end is in progress at the beginning, and the stack is the same when the call has returned.
  have hnone : start.targets = [] := by
    refine List.eq_nil_iff_forall_not_mem.2 fun k hk => ?_
    obtain ⟨l, hl, hmarked⟩ := (hrun.orderly hpast).of_mem_targets hk
    obtain ⟨a, ha, rfl⟩ := Engine.links?_eq_some_iff.1 hl
    cases (hquiet k a ha).symm.trans hmarked
  have htargets : x.targets = start.targets := by
    rw [targets, targets, teardowns, teardowns, hspan.stack_eq_of_returned hreturned]
  by_contra hmarked
  rw [Bool.not_eq_false] at hmarked
  have hmem := ((hspan.run hrun).orderly hfrees).complete h inst.links
    (Engine.links?_eq_some_iff.2 ⟨inst, hlive, rfl⟩) hmarked
  rw [htargets, hnone] at hmem
  cases hmem

/-- Once a termination has begun, its target remains marked for as long as it lives. -/
theorem Spans.terminating_of_live (hspan : Spans host start x span) (hrun : Run host start past)
    (hfew : FewReleases (x :: (span ++ past)))
    (hcall : start.control = .perform (.terminate target cause data))
    (hstart : start.world.engine.store.Issued target) (hne : span ≠ [])
    (hlive : x.world.engine.get? target = some inst) : inst.terminating = true := by
  induction hspan generalizing inst with
  | start => exact absurd rfl hne
  | @next x x' span hspan hopen hnext ih =>
    cases hspan with
    | start =>
      -- The first step marks the target, and marks are never taken off.
      exact hnext.terminating_of_terminate hcall (Engine.links?_eq_some_iff.2 ⟨inst, hlive, rfl⟩)
    | next hspan' hopen' hnext' =>
      have hx := (hspan'.next hopen' hnext').run hrun
      have hissued : x.world.engine.store.Issued target := by
        refine (hx.evolves hfew.of_cons (y := start) ?_).issued hstart
        exact List.mem_append_left past ((hspan'.next hopen' hnext').start_mem)
      obtain ⟨a, ha, hcontinues⟩ := (hx.evolves_next hnext hfew).continues hissued hlive
      exact hcontinues.terminating_of (ih hfew.of_cons (List.cons_ne_nil _ _) ha)

/-- If nothing is being ended, the ancestors of a live instance are live, also those that it had
at an earlier moment. -/
theorem Run.live_of_descends (hrun : Run host x past) (hnever : NeverFrees past)
    (hfew : FewReleases (x :: past)) (hy : y ∈ x :: past)
    (hquiet : ∀ h inst, x.world.engine.get? h = some inst → inst.terminating = false)
    (hdescends : y.world.engine.Descends h target) (hlive : x.world.engine.get? h = some inst) :
    ∃ inst, x.world.engine.get? target = some inst := by
  -- Parents are never exchanged, and the parent of an instance that is not marked is live.
  have hparent : ∀ {c p}, y.world.engine.parent? c = some p →
      (∃ inst, x.world.engine.get? c = some inst) → ∃ inst, x.world.engine.get? p = some inst := by
    rintro c p hp ⟨b, hb⟩
    obtain ⟨a, ha, hap⟩ := Option.bind_eq_some_iff.1 hp
    obtain ⟨a', ha', hcontinues⟩ :=
      (hrun.evolves hfew hy).continues (Store.issued_of_get? ha) hb
    cases ha.symm.trans ha'
    obtain ⟨l, hl, -⟩ := (hrun.linked hnever).kept c b.links p
      (Engine.links?_eq_some_iff.2 ⟨b, hb, rfl⟩) (hquiet c b hb) (hcontinues.parent_eq.trans hap)
    obtain ⟨inst, hinst, -⟩ := Engine.links?_eq_some_iff.1 hl
    exact ⟨inst, hinst⟩
  induction hdescends with
  | single hp => exact hparent hp ⟨inst, hlive⟩
  | tail _ hp ih => exact hparent hp ih

/-- When a termination that was begun while nothing was being ended has returned, its target and
every instance that descended from it at some moment of the call are released and have no timer,
every live instance is listed once by its parent, which is live, and nothing is being ended. -/
theorem Run.released_of_terminate_returned (hrun : Run host start past)
    (hcall : start.control = .perform (.terminate target cause data))
    (htarget : ∃ inst, start.world.engine.get? target = some inst)
    (hquiet : ∀ h inst, start.world.engine.get? h = some inst → inst.terminating = false)
    (hspan : Spans host start x span) (hreturned : start.Returned x)
    (hnever : NeverFrees (span ++ past)) (hfew : FewReleases (x :: (span ++ past))) :
    (∀ y ∈ x :: span, ∀ h, h = target ∨ y.world.engine.Descends h target →
      x.world.engine.get? h = none ∧ x.world.engine.timers.deadline? h = none) ∧
    ∀ h inst, x.world.engine.get? h = some inst → inst.terminating = false ∧
      ∀ p, inst.parent = some p → ∃ parent, x.world.engine.get? p = some parent ∧
        parent.children.count h = 1 := by
  have hx := hspan.run hrun
  have hdone : ∀ h inst, x.world.engine.get? h = some inst → inst.terminating = false :=
    fun h inst => hrun.nothing_terminating_of_returned hquiet hspan hreturned hnever.freesOrderly
  have hnotarget : x.world.engine.get? target = none := by
    cases hlive : x.world.engine.get? target with
    | none => rfl
    | some inst =>
      -- A target that is still there is marked, but nothing is being ended any more.
      obtain ⟨a, ha⟩ := htarget
      have hne : span ≠ [] := by
        rintro rfl
        cases hspan
        obtain ⟨⟨reply, hgive⟩, -⟩ := hreturned
        cases hgive.symm.trans hcall
      have hmarked := hspan.terminating_of_live hrun hfew hcall (Store.issued_of_get? ha) hne hlive
      cases (hdone target inst hlive).symm.trans hmarked
  refine ⟨fun y hy h hh => ?_, fun h inst hlive => ⟨hdone h inst hlive, fun p hp => ?_⟩⟩
  · have hdead : x.world.engine.get? h = none := by
      rcases hh with rfl | hdescends
      · exact hnotarget
      · cases hlive : x.world.engine.get? h with
        | none => rfl
        | some inst =>
          -- A live descendant would have live ancestors, the target among them.
          have hmem : y ∈ x :: (span ++ past) := List.mem_append_left past hy
          obtain ⟨a, ha⟩ := hx.live_of_descends hnever hfew hmem hdone hdescends hlive
          cases hnotarget.symm.trans ha
    exact ⟨hdead, (hx.sound hfew).deadline?_eq_none hdead⟩
  · have hlinked := hx.linked hnever
    obtain ⟨l, hl, hmem⟩ := hlinked.kept h inst.links p
      (Engine.links?_eq_some_iff.2 ⟨inst, hlive, rfl⟩) (hdone h inst hlive) hp
    obtain ⟨parent, hparent, rfl⟩ := Engine.links?_eq_some_iff.1 hl
    exact ⟨parent, hparent, List.count_eq_one_of_mem (hlinked.nodup p _ hl) hmem⟩

/-- When the first child of a tree is cleaned up, it ends its sibling and allocates an instance. -/
def meddler : Host Unit Unit where
  script _ h hook _ :=
    match hook with
    | .cleanup _ =>
      if h = ⟨1, 0⟩ then
        .call (.terminate ⟨2, 0⟩ .request none) () fun _ _ =>
          .call (.alloc .plain none none none) () fun _ _ => .done ()
      else .done ()
    | _ => .done ()

/-- A run in which a root and its two children are allocated. -/
def planted : Execution Unit Unit × List (Execution Unit Unit) :=
  session meddler 10 (idle { logAddr := false } ()) []
    [.alloc .plain none none none, .allocChild .plain ⟨0, 0⟩ 0, .allocChild .plain ⟨0, 0⟩ 0]

/-- The moment at which the end of the root is called for. -/
def felling : Execution Unit Unit := ofCall planted.1.world (.terminate ⟨0, 0⟩ .request none)

/-- The moments of the end of the root. -/
def felled : Execution Unit Unit × List (Execution Unit Unit) :=
  follow meddler felling 60 felling []

/-- A tree is released although one child ends the other in the middle of it. -/
theorem felled_released :
    felling.world.engine.Descends ⟨2, 0⟩ ⟨0, 0⟩ ∧ felled.1.world.engine.isAlive ⟨2, 1⟩ = true ∧
    (∀ y ∈ felled.1 :: felled.2, ∀ h, h = ⟨0, 0⟩ ∨ y.world.engine.Descends h ⟨0, 0⟩ →
      felled.1.world.engine.get? h = none ∧ felled.1.world.engine.timers.deadline? h = none) ∧
    ∀ h inst, felled.1.world.engine.get? h = some inst → inst.terminating = false ∧
      ∀ p, inst.parent = some p → ∃ parent, felled.1.world.engine.get? p = some parent ∧
        parent.children.count h = 1 := by
  have hplanted : Run meddler planted.1 planted.2 := run_session 10 _ (run_idle _ _)
  have hfelling : Run meddler felling (planted.1 :: planted.2) :=
    hplanted.next (.call planted.1.world _ rfl rfl (Nat.le_refl _))
  refine ⟨.single (by decide), by decide, ?_⟩
  have hcall : felling.control = .perform (.terminate ⟨0, 0⟩ .request none) := rfl
  refine Run.released_of_terminate_returned hfelling hcall
    (Engine.isAlive_eq_true_iff.1 (by decide)) (fun h inst hlive => ?_) (spans_follow 60 .start)
    (by decide) (by decide) (fewReleases_of_length_lt (by decide))
  simpa using of_get?_of_all (fun inst => !inst.terminating) (by decide) hlive

end Execution

end StateMachines
