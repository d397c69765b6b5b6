import StateMachines.Proofs.Execution.Session
import StateMachines.Proofs.Termination.Teardown

/-!
# The order of a teardown

An instance is cleaned up after its descendants have been cleaned up and released, except for
those whose own end is in progress further down the stack, and what is below these. Such a
descendant has begun its end before the instance, and it was a hook of that earlier end, or one
called in the course of it, that ended the instance: the engine passes over instances whose
termination has begun.

## Main definitions

* `Execution.CleanedUpSince`: an instance was released right after its hook for cleaning up.

## Main results

* `Execution.Run.cleanedUp_of_dead`: instances are released after they have been cleaned up.
* `Execution.Run.descendants_at_cleanup`: the descendants of an instance that is cleaned up.
* `Execution.upheaval_parent_first`: a run in which a parent is cleaned up before its child is
  released.
-/

namespace StateMachines.Execution

variable {σ ν : Type} {host : Host σ ν} {x x' y : Execution σ ν}
  {past before span hist : List (Execution σ ν)} {h c p : Handle} {inst : Instance}
  {cause : Cause} {d : Descriptor}

/-! ## Releases -/

/-- After the moment `y` the instance of a handle was released, right after its hook for cleaning
up had returned. -/
def CleanedUpSince (host : Host σ ν) (hist : List (Execution σ ν)) (y : Execution σ ν)
    (h : Handle) : Prop :=
  ∃ u' u span before z d cause, u' :: u :: (span ++ before) <:+ hist ∧ y ∈ u :: (span ++ before) ∧
    (∃ inst, u.world.engine.get? h = some inst) ∧ u'.world.engine.get? h = none ∧
    Spans host z u span ∧ z.Returned u ∧ z.control = .hook d h (.cleanup cause)

/-- What was cleaned up has been cleaned up at a later moment. -/
theorem CleanedUpSince.cons (hcleaned : CleanedUpSince host hist y h) :
    CleanedUpSince host (x :: hist) y h := by
  obtain ⟨u', u, span, before, z, d, cause, hsuffix, hrest⟩ := hcleaned
  exact ⟨u', u, span, before, z, d, cause, hsuffix.trans (List.suffix_cons x hist), hrest⟩

/-- Without direct releases, an instance is released by the end that has cleaned it up. -/
theorem TreeStep.cleaning_of_released (hs : TreeStep x x')
    (hnever : ∀ h, x.control ≠ .perform (.free h)) {l : Links} (hlive : x.links? h = some l)
    (hdead : x'.links? h = none) :
    (∃ reply, x.control = .give reply) ∧
      ∃ ending rest, x.stack = .cleaning ending :: rest ∧ ending.target = h := by
  cases hs with
  | keeps hlinks =>
    rw [hlinks, hlive] at hdead
    cases hdead
  | allocates k hnew hlinks =>
    have hne : h ≠ k := by
      rintro rfl
      cases hnew.symm.trans hlive
    rw [hlinks, Function.update_of_ne hne, hlive] at hdead
    cases hdead
  | adopts k q m hnew hparent hactive hlinks =>
    rw [hlinks, Function.update_apply] at hdead
    split at hdead
    next => cases hdead
    next =>
      rw [Function.update_apply] at hdead
      split at hdead
      next => cases hdead
      next => cases hlive.symm.trans hdead
  | frees k hcall => exact absurd hcall (hnever k)
  | begins ending inst hlive' hactive hdescriptor hparent hlinks =>
    rw [hlinks, Function.update_apply] at hdead
    split at hdead
    next => cases hdead
    next => cases hlive.symm.trans hdead
  | turns ending child rest outer hlinks =>
    rw [hlinks, hlive] at hdead
    cases hdead
  | detaches ending outer hlinks =>
    rw [hlinks, Ending.detach, hlive] at hdead
    cases hdead
  | releases ending hanswer hstack hlinks =>
    obtain ⟨rest, hstack⟩ := hstack
    refine ⟨hanswer, ending, rest, hstack, ?_⟩
    by_contra hne
    rw [hlinks, Function.update_of_ne (Ne.symm hne), hlive] at hdead
    cases hdead

/-- An instance that has died since a moment at which it was live was cleaned up and released. -/
theorem Run.cleanedUp_of_dead (hrun : Run host y before) (hfollows : Follows host y x span)
    (hnever : NeverFrees (span ++ before)) (hlive : ∃ inst, y.world.engine.get? h = some inst)
    (hdead : ∃ z ∈ x :: span, z.world.engine.get? h = none) :
    CleanedUpSince host (x :: (span ++ before)) y h := by
  induction hfollows with
  | refl =>
    obtain ⟨z, hz, hdead⟩ := hdead
    obtain ⟨inst, hlive⟩ := hlive
    rw [List.mem_singleton.1 hz] at hdead
    cases hlive.symm.trans hdead
  | @next x x' span hfollows hnext ih =>
    by_cases hbefore : ∃ z ∈ x :: span, z.world.engine.get? h = none
    · exact (ih hnever.of_cons hbefore).cons
    · -- The instance was live until now, so it is this step that releases it.
      have hx := hfollows.run hrun
      have hxlive : ∃ inst, x.world.engine.get? h = some inst := by
        by_contra hnone
        refine hbefore ⟨x, List.mem_cons_self, ?_⟩
        rwa [← Option.not_isSome_iff_eq_none, Option.isSome_iff_exists]
      have hx'dead : x'.world.engine.get? h = none := by
        obtain ⟨z, hz, hzdead⟩ := hdead
        rcases List.mem_cons.1 hz with rfl | hz
        · exact hzdead
        · exact absurd ⟨z, hz, hzdead⟩ hbefore
      obtain ⟨inst, hinst⟩ := hxlive
      obtain ⟨hgive, ending, rest, hstack, rfl⟩ :=
        (hnext.treeStep hx.tidy).cleaning_of_released (hnever x List.mem_cons_self)
          (Engine.links?_eq_some_iff.2 ⟨inst, hinst, rfl⟩) (Engine.links?_eq_none_iff.2 hx'dead)
      have hframe : .cleaning ending :: rest <:+ x.stack := hstack ▸ List.suffix_rfl
      obtain ⟨z, cleaning, earlier, hpast, -, hspan, hzstack, hopened⟩ := hx.opened hframe
      have hlength : x.stack.length ≤ z.stack.length :=
        Nat.le_of_eq (congrArg List.length (hstack.trans hzstack.symm))
      have hmem : y ∈ x :: (cleaning ++ earlier) :=
        hpast ▸ List.mem_append_left before hfollows.first_mem
      exact ⟨x', x, cleaning, earlier, z, ending.descriptor, ending.cause, hpast ▸ List.suffix_rfl,
        hmem, ⟨inst, hinst⟩, hx'dead, hspan, ⟨hgive, hlength⟩, hopened⟩

/-! ## Descendants -/

/-- The parent of an instance whose termination has not begun has been live for as long as the
instance has. -/
theorem Run.parent_live_since (hrun : Run host y before) (hfollows : Follows host y x span)
    (hnever : NeverFrees (span ++ before))
    (hlive : ∀ z ∈ x :: span, ∃ inst, z.world.engine.get? c = some inst)
    (hinst : x.world.engine.get? c = some inst) (hactive : inst.terminating = false)
    (hparent : y.world.engine.parent? c = some p) :
    ∀ z ∈ x :: span, ∃ inst, z.world.engine.get? p = some inst := by
  intro z hz
  obtain ⟨a, ha, hap⟩ := Option.bind_eq_some_iff.1 hparent
  obtain ⟨m, hm⟩ := hlive z hz
  obtain ⟨later, earlier, rfl, hlater, hearlier⟩ := hfollows.split hz
  have hz' := hearlier.run hrun
  have hzlive : ∀ u ∈ z :: earlier, ∃ inst, u.world.engine.get? c = some inst := fun u hu => by
    rcases List.mem_cons.1 hu with rfl | hu
    · exact hlive u hz
    · exact hlive u (List.mem_cons_of_mem x (List.mem_append_right later hu))
  have hxlive : ∀ u ∈ x :: later, ∃ inst, u.world.engine.get? c = some inst := fun u hu => by
    rcases List.mem_cons.1 hu with rfl | hu
    · exact hlive u List.mem_cons_self
    · exact hlive u (List.mem_cons_of_mem x (List.mem_append_left earlier hu))
  -- The instance has the same parent at `z`, and its termination has not begun there either.
  have hmp : m.parent = some p := (hearlier.continues hrun hzlive ha hm).parent_eq.trans hap
  have hmactive : m.terminating = false := by
    by_contra hmarked
    rw [Bool.not_eq_false] at hmarked
    have hmarked' := (hlater.continues hz' hxlive hm hinst).terminating_of hmarked
    cases hactive.symm.trans hmarked'
  have hnever' : NeverFrees (earlier ++ before) := fun u hu =>
    hnever u (by rw [List.append_assoc]; exact List.mem_append_right later hu)
  obtain ⟨l, hl, -⟩ := (hz'.linked hnever').kept c m.links p
    (Engine.links?_eq_some_iff.2 ⟨m, hm, rfl⟩) hmactive hmp
  obtain ⟨parent, hparent, -⟩ := Engine.links?_eq_some_iff.1 hl
  exact ⟨parent, hparent⟩

/-- The instance whose hook for cleaning up is called is the target of the innermost end. -/
theorem Run.endings_of_cleanup (hrun : Run host x past)
    (hcontrol : x.control = .hook d p (.cleanup cause)) :
    ∃ ending outer, x.teardowns = ⟨ending, none⟩ :: outer ∧ ending.target = p := by
  cases hrun with
  | start => cases hcontrol
  | @next y _ earlier hpast hnext =>
    obtain ⟨t, -, ht⟩ | ⟨w, call, answer, rfl, -⟩ := hnext.cases
    · obtain ⟨w, control, stack⟩ := y
      cases ht with
      | @cleans w ending answer stack =>
        cases hcontrol
        exact ⟨ending, _, rfl, rfl⟩
      | _ => cases hcontrol
    · cases hcontrol

/-- When an instance is cleaned up, a descendant that has lived since it was one is being ended,
or it is below an instance that is, which is itself a descendant. -/
theorem Run.ending_above_of_descends (hrun : Run host y before) (hfollows : Follows host y x span)
    (hnever : NeverFrees (span ++ before)) (hcontrol : x.control = .hook d p (.cleanup cause))
    (hdescends : y.world.engine.Descends h p) (hne : h ≠ p)
    (hlive : ∀ z ∈ x :: span, ∃ inst, z.world.engine.get? h = some inst) :
    ∃ c, c ≠ p ∧ (h = c ∨ y.world.engine.Descends h c) ∧ y.world.engine.Descends c p ∧
      ∃ inst, x.world.engine.get? c = some inst ∧ inst.terminating = true := by
  have hx := hfollows.run hrun
  obtain ⟨ending, outer, hteardowns, rfl⟩ := hx.endings_of_cleanup hcontrol
  -- The children of an instance that is cleaned up have been ended, or are being ended.
  have hchild : ∀ {c inst}, y.world.engine.parent? c = some ending.target →
      (∀ z ∈ x :: span, ∃ inst, z.world.engine.get? c = some inst) →
      x.world.engine.get? c = some inst → inst.terminating = true := by
    intro c inst hparent hlive hinst
    obtain ⟨a, ha, hap⟩ := Option.bind_eq_some_iff.1 hparent
    have hmp := (hfollows.continues hrun hlive ha hinst).parent_eq.trans hap
    refine (hx.linked hnever).terminating_of_cleaning (hx.orderly hnever.freesOrderly)
      (t := ⟨ending, none⟩) (hteardowns ▸ List.mem_cons_self) rfl
      (Engine.links?_eq_some_iff.2 ⟨inst, hinst, rfl⟩) hmp ?_
    simp [hcontrol]
  -- Going up from the descendant, the first marked instance is the one that is looked for.
  induction hdescends using Relation.TransGen.head_induction_on with
  | @single c hparent =>
    obtain ⟨inst, hinst⟩ := hlive x List.mem_cons_self
    exact ⟨c, hne, .inl rfl, .single hparent, inst, hinst, hchild hparent hlive hinst⟩
  | @head c q hparent hdescends ih =>
    obtain ⟨inst, hinst⟩ := hlive x List.mem_cons_self
    cases hmarked : inst.terminating with
    | true => exact ⟨c, hne, .inl rfl, hdescends.head hparent, inst, hinst, hmarked⟩
    | false =>
      have hq : q ≠ ending.target := by
        rintro rfl
        cases hmarked.symm.trans (hchild hparent hlive hinst)
      obtain ⟨c', hc'ne, hc', hrest⟩ :=
        ih (hrun.parent_live_since hfollows hnever hlive hinst hmarked hparent) hq
      refine ⟨c', hc'ne, .inr ?_, hrest⟩
      rcases hc' with rfl | hc'
      · exact .single hparent
      · exact hc'.head hparent

/-- When an instance is cleaned up, everything else that is being ended has begun its end
before. -/
theorem Run.beganBefore_of_cleanup (hrun : Run host x past) (hfrees : FreesOrderly past)
    (hcontrol : x.control = .hook d p (.cleanup cause)) (hne : c ≠ p)
    (hlive : x.world.engine.get? c = some inst) (hmarked : inst.terminating = true) :
    BeganBefore past c p := by
  obtain ⟨ending, outer, hteardowns, rfl⟩ := hrun.endings_of_cleanup hcontrol
  have hendings : x.endings = ending :: outer.map (·.ending) := by
    rw [endings, hteardowns]
    rfl
  -- What is marked is the target of an end in progress, and the innermost one is that of `p`.
  have hmem := (hrun.orderly hfrees).complete c inst.links
    (Engine.links?_eq_some_iff.2 ⟨inst, hlive, rfl⟩) hmarked
  obtain ⟨t, ht, rfl⟩ := List.mem_map.1 hmem
  rw [hteardowns] at ht
  rcases List.mem_cons.1 ht with rfl | ht
  · exact absurd rfl hne
  · have hpairwise := hrun.endings_pairwise hfrees
    rw [hendings] at hpairwise
    exact List.rel_of_pairwise_cons hpairwise (List.mem_map_of_mem ht)

/-- When an instance is cleaned up, everything that has ever descended from it has been cleaned up
and released, with one exception: instances whose end had begun when that of the instance had not,
and is still in progress, and what is below these. -/
theorem Run.descendants_at_cleanup (hrun : Run host y before) (hfollows : Follows host y x span)
    (hnever : NeverFrees (span ++ before)) (hcontrol : x.control = .hook d p (.cleanup cause))
    (hdescends : y.world.engine.Descends h p) (hne : h ≠ p) :
    ((∃ z ∈ x :: span, z.world.engine.get? h = none) →
      CleanedUpSince host (x :: (span ++ before)) y h) ∧
    ((∀ z ∈ x :: span, ∃ inst, z.world.engine.get? h = some inst) →
      ∃ c, (h = c ∨ y.world.engine.Descends h c) ∧ y.world.engine.Descends c p ∧
        (∃ inst, x.world.engine.get? c = some inst ∧ inst.terminating = true) ∧
        BeganBefore (span ++ before) c p) := by
  refine ⟨hrun.cleanedUp_of_dead hfollows hnever ?_, fun hlive => ?_⟩
  · -- A descendant has a parent, so it is live.
    obtain ⟨q, hparent, -⟩ := Relation.TransGen.head'_iff.1 hdescends
    obtain ⟨a, ha, -⟩ := Option.bind_eq_some_iff.1 hparent
    exact ⟨a, ha⟩
  · obtain ⟨c, hcne, hc, hcp, inst, hinst, hmarked⟩ :=
      hrun.ending_above_of_descends hfollows hnever hcontrol hdescends hne hlive
    exact ⟨c, hc, hcp, ⟨inst, hinst, hmarked⟩, (hfollows.run hrun).beganBefore_of_cleanup
      hnever.freesOrderly hcontrol hcne hinst hmarked⟩

/-- When the first child of a tree is cleaned up, it ends the root. -/
def upheaver : Host Unit Unit where
  script _ h hook _ :=
    match hook with
    | .cleanup _ =>
      if h = ⟨1, 0⟩ then .call (.terminate ⟨0, 0⟩ .request none) () fun _ _ => .done ()
      else .done ()
    | _ => .done ()

/-- A run in which a root and its two children are allocated. -/
def settled : Execution Unit Unit × List (Execution Unit Unit) :=
  session upheaver 10 (idle { logAddr := false } ()) []
    [.alloc .plain none none none, .allocChild .plain ⟨0, 0⟩ 0, .allocChild .plain ⟨0, 0⟩ 0]

/-- The moment at which the end of the first child is called for. -/
def rising : Execution Unit Unit := ofCall settled.1.world (.terminate ⟨1, 0⟩ .regular none)

/-- The moments of the end of the first child until the root is cleaned up. -/
def upheaval : Execution Unit Unit × List (Execution Unit Unit) :=
  follow upheaver rising 12 rising []

/-- The calls that lead to the end of the first child are a run. -/
theorem run_rising : Run upheaver rising (settled.1 :: settled.2) :=
  (run_session 10 _ (run_idle _ _)).next (.call settled.1.world _ rfl rfl (Nat.le_refl _))

/-- When the root is cleaned up, its second child has been cleaned up and released, and the end of
its first child began before. -/
theorem upheaval_descendants :
    CleanedUpSince upheaver (upheaval.1 :: (upheaval.2 ++ settled.1 :: settled.2)) rising ⟨2, 0⟩ ∧
    ∃ c, ((⟨1, 0⟩ : Handle) = c ∨ rising.world.engine.Descends ⟨1, 0⟩ c) ∧
      rising.world.engine.Descends c ⟨0, 0⟩ ∧
      (∃ inst, upheaval.1.world.engine.get? c = some inst ∧ inst.terminating = true) ∧
      BeganBefore (upheaval.2 ++ settled.1 :: settled.2) c ⟨0, 0⟩ := by
  have hfollows : Follows upheaver rising upheaval.1 upheaval.2 := (spans_follow 12 .start).follows
  have hcontrol : upheaval.1.control = .hook .plain ⟨0, 0⟩ (.cleanup .request) := rfl
  have hnever : NeverFrees (upheaval.2 ++ settled.1 :: settled.2) := by decide
  have hlive : ∀ z ∈ upheaval.1 :: upheaval.2, z.world.engine.isAlive ⟨1, 0⟩ = true := by decide
  constructor
  · refine (Run.descendants_at_cleanup run_rising hfollows hnever hcontrol
      (.single (by decide)) (by decide)).1 ⟨upheaval.1, List.mem_cons_self, ?_⟩
    exact Engine.isAlive_eq_false_iff.1 (by decide)
  · refine (Run.descendants_at_cleanup run_rising hfollows hnever hcontrol
      (.single (by decide)) (by decide)).2 fun z hz => ?_
    exact Engine.isAlive_eq_true_iff.1 (hlive z hz)

/-- A descendant may be live when an instance is cleaned up. -/
theorem upheaval_parent_first : ¬ ∀ (x : Execution Unit Unit) (past : List (Execution Unit Unit))
    (d : Descriptor) (h p : Handle) (cause : Cause), Run upheaver x past → NeverFrees past →
      x.control = .hook d p (.cleanup cause) → x.world.engine.Descends h p →
      x.world.engine.get? h = none := by
  intro hdead
  have hrun : Run upheaver upheaval.1 (upheaval.2 ++ settled.1 :: settled.2) :=
    (spans_follow 12 .start).run run_rising
  have hnone := hdead _ _ .plain ⟨1, 0⟩ ⟨0, 0⟩ .request hrun (by decide) rfl (.single (by decide))
  exact absurd (Engine.isAlive_eq_false_iff.2 hnone) (by decide)

end StateMachines.Execution
