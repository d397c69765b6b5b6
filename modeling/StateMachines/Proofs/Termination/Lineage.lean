import StateMachines.Proofs.Termination.Teardown

/-!
# Parents and children at every moment

In a run without direct releases the links between parents and children mirror each other, also
while terminations are in progress and hooks run. This module adds two facts to those of
`Execution.Linked`. A parent is always older than its child: the handle of a child is issued when
the parent is live, so no instance descends from itself. And an instance whose termination has
begun gets no more children.

## Main results

* `Execution.Run.irreflexive_descends`: no instance descends from itself.
* `Execution.Run.children_sublist`: the children of a terminating instance only become fewer.
* `Execution.Run.links_mirrored`: the links at every moment of a run without direct releases.
-/

namespace StateMachines

namespace Engine

variable {e e' : Engine} {h k p : Handle} {written : Option (Handle × StateId)}

/-- What an issued handle descends from was issued, and it descended from it before the change. -/
theorem Change.descends_of_issued (hs : e.Sound) (he : e.store.Evolves e'.store)
    (hissued : e.store.Issued h) (hdescends : e'.Descends h k) :
    e.Descends h k ∧ e.store.Issued k := by
  -- An issued handle keeps its parent, and parents are issued.
  have hparent : ∀ {c q}, e.store.Issued c → e'.parent? c = some q →
      e.parent? c = some q ∧ e.store.Issued q := by
    intro c q hc hq
    obtain ⟨b, hb, hbq⟩ := Option.bind_eq_some_iff.1 hq
    obtain ⟨a, ha, hcontinues⟩ := he.continues hc hb
    have haq : a.parent = some q := hcontinues.parent_eq.symm.trans hbq
    exact ⟨Option.bind_eq_some_iff.2 ⟨a, ha, haq⟩, hs.issued_of_parent c a q ha haq⟩
  induction hdescends with
  | single hq =>
    obtain ⟨hq', hissued'⟩ := hparent hissued hq
    exact ⟨.single hq', hissued'⟩
  | tail _ hq ih =>
    obtain ⟨hdescends, hissued'⟩ := ih
    obtain ⟨hq', hissued''⟩ := hparent hissued' hq
    exact ⟨hdescends.tail hq', hissued''⟩

/-- A change under which the store evolves makes no instance descend from itself. -/
theorem Change.irreflexive_descends (hc : e.Change written e') (hs : e.Sound)
    (he : e.store.Evolves e'.store) (hbefore : ∀ k, ¬ e.Descends k k) : ¬ e'.Descends h h := by
  intro hcycle
  by_cases hissued : e.store.Issued h
  · exact hbefore h (descends_of_issued hs he hissued hcycle).1
  · -- A new instance is the child of an old one, and old ones do not descend from new ones.
    obtain ⟨q, hq, hrest⟩ := Relation.TransGen.head'_iff.1 hcycle
    obtain ⟨b, hb, hbq⟩ := Option.bind_eq_some_iff.1 hq
    have hdead : e.get? h = none := by
      cases hlive : e.get? h with
      | none => rfl
      | some a => exact absurd (Store.issued_of_get? hlive) hissued
    obtain ⟨parent, hparent⟩ := (hc.born hs.tidy hdead hb).2 q hbq
    have hissued' : e.store.Issued q := Store.issued_of_get? hparent
    rcases Relation.reflTransGen_iff_eq_or_transGen.1 hrest with heq | hdescends
    · exact hissued (heq ▸ hissued')
    · exact hissued (descends_of_issued hs he hissued' hdescends).2

end Engine

namespace Execution

variable {σ ν : Type} {host : Host σ ν} {x x' y : Execution σ ν} {past : List (Execution σ ν)}
  {h : Handle} {a b : Instance}

/-- No instance descends from itself. -/
theorem Run.irreflexive_descends (hrun : Run host x past) (hfew : FewReleases (x :: past))
    (h : Handle) : ¬ x.world.engine.Descends h h := by
  induction hrun generalizing h with
  | start w config hfresh =>
    intro hcycle
    obtain ⟨q, hq, -⟩ := Relation.TransGen.head'_iff.1 hcycle
    simp [hfresh, Engine.parent?] at hq
  | next hrun hnext ih =>
    exact hnext.change.irreflexive_descends (hrun.sound hfew.of_cons)
      (hrun.evolves_next hnext hfew) (ih hfew.of_cons)

/-- A step gives no child to an instance whose termination has begun. -/
theorem TreeStep.children_sublist (hs : TreeStep x x') {l l' : Links} (hl : x.links? h = some l)
    (hmarked : l.terminating = true) (hl' : x'.links? h = some l') :
    l'.children.Sublist l.children := by
  have hsame : x.links? h = some l' → l'.children.Sublist l.children := by
    intro hl'
    cases hl.symm.trans hl'
    exact .refl _
  cases hs with
  | keeps hlinks => exact hsame (hlinks ▸ hl')
  | allocates k hnew hlinks =>
    rw [hlinks, update_eq_some_iff] at hl'
    rcases hl' with ⟨rfl, -⟩ | ⟨-, hl'⟩
    · cases hnew.symm.trans hl
    · exact hsame hl'
  | adopts k p m hnew hparent hactive hlinks =>
    rw [hlinks, update_eq_some_iff, update_eq_some_iff] at hl'
    rcases hl' with ⟨rfl, -⟩ | ⟨-, ⟨rfl, -⟩ | ⟨-, hl'⟩⟩
    · -- Only an instance whose termination has not begun gets a child.
      cases hparent.symm.trans hl
      cases hactive.symm.trans hmarked
    · cases hnew.symm.trans hl
    · exact hsame hl'
  | frees k hcall hlinks =>
    rw [hlinks, update_eq_some_iff] at hl'
    rcases hl' with ⟨-, heq⟩ | ⟨-, hl'⟩
    · cases heq
    · exact hsame hl'
  | begins ending inst hlive hactive hdescriptor hparent hlinks =>
    rw [hlinks, update_eq_some_iff] at hl'
    rcases hl' with ⟨rfl, -⟩ | ⟨-, hl'⟩
    · cases (Engine.links?_eq_some_iff.2 ⟨inst, hlive, rfl⟩).symm.trans hl
      cases hactive.symm.trans hmarked
    · exact hsame hl'
  | turns ending child rest outer hlinks => exact hsame (hlinks ▸ hl')
  | detaches ending outer hlinks =>
    -- The instance that is cleaned up is taken off the list of its parent.
    rw [hlinks] at hl'
    obtain ⟨m, hm, rfl⟩ := Option.map_eq_some_iff.1 hl'
    cases hl.symm.trans hm
    dsimp only
    split
    next => exact List.filter_sublist
    next => exact .refl _
  | releases ending _ _ hlinks =>
    rw [hlinks, update_eq_some_iff] at hl'
    rcases hl' with ⟨-, heq⟩ | ⟨-, hl'⟩
    · cases heq
    · exact hsame hl'

/-- Once the termination of an instance has begun, its children only become fewer. -/
theorem Run.children_sublist (hrun : Run host x past) (hfew : FewReleases (x :: past))
    (hy : y ∈ x :: past) (ha : y.world.engine.get? h = some a) (hmarked : a.terminating = true)
    (hb : x.world.engine.get? h = some b) : b.children.Sublist a.children := by
  induction hrun generalizing b with
  | start =>
    rw [List.mem_singleton.1 hy] at ha
    cases ha.symm.trans hb
    exact .refl _
  | @next x x' past hrun hnext ih =>
    rcases List.mem_cons.1 hy with rfl | hy
    · cases ha.symm.trans hb
      exact .refl _
    · -- The instance was live and marked one moment before, with no other children than at `y`.
      have hevolves := hrun.evolves hfew.of_cons hy
      have hissued := Store.issued_of_get? ha
      obtain ⟨m, hm, -⟩ :=
        (hrun.evolves_next hnext hfew).continues (hevolves.issued hissued) hb
      obtain ⟨a', ha', hcontinues⟩ := hevolves.continues hissued hm
      cases ha.symm.trans ha'
      have hm' : x.links? h = some m.links := Engine.links?_eq_some_iff.2 ⟨m, hm, rfl⟩
      have hb' : x'.links? h = some b.links := Engine.links?_eq_some_iff.2 ⟨b, hb, rfl⟩
      have hstep : b.links.children.Sublist m.links.children :=
        (hnext.treeStep hrun.tidy).children_sublist hm' (hcontinues.terminating_of hmarked) hb'
      exact hstep.trans (ih hfew.of_cons hy hm)

/-- At every moment of a run without direct releases the links between parents and children mirror
each other: the children of an instance are listed once, they are live, and it is their parent; an
instance whose termination has not begun is listed by its parent, which is live; no instance
descends from itself; and the children of an instance whose termination has begun are some of
those that it had at any moment since. -/
theorem Run.links_mirrored (hrun : Run host x past) (hnever : NeverFrees past)
    (hfew : FewReleases (x :: past)) :
    (∀ p inst, x.world.engine.get? p = some inst → inst.children.Nodup ∧
      ∀ c ∈ inst.children, ∃ child, x.world.engine.get? c = some child ∧
        child.parent = some p) ∧
    (∀ c child p, x.world.engine.get? c = some child → child.terminating = false →
      child.parent = some p → ∃ inst, x.world.engine.get? p = some inst ∧ c ∈ inst.children) ∧
    (∀ h, ¬ x.world.engine.Descends h h) ∧
    ∀ y ∈ x :: past, ∀ h a b, y.world.engine.get? h = some a → a.terminating = true →
      x.world.engine.get? h = some b → b.children.Sublist a.children := by
  have hlinked := hrun.linked hnever
  refine ⟨fun p inst hlive => ?_, fun c child p hlive hactive hparent => ?_,
    hrun.irreflexive_descends hfew, fun y hy h a b ha hmarked hb => ?_⟩
  · have hp : x.links? p = some inst.links := Engine.links?_eq_some_iff.2 ⟨inst, hlive, rfl⟩
    refine ⟨hlinked.nodup p inst.links hp, fun c hc => ?_⟩
    obtain ⟨m, hm, hparent⟩ := hlinked.listed p inst.links c hp hc
    obtain ⟨child, hchild, rfl⟩ := Engine.links?_eq_some_iff.1 hm
    exact ⟨child, hchild, hparent⟩
  · obtain ⟨l, hl, hmem⟩ := hlinked.kept c child.links p
      (Engine.links?_eq_some_iff.2 ⟨child, hlive, rfl⟩) hactive hparent
    obtain ⟨inst, hinst, rfl⟩ := Engine.links?_eq_some_iff.1 hl
    exact ⟨inst, hinst, hmem⟩
  · exact hrun.children_sublist hfew hy ha hmarked hb

/-- The moment inside the end of a root at which its first child is cleaned up. -/
def cutting : Execution Unit Unit × List (Execution Unit Unit) :=
  follow meddler felling 4 felling []

/-- In the middle of the end of a tree the root has lost one of its children, and the other one is
still linked. -/
theorem cutting_links_mirrored :
    cutting.1.world.engine.parent? ⟨1, 0⟩ = some ⟨0, 0⟩ ∧
    cutting.1.world.engine.children ⟨0, 0⟩ = [⟨2, 0⟩] ∧
    (∃ child, cutting.1.world.engine.get? ⟨2, 0⟩ = some child ∧ child.parent = some ⟨0, 0⟩) ∧
    ¬ cutting.1.world.engine.Descends ⟨1, 0⟩ ⟨1, 0⟩ ∧
    ∀ y ∈ cutting.1 :: (cutting.2 ++ planted.1 :: planted.2), ∀ a b,
      y.world.engine.get? ⟨0, 0⟩ = some a → a.terminating = true →
      cutting.1.world.engine.get? ⟨0, 0⟩ = some b → b.children.Sublist a.children := by
  have hplanted : Run meddler planted.1 planted.2 := run_session 10 _ (run_idle _ _)
  have hfelling : Run meddler felling (planted.1 :: planted.2) :=
    hplanted.next (.call planted.1.world _ rfl rfl (Nat.le_refl _))
  have hcutting : Run meddler cutting.1 (cutting.2 ++ planted.1 :: planted.2) :=
    (spans_follow 4 .start).run hfelling
  obtain ⟨hlisted, -, hirreflexive, hfewer⟩ :=
    Run.links_mirrored hcutting (by decide) (fewReleases_of_length_lt (by decide))
  obtain ⟨root, hroot⟩ : ∃ root, cutting.1.world.engine.get? ⟨0, 0⟩ = some root :=
    Engine.isAlive_eq_true_iff.1 (by decide)
  have hchildren : cutting.1.world.engine.children ⟨0, 0⟩ = [⟨2, 0⟩] := by decide
  refine ⟨by decide, hchildren, ?_, hirreflexive _, fun y hy a b => hfewer y hy _ a b⟩
  apply (hlisted _ root hroot).2
  rw [Engine.children, hroot] at hchildren
  simp [hchildren]

end Execution

end StateMachines
