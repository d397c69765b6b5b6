import StateMachines.Proofs.Execution.Soundness
import StateMachines.Proofs.Termination.Forest

/-!
# The ends in progress

The instances whose termination has begun are exactly the targets of the ends in progress, one
each: this is what `Execution.Orderly` says of a moment, together with what the frames remember of
their targets. It holds at every moment of a run in which no instance is released by a direct call
while it is being terminated.

## Main results

* `Execution.Run.orderly`: the moments of such a run are orderly.
* `Execution.Run.descriptor_eq_of_ending`: an end deals with the class of its target.
* `Execution.Run.endings_pairwise`: an end that is further down the stack was in progress already
  when the ones above it began.
-/

namespace StateMachines.Execution

variable {σ ν : Type} {host : Host σ ν} {x x' y : Execution σ ν} {past : List (Execution σ ν)}
  {h p : Handle} {inst : Instance} {t : Teardown} {l : Links}

/-- What the ends in progress deal with, the innermost first. -/
def endings (x : Execution σ ν) : List Ending := x.teardowns.map (·.ending)

/-- The targets of the ends in progress, the innermost first. -/
def targets (x : Execution σ ν) : List Handle := x.teardowns.map (·.ending.target)

/-- The ends in progress are those of the instances whose termination has begun. -/
structure Orderly (x : Execution σ ν) : Prop where
  /-- No instance is ended twice at a time. -/
  nodup : x.targets.Nodup
  /-- Every instance whose termination has begun is being ended. -/
  complete : ∀ h l, x.links? h = some l → l.terminating = true → h ∈ x.targets
  /-- An instance that is being ended is live, marked, and the child of its parent. -/
  ongoing : ∀ t ∈ x.teardowns, ∃ l, x.links? t.ending.target = some l ∧ l.terminating = true ∧
    l.parent = t.ending.parent
  /-- An instance that is being cleaned up is no child of its parent any more. -/
  unlisted : ∀ t ∈ x.teardowns, t.children? = none → ∀ p l, t.ending.parent = some p →
    x.links? p = some l → t.ending.target ∉ l.children

/-- A target of an end in progress is live and marked. -/
theorem Orderly.of_mem_targets (ho : x.Orderly) (hmem : h ∈ x.targets) :
    ∃ l, x.links? h = some l ∧ l.terminating = true := by
  obtain ⟨t, ht, rfl⟩ := List.mem_map.1 hmem
  obtain ⟨l, hl, hmarked, -⟩ := ho.ongoing t ht
  exact ⟨l, hl, hmarked⟩

/-- The instance that is being ended is live and marked. -/
theorem Orderly.marked_of_ending (ho : x.Orderly) {ending : Ending} (hending : ending ∈ x.endings) :
    ∃ inst, x.world.engine.get? ending.target = some inst ∧ inst.terminating = true := by
  obtain ⟨t, ht, rfl⟩ := List.mem_map.1 hending
  obtain ⟨l, hl, hmarked, -⟩ := ho.ongoing t ht
  obtain ⟨inst, hlive, rfl⟩ := Engine.links?_eq_some_iff.1 hl
  exact ⟨inst, hlive, hmarked⟩

/-- An instance whose termination has not begun is not being ended. -/
theorem Orderly.not_mem_targets (ho : x.Orderly)
    (hl : ∀ l, x.links? h = some l → l.terminating = false) : h ∉ x.targets := fun hmem => by
  obtain ⟨l, hlive, hmarked⟩ := ho.of_mem_targets hmem
  rw [hl l hlive] at hmarked
  cases hmarked

/-- Before the first call nothing is being ended. -/
theorem orderly_start (w : World σ ν) (config : Config) (hfresh : w.engine = { config }) :
    Orderly (⟨w, .give .done, []⟩ : Execution σ ν) := by
  refine ⟨List.nodup_nil, fun h l hl => ?_, fun t ht => ?_, fun t ht => ?_⟩
  · obtain ⟨inst, hlive, -⟩ := Engine.links?_eq_some_iff.1 hl
    simp [hfresh] at hlive
  · simp [teardowns] at ht
  · simp [teardowns] at ht

/-- A moment remains orderly as long as the same ends are in progress. -/
theorem Orderly.of_frame (ho : x.Orderly)
    (hends : x'.endings = x.endings)
    (hmarked : ∀ h l', x'.links? h = some l' → l'.terminating = true →
      ∃ l, x.links? h = some l ∧ l.terminating = true)
    (hkept : ∀ h l, x.links? h = some l → l.terminating = true →
      ∃ l', x'.links? h = some l' ∧ l'.terminating = true ∧ l'.parent = l.parent)
    (hgrown : ∀ h l' c, x'.links? h = some l' → c ∈ l'.children →
      x.links? c = none ∨ ∃ l, x.links? h = some l ∧ c ∈ l.children)
    (hcleaning : ∀ t ∈ x'.teardowns, t.children? = none → t ∈ x.teardowns ∨
      ∀ p l, t.ending.parent = some p → x'.links? p = some l → t.ending.target ∉ l.children) :
    x'.Orderly := by
  have htargets : x'.targets = x.targets := by
    have hmap := congrArg (List.map Ending.target) hends
    rwa [endings, endings, List.map_map, List.map_map] at hmap
  refine ⟨htargets ▸ ho.nodup, fun h l hl hm => ?_, fun t ht => ?_, fun t ht hnone p l hp hl => ?_⟩
  · obtain ⟨l, hlive, hm⟩ := hmarked h l hl hm
    exact htargets ▸ ho.complete h l hlive hm
  · have hending : t.ending ∈ x'.endings := List.mem_map_of_mem ht
    rw [hends] at hending
    obtain ⟨t₀, ht₀, heq⟩ := List.mem_map.1 hending
    obtain ⟨l, hl, hm, hparent⟩ := ho.ongoing t₀ ht₀
    rw [heq] at hl hparent
    obtain ⟨l', hl', hm', hparent'⟩ := hkept _ l hl hm
    exact ⟨l', hl', hm', hparent'.trans hparent⟩
  · rcases hcleaning t ht hnone with hbefore | hnew
    · -- A child that has come to a list was dead before, and targets are live.
      intro hmem
      rcases hgrown p l _ hl hmem with hfresh | ⟨l₀, hl₀, hmem₀⟩
      · obtain ⟨l, hlive, -⟩ := ho.ongoing t hbefore
        cases hfresh.symm.trans hlive
      · exact ho.unlisted t hbefore hnone p l₀ hp hl₀ hmem₀
    · exact hnew p l hp hl

/-- An allocation keeps a moment orderly. -/
theorem Orderly.allocates (ho : x.Orderly) (hnew : x.links? h = none)
    (hlinks : x'.links? = Function.update x.links? h (some {}))
    (hends : x'.teardowns = x.teardowns) : x'.Orderly := by
  refine ho.of_frame (congrArg (List.map _) hends) (fun k l' hk hm => ?_) (fun k l hk hm => ?_)
    (fun k l' c hk hc => ?_) (fun t ht _ => .inl (hends ▸ ht))
  · rw [hlinks, update_eq_some_iff] at hk
    rcases hk with ⟨-, heq⟩ | ⟨-, hk⟩
    · cases heq
      cases hm
    · exact ⟨l', hk, hm⟩
  · refine ⟨l, ?_, hm, rfl⟩
    rw [hlinks, update_eq_some_iff]
    refine .inr ⟨?_, hk⟩
    rintro rfl
    cases hnew.symm.trans hk
  · rw [hlinks, update_eq_some_iff] at hk
    rcases hk with ⟨-, heq⟩ | ⟨-, hk⟩
    · cases heq
      cases hc
    · exact .inr ⟨l', hk, hc⟩

/-- The allocation of a child keeps a moment orderly. -/
theorem Orderly.adopts (ho : x.Orderly) (hnew : x.links? h = none) (hparent : x.links? p = some l)
    (hactive : l.terminating = false)
    (hlinks : x'.links? = Function.update (Function.update x.links? h (some { parent := some p }))
      p (some { l with children := l.children ++ [h] }))
    (hends : x'.teardowns = x.teardowns) : x'.Orderly := by
  refine ho.of_frame (congrArg (List.map _) hends) (fun k l' hk hm => ?_) (fun k m hk hm => ?_)
    (fun k l' c hk hc => ?_) (fun t ht _ => .inl (hends ▸ ht))
  · rw [hlinks, update_eq_some_iff, update_eq_some_iff] at hk
    rcases hk with ⟨-, heq⟩ | ⟨-, ⟨-, heq⟩ | ⟨-, hk⟩⟩
    · cases heq
      cases hactive.symm.trans hm
    · cases heq
      cases hm
    · exact ⟨l', hk, hm⟩
  · -- The child is new and the parent is not marked, so a marked instance is neither.
    refine ⟨m, ?_, hm, rfl⟩
    rw [hlinks, update_eq_some_iff, update_eq_some_iff]
    refine .inr ⟨?_, .inr ⟨?_, hk⟩⟩
    · rintro rfl
      cases hparent.symm.trans hk
      cases hactive.symm.trans hm
    · rintro rfl
      cases hnew.symm.trans hk
  · rw [hlinks, update_eq_some_iff, update_eq_some_iff] at hk
    rcases hk with ⟨rfl, heq⟩ | ⟨-, ⟨-, heq⟩ | ⟨-, hk⟩⟩
    · cases heq
      rcases List.mem_append.1 hc with hc | hc
      · exact .inr ⟨l, hparent, hc⟩
      · rw [List.mem_singleton.1 hc]
        exact .inl hnew
    · cases heq
      cases hc
    · exact .inr ⟨l', hk, hc⟩

/-- The release of an instance whose termination has not begun keeps a moment orderly. -/
theorem Orderly.frees (ho : x.Orderly) (hactive : ∀ l, x.links? h = some l → l.terminating = false)
    (hlinks : x'.links? = Function.update x.links? h none)
    (hends : x'.teardowns = x.teardowns) : x'.Orderly := by
  refine ho.of_frame (congrArg (List.map _) hends) (fun k l' hk hm => ?_) (fun k l hk hm => ?_)
    (fun k l' c hk hc => ?_) (fun t ht _ => .inl (hends ▸ ht))
  · rw [hlinks, update_eq_some_iff] at hk
    rcases hk with ⟨-, heq⟩ | ⟨-, hk⟩
    · cases heq
    · exact ⟨l', hk, hm⟩
  · refine ⟨l, ?_, hm, rfl⟩
    rw [hlinks, update_eq_some_iff]
    refine .inr ⟨?_, hk⟩
    rintro rfl
    cases (hactive l hk).symm.trans hm
  · rw [hlinks, update_eq_some_iff] at hk
    rcases hk with ⟨-, heq⟩ | ⟨-, hk⟩
    · cases heq
    · exact .inr ⟨l', hk, hc⟩

/-- The beginning of an end keeps a moment orderly. -/
theorem Orderly.begins {ending : Ending} (ho : x.Orderly)
    (hlive : x.links? ending.target = some inst.links) (hactive : inst.terminating = false)
    (hparent : ending.parent = inst.parent)
    (hlinks : x'.links? =
      Function.update x.links? ending.target (some { inst.links with terminating := true }))
    (hends : x'.teardowns = ⟨ending, some inst.children⟩ :: x.teardowns) : x'.Orderly := by
  have htargets : x'.targets = ending.target :: x.targets := congrArg (List.map _) hends
  -- The mark guards against a second end of the same instance.
  have hnew : ending.target ∉ x.targets := ho.not_mem_targets fun l hl => by
    cases hlive.symm.trans hl
    exact hactive
  refine ⟨?_, fun k l hk hm => ?_, fun t ht => ?_, fun t ht hnone q l hq hl => ?_⟩
  · rw [htargets]
    exact List.nodup_cons.2 ⟨hnew, ho.nodup⟩
  · rw [htargets]
    rw [hlinks, update_eq_some_iff] at hk
    rcases hk with ⟨rfl, -⟩ | ⟨-, hk⟩
    · exact List.mem_cons_self
    · exact List.mem_cons_of_mem _ (ho.complete k l hk hm)
  · rw [hlinks]
    rw [hends] at ht
    rcases List.mem_cons.1 ht with rfl | ht
    · exact ⟨_, Function.update_self .., rfl, hparent.symm⟩
    · have hne : t.ending.target ≠ ending.target := fun heq =>
        hnew (heq ▸ List.mem_map_of_mem ht)
      rw [Function.update_of_ne hne]
      exact ho.ongoing t ht
  · -- The end that begins is not cleaning up yet, and marking its target moves no child.
    rw [hends] at ht
    rcases List.mem_cons.1 ht with rfl | ht
    · cases hnone
    · rw [hlinks, update_eq_some_iff] at hl
      rcases hl with ⟨rfl, heq⟩ | ⟨-, hl⟩
      · cases heq
        exact ho.unlisted t ht hnone _ inst.links hq hlive
      · exact ho.unlisted t ht hnone q l hq hl

/-- Turning to the next child keeps a moment orderly. -/
theorem Orderly.turns {ending : Ending} {children rest : List Handle} {outer : List Teardown}
    (ho : x.Orderly) (hlinks : x'.links? = x.links?)
    (hbefore : x.teardowns = ⟨ending, some children⟩ :: outer)
    (hafter : x'.teardowns = ⟨ending, some rest⟩ :: outer) : x'.Orderly := by
  have hends : x'.endings = x.endings := by
    rw [endings, endings, hbefore, hafter]
    rfl
  refine ho.of_frame hends (fun k l' hk hm => ⟨l', hlinks ▸ hk, hm⟩)
    (fun k l hk hm => ⟨l, by rw [hlinks, hk], hm, rfl⟩)
    (fun k l' c hk hc => .inr ⟨l', hlinks ▸ hk, hc⟩) (fun t ht hnone => .inl ?_)
  rw [hafter] at ht
  rw [hbefore]
  rcases List.mem_cons.1 ht with rfl | ht
  · cases hnone
  · exact List.mem_cons_of_mem _ ht

/-- Taking an instance out of the children of its parent keeps a moment orderly. -/
theorem Orderly.detaches {ending : Ending} {outer : List Teardown} (ho : x.Orderly)
    (hlinks : x'.links? = ending.detach x.links?)
    (hbefore : x.teardowns = ⟨ending, some []⟩ :: outer)
    (hafter : x'.teardowns = ⟨ending, none⟩ :: outer) : x'.Orderly := by
  have hends : x'.endings = x.endings := by
    rw [endings, endings, hbefore, hafter]
    rfl
  refine ho.of_frame hends (fun k l' hk hm => ?_) (fun k l hk hm => ?_)
    (fun k l' c hk hc => ?_) (fun t ht hnone => ?_)
  · rw [hlinks] at hk
    obtain ⟨l, hl, rfl⟩ := Option.map_eq_some_iff.1 hk
    exact ⟨l, hl, hm⟩
  · rw [hlinks, Ending.detach, hk]
    exact ⟨_, rfl, hm, rfl⟩
  · rw [hlinks] at hk
    obtain ⟨l, hl, rfl⟩ := Option.map_eq_some_iff.1 hk
    refine .inr ⟨l, hl, ?_⟩
    dsimp only at hc
    split at hc
    next => exact (List.mem_filter.1 hc).1
    next => exact hc
  · rw [hafter] at ht
    rcases List.mem_cons.1 ht with rfl | ht
    · -- The end that turns to cleaning up has just taken its target off the list.
      refine .inr fun q l hq hl hmem => ?_
      rw [hlinks] at hl
      obtain ⟨m, -, rfl⟩ := Option.map_eq_some_iff.1 hl
      dsimp only at hmem hq
      rw [if_pos hq] at hmem
      simpa using (List.mem_filter.1 hmem).2
    · exact .inl (hbefore ▸ List.mem_cons_of_mem _ ht)

/-- The release of an instance that has been cleaned up keeps a moment orderly. -/
theorem Orderly.releases {ending : Ending} (ho : x.Orderly)
    (hlinks : x'.links? = Function.update x.links? ending.target none)
    (hends : x.teardowns = ⟨ending, none⟩ :: x'.teardowns) : x'.Orderly := by
  have htargets : x.targets = ending.target :: x'.targets := congrArg (List.map _) hends
  have hnodup := ho.nodup
  rw [htargets, List.nodup_cons] at hnodup
  refine ⟨hnodup.2, fun k l hk hm => ?_, fun t ht => ?_, fun t ht hnone q l hq hl => ?_⟩
  · rw [hlinks, update_eq_some_iff] at hk
    rcases hk with ⟨-, heq⟩ | ⟨hne, hk⟩
    · cases heq
    · have hmem := htargets ▸ ho.complete k l hk hm
      exact (List.mem_cons.1 hmem).resolve_left hne
  · have hne : t.ending.target ≠ ending.target := fun heq =>
      hnodup.1 (heq ▸ List.mem_map_of_mem ht)
    rw [hlinks, Function.update_of_ne hne]
    exact ho.ongoing t (hends ▸ List.mem_cons_of_mem _ ht)
  · rw [hlinks, update_eq_some_iff] at hl
    rcases hl with ⟨-, heq⟩ | ⟨-, hl⟩
    · cases heq
    · exact ho.unlisted t (hends ▸ List.mem_cons_of_mem _ ht) hnone q l hq hl

/-- A step keeps a moment orderly, unless it releases an instance that is being terminated. -/
theorem TreeStep.orderly (hs : TreeStep x x') (ho : x.Orderly)
    (hfree : ∀ h inst, x.control = .perform (.free h) → x.world.engine.get? h = some inst →
      inst.terminating = false) : x'.Orderly := by
  cases hs with
  | keeps hlinks hends =>
    exact ho.of_frame (congrArg (List.map _) hends) (fun k l' hk hm => ⟨l', hlinks ▸ hk, hm⟩)
      (fun k l hk hm => ⟨l, by rw [hlinks, hk], hm, rfl⟩)
      (fun k l' c hk hc => .inr ⟨l', hlinks ▸ hk, hc⟩) (fun t ht _ => .inl (hends ▸ ht))
  | allocates h hnew hlinks hends => exact ho.allocates hnew hlinks hends
  | adopts h p l hnew hparent hactive hlinks hends =>
    exact ho.adopts hnew hparent hactive hlinks hends
  | frees h hcall hlinks hends =>
    refine ho.frees (fun l hl => ?_) hlinks hends
    obtain ⟨inst, hlive, rfl⟩ := Engine.links?_eq_some_iff.1 hl
    exact hfree h inst hcall hlive
  | begins ending inst hlive hactive hdescriptor hparent hlinks hends =>
    exact ho.begins (Engine.links?_eq_some_iff.2 ⟨inst, hlive, rfl⟩) hactive hparent hlinks hends
  | turns ending child rest outer hlinks hbefore hafter hchild =>
    exact ho.turns hlinks hbefore hafter
  | detaches ending outer hlinks hbefore hafter => exact ho.detaches hlinks hbefore hafter
  | releases ending _ _ hlinks hends => exact ho.releases hlinks hends

/-! ## Along a run -/

/-- The moments of a run are orderly if no instance is released by a direct call while it is being
terminated. -/
theorem Run.orderly (hrun : Run host x past) (hfrees : FreesOrderly past) : x.Orderly := by
  induction hrun with
  | start w config hfresh => exact orderly_start w config hfresh
  | @next x x' past hrun hnext ih =>
    exact (hnext.treeStep hrun.tidy).orderly (ih hfrees.of_cons)
      (hfrees x List.mem_cons_self)

/-- A step leaves the ends in progress as they are, begins an end, or completes the innermost. -/
theorem TreeStep.endings_cases (hs : TreeStep x x') :
    x'.endings = x.endings ∨
      (∃ ending inst, x.world.engine.get? ending.target = some inst ∧ inst.terminating = false ∧
        ending.descriptor = inst.descriptor ∧ x'.endings = ending :: x.endings) ∨
      ∃ ending, x.endings = ending :: x'.endings := by
  cases hs with
  | keeps _ hends => exact .inl (congrArg (List.map _) hends)
  | allocates _ _ _ hends => exact .inl (congrArg (List.map _) hends)
  | adopts _ _ _ _ _ _ _ hends => exact .inl (congrArg (List.map _) hends)
  | frees _ _ _ hends => exact .inl (congrArg (List.map _) hends)
  | begins ending inst hlive hactive hdescriptor _ _ hends =>
    exact .inr (.inl ⟨ending, inst, hlive, hactive, hdescriptor, congrArg (List.map _) hends⟩)
  | turns _ _ _ _ _ hbefore hafter => exact .inl (by rw [endings, endings, hbefore, hafter]; rfl)
  | detaches _ _ _ hbefore hafter => exact .inl (by rw [endings, endings, hbefore, hafter]; rfl)
  | releases ending _ _ _ hends => exact .inr (.inr ⟨ending, congrArg (List.map _) hends⟩)

/-- An end deals with the class of its target. -/
theorem Run.descriptor_eq_of_ending (hrun : Run host x past) (hfrees : FreesOrderly past)
    {ending : Ending} (hending : ending ∈ x.endings)
    (hlive : x.world.engine.get? ending.target = some inst) :
    inst.descriptor = ending.descriptor := by
  induction hrun generalizing inst with
  | start => simp [endings, teardowns] at hending
  | @next x x' past hrun hnext ih =>
    -- The target was live before the step, with the class that the end deals with.
    obtain ⟨a, ha, hdescriptor⟩ : ∃ a, x.world.engine.get? ending.target = some a ∧
        a.descriptor = ending.descriptor := by
      have hbefore : ending ∈ x.endings → ∃ a, x.world.engine.get? ending.target = some a ∧
          a.descriptor = ending.descriptor := fun hmem => by
        obtain ⟨a, ha, -⟩ := (hrun.orderly hfrees.of_cons).marked_of_ending hmem
        exact ⟨a, ha, ih hfrees.of_cons hmem ha⟩
      rcases (hnext.treeStep hrun.tidy).endings_cases with
        heq | ⟨new, a, ha, -, hnew, heq⟩ | ⟨done, heq⟩
      · exact hbefore (heq ▸ hending)
      · rw [heq] at hending
        rcases List.mem_cons.1 hending with rfl | hmem
        · exact ⟨a, ha, hnew.symm⟩
        · exact hbefore hmem
      · exact hbefore (heq ▸ List.mem_cons_of_mem _ hending)
    rw [(hnext.change.continues_of_live hrun.tidy ha hlive).1.descriptor_eq, hdescriptor]

/-- At some moment of a history the termination of `first` had begun, and that of `second` had not;
both were live then and have been since. -/
def BeganBefore (hist : List (Execution σ ν)) (first second : Handle) : Prop :=
  ∃ after y before, hist = after ++ y :: before ∧
    (∃ inst, y.world.engine.get? first = some inst ∧ inst.terminating = true) ∧
    (∃ inst, y.world.engine.get? second = some inst ∧ inst.terminating = false) ∧
    ∀ z ∈ after, (∃ inst, z.world.engine.get? first = some inst) ∧
      ∃ inst, z.world.engine.get? second = some inst

/-- What began before still did so at a later moment at which both instances are live. -/
theorem BeganBefore.cons {first second : Handle} (hbegan : BeganBefore past first second)
    (hfirst : ∃ inst, x.world.engine.get? first = some inst)
    (hsecond : ∃ inst, x.world.engine.get? second = some inst) :
    BeganBefore (x :: past) first second := by
  obtain ⟨after, y, before, rfl, hmarked, hactive, hsince⟩ := hbegan
  refine ⟨x :: after, y, before, rfl, hmarked, hactive, fun z hz => ?_⟩
  rcases List.mem_cons.1 hz with rfl | hz
  · exact ⟨hfirst, hsecond⟩
  · exact hsince z hz

/-- An end began before those that are above it on the stack. -/
theorem Run.endings_pairwise (hrun : Run host x past) (hfrees : FreesOrderly past) :
    x.endings.Pairwise fun inner outer => BeganBefore past outer.target inner.target := by
  induction hrun with
  | start => exact .nil
  | @next x x' past hrun hnext ih =>
    have ho := hrun.orderly hfrees.of_cons
    have hbefore : x.endings.Pairwise fun inner outer =>
        BeganBefore (x :: past) outer.target inner.target :=
      (ih hfrees.of_cons).imp_of_mem fun {inner outer} hinner houter hbegan => by
        obtain ⟨a, ha, -⟩ := ho.marked_of_ending houter
        obtain ⟨b, hb, -⟩ := ho.marked_of_ending hinner
        exact hbegan.cons ⟨a, ha⟩ ⟨b, hb⟩
    rcases (hnext.treeStep hrun.tidy).endings_cases with
      heq | ⟨new, inst, hlive, hactive, -, heq⟩ | ⟨done, heq⟩
    · rwa [heq]
    · -- When the new end begins, the others are in progress, and its own target is not marked.
      rw [heq]
      refine .cons (fun outer houter => ?_) hbefore
      exact ⟨[], x, past, rfl, ho.marked_of_ending houter, ⟨inst, hlive, hactive⟩, by simp⟩
    · rw [heq] at hbefore
      exact hbefore.of_cons

end StateMachines.Execution
