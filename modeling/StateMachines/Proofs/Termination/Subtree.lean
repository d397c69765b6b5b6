import Mathlib.Data.Set.Finite.Basic
import Mathlib.Order.WellFoundedSet
import StateMachines.Proofs.Independence.Commute
import StateMachines.Proofs.Termination.Teardown

/-!
# Subtrees

When nothing is being ended, the live instances form trees, whatever has happened before: children
and parents refer to each other, and no instance descends from itself. So the instances below any of
them can be listed in post-order. This module says what an engine is that has lost such a list of
instances and nothing else.

That there are no cycles does not depend on how often slots have been used. While terminations are
in progress a handle may come to refer to another instance below one that is being ended, and
instances that are being ended may be linked in a circle then; those whose end has not begun are
not.

## Main definitions

* `Engine.Settled`: nothing is being ended, and the instances form trees.
* `Engine.PostOrder`: the instances of some trees in post-order, the children of an instance in the
  order of their allocation.
* `Engine.Prunes`: the engine has lost the listed instances and nothing else.

## Main results

* `Execution.Run.settled`: engines that are reached without direct releases are settled whenever
  nothing is being ended.
* `Engine.Settled.exists_postOrder`: every subtree can be listed in post-order.
* `Engine.Settled.prunes`: a settled engine remains so when it loses whole subtrees.
-/

namespace StateMachines

/-- What is left of a release by its handle. -/
theorem Store.Rostered.roster_remove {s : Store} {h : Handle} (hr : s.Rostered) :
    (s.remove h).roster = s.roster.filter (·.2 ≠ h) := by
  cases hlive : s.get? h with
  | none =>
    rw [Store.remove_eq_self hlive, eq_comm, List.filter_eq_self]
    rintro ⟨key, k⟩ hentry
    obtain ⟨inst, hinst, -⟩ := (hr.mem_iff key k).1 hentry
    refine decide_eq_true ?_
    rintro rfl
    cases hlive.symm.trans hinst
  | some inst =>
    rw [Store.roster_remove hlive]
    refine List.filter_congr fun entry hentry => ?_
    obtain ⟨key, k⟩ := entry
    obtain ⟨a, ha, rfl⟩ := (hr.mem_iff key k).1 hentry
    -- The handle is listed under the key of its instance only.
    have hkey : k = h → a.descriptor.key = inst.descriptor.key := by
      rintro rfl
      cases hlive.symm.trans ha
      rfl
    simp only [ne_eq, Prod.mk.injEq, decide_eq_decide]
    exact not_congr ⟨fun heq => heq.2, fun heq => ⟨hkey heq, heq⟩⟩

/-- The instance without some of its children. -/
def Instance.without (inst : Instance) (l : List Handle) : Instance :=
  { inst with children := inst.children.filter (· ∉ l) }

/-- An instance is not changed if none of its children is taken away. -/
theorem Instance.without_eq_self {inst : Instance} {l : List Handle}
    (hnone : ∀ c ∈ inst.children, c ∉ l) : inst.without l = inst := by
  have hchildren : inst.children.filter (· ∉ l) = inst.children :=
    List.filter_eq_self.2 fun c hc => decide_eq_true (hnone c hc)
  rw [without, hchildren]

/-- Children can be taken away in two parts. -/
theorem Instance.without_without (inst : Instance) (l l' : List Handle) :
    (inst.without l).without l' = inst.without (l ++ l') := by
  have hchildren : (inst.children.filter (· ∉ l)).filter (· ∉ l') =
      inst.children.filter (· ∉ l ++ l') := by
    rw [List.filter_filter]
    refine List.filter_congr fun c _ => ?_
    simp [Bool.and_comm]
  simp only [without, hchildren]

namespace Engine

variable {e e' e'' : Engine} {h k p c : Handle} {inst : Instance} {hs l l' : List Handle}

/-! ## Settled engines -/

/-- Nothing is being ended, and the instances form trees. -/
structure Settled (e : Engine) : Prop where
  /-- No termination is in progress. -/
  quiet : ∀ h inst, e.get? h = some inst → inst.terminating = false
  /-- No child is listed twice. -/
  nodup : ∀ h inst, e.get? h = some inst → inst.children.Nodup
  /-- A listed child is live and has the instance as its parent. -/
  listed : ∀ p inst c, e.get? p = some inst → c ∈ inst.children →
    ∃ child, e.get? c = some child ∧ child.parent = some p
  /-- A parent is live and lists its child. -/
  kept : ∀ c child p, e.get? c = some child → child.parent = some p →
    ∃ inst, e.get? p = some inst ∧ c ∈ inst.children
  /-- No instance descends from itself. -/
  irreflexive : ∀ h, ¬ e.Descends h h
  /-- The lists of the classes are right. -/
  rostered : e.store.Rostered

/-- The instance is another one or descends from it. -/
def Below (e : Engine) : Handle → Handle → Prop :=
  Relation.ReflTransGen fun child parent => e.parent? child = some parent

/-- What is below an instance is the instance itself, or descends from it. -/
theorem below_iff : e.Below k h ↔ k = h ∨ e.Descends k h := by
  rw [Below, Relation.reflTransGen_iff_eq_or_transGen, eq_comm]
  rfl

/-- The parent of a live instance. -/
theorem parent?_eq_some_iff :
    e.parent? c = some p ↔ ∃ child, e.get? c = some child ∧ child.parent = some p :=
  Option.bind_eq_some_iff

/-- What is below an instance is the instance itself, or is below one of its children. -/
theorem Settled.below_iff_children (hs : e.Settled) (hlive : e.get? h = some inst) :
    e.Below k h ↔ k = h ∨ ∃ c ∈ inst.children, e.Below k c := by
  constructor
  · intro hbelow
    rcases hbelow.cases_tail with rfl | ⟨c, hkc, hparent⟩
    · exact .inl rfl
    · obtain ⟨child, hchild, hp⟩ := parent?_eq_some_iff.1 hparent
      obtain ⟨a, ha, hmem⟩ := hs.kept c child h hchild hp
      cases hlive.symm.trans ha
      exact .inr ⟨c, hmem, hkc⟩
  · rintro (rfl | ⟨c, hc, hbelow⟩)
    · exact .refl
    · exact hbelow.tail (parent?_eq_some_iff.2 (hs.listed h inst c hlive hc))

/-- No instance is below one of its children. -/
theorem Settled.not_below_child (hs : e.Settled) (hlive : e.get? h = some inst)
    (hc : c ∈ inst.children) : ¬ e.Below h c := fun hbelow =>
  hs.irreflexive h (.tail' hbelow (parent?_eq_some_iff.2 (hs.listed h inst c hlive hc)))

/-- No child is below another child of the same instance. -/
theorem Settled.not_below_sibling (hs : e.Settled) (hlive : e.get? h = some inst)
    (hc : c ∈ inst.children) (hk : k ∈ inst.children) (hne : c ≠ k) : ¬ e.Below c k := by
  intro hbelow
  have hparent : e.parent? c = some h := parent?_eq_some_iff.2 (hs.listed h inst c hlive hc)
  rcases hbelow.cases_head with heq | ⟨p, hp, hrest⟩
  · exact hne heq
  · cases hparent.symm.trans hp
    exact hs.not_below_child hlive hk hrest

/-- The two instances have nothing below them in common. -/
def Apart (e : Engine) (h k : Handle) : Prop := ∀ c, e.Below c h → ¬ e.Below c k

/-- The children of an instance have nothing below them in common. -/
theorem Settled.pairwise_apart (hs : e.Settled) (hlive : e.get? h = some inst) :
    inst.children.Pairwise e.Apart := by
  -- An instance that is below another one is below all ancestors in between.
  have hunique : Relator.RightUnique fun child parent => e.parent? child = some parent :=
    fun _ _ _ hp hq => Option.some.inj (hp.symm.trans hq)
  refine (hs.nodup h inst hlive).imp_of_mem fun {a b} ha hb hne k hka hkb => ?_
  rcases Relation.ReflTransGen.total_of_right_unique hunique hka hkb with hab | hba
  · exact hs.not_below_sibling hlive ha hb hne hab
  · exact hs.not_below_sibling hlive hb ha hne.symm hba

/-! ## Post-order -/

/-- The instances of the trees below the given ones, each after its descendants, and siblings in the
order in which they are listed. -/
inductive PostOrder (e : Engine) : List Handle → List Handle → Prop where
  | nil : PostOrder e [] []
  | cons {h : Handle} {rest sub after : List Handle} {inst : Instance}
      (hlive : e.get? h = some inst) (hsub : PostOrder e inst.children sub)
      (hrest : PostOrder e rest after) : PostOrder e (h :: rest) (sub ++ h :: after)

/-- What is listed in post-order is what is below one of the given instances. -/
theorem PostOrder.mem_iff (hpost : e.PostOrder hs l) (hsettled : e.Settled) :
    k ∈ l ↔ ∃ h ∈ hs, e.Below k h := by
  induction hpost with
  | nil => simp
  | cons hlive hsub hrest ihsub ihrest =>
    rw [List.mem_append, List.mem_cons, List.exists_mem_cons_iff, ihsub, ihrest,
      hsettled.below_iff_children hlive]
    exact ⟨fun h => h.elim (fun h => .inl (.inr h)) (fun h => h.imp_left .inl),
      fun h => h.elim (fun h => h.elim (fun h => .inr (.inl h)) .inl) fun h => .inr (.inr h)⟩

/-- Nothing is listed twice in post-order. -/
theorem PostOrder.nodup (hpost : e.PostOrder hs l) (hsettled : e.Settled)
    (hapart : hs.Pairwise e.Apart) : l.Nodup := by
  induction hpost with
  | nil => exact List.nodup_nil
  | @cons h rest sub after inst hlive hsub hrest ihsub ihrest =>
    obtain ⟨hfirst, hapart⟩ := List.pairwise_cons.1 hapart
    have hnotafter : ∀ k ∈ after, ¬ e.Below k h := by
      intro k hk hbelow
      obtain ⟨r, hr, hkr⟩ := (hrest.mem_iff hsettled).1 hk
      exact hfirst r hr k hbelow hkr
    have hbelow : ∀ k ∈ sub, e.Below k h := fun k hk =>
      (hsettled.below_iff_children hlive).2 (.inr ((hsub.mem_iff hsettled).1 hk))
    refine List.nodup_append.2 ⟨ihsub (hsettled.pairwise_apart hlive),
      List.nodup_cons.2 ⟨fun hmem => hnotafter h hmem .refl, ihrest hapart⟩, ?_⟩
    rintro a ha b hb rfl
    rcases List.mem_cons.1 hb with rfl | hb
    · obtain ⟨c, hc, hac⟩ := (hsub.mem_iff hsettled).1 ha
      exact hsettled.not_below_child hlive hc hac
    · exact hnotafter a hb (hbelow a ha)

/-- The given instances are listed. -/
theorem PostOrder.mem (hpost : e.PostOrder hs l) (hk : k ∈ hs) : k ∈ l := by
  induction hpost with
  | nil => cases hk
  | cons _ _ _ _ ihrest =>
    rcases List.mem_cons.1 hk with rfl | hk
    · exact List.mem_append_right _ List.mem_cons_self
    · exact List.mem_append_right _ (List.mem_cons_of_mem _ (ihrest hk))

/-- The children of what is listed are listed. -/
theorem PostOrder.mem_of_mem_children (hpost : e.PostOrder hs l) (hk : k ∈ l)
    (hlive : e.get? k = some inst) (hc : c ∈ inst.children) : c ∈ l := by
  induction hpost with
  | nil => cases hk
  | cons ha hsub _ ihsub ihrest =>
    rcases List.mem_append.1 hk with hk | hk
    · exact List.mem_append_left _ (ihsub hk)
    rcases List.mem_cons.1 hk with rfl | hk
    · cases ha.symm.trans hlive
      exact List.mem_append_left _ (hsub.mem hc)
    · exact List.mem_append_right _ (List.mem_cons_of_mem _ (ihrest hk))

/-- Trees can be listed in post-order if those below the roots can. -/
theorem exists_postOrder_of_forall (hs : List Handle)
    (hall : ∀ h ∈ hs, ∃ inst sub, e.get? h = some inst ∧ e.PostOrder inst.children sub) :
    ∃ l, e.PostOrder hs l := by
  induction hs with
  | nil => exact ⟨[], .nil⟩
  | cons h rest ih =>
    obtain ⟨inst, sub, hlive, hsub⟩ := hall h List.mem_cons_self
    obtain ⟨after, hrest⟩ := ih fun k hk => hall k (List.mem_cons_of_mem h hk)
    exact ⟨_, .cons hlive hsub hrest⟩

/-- What is below an instance of a settled engine can be listed in post-order. -/
theorem Settled.exists_postOrder (hs : e.Settled) (hlive : e.get? h = some inst) :
    ∃ sub, e.PostOrder inst.children sub := by
  -- There are finitely many instances, so descending from one another is well-founded.
  have hfinite : {h | ∃ inst, e.get? h = some inst}.Finite := by
    refine (e.store.roster.map (·.2)).finite_toSet.subset ?_
    rintro k ⟨a, ha⟩
    exact List.mem_map.2 ⟨(a.descriptor.key, k), (hs.rostered.mem_iff _ _).2 ⟨a, ha, rfl⟩, rfl⟩
  have horder : IsStrictOrder Handle e.Descends :=
    { irrefl := hs.irreflexive
      trans := fun _ _ _ => Relation.TransGen.trans }
  suffices hall : ∃ inst sub, e.get? h = some inst ∧ e.PostOrder inst.children sub by
    obtain ⟨a, sub, ha, hsub⟩ := hall
    cases hlive.symm.trans ha
    exact ⟨sub, hsub⟩
  refine (hfinite.wellFoundedOn (r := e.Descends)).induction
    (P := fun h => ∃ inst sub, e.get? h = some inst ∧ e.PostOrder inst.children sub)
    (x := h) ⟨inst, hlive⟩ ?_
  rintro k ⟨a, ha⟩ ih
  obtain ⟨sub, hsub⟩ := exists_postOrder_of_forall a.children fun c hc => by
    obtain ⟨child, hchild, hparent⟩ := hs.listed k a c ha hc
    exact ih c ⟨child, hchild⟩ (.single (parent?_eq_some_iff.2 ⟨child, hchild, hparent⟩))
  exact ⟨a, sub, ha, hsub⟩

/-! ## Losing subtrees -/

/-- The second engine is the first one without the listed instances: they are dead and have no
timers, all lists of instances are without them, and nothing else has changed. -/
structure Prunes (l : List Handle) (e e' : Engine) : Prop where
  get?_eq : ∀ k, e'.get? k = if k ∈ l then none else (e.get? k).map (·.without l)
  deadline?_eq : ∀ k, e'.timers.deadline? k = if k ∈ l then none else e.timers.deadline? k
  roster_eq : e'.store.roster = e.store.roster.filter (·.2 ∉ l)
  rostered : e'.store.Rostered
  rest_eq : (e'.catalogue, e'.config, e'.lastAddr) = (e.catalogue, e.config, e.lastAddr)

/-- An engine is itself without nothing. -/
theorem Prunes.nil (hr : e.store.Rostered) : Prunes [] e e where
  get?_eq k := by
    rw [if_neg List.not_mem_nil]
    cases e.get? k with
    | none => rfl
    | some inst => exact congrArg some (Instance.without_eq_self fun _ _ => List.not_mem_nil).symm
  deadline?_eq k := (if_neg List.not_mem_nil).symm
  roster_eq := by simp
  rostered := hr
  rest_eq := rfl

/-- Instances can be lost in two parts. -/
theorem Prunes.append (hp : Prunes l e e') (hp' : Prunes l' e' e'') : Prunes (l ++ l') e e'' where
  get?_eq k := by
    rw [hp'.get?_eq, hp.get?_eq]
    by_cases hl : k ∈ l
    · simp [hl]
    · by_cases hl' : k ∈ l'
      · simp [hl']
      · rw [if_neg hl', if_neg hl, if_neg (by simp [hl, hl']), Option.map_map]
        congr 1
        funext inst
        exact inst.without_without l l'
  deadline?_eq k := by
    rw [hp'.deadline?_eq, hp.deadline?_eq]
    by_cases hl : k ∈ l
    · simp [hl]
    · by_cases hl' : k ∈ l' <;> simp [hl, hl']
  roster_eq := by
    rw [hp'.roster_eq, hp.roster_eq, List.filter_filter]
    refine List.filter_congr fun entry _ => ?_
    simp [Bool.and_comm]
  rostered := hp'.rostered
  rest_eq := hp'.rest_eq.trans hp.rest_eq

/-- The engine after an instance was taken out of the children of its parent, if it has one. -/
def detach (e : Engine) (h : Handle) (parent : Option Handle) : Engine :=
  match parent with
  | some p => e.unlink h p
  | none => e

/-- What is live after an instance was taken out of the children of its parent. -/
theorem get?_detach {parent : Option Handle} : (e.detach h parent).get? k =
    if parent = some k then (e.get? k).map (·.without [h]) else e.get? k := by
  cases parent with
  | none => rw [if_neg nofun, detach]
  | some p =>
    rw [detach, unlink]
    by_cases hk : p = k
    · subst hk
      rw [if_pos rfl, get?_modify_self]
      congr 1
      funext inst
      simp [Instance.without]
    · rw [if_neg fun heq => hk (Option.some.inj heq), get?_modify_of_ne (Ne.symm hk)]

/-- Taking an instance out of the children of its parent leaves all lists alone. -/
theorem rostered_detach (h : Handle) (parent : Option Handle) (hr : e.store.Rostered) :
    (e.detach h parent).store.Rostered := by
  cases parent with
  | none => exact hr
  | some p => exact hr.modify fun _ _ => rfl

/-- An instance is lost after its descendants: it is marked first, then they are lost, and then it
is taken out of the children of its parent and released. -/
theorem Prunes.release
    (hlisted : ∀ p a, e.get? p = some a → h ∈ a.children → inst.parent = some p)
    (hnot : h ∉ l) (hp : Prunes l (e.modify h ({ · with terminating := true })) e') :
    Prunes (l ++ [h]) e ((e'.detach h inst.parent).free h) where
  get?_eq k := by
    by_cases hk : k = h
    · subst hk
      rw [if_pos (by simp), get?_free_self]
    · rw [get?_free_of_ne hk, get?_detach, hp.get?_eq, get?_modify_of_ne hk]
      by_cases hl : k ∈ l
      · simp [hl]
      · have hnot' : k ∉ l ++ [h] := by simp [hl, hk]
        rw [if_neg hl, if_neg hnot']
        cases hlive : e.get? k with
        | none => simp
        | some a =>
          -- Only the parent lists the instance.
          rw [Option.map_some, Option.map_some, Option.map_some, Instance.without_without]
          split
          next => rfl
          next hparent =>
            have hself : ∀ c ∈ (a.without l).children, c ∉ [h] := by
              intro c hc hmem
              rw [List.mem_singleton.1 hmem] at hc
              exact hparent (hlisted k a hlive (List.mem_filter.1 hc).1)
            rw [← Instance.without_without, Instance.without_eq_self hself]
  deadline?_eq k := by
    have htimers : (e'.detach h inst.parent).timers = e'.timers := by
      cases inst.parent <;> rfl
    rw [deadline?_free, htimers, hp.deadline?_eq]
    by_cases hk : k = h
    · subst hk
      simp
    · simp [hk, modify]
  roster_eq := by
    have hr := rostered_detach h inst.parent hp.rostered
    have hroster : (e'.detach h inst.parent).store.roster = e'.store.roster := by
      cases inst.parent with
      | none => rfl
      | some p => exact Store.roster_modify
    rw [free, hr.roster_remove, hroster, hp.roster_eq, modify, Store.roster_modify,
      List.filter_filter]
    refine List.filter_congr fun entry _ => ?_
    simp [Bool.and_comm]
  rostered := (rostered_detach h inst.parent hp.rostered).remove
  rest_eq := by
    have hrest : ((e'.detach h inst.parent).catalogue, (e'.detach h inst.parent).config,
        (e'.detach h inst.parent).lastAddr) = (e'.catalogue, e'.config, e'.lastAddr) := by
      cases inst.parent <;> rfl
    exact hrest.trans hp.rest_eq

/-- What is live without the listed instances. -/
theorem Prunes.get?_eq_some_iff (hp : Prunes l e e') :
    e'.get? k = some inst ↔ k ∉ l ∧ ∃ a, e.get? k = some a ∧ a.without l = inst := by
  rw [hp.get?_eq]
  by_cases hk : k ∈ l
  · simp [hk]
  · rw [if_neg hk, Option.map_eq_some_iff, and_iff_right hk]

/-- What remains has the parents that it had. -/
theorem Prunes.parent?_eq_some_iff (hp : Prunes l e e') :
    e'.parent? c = some p ↔ c ∉ l ∧ e.parent? c = some p := by
  rw [Engine.parent?_eq_some_iff, Engine.parent?_eq_some_iff]
  constructor
  · rintro ⟨_, hlive, hparent⟩
    obtain ⟨hc, child, hchild, rfl⟩ := hp.get?_eq_some_iff.1 hlive
    exact ⟨hc, child, hchild, hparent⟩
  · rintro ⟨hc, child, hchild, hparent⟩
    exact ⟨_, hp.get?_eq_some_iff.2 ⟨hc, child, hchild, rfl⟩, hparent⟩

/-- The list contains all descendants of its members. -/
def Closed (e : Engine) (l : List Handle) : Prop :=
  ∀ c p, e.parent? c = some p → p ∈ l → c ∈ l

/-- What is listed in post-order contains all its descendants. -/
theorem PostOrder.closed (hpost : e.PostOrder hs l) (hsettled : e.Settled) : e.Closed l := by
  intro c p hparent hp
  obtain ⟨h, hh, hbelow⟩ := (hpost.mem_iff hsettled).1 hp
  exact (hpost.mem_iff hsettled).2 ⟨h, hh, hbelow.head hparent⟩

/-- What remains descends from what it descended from. -/
theorem Prunes.below_iff (hp : Prunes l e e') (hclosed : e.Closed l) (hk : k ∉ l) :
    e'.Below k h ↔ e.Below k h := by
  constructor
  · intro hbelow
    exact hbelow.lift id fun c q hq => (hp.parent?_eq_some_iff.1 hq).2
  · intro hbelow
    induction hbelow using Relation.ReflTransGen.head_induction_on with
    | refl => exact .refl
    | head hparent _ ih =>
      -- The ancestors of what remains remain.
      have hnot := fun hmem => hk (hclosed _ _ hparent hmem)
      exact .head (hp.parent?_eq_some_iff.2 ⟨hk, hparent⟩) (ih hnot)

/-- A settled engine remains so when it loses whole subtrees. -/
theorem Settled.prunes (hs : e.Settled) (hp : Prunes l e e') (hclosed : e.Closed l) :
    e'.Settled where
  quiet k inst hlive := by
    obtain ⟨-, a, ha, rfl⟩ := hp.get?_eq_some_iff.1 hlive
    exact hs.quiet k a ha
  nodup k inst hlive := by
    obtain ⟨-, a, ha, rfl⟩ := hp.get?_eq_some_iff.1 hlive
    exact (hs.nodup k a ha).filter _
  listed p inst c hlive hc := by
    obtain ⟨-, a, ha, rfl⟩ := hp.get?_eq_some_iff.1 hlive
    obtain ⟨hmem, hnot⟩ := List.mem_filter.1 hc
    obtain ⟨child, hchild, hparent⟩ := hs.listed p a c ha hmem
    exact ⟨_, hp.get?_eq_some_iff.2 ⟨of_decide_eq_true hnot, child, hchild, rfl⟩, hparent⟩
  kept c _ p hlive hparent := by
    obtain ⟨hc, child, hchild, rfl⟩ := hp.get?_eq_some_iff.1 hlive
    obtain ⟨a, ha, hmem⟩ := hs.kept c child p hchild hparent
    have hp' : p ∉ l := fun hl =>
      hc (hclosed c p (parent?_eq_some_iff.2 ⟨child, hchild, hparent⟩) hl)
    exact ⟨_, hp.get?_eq_some_iff.2 ⟨hp', a, ha, rfl⟩,
      List.mem_filter.2 ⟨hmem, decide_eq_true hc⟩⟩
  irreflexive h hcycle :=
    hs.irreflexive h (hcycle.lift id fun c q hq => (hp.parent?_eq_some_iff.1 hq).2)
  rostered := hp.rostered

end Engine

/-! ## Engines that are reached -/

namespace Execution

variable {σ ν : Type} {host : Host σ ν} {x x' : Execution σ ν} {past : List (Execution σ ν)}
  {c h p : Handle}

/-- The end of the first instance has not begun, and the second one is its parent. -/
def Upward (x : Execution σ ν) (c p : Handle) : Prop :=
  ∃ l, x.links? c = some l ∧ l.terminating = false ∧ l.parent = some p

/-- A step gives no parent to what is not being ended, unless it allocates a child. -/
theorem TreeStep.upward (hs : TreeStep x x') (hup : x'.Upward c p) :
    x.Upward c p ∨ x.links? c = none ∧ ∃ l, x.links? p = some l := by
  obtain ⟨l', hl', hactive, hparent⟩ := hup
  have hsame : x.links? c = some l' → x.Upward c p := fun hl => ⟨l', hl, hactive, hparent⟩
  cases hs with
  | keeps hlinks => exact .inl (hsame (hlinks ▸ hl'))
  | turns _ _ _ _ hlinks => exact .inl (hsame (hlinks ▸ hl'))
  | allocates k hnew hlinks =>
    rw [hlinks, update_eq_some_iff] at hl'
    rcases hl' with ⟨-, heq⟩ | ⟨-, hl'⟩
    · cases heq
      cases hparent
    · exact .inl (hsame hl')
  | adopts k q m hnew hq hq' hlinks =>
    rw [hlinks, update_eq_some_iff, update_eq_some_iff] at hl'
    rcases hl' with ⟨rfl, heq⟩ | ⟨-, ⟨rfl, heq⟩ | ⟨-, hl'⟩⟩
    · cases heq
      exact .inl ⟨m, hq, hactive, hparent⟩
    · cases heq
      cases hparent
      exact .inr ⟨hnew, m, hq⟩
    · exact .inl (hsame hl')
  | frees k _ hlinks =>
    rw [hlinks, update_eq_some_iff] at hl'
    rcases hl' with ⟨-, heq⟩ | ⟨-, hl'⟩
    · cases heq
    · exact .inl (hsame hl')
  | begins ending inst _ _ _ _ hlinks =>
    rw [hlinks, update_eq_some_iff] at hl'
    rcases hl' with ⟨-, heq⟩ | ⟨-, hl'⟩
    · cases heq
      cases hactive
    · exact .inl (hsame hl')
  | detaches ending _ hlinks =>
    rw [hlinks] at hl'
    obtain ⟨m, hm, rfl⟩ := Option.map_eq_some_iff.1 hl'
    exact .inl ⟨m, hm, hactive, hparent⟩
  | releases ending _ _ hlinks =>
    rw [hlinks, update_eq_some_iff] at hl'
    rcases hl' with ⟨-, heq⟩ | ⟨-, hl'⟩
    · cases heq
    · exact .inl (hsame hl')

/-- A step makes no circle of instances whose ends have not begun. -/
theorem TreeStep.irreflexive_upward (hs : TreeStep x x') (hl : x.Linked)
    (hbefore : ∀ h, ¬ Relation.TransGen x.Upward h h) (h : Handle) :
    ¬ Relation.TransGen x'.Upward h h := by
  -- A new child is nobody's parent, so it is not on the way from one instance to another.
  have hlive : ∀ {a b}, x'.Upward a b → ∃ l, x.links? b = some l := by
    intro a b hab
    rcases hs.upward hab with ⟨l, hl', hactive, hparent⟩ | ⟨-, hb⟩
    · obtain ⟨m, hm, -⟩ := hl.kept a l b hl' hactive hparent
      exact ⟨m, hm⟩
    · exact hb
  have hold : ∀ {a b}, x'.Upward a b → (∃ l, x.links? a = some l) → x.Upward a b := by
    rintro a b hab ⟨l, ha⟩
    rcases hs.upward hab with hup | ⟨hnew, -⟩
    · exact hup
    · cases hnew.symm.trans ha
  have hpath : ∀ {a b}, Relation.TransGen x'.Upward a b → (∃ l, x.links? a = some l) →
      Relation.TransGen x.Upward a b ∧ ∃ l, x.links? b = some l := by
    intro a b hab ha
    induction hab with
    | single hab => exact ⟨.single (hold hab ha), hlive hab⟩
    | tail _ hbc ih => exact ⟨ih.1.tail (hold hbc ih.2), hlive hbc⟩
  intro hcycle
  obtain ⟨b, -, hb⟩ := Relation.TransGen.tail'_iff.1 hcycle
  exact hbefore h (hpath hcycle (hlive hb)).1

/-- Instances whose ends have not begun never form a circle. -/
theorem Run.irreflexive_upward (hrun : Run host x past) (hnever : NeverFrees past) (h : Handle) :
    ¬ Relation.TransGen x.Upward h h := by
  induction hrun generalizing h with
  | start w config hfresh =>
    intro hcycle
    obtain ⟨p, ⟨l, hl, -⟩, -⟩ := Relation.TransGen.head'_iff.1 hcycle
    simp [links?, Engine.links?, hfresh] at hl
  | next hrun hnext ih =>
    exact (hnext.treeStep hrun.tidy).irreflexive_upward (hrun.linked hnever.of_cons)
      (ih hnever.of_cons) h

/-- A step changes the children of an instance by taking some away, or by adding an instance that
was not live. -/
theorem TreeStep.children (hs : TreeStep x x') {l' : Links} (hl' : x'.links? p = some l') :
    (∃ l, x.links? p = some l ∧ l'.children.Sublist l.children) ∨ l'.children = [] ∨
      ∃ l c, x.links? p = some l ∧ x.links? c = none ∧ l'.children = l.children ++ [c] := by
  have hsame : x.links? p = some l' → ∃ l, x.links? p = some l ∧ l'.children.Sublist l.children :=
    fun hl => ⟨l', hl, .refl _⟩
  cases hs with
  | keeps hlinks => exact .inl (hsame (hlinks ▸ hl'))
  | turns _ _ _ _ hlinks => exact .inl (hsame (hlinks ▸ hl'))
  | allocates k hnew hlinks =>
    rw [hlinks, update_eq_some_iff] at hl'
    rcases hl' with ⟨-, heq⟩ | ⟨-, hl'⟩
    · cases heq
      exact .inr (.inl rfl)
    · exact .inl (hsame hl')
  | adopts k q m hnew hq hq' hlinks =>
    rw [hlinks, update_eq_some_iff, update_eq_some_iff] at hl'
    rcases hl' with ⟨rfl, heq⟩ | ⟨-, ⟨-, heq⟩ | ⟨-, hl'⟩⟩
    · cases heq
      exact .inr (.inr ⟨m, k, hq, hnew, rfl⟩)
    · cases heq
      exact .inr (.inl rfl)
    · exact .inl (hsame hl')
  | frees k _ hlinks =>
    rw [hlinks, update_eq_some_iff] at hl'
    rcases hl' with ⟨-, heq⟩ | ⟨-, hl'⟩
    · cases heq
    · exact .inl (hsame hl')
  | begins ending inst hlive _ _ _ hlinks =>
    rw [hlinks, update_eq_some_iff] at hl'
    rcases hl' with ⟨rfl, heq⟩ | ⟨-, hl'⟩
    · cases heq
      exact .inl ⟨_, Engine.links?_eq_some_iff.2 ⟨inst, hlive, rfl⟩, .refl _⟩
    · exact .inl (hsame hl')
  | detaches ending _ hlinks =>
    rw [hlinks] at hl'
    obtain ⟨m, hm, rfl⟩ := Option.map_eq_some_iff.1 hl'
    refine .inl ⟨m, hm, ?_⟩
    dsimp only
    split
    next => exact List.filter_sublist
    next => exact .refl _
  | releases ending _ _ hlinks =>
    rw [hlinks, update_eq_some_iff] at hl'
    rcases hl' with ⟨-, heq⟩ | ⟨-, hl'⟩
    · cases heq
    · exact .inl (hsame hl')

/-- How many moments there were before the instance of a live handle was allocated. -/
def bornAt (hist : List (Execution σ ν)) (h : Handle) : Nat :=
  (hist.dropWhile fun x => x.world.engine.isAlive h).length

/-- What is live does not become younger. -/
theorem bornAt_cons (hlive : x.world.engine.isAlive h = true) :
    bornAt (x :: past) h = bornAt past h := by
  simp only [bornAt, List.dropWhile_cons, hlive, if_true]

/-- The moments before the latest one at which a handle was dead are those before its allocation. -/
theorem bornAt_of_dead (hdead : x.world.engine.isAlive h = false) :
    bornAt (x :: past) h = past.length + 1 := by
  simp [bornAt, hdead]

/-- There are no more moments before an allocation than there are. -/
theorem bornAt_le : bornAt past h ≤ past.length :=
  (List.dropWhile_sublist _).length_le

/-- Children are listed in the order of their allocation. -/
theorem Run.pairwise_bornAt (hrun : Run host x past) (hnever : NeverFrees past) {l : Links}
    (hl : x.links? p = some l) :
    l.children.Pairwise fun a b => bornAt (x :: past) a < bornAt (x :: past) b := by
  have halive : ∀ {y : Execution σ ν} {c m}, y.links? c = some m →
      y.world.engine.isAlive c = true := by
    intro y c m hm
    obtain ⟨inst, hlive, -⟩ := Engine.links?_eq_some_iff.1 hm
    exact Engine.isAlive_eq_true_iff.2 ⟨inst, hlive⟩
  induction hrun generalizing p l with
  | start w config hfresh => simp [links?, Engine.links?, hfresh] at hl
  | @next x x' past hrun hnext ih =>
    have hlisted : ∀ c ∈ l.children, x'.world.engine.isAlive c = true := by
      intro c hc
      obtain ⟨m, hm, -⟩ := ((hrun.next hnext).linked hnever).listed p l c hl hc
      exact halive hm
    -- Only the children are compared, and these are live.
    suffices hpast : l.children.Pairwise fun a b => bornAt (x :: past) a < bornAt (x :: past) b by
      refine hpast.imp_of_mem fun {a b} ha hb hlt => ?_
      rwa [bornAt_cons (hlisted a ha), bornAt_cons (hlisted b hb)]
    rcases (hnext.treeStep hrun.tidy).children hl with
      ⟨m, hm, hsub⟩ | hnone | ⟨m, c, hm, hnew, hchildren⟩
    · exact (ih hnever.of_cons hm).sublist hsub
    · rw [hnone]
      exact .nil
    · -- The new child is younger than the other ones, which were live before.
      rw [hchildren]
      refine List.pairwise_append.2 ⟨ih hnever.of_cons hm, List.pairwise_singleton _ _, ?_⟩
      intro a ha b hb
      rw [List.mem_singleton.1 hb]
      obtain ⟨n, hn, -⟩ := (hrun.linked hnever.of_cons).listed p m a hm ha
      have hdead : x.world.engine.isAlive c = false := by
        rw [Engine.isAlive_eq_false_iff]
        exact Engine.links?_eq_none_iff.1 hnew
      rw [bornAt_cons (halive hn), bornAt_of_dead hdead]
      exact Nat.lt_succ_of_le bornAt_le

/-- In a run without direct releases the engine is settled whenever nothing is being ended. -/
theorem Run.settled (hrun : Run host x past) (hnever : NeverFrees past)
    (hquiet : ∀ h inst, x.world.engine.get? h = some inst → inst.terminating = false) :
    x.world.engine.Settled where
  quiet := hquiet
  nodup h inst hlive :=
    (hrun.linked hnever).nodup h inst.links (Engine.links?_eq_some_iff.2 ⟨inst, hlive, rfl⟩)
  listed p inst c hlive hc := by
    obtain ⟨m, hm, hparent⟩ := (hrun.linked hnever).listed p inst.links c
      (Engine.links?_eq_some_iff.2 ⟨inst, hlive, rfl⟩) hc
    obtain ⟨child, hchild, rfl⟩ := Engine.links?_eq_some_iff.1 hm
    exact ⟨child, hchild, hparent⟩
  kept c child p hlive hparent := by
    obtain ⟨l, hl, hmem⟩ := (hrun.linked hnever).kept c child.links p
      (Engine.links?_eq_some_iff.2 ⟨child, hlive, rfl⟩) (hquiet c child hlive) hparent
    obtain ⟨inst, hinst, rfl⟩ := Engine.links?_eq_some_iff.1 hl
    exact ⟨inst, hinst, hmem⟩
  irreflexive h hcycle := by
    refine hrun.irreflexive_upward hnever h (hcycle.lift id fun c p hp => ?_)
    obtain ⟨child, hchild, hparent⟩ := Engine.parent?_eq_some_iff.1 hp
    exact ⟨child.links, Engine.links?_eq_some_iff.2 ⟨child, hchild, rfl⟩,
      hquiet c child hchild, hparent⟩
  rostered := hrun.rostered

end Execution

end StateMachines
