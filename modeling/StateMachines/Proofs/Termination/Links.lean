import Mathlib.Data.List.Nodup
import StateMachines.Proofs.Termination.Endings

/-!
# The links between parents and children

In a run without direct releases the links mirror each other at every moment, those inside hooks
included, as far as terminations have not undone them: `Execution.Linked`. While an instance is
being ended, each of its children whose own termination has not begun is still to be ended: it is
listed in the frame of the end, or its termination is what happens next. This is what keeps an
instance from being released before its children.

## Main results

* `Execution.TreeStep.linked`: a step keeps the links.
* `Execution.Run.linked`: the links at every moment of a run without direct releases.
-/

namespace StateMachines.Execution

variable {σ ν : Type} {host : Host σ ν} {x x' : Execution σ ν} {past : List (Execution σ ν)}
  {h p c : Handle} {l m : Links}

/-- The end of `p` in progress is still to end `c`, or the end of `c` as a child is what happens
next. -/
def Owes (x : Execution σ ν) (p c : Handle) : Prop :=
  (∃ t ∈ x.teardowns, ∃ rest, t.ending.target = p ∧ t.children? = some rest ∧ c ∈ rest) ∨
    x.control = .perform (.terminate c .parent none)

/-- Children and parents refer to each other. -/
structure Linked (x : Execution σ ν) : Prop where
  /-- No child is listed twice. -/
  nodup : ∀ p l, x.links? p = some l → l.children.Nodup
  /-- A listed child is live and has the instance as its parent. -/
  listed : ∀ p l c, x.links? p = some l → c ∈ l.children →
    ∃ m, x.links? c = some m ∧ m.parent = some p
  /-- The parent of an instance whose termination has not begun is live and lists it. -/
  kept : ∀ c m p, x.links? c = some m → m.terminating = false → m.parent = some p →
    ∃ l, x.links? p = some l ∧ c ∈ l.children
  /-- An instance that is being ended is still to end those of its children whose termination has
  not begun. -/
  owed : ∀ c m p l, x.links? c = some m → m.terminating = false → m.parent = some p →
    x.links? p = some l → l.terminating = true → x.Owes p c

/-- A termination that is begun has been begun afterwards, or there was nothing to end. -/
theorem Next.terminating_of_terminate (hnext : Next host x x') {cause : Cause}
    {data : Option Payload} (hcall : x.control = .perform (.terminate c cause data))
    (hlive : x'.links? c = some m) : m.terminating = true := by
  obtain ⟨t, -, ht⟩ | ⟨w, call, answer, rfl, hcontrol, -⟩ := hnext.cases
  · obtain ⟨w, control, stack⟩ := x
    obtain rfl : control = .perform (.terminate c cause data) := hcall
    obtain ⟨inst, hafter, rfl⟩ := Engine.links?_eq_some_iff.1 hlive
    cases ht with
    | answered hanswers =>
      cases hanswers with
      | endless data hdead => cases hdead.symm.trans hafter
      | ending data hbefore hending =>
        cases hbefore.symm.trans hafter
        exact hending
    | ends hbefore hactive =>
      obtain ⟨a, ha, ⟨-, rfl⟩ | ⟨hne, -⟩⟩ := Engine.get?_of_get?_modify hafter
      · rfl
      · exact absurd rfl hne
  · rw [hcall] at hcontrol
    cases hcontrol

/-- A child that is owed to an end in progress is still owed after a step that keeps what is
still to be ended. -/
theorem Owes.carry (howes : x.Owes p c)
    (hends : ∀ t ∈ x.teardowns, ∀ rest, t.children? = some rest → c ∈ rest →
      (∃ t' ∈ x'.teardowns, ∃ rest', t'.ending.target = t.ending.target ∧
        t'.children? = some rest' ∧ c ∈ rest') ∨ x'.control = .perform (.terminate c .parent none))
    (hcall : x.control ≠ .perform (.terminate c .parent none)) : x'.Owes p c := by
  rcases howes with ⟨t, ht, rest, rfl, hrest, hc⟩ | hcontrol
  · rcases hends t ht rest hrest hc with ⟨t', ht', rest', htarget, hrest', hc'⟩ | hcontrol
    · exact .inl ⟨t', ht', rest', htarget, hrest', hc'⟩
    · exact .inr hcontrol
  · exact absurd hcontrol hcall

/-- What is owed is still owed after a step that leaves the ends in progress alone. -/
theorem Owes.of_teardowns_eq (howes : x.Owes p c) (hends : x'.teardowns = x.teardowns)
    (hcall : x.control ≠ .perform (.terminate c .parent none)) : x'.Owes p c :=
  howes.carry (fun t ht rest hrest hc => .inl ⟨t, hends ▸ ht, rest, rfl, hrest, hc⟩) hcall

/-- Without a change of the links they remain mirrored. -/
theorem Linked.congr (hl : x.Linked) (hlinks : x'.links? = x.links?)
    (howes : ∀ c m p, x'.links? c = some m → m.terminating = false → x.Owes p c → x'.Owes p c) :
    x'.Linked := by
  refine ⟨?_, ?_, ?_, fun c m p l hc hm hparent hp hmarked => howes c m p hc hm ?_⟩
  · rw [hlinks]
    exact hl.nodup
  · rw [hlinks]
    exact hl.listed
  · rw [hlinks]
    exact hl.kept
  · rw [hlinks] at hc hp
    exact hl.owed c m p l hc hm hparent hp hmarked

/-- An allocation keeps the links. -/
theorem Linked.allocates (hl : x.Linked) (hnew : x.links? h = none)
    (hlinks : x'.links? = Function.update x.links? h (some {}))
    (howes : ∀ c m p, x'.links? c = some m → m.terminating = false → x.Owes p c → x'.Owes p c) :
    x'.Linked := by
  have hkeep : ∀ {k l}, x.links? k = some l → x'.links? k = some l := fun {k l} hk => by
    rw [hlinks, update_eq_some_iff]
    refine .inr ⟨?_, hk⟩
    rintro rfl
    cases hnew.symm.trans hk
  have hcases : ∀ {k l}, x'.links? k = some l → l = {} ∨ x.links? k = some l := fun {k l} hk => by
    rw [hlinks, update_eq_some_iff] at hk
    rcases hk with ⟨-, heq⟩ | ⟨-, hk⟩
    · exact .inl (Option.some.inj heq).symm
    · exact .inr hk
  refine ⟨fun p l hp => ?_, fun p l c hp hc => ?_, fun c m p hc hm hparent => ?_,
    fun c m p l hc hm hparent hp hmarked => ?_⟩
  · rcases hcases hp with rfl | hp
    · exact List.nodup_nil
    · exact hl.nodup p l hp
  · rcases hcases hp with rfl | hp
    · cases hc
    · obtain ⟨m, hm, hparent⟩ := hl.listed p l c hp hc
      exact ⟨m, hkeep hm, hparent⟩
  · -- The new instance has no parent.
    rcases hcases hc with rfl | hc
    · cases hparent
    · obtain ⟨l, hp, hmem⟩ := hl.kept c m p hc hm hparent
      exact ⟨l, hkeep hp, hmem⟩
  · refine howes c m p hc hm ?_
    rcases hcases hc with rfl | hc
    · cases hparent
    · rcases hcases hp with rfl | hp
      · cases hmarked
      · exact hl.owed c m p l hc hm hparent hp hmarked

/-- The allocation of a child keeps the links. -/
theorem Linked.adopts (hl : x.Linked) (hnew : x.links? h = none) (hparent : x.links? p = some l)
    (hactive : l.terminating = false)
    (hlinks : x'.links? = Function.update (Function.update x.links? h (some { parent := some p }))
      p (some { l with children := l.children ++ [h] }))
    (howes : ∀ c m p, x'.links? c = some m → m.terminating = false → x.Owes p c → x'.Owes p c) :
    x'.Linked := by
  have hcases : ∀ {k l'}, x'.links? k = some l' →
      k = p ∧ l' = { l with children := l.children ++ [h] } ∨
        k = h ∧ l' = { parent := some p } ∨ x.links? k = some l' := fun {k l'} hk => by
    rw [hlinks, update_eq_some_iff, update_eq_some_iff] at hk
    rcases hk with ⟨rfl, heq⟩ | ⟨-, ⟨rfl, heq⟩ | ⟨-, hk⟩⟩
    · exact .inl ⟨rfl, (Option.some.inj heq).symm⟩
    · exact .inr (.inl ⟨rfl, (Option.some.inj heq).symm⟩)
    · exact .inr (.inr hk)
  have hkeep : ∀ {k l₀}, x.links? k = some l₀ → ∃ l', x'.links? k = some l' ∧
      l'.parent = l₀.parent ∧ ∀ c ∈ l₀.children, c ∈ l'.children := fun {k l₀} hk => by
    rw [hlinks]
    by_cases hkp : k = p
    · subst hkp
      cases hparent.symm.trans hk
      exact ⟨_, Function.update_self .., rfl, fun c hc => List.mem_append_left _ hc⟩
    · have hkh : k ≠ h := by
        rintro rfl
        cases hnew.symm.trans hk
      exact ⟨l₀, by rw [Function.update_of_ne hkp, Function.update_of_ne hkh, hk], rfl, fun c => id⟩
  have hself : x'.links? h = some { parent := some p } := by
    have hne : h ≠ p := by
      rintro rfl
      cases hnew.symm.trans hparent
    rw [hlinks, Function.update_of_ne hne, Function.update_self]
  refine ⟨fun q l' hq => ?_, fun q l' c hq hc => ?_, fun c m q hc hm hq => ?_,
    fun c m q l' hc hm hparent' hq hmarked => ?_⟩
  · rcases hcases hq with ⟨rfl, rfl⟩ | ⟨rfl, rfl⟩ | hq
    · -- The new child is dead so far, so it is not among the children.
      refine List.nodup_append.2 ⟨hl.nodup q l hparent, by simp, ?_⟩
      rintro c hc _ hh rfl
      obtain ⟨m, hm, -⟩ := hl.listed q l c hparent hc
      rw [List.mem_singleton.1 hh] at hm
      cases hnew.symm.trans hm
    · exact List.nodup_nil
    · exact hl.nodup q l' hq
  · have hbefore : ∀ {l₀}, x.links? q = some l₀ → c ∈ l₀.children →
        ∃ m, x'.links? c = some m ∧ m.parent = some q := fun {l₀} hq hc => by
      obtain ⟨m, hm, hmparent⟩ := hl.listed q l₀ c hq hc
      obtain ⟨m', hm', hmparent', -⟩ := hkeep hm
      exact ⟨m', hm', hmparent'.trans hmparent⟩
    rcases hcases hq with ⟨rfl, rfl⟩ | ⟨rfl, rfl⟩ | hq
    · rcases List.mem_append.1 hc with hc | hc
      · exact hbefore hparent hc
      · rw [List.mem_singleton.1 hc]
        exact ⟨_, hself, rfl⟩
    · cases hc
    · exact hbefore hq hc
  · have hbefore : ∀ {m₀}, x.links? c = some m₀ → m₀.terminating = false → m₀.parent = some q →
        ∃ l', x'.links? q = some l' ∧ c ∈ l'.children := fun {m₀} hc hm hq => by
      obtain ⟨l₀, hl₀, hmem⟩ := hl.kept c m₀ q hc hm hq
      obtain ⟨l', hl', -, hsubset⟩ := hkeep hl₀
      exact ⟨l', hl', hsubset c hmem⟩
    rcases hcases hc with ⟨rfl, rfl⟩ | ⟨rfl, rfl⟩ | hc
    · exact hbefore hparent hactive hq
    · cases hq
      exact ⟨_, by rw [hlinks, Function.update_self],
        List.mem_append_right _ (List.mem_singleton.2 rfl)⟩
    · exact hbefore hc hm hq
  · refine howes c m q hc hm ?_
    -- A marked instance is neither the new child nor its parent.
    have hq' : x.links? q = some l' := by
      rcases hcases hq with ⟨rfl, rfl⟩ | ⟨rfl, rfl⟩ | hq
      · cases hactive.symm.trans hmarked
      · cases hmarked
      · exact hq
    rcases hcases hc with ⟨rfl, rfl⟩ | ⟨rfl, rfl⟩ | hc
    · exact hl.owed c l q l' hparent hactive hparent' hq' hmarked
    · cases hparent'
      rw [hparent] at hq'
      cases hq'
      cases hactive.symm.trans hmarked
    · exact hl.owed c m q l' hc hm hparent' hq' hmarked

/-- The beginning of an end keeps the links. -/
theorem Linked.begins {ending : Ending} (hl : x.Linked) (hlive : x.links? ending.target = some l)
    (hlinks : x'.links? =
      Function.update x.links? ending.target (some { l with terminating := true }))
    (hends : x'.teardowns = ⟨ending, some l.children⟩ :: x.teardowns)
    (howes : ∀ c m p, x'.links? c = some m → m.terminating = false → x.Owes p c → x'.Owes p c) :
    x'.Linked := by
  have hcases : ∀ {k l'}, x'.links? k = some l' →
      k = ending.target ∧ l' = { l with terminating := true } ∨
        k ≠ ending.target ∧ x.links? k = some l' := fun {k l'} hk => by
    rw [hlinks, update_eq_some_iff] at hk
    rcases hk with ⟨rfl, heq⟩ | ⟨hne, hk⟩
    · exact .inl ⟨rfl, (Option.some.inj heq).symm⟩
    · exact .inr ⟨hne, hk⟩
  have hkeep : ∀ {k l₀}, x.links? k = some l₀ → ∃ l', x'.links? k = some l' ∧
      l'.parent = l₀.parent ∧ l'.children = l₀.children := fun {k l₀} hk => by
    rw [hlinks]
    by_cases hkt : k = ending.target
    · subst hkt
      cases hlive.symm.trans hk
      exact ⟨_, Function.update_self .., rfl, rfl⟩
    · exact ⟨l₀, by rw [Function.update_of_ne hkt, hk], rfl, rfl⟩
  refine ⟨fun q l' hq => ?_, fun q l' c hq hc => ?_, fun c m q hc hm hq => ?_,
    fun c m q l' hc hm hparent hq hmarked => ?_⟩
  · rcases hcases hq with ⟨rfl, rfl⟩ | ⟨-, hq⟩
    · exact hl.nodup ending.target l hlive
    · exact hl.nodup q l' hq
  · obtain ⟨m, hm, hmparent⟩ : ∃ m, x.links? c = some m ∧ m.parent = some q := by
      rcases hcases hq with ⟨rfl, rfl⟩ | ⟨-, hq⟩
      · exact hl.listed ending.target l c hlive hc
      · exact hl.listed q l' c hq hc
    obtain ⟨m', hm', hmparent', -⟩ := hkeep hm
    exact ⟨m', hm', hmparent'.trans hmparent⟩
  · rcases hcases hc with ⟨rfl, rfl⟩ | ⟨-, hc⟩
    · cases hm
    · obtain ⟨l₀, hl₀, hmem⟩ := hl.kept c m q hc hm hq
      obtain ⟨l', hl', -, hchildren⟩ := hkeep hl₀
      exact ⟨l', hl', hchildren ▸ hmem⟩
  · rcases hcases hc with ⟨rfl, rfl⟩ | ⟨-, hc'⟩
    · cases hm
    · rcases hcases hq with ⟨rfl, rfl⟩ | ⟨-, hq⟩
      · -- All children of the instance are still to be ended.
        obtain ⟨l₀, hl₀, hmem⟩ := hl.kept c m _ hc' hm hparent
        cases hlive.symm.trans hl₀
        exact .inl ⟨_, hends ▸ List.mem_cons_self, l.children, rfl, rfl, hmem⟩
      · exact howes c m q hc hm (hl.owed c m q l' hc' hm hparent hq hmarked)

/-- Taking an instance that is being ended out of the children of its parent keeps the links. -/
theorem Linked.detaches {ending : Ending} (hl : x.Linked)
    (hlive : x.links? ending.target = some l) (hmarked : l.terminating = true)
    (hlinks : x'.links? = ending.detach x.links?)
    (howes : ∀ c m p, x'.links? c = some m → m.terminating = false → x.Owes p c → x'.Owes p c) :
    x'.Linked := by
  refine ⟨fun q l' hq => ?_, fun q l' c hq hc => ?_, fun c m q hc hm hq => ?_,
    fun c m q l' hc hm hparent hq hmarked' => ?_⟩
  · rw [hlinks] at hq
    obtain ⟨l₀, hl₀, rfl⟩ := Option.map_eq_some_iff.1 hq
    dsimp only
    split
    next => exact (hl.nodup q l₀ hl₀).filter _
    next => exact hl.nodup q l₀ hl₀
  · rw [hlinks] at hq ⊢
    obtain ⟨l₀, hl₀, rfl⟩ := Option.map_eq_some_iff.1 hq
    have hc₀ : c ∈ l₀.children := by
      dsimp only at hc
      split at hc
      next => exact (List.mem_filter.1 hc).1
      next => exact hc
    obtain ⟨m, hm, hmparent⟩ := hl.listed q l₀ c hl₀ hc₀
    rw [Ending.detach, hm]
    exact ⟨_, rfl, hmparent⟩
  · rw [hlinks] at hc ⊢
    obtain ⟨m₀, hm₀, rfl⟩ := Option.map_eq_some_iff.1 hc
    obtain ⟨l₀, hl₀, hmem⟩ := hl.kept c m₀ q hm₀ hm hq
    rw [Ending.detach, hl₀]
    refine ⟨_, rfl, ?_⟩
    dsimp only
    split
    next =>
      -- Only a marked instance is taken off the list.
      refine List.mem_filter.2 ⟨hmem, ?_⟩
      rw [decide_eq_true_eq]
      rintro rfl
      cases hlive.symm.trans hm₀
      cases hmarked.symm.trans hm
    next => exact hmem
  · refine howes c m q hc hm ?_
    rw [hlinks] at hc hq
    obtain ⟨m₀, hm₀, rfl⟩ := Option.map_eq_some_iff.1 hc
    obtain ⟨l₀, hl₀, rfl⟩ := Option.map_eq_some_iff.1 hq
    exact hl.owed c m₀ q l₀ hm₀ hm hparent hl₀ hmarked'

/-- The release of an instance that is no child of its parent any more, and whose children have
been ended, keeps the links. -/
theorem Linked.releases (hl : x.Linked) (hlinks : x'.links? = Function.update x.links? h none)
    (hunlisted : ∀ p m, x.links? p = some m → h ∈ m.children → False)
    (hchildless : ∀ c m, x'.links? c = some m → m.terminating = false → m.parent = some h → False)
    (howes : ∀ c m p, x'.links? c = some m → m.terminating = false → x.Owes p c → x'.Owes p c) :
    x'.Linked := by
  have hcases : ∀ {k l'}, x'.links? k = some l' → k ≠ h ∧ x.links? k = some l' :=
    fun {k l'} hk => by
      rw [hlinks, update_eq_some_iff] at hk
      rcases hk with ⟨-, heq⟩ | hk
      · cases heq
      · exact hk
  have hkeep : ∀ {k}, k ≠ h → x'.links? k = x.links? k := fun {k} hne => by
    rw [hlinks, Function.update_of_ne hne]
  refine ⟨fun q l' hq => hl.nodup q l' (hcases hq).2, fun q l' c hq hc => ?_,
    fun c m q hc hm hq => ?_, fun c m q l' hc hm hparent hq hmarked => ?_⟩
  · have hne : c ≠ h := by
      rintro rfl
      exact hunlisted q l' (hcases hq).2 hc
    rw [hkeep hne]
    exact hl.listed q l' c (hcases hq).2 hc
  · -- The instance that is released was the parent of marked instances only.
    have hne : q ≠ h := by
      rintro rfl
      exact hchildless c m hc hm hq
    rw [hkeep hne]
    exact hl.kept c m q (hcases hc).2 hm hq
  · exact howes c m q hc hm (hl.owed c m q l' (hcases hc).2 hm hparent (hcases hq).2 hmarked)

/-- An instance that is to be released is not listed as a child. -/
theorem Linked.unlisted_of_cleaning (hl : x.Linked) (ho : x.Orderly) {t : Teardown}
    (ht : t ∈ x.teardowns) (hcleaning : t.children? = none) (hp : x.links? p = some l) :
    t.ending.target ∉ l.children := fun hmem => by
  obtain ⟨m, hm, hmparent⟩ := hl.listed p l _ hp hmem
  obtain ⟨m', hm', -, hparent⟩ := ho.ongoing t ht
  cases hm.symm.trans hm'
  exact ho.unlisted t ht hcleaning p l (hparent.symm.trans hmparent) hp hmem

/-- The termination of the children of an instance that is being cleaned up has begun. -/
theorem Linked.terminating_of_cleaning (hl : x.Linked) (ho : x.Orderly) {t : Teardown}
    (ht : t ∈ x.teardowns) (hcleaning : t.children? = none) (hc : x.links? c = some m)
    (hparent : m.parent = some t.ending.target)
    (hcall : x.control ≠ .perform (.terminate c .parent none)) : m.terminating = true := by
  by_contra hm
  rw [Bool.not_eq_true] at hm
  obtain ⟨l, hlive, hmarked, -⟩ := ho.ongoing t ht
  rcases hl.owed c m _ l hc hm hparent hlive hmarked with
    ⟨t', ht', rest, htarget, hrest, -⟩ | hcontrol
  · -- No instance is ended twice at a time.
    have heq : t' = t := List.inj_on_of_nodup_map ho.nodup ht' ht htarget
    rw [heq, hcleaning] at hrest
    cases hrest
  · exact hcall hcontrol

/-- A step keeps the links, unless it releases an instance by a direct call. -/
theorem TreeStep.linked (hs : TreeStep x x') (hl : x.Linked) (ho : x.Orderly)
    (hnever : ∀ h, x.control ≠ .perform (.free h))
    (hafter : ∀ c cause data m, x.control = .perform (.terminate c cause data) →
      x'.links? c = some m → m.terminating = true) : x'.Linked := by
  -- A child whose end was called for is marked afterwards, so it is not owed any more.
  have hcall : ∀ {c m}, x'.links? c = some m → m.terminating = false →
      x.control ≠ .perform (.terminate c .parent none) := fun {c m} hc hm hcontrol =>
    absurd (hafter c _ _ m hcontrol hc) (by simp [hm])
  cases hs with
  | keeps hlinks hends =>
    exact hl.congr hlinks fun c m p hc hm howes => howes.of_teardowns_eq hends (hcall hc hm)
  | allocates h hnew hlinks hends =>
    exact hl.allocates hnew hlinks fun c m p hc hm howes =>
      howes.of_teardowns_eq hends (hcall hc hm)
  | adopts h p l hnew hparent hactive hlinks hends =>
    exact hl.adopts hnew hparent hactive hlinks fun c m p hc hm howes =>
      howes.of_teardowns_eq hends (hcall hc hm)
  | frees h hfree => exact absurd hfree (hnever h)
  | begins ending inst hlive hactive hdescriptor hparent hlinks hends =>
    refine hl.begins (Engine.links?_eq_some_iff.2 ⟨inst, hlive, rfl⟩) hlinks hends ?_
    refine fun c m p hc hm howes => howes.carry (fun t ht rest hrest hmem => ?_) (hcall hc hm)
    exact .inl ⟨t, hends ▸ List.mem_cons_of_mem _ ht, rest, rfl, hrest, hmem⟩
  | turns ending child rest outer hlinks hbefore hafter hchild =>
    refine hl.congr hlinks fun c m p hc hm howes =>
      howes.carry (fun t ht children hchildren hmem => ?_) (hcall hc hm)
    rw [hbefore] at ht
    rw [hafter]
    rcases List.mem_cons.1 ht with rfl | ht
    · cases hchildren
      rcases List.mem_cons.1 hmem with rfl | hmem
      · -- The child whose turn it is lives, so its termination is called for next.
        refine .inr (hchild.resolve_left fun hdead => ?_)
        rw [hlinks, hdead] at hc
        cases hc
      · exact .inl ⟨_, List.mem_cons_self, rest, rfl, rfl, hmem⟩
    · exact .inl ⟨t, List.mem_cons_of_mem _ ht, children, rfl, hchildren, hmem⟩
  | detaches ending outer hlinks hbefore hafter =>
    obtain ⟨l, hlive, hmarked, -⟩ := ho.ongoing ⟨ending, some []⟩ (hbefore ▸ List.mem_cons_self)
    refine hl.detaches hlive hmarked hlinks fun c m p hc hm howes =>
      howes.carry (fun t ht rest hrest hmem => ?_) (hcall hc hm)
    -- The end that turns to cleaning up owes nothing.
    rw [hbefore] at ht
    rcases List.mem_cons.1 ht with rfl | ht
    · cases hrest
      cases hmem
    · exact .inl ⟨t, hafter ▸ List.mem_cons_of_mem _ ht, rest, rfl, hrest, hmem⟩
  | releases ending _ _ hlinks hends =>
    have ht : ⟨ending, none⟩ ∈ x.teardowns := hends ▸ List.mem_cons_self
    refine hl.releases hlinks (fun p m hp hmem => hl.unlisted_of_cleaning ho ht rfl hp hmem) ?_ ?_
    · intro c m hc hm hparent
      have hbefore : x.links? c = some m := by
        rw [hlinks, update_eq_some_iff] at hc
        rcases hc with ⟨-, heq⟩ | ⟨-, hc⟩
        · cases heq
        · exact hc
      have hmarked := hl.terminating_of_cleaning ho ht rfl hbefore hparent (hcall hc hm)
      cases hm.symm.trans hmarked
    · refine fun c m p hc hm howes => howes.carry (fun t ht rest hrest hmem => ?_) (hcall hc hm)
      rw [hends] at ht
      rcases List.mem_cons.1 ht with rfl | ht
      · cases hrest
      · exact .inl ⟨t, ht, rest, rfl, hrest, hmem⟩

/-- Before the first call there are no links. -/
theorem linked_start (w : World σ ν) (config : Config) (hfresh : w.engine = { config }) :
    Linked (⟨w, .give .done, []⟩ : Execution σ ν) := by
  have hnone : ∀ h, (⟨w, .give .done, []⟩ : Execution σ ν).links? h = none := fun h => by
    rw [Engine.links?_eq_none_iff, hfresh]
    rfl
  refine ⟨fun p l hp => ?_, fun p l c hp => ?_, fun c m p hc => ?_, fun c m p l hc => ?_⟩
  · cases (hnone p).symm.trans hp
  · cases (hnone p).symm.trans hp
  · cases (hnone c).symm.trans hc
  · cases (hnone c).symm.trans hc

/-- The links mirror each other at every moment of a run without direct releases. -/
theorem Run.linked (hrun : Run host x past) (hnever : NeverFrees past) : x.Linked := by
  induction hrun with
  | start w config hfresh => exact linked_start w config hfresh
  | @next x x' past hrun hnext ih =>
    exact (hnext.treeStep hrun.tidy).linked (ih hnever.of_cons)
      (hrun.orderly hnever.of_cons.freesOrderly) (hnever x List.mem_cons_self)
      fun c cause data m hcall hlive => hnext.terminating_of_terminate hcall hlive

end StateMachines.Execution
