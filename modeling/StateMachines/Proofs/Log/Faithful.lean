import StateMachines.Proofs.Execution.Series
import StateMachines.Proofs.Log.Biography

/-!
# Records and instances are tied

While display names carry numbers, the records that are tagged with the name of an instance are
about this instance only, at every moment, those inside hooks included: a record and the change it
announces fall into one step.

## Main definitions

* `Execution.recordsOf`: the records that are tagged with a name.
* `Execution.Faithful`: the invariant that ties records and instances.
* `Execution.Undisturbed`: nothing is published between the calls from outside.

## Main results

* `Execution.LogStep.faithful`: every step keeps them tied.
* `Execution.Run.faithful`: they are tied at every moment of a run.
-/

namespace StateMachines

namespace Execution

variable {σ ν : Type} {host : Host σ ν} {x x' y : Execution σ ν} {past : List (Execution σ ν)}
  {h k : Handle} {s : Sheet} {name : String} {inst : Instance} {r : Record}
  {entries : List Record}

/-- The records that are tagged with a name at a moment, the latest first. -/
def recordsOf (x : Execution σ ν) (name : String) : List Record :=
  Record.taggedWith name x.chronicle

/-! ## What ties records and instances -/

/-- The records are about the instances that carry the names. -/
structure Faithful (x : Execution σ ν) : Prop where
  /-- The records about a live instance begin with its allocation, and tell whether its termination
  has begun. -/
  life : ∀ h s, x.sheet? h = some s → Record.Life (x.recordsOf s.name) s.terminating
  /-- No two live instances have the same name. -/
  name_inj : ∀ h k s t, x.sheet? h = some s → x.sheet? k = some t → s.name = t.name → h = k
  /-- Records are about live or about released instances. -/
  told : ∀ name, x.recordsOf name ≠ [] →
    (∃ h s, x.sheet? h = some s ∧ s.name = name) ∨ Record.Past (x.recordsOf name)
  /-- What is told of carries a number that was drawn. -/
  numbered : ∀ name, x.recordsOf name ≠ [] → Numbered x.world.engine.lastAddr name
  /-- The ends in progress are the brackets that are open. -/
  nested : Record.Nested x.chronicle (x.targets.map x.world.engine.nameOf)

/-- The name under a handle can be read off its sheet. -/
theorem nameOf_eq (e : Engine) (h : Handle) :
    e.nameOf h = ((e.sheet? h).map (·.name)).getD "NULL" := by
  rw [Engine.nameOf, Engine.sheet?]
  cases e.get? h <;> rfl

/-- The name under a handle does not change as long as the sheets carry the same name. -/
theorem nameOf_congr {e e' : Engine}
    (hnames : (e'.sheet? h).map (·.name) = (e.sheet? h).map (·.name)) :
    e'.nameOf h = e.nameOf h := by
  rw [nameOf_eq, nameOf_eq, hnames]

/-- A change of the instance under one handle does not change the names under others. -/
theorem map_nameOf_of_update {e e' : Engine} {handles : List Handle} {new : Option Sheet}
    (hsheets : e'.sheet? = Function.update e.sheet? h new) (hh : h ∉ handles) :
    handles.map e'.nameOf = handles.map e.nameOf := by
  refine List.map_congr_left fun k hk => nameOf_congr ?_
  have hne : k ≠ h := fun heq => hh (heq ▸ hk)
  exact congrArg _ ((congrFun hsheets k).trans (Function.update_of_ne hne _ _))

/-- The name of a live instance. -/
theorem nameOf_of_sheet? {e : Engine} (hlive : e.sheet? h = some s) : e.nameOf h = s.name := by
  rw [nameOf_eq, hlive]
  rfl

/-- The records with a name after some more were published. -/
theorem recordsOf_append (hlog : x'.chronicle = entries ++ x.chronicle) (name : String) :
    x'.recordsOf name = Record.taggedWith name entries ++ x.recordsOf name := by
  rw [recordsOf, hlog, Record.taggedWith_append, recordsOf]

/-- The records with a name after one more was published. -/
theorem recordsOf_cons (hlog : x'.chronicle = r :: x.chronicle) (htag : r.tag? = some name) :
    x'.recordsOf name = r :: x.recordsOf name := by
  rw [recordsOf, hlog, Record.taggedWith_cons htag, recordsOf]

/-- A record with another name was published. -/
theorem recordsOf_cons_of_ne {other : String} (hlog : x'.chronicle = r :: x.chronicle)
    (htag : r.tag? = some other) (hne : other ≠ name) : x'.recordsOf name = x.recordsOf name := by
  rw [recordsOf, hlog, Record.taggedWith_cons_of_ne htag hne, recordsOf]

/-- The records with the name of an instance after it was allocated, if nothing was told of that
name before. -/
theorem recordsOf_born (hfresh : x.recordsOf inst.name = [])
    (hlog : x'.chronicle = entries ++ .about inst .allocated :: x.chronicle)
    (hentries : ∀ r ∈ entries, r.tag? = some inst.name) :
    x'.recordsOf inst.name = entries ++ [.about inst .allocated] := by
  rw [recordsOf, hlog, Record.taggedWith_append, Record.taggedWith_cons (Record.tag?_about _ _),
    Record.taggedWith_eq_self hentries]
  exact congrArg (fun rs => entries ++ .about inst .allocated :: rs) hfresh

/-- The records with another name after an instance was allocated. -/
theorem recordsOf_born_of_ne
    (hlog : x'.chronicle = entries ++ .about inst .allocated :: x.chronicle)
    (hentries : ∀ r ∈ entries, r.tag? = some inst.name) (hne : inst.name ≠ name) :
    x'.recordsOf name = x.recordsOf name := by
  rw [recordsOf, hlog, Record.taggedWith_append,
    Record.taggedWith_cons_of_ne (Record.tag?_about _ _) hne,
    Record.taggedWith_eq_nil hentries hne]
  rfl

namespace Faithful

/-- The records about a live instance carry a number that was drawn. -/
theorem numbered_of_live (hf : x.Faithful) (hlive : x.sheet? h = some s) :
    Numbered x.world.engine.lastAddr s.name :=
  hf.numbered s.name (hf.life h s hlive).ne_nil

/-- A live instance is found under its name only. -/
theorem name_eq_iff {t : Sheet} (hf : x.Faithful) (hlive : x.sheet? h = some s)
    (ht : x.sheet? k = some t) : t.name = s.name ↔ k = h := by
  refine ⟨fun heq => hf.name_inj k h t s ht hlive heq, ?_⟩
  rintro rfl
  cases hlive.symm.trans ht
  rfl

/-- Something is told about live instances. -/
theorem tells (hf : x.Faithful) (hlog : x'.chronicle = entries ++ x.chronicle)
    (hpassing : ∀ r ∈ entries, r.Passing)
    (habout : ∀ r ∈ entries, ∃ h s, x.sheet? h = some s ∧ r.tag? = some s.name)
    (hsheets : x'.sheet? = x.sheet?) (haddr : x'.world.engine.lastAddr = x.world.engine.lastAddr)
    (htargets : x'.targets = x.targets) : x'.Faithful := by
  have hof := recordsOf_append hlog
  have hentries : ∀ name, ∀ r ∈ Record.taggedWith name entries, r.Passing :=
    fun name r hr => hpassing r (List.mem_of_mem_filter hr)
  -- What is told of somebody is told of a live instance, or was told before.
  have hlive : ∀ name, x'.recordsOf name ≠ [] → (∃ h s, x.sheet? h = some s ∧ s.name = name) ∨
      x.recordsOf name ≠ [] ∧ x'.recordsOf name = x.recordsOf name := by
    intro name hsome
    rw [hof] at hsome ⊢
    cases hnew : Record.taggedWith name entries with
    | nil =>
      rw [hnew] at hsome
      exact .inr ⟨hsome, rfl⟩
    | cons r rest =>
      have hr : r ∈ Record.taggedWith name entries := hnew ▸ List.mem_cons_self
      obtain ⟨hmem, htag⟩ := List.mem_filter.1 hr
      obtain ⟨h, s, hs, htag'⟩ := habout r hmem
      exact .inl ⟨h, s, hs, Option.some.inj (htag'.symm.trans (of_decide_eq_true htag))⟩
  refine ⟨fun h s hs => ?_, fun h k s t => ?_, fun name hsome => ?_, fun name hsome => ?_, ?_⟩
  · rw [hof]
    exact (hf.life h s (hsheets ▸ hs)).append (hentries s.name)
  · rw [hsheets]
    exact hf.name_inj h k s t
  · rw [hsheets]
    rcases hlive name hsome with hlive | ⟨hold, heq⟩
    · exact .inl hlive
    · rw [heq]
      exact hf.told name hold
  · rw [haddr]
    rcases hlive name hsome with ⟨h, s, hs, rfl⟩ | ⟨hold, -⟩
    · exact hf.numbered_of_live hs
    · exact hf.numbered name hold
  · have hnames : x'.targets.map x'.world.engine.nameOf = x.targets.map x.world.engine.nameOf := by
      rw [htargets]
      exact List.map_congr_left fun h _ => nameOf_congr (congrArg _ (congrFun hsheets h))
    rw [hnames, hlog]
    exact hf.nested.append hpassing

/-- The instance under one handle and the records with its name change. What is told of the others
is as before. -/
theorem revises {n : String} {new : Option Sheet} (hf : x.Faithful)
    (hsheets : x'.sheet? = Function.update x.sheet? h new)
    (hown : ∀ k s, x.sheet? k = some s → (s.name = n ↔ k = h))
    (hlife : ∀ s, new = some s → s.name = n ∧ Record.Life (x'.recordsOf n) s.terminating)
    (hpast : new = none → Record.Past (x'.recordsOf n))
    (hother : ∀ name, n ≠ name → x'.recordsOf name = x.recordsOf name)
    (hnumbered : Numbered x'.world.engine.lastAddr n)
    (haddr : x.world.engine.lastAddr ≤ x'.world.engine.lastAddr)
    (hnested : Record.Nested x'.chronicle (x'.targets.map x'.world.engine.nameOf)) :
    x'.Faithful := by
  have hcases : ∀ {k t}, x'.sheet? k = some t →
      k = h ∧ new = some t ∧ t.name = n ∨ x.sheet? k = some t ∧ n ≠ t.name := by
    intro k t ht
    rw [hsheets, update_eq_some_iff] at ht
    rcases ht with ⟨hk, heq⟩ | ⟨hk, ht⟩
    · exact .inl ⟨hk, heq, (hlife t heq).1⟩
    · exact .inr ⟨ht, fun heq => hk ((hown k t ht).1 heq.symm)⟩
  refine ⟨fun k t ht => ?_, fun k l t u ht hu heq => ?_, fun name hsome => ?_,
    fun name hsome => ?_, hnested⟩
  · rcases hcases ht with ⟨-, hnew, hname⟩ | ⟨ht, hne⟩
    · rw [hname]
      exact (hlife t hnew).2
    · rw [hother t.name hne]
      exact hf.life k t ht
  · rcases hcases ht with ⟨rfl, -, hname⟩ | ⟨ht, hne⟩
    · rcases hcases hu with ⟨rfl, -⟩ | ⟨-, hne⟩
      · rfl
      · exact absurd (hname.symm.trans heq) hne
    · rcases hcases hu with ⟨-, -, hname⟩ | ⟨hu, -⟩
      · exact absurd (heq.trans hname).symm hne
      · exact hf.name_inj k l t u ht hu heq
  · by_cases hne : n = name
    · subst hne
      cases hnew : new with
      | none => exact .inr (hpast hnew)
      | some s =>
        refine .inl ⟨h, s, ?_, (hlife s hnew).1⟩
        rw [hsheets, hnew, Function.update_self]
    · rw [hother name hne] at hsome ⊢
      rcases hf.told name hsome with ⟨k, t, ht, rfl⟩ | hpast
      · refine .inl ⟨k, t, ?_, rfl⟩
        rw [hsheets, update_eq_some_iff]
        exact .inr ⟨fun hk => hne ((hown k t ht).2 hk).symm, ht⟩
      · exact .inr hpast
  · by_cases hne : n = name
    · exact hne ▸ hnumbered
    · exact (hf.numbered name (hother name hne ▸ hsome)).mono haddr

/-- Nothing has been told of the name that carries the next number. -/
theorem recordsOf_next (hf : x.Faithful) {n : String}
    (hname : ∃ d id, n = Engine.displayName d id (some (x.world.engine.lastAddr + 1))) :
    x.recordsOf n = [] := by
  obtain ⟨d, id, hname⟩ := hname
  by_contra hsome
  exact (hf.numbered n hsome).ne_next d id hname

/-- An instance is allocated with the next number. -/
theorem allocates (hf : x.Faithful) (ho : x.Orderly) (hnew : x.sheet? h = none)
    (hname : ∃ d id, inst.name = Engine.displayName d id (some (x.world.engine.lastAddr + 1)))
    (hactive : inst.terminating = false)
    (hlog : x'.chronicle = entries ++ .about inst .allocated :: x.chronicle)
    (hentries : ∀ r ∈ entries, r.Passing ∧ r.tag? = some inst.name)
    (hsheets : x'.sheet? = Function.update x.sheet? h (some inst.sheet))
    (haddr : x'.world.engine.lastAddr = x.world.engine.lastAddr + 1)
    (htargets : x'.targets = x.targets) : x'.Faithful := by
  have hfresh := hf.recordsOf_next hname
  have htags : ∀ r ∈ entries, r.tag? = some inst.name := fun r hr => (hentries r hr).2
  have hlife : Record.Life (x'.recordsOf inst.name) inst.terminating := by
    rw [recordsOf_born hfresh hlog htags, hactive]
    exact (Record.Life.born rfl).append fun r hr => (hentries r hr).1
  refine hf.revises hsheets (fun k s hs => ?_) (fun s hs => ?_) nofun
    (fun name => recordsOf_born_of_ne hlog htags) ?_ ?_ ?_
  · -- No live instance has the new name, and the new handle was dead.
    refine iff_of_false ?_ ?_
    · rintro heq
      exact (hf.life k s hs).ne_nil (heq ▸ hfresh)
    · rintro rfl
      cases hnew.symm.trans hs
  · cases hs
    exact ⟨rfl, hlife⟩
  · obtain ⟨d, id, hname⟩ := hname
    exact ⟨d, id, _, Nat.le_of_eq haddr.symm, hname⟩
  · exact haddr ▸ Nat.le_succ _
  · -- The new instance is not being ended.
    have hunlisted : h ∉ x.targets := by
      intro hmem
      obtain ⟨l, hl, -⟩ := ho.of_mem_targets hmem
      obtain ⟨a, ha, -⟩ := Engine.links?_eq_some_iff.1 hl
      cases (Engine.sheet?_eq_none_iff.1 hnew).symm.trans ha
    rw [htargets, map_nameOf_of_update hsheets hunlisted, hlog]
    exact (hf.nested.passes rfl rfl).append fun r hr => (hentries r hr).1

/-- The sheet of an instance is rewritten, and that is told. -/
theorem rewrites {s' : Sheet} (hf : x.Faithful) (hlive : x.sheet? h = some s)
    (htag : r.tag? = some s.name) (hlog : x'.chronicle = r :: x.chronicle)
    (hsheets : x'.sheet? = Function.update x.sheet? h (some s')) (hname : s'.name = s.name)
    (haddr : x'.world.engine.lastAddr = x.world.engine.lastAddr)
    (hlife : Record.Life (r :: x.recordsOf s.name) s'.terminating)
    (hnested : Record.Nested x'.chronicle (x'.targets.map x.world.engine.nameOf)) :
    x'.Faithful := by
  refine hf.revises hsheets (fun k t ht => hf.name_eq_iff hlive ht) (fun t ht => ?_) nofun
    (fun name => recordsOf_cons_of_ne hlog htag) ?_ (Nat.le_of_eq haddr.symm) ?_
  · cases ht
    rw [recordsOf_cons hlog htag]
    exact ⟨hname, hlife⟩
  · rw [haddr]
    exact hf.numbered_of_live hlive
  · have hnames : x'.targets.map x'.world.engine.nameOf =
        x'.targets.map x.world.engine.nameOf := by
      refine List.map_congr_left fun k _ => nameOf_congr ?_
      show (x'.sheet? k).map (·.name) = (x.sheet? k).map (·.name)
      rw [hsheets]
      by_cases hk : k = h
      · subst hk
        rw [Function.update_self, hlive]
        exact congrArg some hname
      · rw [Function.update_of_ne hk]
    rw [hnames]
    exact hnested

/-- An instance is released at its end, and that is told. -/
theorem releases (hf : x.Faithful) (ho : x.Orderly) (hlive : x.sheet? h = some s)
    (hmarked : s.terminating = true) (hr : r.announcesRelease = true)
    (htag : r.tag? = some s.name) (hlog : x'.chronicle = r :: x.chronicle)
    (hsheets : x'.sheet? = Function.update x.sheet? h none)
    (haddr : x'.world.engine.lastAddr = x.world.engine.lastAddr)
    (htargets : x.targets = h :: x'.targets) : x'.Faithful := by
  refine hf.revises hsheets (fun k t ht => hf.name_eq_iff hlive ht) nofun (fun _ => ?_)
    (fun name => recordsOf_cons_of_ne hlog htag) ?_ (Nat.le_of_eq haddr.symm) ?_
  · have hlife := hf.life h s hlive
    rw [hmarked] at hlife
    exact ⟨r, _, recordsOf_cons hlog htag, hr, hlife⟩
  · rw [haddr]
    exact hf.numbered_of_live hlive
  · -- The bracket that is closed is the innermost one.
    have hnodup := ho.nodup
    rw [htargets, List.nodup_cons] at hnodup
    have hnested := hf.nested
    rw [htargets, List.map_cons, nameOf_of_sheet? hlive] at hnested
    rw [map_nameOf_of_update hsheets hnodup.1, hlog]
    exact hnested.closes hr htag

end Faithful

/-! ## The invariant along runs -/

/-- A step keeps records and instances tied. -/
theorem LogStep.faithful (hs : LogStep x x') (hf : x.Faithful) (ho : x.Orderly) :
    x'.Faithful := by
  cases hs with
  | tells entries hlog hentries hsheets haddr htargets =>
    refine hf.tells hlog (fun r hr => (hentries r hr).1) (fun r hr => ?_) hsheets haddr htargets
    obtain ⟨-, -, h, inst, hlive, habout⟩ := hentries r hr
    exact ⟨h, inst.sheet, Engine.sheet?_of_get? hlive, habout.tag_eq⟩
  | allocates h inst b entries hnew hname hstate hactive hlive hborn hlog hentries hsheets haddr
      htargets =>
    exact hf.allocates ho hnew hname hactive hlog
      (fun r hr => ⟨(hentries r hr).1, (hentries r hr).2.2.tag_eq⟩) hsheets haddr htargets
  | moves write inst hwrite hlive hlog hsheets haddr htargets =>
    have hsheet := Engine.sheet?_of_get? hlive
    refine hf.rewrites hsheet (Record.tag?_remark _ _ _ _) hlog hsheets rfl haddr
      (.goes ⟨rfl, rfl, rfl⟩ (hf.life write.target _ hsheet)) ?_
    rw [hlog, htargets]
    exact hf.nested.passes rfl rfl
  | begins h inst cause hlive hactive hlog hsheets haddr htargets =>
    have hsheet := Engine.sheet?_of_get? hlive
    have htag : (Record.about inst (.terminating cause)).tag? = some inst.sheet.name :=
      Record.tag?_about _ _
    have hlife : Record.Life (x.recordsOf inst.sheet.name) false := by
      have hlife := hf.life h _ hsheet
      rwa [show inst.sheet.terminating = false from hactive] at hlife
    refine hf.rewrites hsheet htag hlog hsheets rfl haddr (.ends rfl hlife) ?_
    rw [hlog, htargets, List.map_cons, nameOf_of_sheet? hsheet]
    exact hf.nested.opens rfl htag
  | releases h inst subsystem hlive hmarked hlog hsheets haddr htargets =>
    exact hf.releases ho (Engine.sheet?_of_get? hlive) hmarked rfl (Record.tag?_remark _ _ _ _) hlog
      hsheets haddr htargets

/-- Nothing is published between the calls from outside, nor was before the first one. -/
def Undisturbed : List (Execution σ ν) → Prop
  | [] => True
  | [x] => x.chronicle = []
  | x' :: x :: past => (x.AtRest → x'.chronicle = x.chronicle) ∧ Undisturbed (x :: past)

/-- What an undisturbed history was like before. -/
theorem Undisturbed.of_cons (hquiet : Undisturbed (x' :: x :: past)) : Undisturbed (x :: past) :=
  hquiet.2

/-- What an undisturbed history was like up to an earlier moment. -/
theorem Undisturbed.of_suffix {hist earlier : List (Execution σ ν)} (hquiet : Undisturbed hist)
    (hsuffix : y :: earlier <:+ hist) : Undisturbed (y :: earlier) := by
  induction hist with
  | nil => cases List.suffix_nil.1 hsuffix
  | cons x past ih =>
    rcases List.suffix_cons_iff.1 hsuffix with heq | hbefore
    · rw [heq]
      exact hquiet
    · cases past with
      | nil => cases List.suffix_nil.1 hbefore
      | cons z past => exact ih hquiet.of_cons hbefore

/-- Nothing is published from outside while a call is followed. -/
theorem Undisturbed.follow {start : Execution σ ν} {span : List (Execution σ ν)} (fuel : Nat)
    (hquiet : Undisturbed (x :: (span ++ past))) :
    Undisturbed ((follow host start fuel x span).1 ::
      ((follow host start fuel x span).2 ++ past)) := by
  induction fuel generalizing x span with
  | zero => exact hquiet
  | succ fuel ih =>
    unfold Execution.follow
    split
    next => exact hquiet
    next =>
      split
      next x' hstep => exact ih ⟨fun hrest => absurd hrest (not_atRest_of_step hstep), hquiet⟩
      next => exact hquiet

/-- Nothing is published from outside during a session. -/
theorem Undisturbed.session (host : Host σ ν) (fuel : Nat) (calls : List Call)
    (hquiet : Undisturbed (x :: past)) :
    Undisturbed ((session host fuel x past calls).1 :: (session host fuel x past calls).2) := by
  induction calls generalizing x past with
  | nil => exact hquiet
  | cons call calls ih =>
    unfold Execution.session
    split
    next w reply hstep =>
      obtain rfl := step_eq_finished_iff.1 hstep
      exact ih (Undisturbed.follow fuel ⟨fun _ => rfl, hquiet⟩)
    next => exact hquiet

/-- From one moment to the next records and sheets change as by a step. -/
theorem Next.logStep (hnext : Next host x x') (htidy : x.world.engine.store.Tidy)
    (hon : x.world.engine.config.logAddr = true) (hfree : ∀ h, x.control ≠ .perform (.free h))
    (ho : x.Orderly) (hquiet : x.AtRest → x'.chronicle = x.chronicle) : LogStep x x' := by
  obtain ⟨t, -, ht⟩ | ⟨w, call, answer, rfl, hcontrol, hstack, hengine, -⟩ := hnext.cases
  · -- The time at which the step is taken does not matter.
    have ho' : (x.atTime t).Orderly := ⟨ho.nodup, ho.complete, ho.ongoing, ho.unlisted⟩
    cases ht.logStep htidy hon hfree ho' with
    | tells entries hlog hentries hsheets haddr htargets =>
      exact .tells entries hlog hentries hsheets haddr htargets
    | allocates h inst b entries hnew hname hstate hactive hlive hborn hlog hentries hsheets haddr
        htargets =>
      exact .allocates h inst b entries hnew hname hstate hactive hlive hborn hlog hentries hsheets
        haddr htargets
    | moves write inst hwrite hlive hlog hsheets haddr htargets =>
      exact .moves write inst hwrite hlive hlog hsheets haddr htargets
    | begins h inst cause hlive hactive hlog hsheets haddr htargets =>
      exact .begins h inst cause hlive hactive hlog hsheets haddr htargets
    | releases h inst subsystem hlive hmarked hlog hsheets haddr htargets =>
      exact .releases h inst subsystem hlive hmarked hlog hsheets haddr htargets
  · refine .silent (hquiet ⟨⟨answer, hcontrol⟩, hstack⟩) ?_ ?_ ?_
    · exact congrArg Engine.sheet? hengine
    · exact congrArg Engine.lastAddr hengine
    · simp [targets, teardowns, ofCall, hstack]

/-- Before the first call nothing was told. -/
theorem faithful_start {w : World σ ν} {config : Config} (hfresh : w.engine = { config })
    (hnone : w.chronicle = []) : Faithful (⟨w, .give .done, []⟩ : Execution σ ν) := by
  have hdead : ∀ h, w.engine.sheet? h = none := by
    intro h
    rw [hfresh]
    rfl
  have hempty : ∀ name, recordsOf (⟨w, .give .done, []⟩ : Execution σ ν) name = [] := by
    intro name
    rw [recordsOf, chronicle, hnone]
    rfl
  refine ⟨fun h s hs => ?_, fun h k s t hs => ?_, fun name hsome => absurd (hempty name) hsome,
    fun name hsome => absurd (hempty name) hsome, ?_⟩
  · cases (hdead h).symm.trans hs
  · cases (hdead h).symm.trans hs
  · rw [chronicle, hnone]
    exact .nil

namespace Run

/-- Between two moments of an undisturbed run without direct releases, in which names carry numbers,
there is one of the listed steps. -/
theorem logStep (hrun : Run host x past) (hnext : Next host x x') (hnever : NeverFrees (x :: past))
    (hon : x.world.engine.config.logAddr = true) (hquiet : Undisturbed (x' :: x :: past)) :
    LogStep x x' :=
  hnext.logStep hrun.tidy hon (hnever x List.mem_cons_self)
    (hrun.orderly hnever.of_cons.freesOrderly) hquiet.1

/-- The records are about the instances that carry the names, at every moment of an undisturbed run
without direct releases in which names carry numbers. -/
theorem faithful (hrun : Run host x past) (hnever : NeverFrees past)
    (hon : ∀ y ∈ past, y.world.engine.config.logAddr = true)
    (hquiet : Undisturbed (x :: past)) : x.Faithful := by
  induction hrun with
  | start w config hfresh => exact faithful_start hfresh hquiet
  | @next x x' past hrun hnext ih =>
    have hf := ih hnever.of_cons (fun y hy => hon y (List.mem_cons_of_mem x hy)) hquiet.of_cons
    exact (hrun.logStep hnext hnever (hon x List.mem_cons_self) hquiet).faithful hf
      (hrun.orderly hnever.of_cons.freesOrderly)

end Run

end Execution

end StateMachines
