import StateMachines.Proofs.Execution.Wraparound
import StateMachines.Proofs.Log.Faithful

/-!
# The log tells the life of every instance

The records that are tagged with the name of an instance begin with its allocation and, once it is
released, end with its release. In between the last change of state that they tell of is the one it
is in. The beginnings and the ends of all terminations are nested like brackets. All this holds at
every moment, those inside hooks included.

Two things are needed for it. Nobody else may publish records with the names of the instances, as
another engine does that numbers its instances in the same way; and no slot may be vacated so often
that its generations start over, or else a state is written into an instance of another class than
the one that is told.

## Main definitions

* `Execution.StateTold`: the records about an instance tell what state it is in.

## Main results

* `Execution.Run.statesTold`: the states of all live instances are told.
* `Execution.Run.stays`: an instance stays under its handle until its release is told.
* `Execution.Run.biographies`: the log tells the life of every instance.
* `Execution.log_misleads`: it does not if generations start over, or if two engines share it.
-/

namespace StateMachines.Execution

variable {σ ν : Type} {host : Host σ ν} {x x' y : Execution σ ν} {past : List (Execution σ ν)}
  {h : Handle} {s : Sheet}

/-! ## States and lives -/

/-- The state of an instance is told: it is the initial one if the records tell of no change, and
else one that was written into the instance, and the latest of them names it as it is called in the
class for which the edge was checked. -/
def StateTold (past : List (Execution σ ν)) (h : Handle) (s : Sheet) (rs : List Record) : Prop :=
  Record.latestState? rs = none ∧ s.state = 0 ∨
    ∃ z ∈ past, ∃ write, z.stateWrite? = some write ∧ write.target = h ∧
      write.new = s.state ∧ write.descriptor = s.descriptor ∧
      Record.latestState? rs = some (write.checked.stateName write.new)

/-- What is told of a state stays told until another change is told. -/
theorem StateTold.cons {t : Sheet} {rs rs' : List Record} (htold : StateTold past h s rs)
    (hstate : t.state = s.state) (hdescriptor : t.descriptor = s.descriptor)
    (hlatest : Record.latestState? rs' = Record.latestState? rs) :
    StateTold (x :: past) h t rs' := by
  rcases htold with ⟨hnone, hinitial⟩ | ⟨z, hz, write, hwrite, htarget, hnew, hclass, hsome⟩
  · exact .inl ⟨hlatest.trans hnone, hstate.trans hinitial⟩
  · exact .inr ⟨z, List.mem_cons_of_mem x hz, write, hwrite, htarget, hnew.trans hstate.symm,
      hclass.trans hdescriptor.symm, hlatest.trans hsome⟩

/-- The states of all live instances are told. -/
def StatesTold (x : Execution σ ν) (past : List (Execution σ ν)) : Prop :=
  ∀ h s, x.sheet? h = some s → StateTold past h s (x.recordsOf s.name)

/-- The instance under one handle changes, and nothing is told of the others. -/
theorem StatesTold.revises {new : Option Sheet} (htold : x.StatesTold past)
    (hsheets : x'.sheet? = Function.update x.sheet? h new)
    (hnew : ∀ s, new = some s → StateTold (x :: past) h s (x'.recordsOf s.name))
    (hother : ∀ k s, k ≠ h → x.sheet? k = some s → x'.recordsOf s.name = x.recordsOf s.name) :
    x'.StatesTold (x :: past) := by
  intro k t ht
  rw [hsheets, update_eq_some_iff] at ht
  rcases ht with ⟨rfl, heq⟩ | ⟨hk, ht⟩
  · exact hnew t heq
  · exact (htold k t ht).cons rfl rfl (congrArg _ (hother k t hk ht))

namespace LogStep

/-- A step keeps the states told. -/
theorem statesTold (hs : LogStep x x') (hf : x.Faithful) (htold : x.StatesTold past) :
    x'.StatesTold (x :: past) := by
  -- What is told of one live instance is not told of another one.
  have hothers : ∀ {k a r}, x.sheet? k = some a → r.tag? = some a.name →
      x'.chronicle = r :: x.chronicle → ∀ l t, l ≠ k → x.sheet? l = some t →
      x'.recordsOf t.name = x.recordsOf t.name := by
    intro k a r ha htag hlog l t hne ht
    exact recordsOf_cons_of_ne hlog htag fun heq => hne ((hf.name_eq_iff ha ht).1 heq.symm)
  cases hs with
  | tells entries hlog hentries hsheets haddr htargets =>
    intro k t ht
    have hsilent : ∀ r ∈ Record.taggedWith t.name entries, r.state? = none :=
      fun r hr => (hentries r (List.mem_of_mem_filter hr)).2.1
    refine (htold k t (hsheets ▸ ht)).cons rfl rfl ?_
    rw [recordsOf_append hlog, Record.latestState?_append hsilent]
  | allocates h inst b entries hnew hname hstate hactive hlive hborn hlog hentries hsheets haddr
      htargets =>
    have hfresh := hf.recordsOf_next hname
    have htags : ∀ r ∈ entries, r.tag? = some inst.name := fun r hr => (hentries r hr).2.2.tag_eq
    refine htold.revises hsheets (fun s hs => ?_) fun k s _ hs => ?_
    · cases hs
      refine .inl ⟨?_, hstate⟩
      have hsilent : ∀ r ∈ entries, r.state? = none := fun r hr => (hentries r hr).2.1
      show Record.latestState? (x'.recordsOf inst.name) = none
      rw [recordsOf_born hfresh hlog htags, Record.latestState?_append hsilent]
      rfl
    · exact recordsOf_born_of_ne hlog htags fun heq => (hf.life k s hs).ne_nil (heq ▸ hfresh)
  | moves write inst hwrite hlive hlog hsheets haddr htargets =>
    obtain ⟨-, -, -, -, a, -, -, ha, hclass, -⟩ := stateWrite?_eq_some_iff.1 hwrite
    obtain rfl := Option.some.inj (ha.symm.trans hlive)
    have htag : (Record.remark a.level write.checked.subsystem a.name
        (.stateChanged (write.checked.stateName write.new))).tag? = some a.sheet.name :=
      Record.tag?_remark _ _ _ _
    refine htold.revises hsheets (fun s hs => ?_)
      (hothers (Engine.sheet?_of_get? hlive) htag hlog)
    cases hs
    refine .inr ⟨x, List.mem_cons_self, write, hwrite, rfl, rfl, hclass, ?_⟩
    exact congrArg Record.latestState? (recordsOf_cons hlog htag)
  | begins h inst cause hlive hactive hlog hsheets haddr htargets =>
    have hsheet := Engine.sheet?_of_get? hlive
    have htag : (Record.about inst (.terminating cause)).tag? = some inst.sheet.name :=
      Record.tag?_about _ _
    refine htold.revises hsheets (fun s hs => ?_) (hothers hsheet htag hlog)
    cases hs
    refine (htold h inst.sheet hsheet).cons rfl rfl ?_
    show Record.latestState? (x'.recordsOf inst.sheet.name) = _
    rw [recordsOf_cons hlog htag]
    rfl
  | releases h inst subsystem hlive hmarked hlog hsheets haddr htargets =>
    exact htold.revises hsheets nofun
      (hothers (Engine.sheet?_of_get? hlive) (Record.tag?_remark _ _ _ _) hlog)

/-- An instance stays under its handle until its release is told. -/
theorem stays (hs : LogStep x x') (hlive : x.sheet? h = some s) :
    (∃ t, x'.sheet? h = some t ∧ t.name = s.name) ∨
      ∃ r ∈ x'.recordsOf s.name, r.announcesRelease = true := by
  -- One sheet was replaced by one with the same name, or taken away.
  have hstays : ∀ {k new}, x'.sheet? = Function.update x.sheet? k (some new) →
      (k = h → new.name = s.name) → ∃ t, x'.sheet? h = some t ∧ t.name = s.name := by
    intro k new hsheets hname
    by_cases hk : h = k
    · exact ⟨new, by rw [hsheets, hk, Function.update_self], hname hk.symm⟩
    · exact ⟨s, by rw [hsheets, Function.update_of_ne hk, hlive], rfl⟩
  have hsame : ∀ {k inst}, x.world.engine.get? k = some inst → k = h → inst.name = s.name := by
    rintro k inst hinst rfl
    cases hlive.symm.trans (Engine.sheet?_of_get? hinst)
    rfl
  cases hs with
  | tells entries hlog hentries hsheets haddr htargets =>
    exact .inl ⟨s, by rw [hsheets, hlive], rfl⟩
  | allocates k inst b entries hnew hname hstate hactive hborn hbirth hlog hentries hsheets haddr
      htargets =>
    refine .inl (hstays hsheets fun hk => ?_)
    cases (hk ▸ hnew).symm.trans hlive
  | moves write inst hwrite hinst hlog hsheets haddr htargets =>
    exact .inl (hstays hsheets (hsame hinst))
  | begins k inst cause hinst hactive hlog hsheets haddr htargets =>
    exact .inl (hstays hsheets (hsame hinst))
  | releases k inst subsystem hinst hmarked hlog hsheets haddr htargets =>
    by_cases hk : h = k
    · refine .inr ⟨.remark inst.level subsystem inst.name .released, ?_, rfl⟩
      rw [← hsame hinst hk.symm, recordsOf_cons hlog (Record.tag?_remark _ _ _ _)]
      exact List.mem_cons_self
    · exact .inl ⟨s, by rw [hsheets, Function.update_of_ne hk, hlive], rfl⟩

/-- What is published by a step is about instances that are live before or after it. -/
theorem exists_entries (hs : LogStep x x') :
    ∃ entries, x'.chronicle = entries ++ x.chronicle ∧ ∀ r ∈ entries, ∃ h inst,
      (x.world.engine.get? h = some inst ∨ x'.world.engine.get? h = some inst) ∧
      r.IsAbout inst := by
  have hone : ∀ {h inst r}, x.world.engine.get? h = some inst → r.IsAbout inst →
      x'.chronicle = r :: x.chronicle →
      ∃ entries, x'.chronicle = entries ++ x.chronicle ∧ ∀ r ∈ entries, ∃ h inst,
        (x.world.engine.get? h = some inst ∨ x'.world.engine.get? h = some inst) ∧
        r.IsAbout inst := by
    intro h inst r hlive habout hlog
    refine ⟨[r], hlog, fun r' hr' => ?_⟩
    obtain rfl := List.mem_singleton.1 hr'
    exact ⟨h, inst, .inl hlive, habout⟩
  cases hs with
  | tells entries hlog hentries hsheets haddr htargets =>
    refine ⟨entries, hlog, fun r hr => ?_⟩
    obtain ⟨-, -, h, inst, hlive, habout⟩ := hentries r hr
    exact ⟨h, inst, .inl hlive, habout⟩
  | allocates h inst b entries hnew hname hstate hactive hlive hborn hlog hentries hsheets haddr
      htargets =>
    refine ⟨entries ++ [.about inst .allocated], by simp [hlog], fun r hr => ⟨h, b, .inr hlive, ?_⟩⟩
    have habout : r.IsAbout inst := by
      rcases List.mem_append.1 hr with hr | hr
      · exact (hentries r hr).2.2
      · rw [List.mem_singleton.1 hr]
        exact Record.isAbout_remark _ _ _
    exact ⟨hborn.1 ▸ habout.tag_eq, hborn.2 ▸ habout.level_eq⟩
  | moves write inst hwrite hlive hlog hsheets haddr htargets =>
    exact hone hlive (Record.isAbout_remark _ _ _) hlog
  | begins h inst cause hlive hactive hlog hsheets haddr htargets =>
    exact hone hlive (Record.isAbout_remark _ _ _) hlog
  | releases h inst subsystem hlive hmarked hlog hsheets haddr htargets =>
    exact hone hlive (Record.isAbout_remark _ _ _) hlog

end LogStep

namespace Run

/-- The states of live instances are told at every moment of an undisturbed run without direct
releases in which names carry numbers. -/
theorem statesTold (hrun : Run host x past) (hnever : NeverFrees past)
    (hon : ∀ y ∈ past, y.world.engine.config.logAddr = true)
    (hquiet : Undisturbed (x :: past)) : x.StatesTold past := by
  induction hrun with
  | start w config hfresh =>
    intro h s hlive
    obtain ⟨inst, hinst, -⟩ := Engine.sheet?_eq_some_iff.1 hlive
    rw [hfresh] at hinst
    cases hinst
  | @next x x' past hrun hnext ih =>
    have hon' : ∀ y ∈ past, y.world.engine.config.logAddr = true :=
      fun y hy => hon y (List.mem_cons_of_mem x hy)
    have hstep := hrun.logStep hnext hnever (hon x List.mem_cons_self) hquiet
    exact hstep.statesTold (hrun.faithful hnever.of_cons hon' hquiet.of_cons)
      (ih hnever.of_cons hon' hquiet.of_cons)

/-- With few releases the class of an instance is not mistaken, so that the state which was told
last is the one it is in. -/
theorem stateName_eq {a : Instance} (hrun : Run host x past) (hfew : FewReleases (x :: past))
    (htold : x.StatesTold past) (hlive : x.world.engine.get? h = some a) :
    a.descriptor.stateName a.state =
      (Record.latestState? (x.recordsOf a.name)).getD (a.descriptor.stateName 0) := by
  rcases htold h a.sheet (Engine.sheet?_of_get? hlive) with
    ⟨hnone, hinitial⟩ | ⟨z, hz, write, hwrite, -, hnew, hclass, hsome⟩
  · have hnone : Record.latestState? (x.recordsOf a.name) = none := hnone
    rw [hnone, Option.getD_none, show a.state = 0 from hinitial]
  · have hchecked := hrun.keepsClass hfew z (List.mem_cons_of_mem x hz) write hwrite
    have hdescriptor : write.checked = a.descriptor := hchecked.symm.trans hclass
    have hsome : Record.latestState? (x.recordsOf a.name) =
        some (write.checked.stateName write.new) := hsome
    rw [hsome, Option.getD_some, hdescriptor]
    exact congrArg _ hnew.symm

/-- An instance that was once live stays under its handle until its release is told. -/
theorem stays (hrun : Run host x past) (hnever : NeverFrees past)
    (hon : ∀ y ∈ past, y.world.engine.config.logAddr = true)
    (hquiet : Undisturbed (x :: past)) (hy : y ∈ x :: past) (hlive : y.sheet? h = some s) :
    (∃ t, x.sheet? h = some t ∧ t.name = s.name) ∨
      ∃ r ∈ x.recordsOf s.name, r.announcesRelease = true := by
  induction hrun with
  | start w config hfresh =>
    obtain rfl := List.mem_singleton.1 hy
    exact .inl ⟨s, hlive, rfl⟩
  | @next x x' past hrun hnext ih =>
    have hstep := hrun.logStep hnext hnever (hon x List.mem_cons_self) hquiet
    rcases List.mem_cons.1 hy with rfl | hy
    · exact .inl ⟨s, hlive, rfl⟩
    · have hbefore := ih hnever.of_cons (fun y hy => hon y (List.mem_cons_of_mem x hy))
        hquiet.of_cons hy
      rcases hbefore with ⟨t, ht, hname⟩ | ⟨r, hr, hrelease⟩
      · rw [← hname]
        exact hstep.stays ht
      · -- What was told stays in the log.
        obtain ⟨entries, hlog, -⟩ := hstep.exists_entries
        refine .inr ⟨r, ?_, hrelease⟩
        rw [recordsOf_append hlog]
        exact List.mem_append_right _ hr

/-- The records about an instance that was once live are a biography: the instance is live as long
as it is found with its name under its handle. -/
theorem biography (hrun : Run host x past) (hnever : NeverFrees past)
    (hon : ∀ y ∈ past, y.world.engine.config.logAddr = true)
    (hquiet : Undisturbed (x :: past)) (hy : y ∈ x :: past) (hlive : y.sheet? h = some s) :
    Record.Biography (x.recordsOf s.name) (∃ t, x.sheet? h = some t ∧ t.name = s.name) := by
  have hf := hrun.faithful hnever hon hquiet
  have hlife : ∀ k t, x.sheet? k = some t → t.name = s.name →
      Record.Life (x.recordsOf s.name) t.terminating := by
    intro k t ht hname
    rw [← hname]
    exact hf.life k t ht
  rcases hrun.stays hnever hon hquiet hy hlive with ⟨t, ht, hname⟩ | ⟨r, hr, hrelease⟩
  · exact (hlife h t ht hname).biography ⟨t, ht, hname⟩
  · -- No release is told of a live instance, so it is not live under any handle.
    have hdead : ∀ k t, x.sheet? k = some t → t.name ≠ s.name :=
      fun k t ht hname => (hlife k t ht hname).not_released r hr hrelease
    rcases hf.told s.name (List.ne_nil_of_mem hr) with ⟨k, t, ht, hname⟩ | hpast
    · exact absurd hname (hdead k t ht)
    · exact hpast.biography fun ⟨t, ht, hname⟩ => hdead h t ht hname

/-- From one moment to the next only records about instances that are live at one of the two are
published, each at the level that its instance has. -/
theorem exists_entries {y' : Execution σ ν} {earlier : List (Execution σ ν)}
    (hrun : Run host x past) (hnever : NeverFrees past)
    (hon : ∀ y ∈ past, y.world.engine.config.logAddr = true) (hquiet : Undisturbed (x :: past))
    (hsuffix : y' :: y :: earlier <:+ x :: past) :
    ∃ entries, y'.chronicle = entries ++ y.chronicle ∧ ∀ r ∈ entries, ∃ h inst,
      (y.world.engine.get? h = some inst ∨ y'.world.engine.get? h = some inst) ∧
      r.IsAbout inst := by
  have hmem : ∀ z ∈ y :: earlier, z ∈ past := fun z hz => by
    rcases List.suffix_cons_iff.1 hsuffix with heq | hbefore
    · cases heq
      exact hz
    · exact hbefore.subset (List.mem_cons_of_mem y' hz)
  cases hrun.of_suffix hsuffix with
  | next hrun hnext =>
    exact (hrun.logStep hnext (fun z hz => hnever z (hmem z hz)) (hon y (hmem y List.mem_cons_self))
      (hquiet.of_suffix hsuffix)).exists_entries

end Run

/-- The log tells the life of every instance. At every moment of an undisturbed run without direct
releases in which names carry numbers, the records with the name of an instance that was ever live
are a biography, and its state is told; it is the one that was told last as long as the class of the
instance cannot be mistaken. The beginnings and ends of terminations are nested like brackets, where
those that are open are the ones in progress. Whatever was published from one moment to the next is
about an instance that was live at one of them, and at its level. -/
theorem Run.biographies (hrun : Run host x past) (hnever : NeverFrees past)
    (hon : ∀ y ∈ past, y.world.engine.config.logAddr = true) (hquiet : Undisturbed (x :: past)) :
    (∀ y ∈ x :: past, ∀ h a, y.world.engine.get? h = some a →
      Record.Biography (x.recordsOf a.name)
        (∃ b, x.world.engine.get? h = some b ∧ b.name = a.name)) ∧
    (∀ h a, x.world.engine.get? h = some a → StateTold past h a.sheet (x.recordsOf a.name) ∧
      (FewReleases (x :: past) → a.descriptor.stateName a.state =
        (Record.latestState? (x.recordsOf a.name)).getD (a.descriptor.stateName 0))) ∧
    Record.Nested x.chronicle (x.targets.map x.world.engine.nameOf) ∧
    ∀ y' y earlier, y' :: y :: earlier <:+ x :: past →
      ∃ entries, y'.chronicle = entries ++ y.chronicle ∧ ∀ r ∈ entries, ∃ h inst,
        (y.world.engine.get? h = some inst ∨ y'.world.engine.get? h = some inst) ∧
        r.IsAbout inst := by
  have htold := hrun.statesTold hnever hon hquiet
  refine ⟨fun y hy h a ha => ?_, fun h a ha => ?_, (hrun.faithful hnever hon hquiet).nested,
    fun y' y earlier hsuffix => hrun.exists_entries hnever hon hquiet hsuffix⟩
  · have halive : (∃ t, x.sheet? h = some t ∧ t.name = a.name) ↔
        ∃ b, x.world.engine.get? h = some b ∧ b.name = a.name := by
      simp only [Engine.sheet?_eq_some_iff]
      constructor
      · rintro ⟨-, ⟨b, hb, rfl⟩, hname⟩
        exact ⟨b, hb, hname⟩
      · rintro ⟨b, hb, hname⟩
        exact ⟨b.sheet, ⟨b, hb, rfl⟩, hname⟩
    rw [← halive]
    exact hrun.biography hnever hon hquiet hy (Engine.sheet?_of_get? ha)
  · exact ⟨htold h a.sheet (Engine.sheet?_of_get? ha),
      fun hfew => hrun.stateName_eq hfew htold ha⟩

/-- An instance sets its own level when it leaves a state, and asks for its own end when it is
cleaned up. -/
def gossip : Host Unit Unit where
  script _ h hook _ :=
    match hook with
    | .leave .. => .call (.setLevel h .trace) () fun _ _ => .done ()
    | .cleanup _ => .call (.terminate h .failure none) () fun _ _ => .done ()
    | _ => .done ()

/-- A run in which a parent moves and its child is ended. -/
def gossiped : Execution Unit Unit × List (Execution Unit Unit) :=
  session gossip 40 (idle {} ()) []
    [.alloc .fork none none none, .allocChild .plain ⟨0, 0⟩ 0, .changeState ⟨0, 0⟩ 1 0 0,
      .terminate ⟨1, 0⟩ .regular none]

/-- The log tells the state of the parent and the whole life of the child. -/
theorem gossiped_biographies :
    (∃ a, gossiped.1.world.engine.get? ⟨0, 0⟩ = some a ∧ a.state = 1 ∧
      (Record.latestState? (gossiped.1.recordsOf a.name)).getD "A" = "B") ∧
    (∃ y ∈ gossiped.1 :: gossiped.2, ∃ a, y.world.engine.get? ⟨1, 0⟩ = some a ∧
      Record.Biography (gossiped.1.recordsOf a.name) False) ∧
    Record.Nested gossiped.1.chronicle [] := by
  have hrun : Run gossip gossiped.1 gossiped.2 := run_session 40 _ (run_idle _ _)
  have hstart : Undisturbed [(idle {} () : Execution Unit Unit)] := rfl
  have hquiet : Undisturbed (gossiped.1 :: gossiped.2) := hstart.session gossip 40 _
  have hfew : FewReleases (gossiped.1 :: gossiped.2) := fewReleases_of_length_lt (by decide)
  obtain ⟨hlives, hstates, hnested, -⟩ := hrun.biographies (by decide) (by decide) hquiet
  refine ⟨?_, ?_, hnested⟩
  · have hmoved : (gossiped.1.world.engine.get? ⟨0, 0⟩).map (fun a => (a.state, a.descriptor)) =
        some (1, .fork) := rfl
    obtain ⟨a, ha, heq⟩ := Option.map_eq_some_iff.1 hmoved
    obtain ⟨hstate, hdescriptor⟩ := Prod.mk.inj heq
    have htold := (hstates ⟨0, 0⟩ a ha).2 hfew
    rw [hstate, hdescriptor] at htold
    exact ⟨a, ha, hstate, htold.symm⟩
  · obtain ⟨y, hy, halive⟩ : ∃ y ∈ gossiped.1 :: gossiped.2,
        y.world.engine.isAlive ⟨1, 0⟩ = true := by decide
    obtain ⟨a, ha⟩ := Engine.isAlive_eq_true_iff.1 halive
    refine ⟨y, hy, a, ha, ?_⟩
    have hdead : gossiped.1.world.engine.get? ⟨1, 0⟩ = none := rfl
    simpa [hdead] using hlives y hy ⟨1, 0⟩ a ha

/-- A class whose states have other names than those of `Descriptor.fork`. -/
def ladder : Descriptor where
  key := 2
  name := "LADDER"
  subsystem := "fsm"
  states := [{ name := "LOW" }, { name := "MIDDLE" }, { name := "HIGH" }]
  allStates := .empty
  eventNames := none
  timerCallback := false
  states_ne_nil := by decide
  out_lt := by decide

/-- A run in which an instance is allocated and ended. -/
def departed : Execution Unit Unit × List (Execution Unit Unit) :=
  session gossip 40 (idle {} ()) [] [.alloc .plain none none none, .terminate ⟨0, 0⟩ .regular none]

/-- A run of another engine that publishes to the same log. -/
def sharing : Execution Unit Unit × List (Execution Unit Unit) :=
  session gossip 2 ⟨{ departed.1.world with engine := { config := {} } }, .give .done, []⟩ []
    [.alloc .plain none none none]

/-- What the log tells may be wrong. If a slot is vacated `2 ^ 32` times within a call, a state may
be told by the name that it has in another class. If two engines share the log, an instance of the
second may be live although a release was told under its name. -/
theorem log_misleads :
    (∃ (host : Host Unit Unit) (x : Execution Unit Unit) (past : List (Execution Unit Unit))
      (h : Handle) (a : Instance), Run host x past ∧ NeverFrees past ∧
        (∀ y ∈ past, y.world.engine.config.logAddr = true) ∧ Undisturbed (x :: past) ∧
        x.world.engine.get? h = some a ∧ a.descriptor.stateName a.state = "HIGH" ∧
        Record.latestState? (x.recordsOf a.name) = some "C") ∧
    ∃ (host : Host Unit Unit) (x : Execution Unit Unit) (past : List (Execution Unit Unit))
      (h : Handle) (a : Instance), Run host x past ∧ NeverFrees past ∧
        (∀ y ∈ past, y.world.engine.config.logAddr = true) ∧ FewReleases (x :: past) ∧
        x.world.engine.get? h = some a ∧ ∃ r ∈ x.recordsOf a.name, r.announcesRelease = true := by
  constructor
  · obtain ⟨x, past, a, hrun, hnever, hon, hquiet, hlive, hclass, hstate, htold⟩ :=
      exists_usurped ladder
    refine ⟨_, x, past, ⟨0, 0⟩, a, hrun, hnever, hon, hquiet, hlive, ?_, htold⟩
    rw [hclass, hstate]
    rfl
  · have hrun : Run gossip sharing.1 sharing.2 := run_session 2 _ (.start _ {} rfl)
    exact ⟨gossip, sharing.1, sharing.2, ⟨0, 0⟩, _, hrun, by decide, by decide,
      fewReleases_of_length_lt (by decide), rfl, by decide⟩

end StateMachines.Execution
