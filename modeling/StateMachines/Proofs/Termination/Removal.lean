import StateMachines.Proofs.Execution.Conclusion
import StateMachines.Proofs.Termination.Course
import StateMachines.Proofs.Termination.Subtree

/-!
# Terminations without interference

If the hooks make no calls, a termination removes exactly a subtree. It cleans up the instances of
the subtree in post-order, tells the parent of the topmost one, and leaves alone everything else.
So which instances survive a series of terminations does not depend on their order.

## Main definitions

* `Host.Idle`: the hooks make no calls.
* `Execution.deeds`: the instances that are cleaned up, and the events that are delivered.
* `Execution.Felled`: what a termination leaves.
* `Execution.Ended`: terminations that are called for one after another.

## Main results

* `Execution.fells_of_postOrder`: the children of an instance are removed in post-order.
* `Execution.Run.terminate_fells`: terminations remove subtrees, in whatever order they are made.
-/

namespace StateMachines

variable {σ ν : Type}

/-- The script makes no call. -/
inductive Script.Idle : Script σ ν → Prop where
  | done (env : σ) : Idle (.done env)
  | note (note : ν) {rest : Script σ ν} (hrest : Idle rest) : Idle (.note note rest)

/-- No hook makes a call. -/
def Host.Idle (host : Host σ ν) : Prop := ∀ d h hook ctx, (host.script d h hook ctx).Idle

/-- The end of an instance. -/
def Instance.ending (inst : Instance) (h : Handle) (cause : Cause) (data : Option Payload) :
    Ending :=
  ⟨h, inst.descriptor, cause, data, inst.parent, inst.parentEvent⟩

/-- What a termination does to others. -/
inductive Deed where
  /-- The hook for cleaning up an instance is called. -/
  | cleans (h : Handle) (cause : Cause)
  /-- An event is delivered. -/
  | calls (call : Call)

namespace Execution

variable {host : Host σ ν} {hist : List (Execution σ ν)} {stack rest : List (Frame σ ν)}
  {P : List (Execution σ ν) → World σ ν → Prop} {F : List (Execution σ ν) → Execution σ ν → Prop}
  {w w' : World σ ν} {e e' e₀ : Engine} {h k fi : Handle} {inst : Instance} {cause : Cause}
  {data : Option Payload} {event : EventId} {d : Descriptor} {hook : Hook}
  {hs l l' sub : List Handle} {ending : Ending} {reply : Reply}

/-- What is done at a moment. -/
def deed? (x : Execution σ ν) : Option Deed :=
  match x.control with
  | .hook _ h (.cleanup cause) => some (.cleans h cause)
  | .perform (.dispatch target event data) => some (.calls (.dispatch target event data))
  | _ => none

/-- What was done, the latest first. -/
def deeds (hist : List (Execution σ ν)) : List Deed := hist.filterMap deed?

/-- Before the first moment nothing was done. -/
@[simp]
theorem deeds_nil : deeds ([] : List (Execution σ ν)) = [] := rfl

/-- While an answer is given, nothing is done to others. -/
@[simp]
theorem deeds_give : deeds (⟨w, .give reply, stack⟩ :: hist) = deeds hist := rfl

/-- The delivery of an event. -/
@[simp]
theorem deeds_dispatch : deeds (⟨w, .perform (.dispatch h event data), stack⟩ :: hist) =
    .calls (.dispatch h event data) :: deeds hist := rfl

/-! ## Hooks that make no calls -/

/-- A script that makes no call comes to its end and leaves the engine alone. -/
theorem Concludes.of_idle {script : Script σ ν} (hscript : script.Idle)
    (hnext : ∀ hist' w', w'.engine = w.engine → deeds hist' = deeds hist →
      Concludes host stack P F hist' ⟨w', .give .done, rest⟩) :
    Concludes host stack P F hist ⟨w, .run script, rest⟩ := by
  induction hscript generalizing w hist with
  | done env =>
    refine .of_busy (fun _ => nofun) (fun _ _ => nofun) fun t x' ht => ?_
    cases ht
    exact hnext _ _ rfl rfl
  | note note hrest ih =>
    refine .of_busy (fun _ => nofun) (fun _ _ => nofun) fun t x' ht => ?_
    cases ht
    exact ih fun hist' w' hengine hdeeds => hnext hist' w' hengine hdeeds

/-- A hook that makes no call returns and leaves the engine alone. -/
theorem Concludes.of_idle_hook (hidle : host.Idle)
    (hnext : ∀ hist' w', w'.engine = w.engine →
      deeds hist' = deeds (⟨w, .hook d h hook, rest⟩ :: hist) →
      Concludes host stack P F hist' ⟨w', .give .done, rest⟩) :
    Concludes host stack P F hist ⟨w, .hook d h hook, rest⟩ := by
  refine .of_busy (fun _ => nofun) (fun _ _ => nofun) fun t x' ht => ?_
  cases ht
  exact .of_idle (hidle _ _ _ _) fun hist' w' hengine hdeeds => hnext hist' w' hengine hdeeds

/-- The delivery of an event, on behalf of which an operation waits only for the answer, leaves the
engine alone. It raises a fault if it finds an instance in a state outside its table. -/
theorem Concludes.of_idle_dispatch {answer : Reply} (hidle : host.Idle)
    (hend : ∀ hist' w', w'.engine = w.engine →
      deeds hist' = .calls (.dispatch h event data) :: deeds hist → P hist' w')
    (hfault : ∀ inst, w.engine.get? h = some inst → inst.descriptor.states.length ≤ inst.state →
      F hist ⟨w, .perform (.dispatch h event data), .answer answer :: stack⟩) :
    Concludes host stack P F hist
      ⟨w, .perform (.dispatch h event data), .answer answer :: stack⟩ := by
  by_cases hstate : ∀ inst, w.engine.get? h = some inst →
      inst.state < inst.descriptor.states.length
  · refine .of_busy (fun _ => nofun) (fun _ _ => beginDispatch_ne_faulted hstate)
      fun t x' ht => ?_
    cases ht with
    | answered hanswers =>
      cases hanswers <;> exact .of_answer fun _ => hend _ _ rfl rfl
    | deliversAll | delivers =>
      refine .of_idle_hook hidle fun hist' w' hengine hdeeds => ?_
      refine .of_give (Nat.le_succ _) fun t x' ht => ?_
      cases ht with
      | closes hcloses =>
        cases hcloses
        exact .of_answer fun _ => hend _ _ hengine hdeeds
  · push Not at hstate
    obtain ⟨inst, hlive, houtside⟩ := hstate
    refine .faults (fun t _ => ?_) (hfault inst hlive houtside)
    exact ⟨_, by simp [step, atTime, begin, beginDispatch, hlive, houtside]; rfl⟩

/-! ## The removal of a forest -/

/-- The listed instances are the same as in the first engine, children and parents refer to each
other, and the lists of the classes are right. -/
structure Stands (e₀ : Engine) (l : List Handle) (e : Engine) : Prop where
  same : ∀ k ∈ l, e.get? k = e₀.get? k
  listed : ∀ p inst c, e.get? p = some inst → c ∈ inst.children →
    ∃ child, e.get? c = some child ∧ child.parent = some p
  rostered : e.store.Rostered

/-- A termination that still has to end the instances `hs`, whose trees are listed by `l`, removes
the listed ones, in their order, and goes on from there. -/
def Fells (host : Host σ ν) (e₀ : Engine) (hs l : List Handle) : Prop :=
  ∀ {stack rest : List (Frame σ ν)} {P : List (Execution σ ν) → World σ ν → Prop}
    {F : List (Execution σ ν) → Execution σ ν → Prop} {hist : List (Execution σ ν)}
    {w : World σ ν} {ending : Ending} {reply : Reply},
    stack.length ≤ rest.length → Stands e₀ l w.engine →
    (∀ hist' w' reply', Engine.Prunes l w.engine w'.engine →
      deeds hist' = (l.map (Deed.cleans · .parent)).reverse ++ deeds hist →
      Concludes host stack P F hist' ⟨w', .give reply', .cascade ending [] :: rest⟩) →
    Concludes host stack P F hist ⟨w, .give reply, .cascade ending hs :: rest⟩

/-- A mark leaves an engine standing apart from the marked instance. -/
theorem Stands.mark (hst : Stands e₀ l e) (hsub : ∀ k ∈ sub, k ∈ l ∧ k ≠ h) :
    Stands e₀ sub (e.modify h ({ · with terminating := true })) where
  same k hk := by
    rw [Engine.get?_modify_of_ne (hsub k hk).2]
    exact hst.same k (hsub k hk).1
  listed p b c hp hc := by
    obtain ⟨a, ha, hedit⟩ := Engine.get?_of_get?_modify hp
    have hmem : c ∈ a.children := by
      rcases hedit with ⟨-, rfl⟩ | ⟨-, rfl⟩ <;> exact hc
    obtain ⟨child, hchild, hparent⟩ := hst.listed p a c ha hmem
    by_cases hch : c = h
    · subst hch
      refine ⟨{ child with terminating := true }, ?_, hparent⟩
      rw [Engine.get?_modify_self, hchild, Option.map_some]
    · exact ⟨child, by rw [Engine.get?_modify_of_ne hch, hchild], hparent⟩
  rostered := hst.rostered.modify fun _ _ => rfl

/-- An instance that is ended removes its subtree, and is then to be released. -/
theorem Concludes.of_fells (hidle : host.Idle) (hle : stack.length ≤ rest.length)
    (hlive : w.engine.get? h = some inst) (hactive : inst.terminating = false)
    (hst : Stands e₀ (sub ++ [h]) w.engine) (hnot : h ∉ sub)
    (hfells : Fells host e₀ inst.children sub)
    (hnext : ∀ hist' w' reply,
      Engine.Prunes (sub ++ [h]) w.engine (w'.engine.free h) →
      deeds hist' = .cleans h cause :: ((sub.map (Deed.cleans · .parent)).reverse ++ deeds hist) →
      Concludes host stack P F hist' ⟨w', .give reply,
        .cleaning (inst.ending h cause data) :: rest⟩) :
    Concludes host stack P F hist ⟨w, .perform (.terminate h cause data), rest⟩ := by
  refine .of_busy (fun _ => nofun) (fun t fault => ?_) fun t x' ht => ?_
  · simp only [step, atTime, begin, beginEnd, hlive, hactive]
    exact fun hfaulted => by cases hfaulted
  cases ht with
  | answered hanswers =>
    cases hanswers with
    | endless data hdead => cases hdead.symm.trans hlive
    | ending data hlive' hending =>
      cases hlive.symm.trans hlive'
      cases hactive.symm.trans hending
  | ends hlive' hactive' =>
    cases hlive.symm.trans hlive'
    have hmarked : Stands e₀ sub (w.engine.modify h ({ · with terminating := true })) :=
      hst.mark fun k hk => ⟨List.mem_append_left _ hk, fun heq => hnot (heq ▸ hk)⟩
    refine hfells hle hmarked fun hist' w' reply hp hdeeds => ?_
    -- The descendants are gone, and the instance is cleaned up.
    refine .of_give hle fun t x' ht => ?_
    cases ht with
    | closes hcloses => cases hcloses
    | cleans =>
      refine .of_idle_hook hidle fun hist'' w'' hengine hdeeds' => hnext hist'' w'' .done ?_ ?_
      · rw [hengine]
        refine Engine.Prunes.release (fun p a hp hmem => ?_) hnot hp
        obtain ⟨child, hchild, hparent⟩ := hst.listed p a h hp hmem
        cases hlive.symm.trans hchild
        exact hparent
      · rw [hdeeds']
        exact congrArg (Deed.cleans h cause :: ·) hdeeds

/-- An engine that has lost instances stands apart from those whose children are others. -/
theorem Stands.prunes (hst : Stands e₀ (l ++ l') e) (hp : Engine.Prunes l e e')
    (hdisjoint : ∀ k ∈ l', k ∉ l)
    (hchildren : ∀ k ∈ l', ∀ a, e₀.get? k = some a → ∀ c ∈ a.children, c ∉ l) :
    Stands e₀ l' e' where
  same k hk := by
    rw [hp.get?_eq, if_neg (hdisjoint k hk), hst.same k (List.mem_append_right _ hk)]
    cases hlive : e₀.get? k with
    | none => rfl
    | some a => exact congrArg some (Instance.without_eq_self (hchildren k hk a hlive))
  listed p inst c hlive hc := by
    obtain ⟨-, a, ha, rfl⟩ := hp.get?_eq_some_iff.1 hlive
    obtain ⟨hmem, hnot⟩ := List.mem_filter.1 hc
    obtain ⟨child, hchild, hparent⟩ := hst.listed p a c ha hmem
    exact ⟨_, hp.get?_eq_some_iff.2 ⟨of_decide_eq_true hnot, child, hchild, rfl⟩, hparent⟩
  rostered := hp.rostered

/-- The trees of the instances are removed one after another, each in post-order. -/
theorem fells_of_postOrder (hidle : host.Idle)
    (hquiet : ∀ k a, e₀.get? k = some a → a.terminating = false) (hpost : e₀.PostOrder hs l)
    (hnodup : l.Nodup) : Fells host e₀ hs l := by
  induction hpost with
  | nil =>
    intro stack rest P F hist w ending reply hle hst hnext
    exact hnext hist w reply (.nil hst.rostered) rfl
  | @cons h siblings sub after inst hlive hsub hrest ihsub ihrest =>
    intro stack rest P F hist w ending reply hle hst hnext
    rw [List.append_cons] at hnodup hst hnext
    obtain ⟨hfirst, hafter, hdisjoint⟩ := List.nodup_append.1 hnodup
    obtain ⟨hbelow, -, hnot⟩ := List.nodup_append.1 hfirst
    have hlive' : w.engine.get? h = some inst := (hst.same h (by simp)).trans hlive
    refine .of_give hle fun t x' ht => ?_
    cases ht with
    | closes hcloses => cases hcloses
    | skipsChild hdead => cases (Engine.isAlive_eq_false_iff.1 hdead).symm.trans hlive'
    | endsChild =>
      have hst' : Stands e₀ (sub ++ [h]) w.engine :=
        ⟨fun k hk => hst.same k (List.mem_append_left _ hk), hst.listed, hst.rostered⟩
      refine .of_fells hidle (Nat.le_succ_of_le hle) hlive' (hquiet h inst hlive) hst'
        (fun hmem => hnot h hmem h (by simp) rfl) (ihsub hbelow) fun hist' w' reply hp hdeeds => ?_
      refine .of_give (Nat.le_succ_of_le hle) fun t' x' ht => ?_
      cases ht with
      | tells _ hcause => exact absurd rfl hcause
      | closes hcloses =>
        cases hcloses
        -- The first tree is gone, and the others are as they were.
        have hp' : Engine.Prunes (sub ++ [h]) w.engine
            (World.released { w' with now := t' } (inst.ending h .parent none)).engine :=
          (World.engine_released _ _).symm ▸ hp
        have hrest' : ∀ k ∈ after, k ∉ sub ++ [h] := fun k hk hmem => hdisjoint k hmem k hk rfl
        refine ihrest hafter hle (hst.prunes hp' hrest' fun k hk a ha c hc =>
          hrest' c (hrest.mem_of_mem_children hk ha hc)) fun hist'' w'' reply hp'' hdeeds' => ?_
        refine hnext hist'' w'' reply (hp'.append hp'') ?_
        rw [hdeeds', deeds_give, hdeeds, deeds_give]
        simp

/-! ## What a termination leaves -/

/-- What the end of an instance does, if the list is that of the instances below it. -/
def deedsOf (h : Handle) (inst : Instance) (cause : Cause) (data : Option Payload)
    (l : List Handle) : List Deed :=
  l.map (fun k => .cleans k (if k = h then cause else .parent)) ++
    (notice inst.parent inst.parentEvent cause data).map .calls

/-- What is left of an engine that has lost an instance and all that is listed below it. -/
structure Felled (e : Engine) (h : Handle) (inst : Instance) (l : List Handle) (e' : Engine) :
    Prop where
  /-- The listed instances are dead and have no timers. -/
  gone : ∀ k ∈ l, e'.get? k = none ∧ e'.timers.deadline? k = none
  /-- The parent has lost the instance from its list, and nothing else. -/
  parent : ∀ p, inst.parent = some p → ∃ a before after, e.get? p = some a ∧
    a.children = before ++ h :: after ∧ e'.get? p = some { a with children := before ++ after }
  /-- Other instances have not changed. -/
  others : ∀ k ∉ l, inst.parent ≠ some k → e'.get? k = e.get? k
  /-- Other timers have not changed. -/
  timers : ∀ k ∉ l, e'.timers.deadline? k = e.timers.deadline? k
  /-- The lists of the classes have lost the listed instances. -/
  instances : ∀ d, e'.instancesOf d = (e.instancesOf d).filter (· ∉ l)
  /-- Nothing else has changed. -/
  rest : (e'.catalogue, e'.config, e'.lastAddr) = (e.catalogue, e.config, e.lastAddr)

/-- What is listed below an instance is below it. -/
theorem mem_iff_below (hs : e.Settled) (hpost : e.PostOrder [h] l) : k ∈ l ↔ e.Below k h := by
  simpa using hpost.mem_iff hs (k := k)

/-- A settled engine that has lost all that is below an instance. -/
theorem felled_of_prunes (hs : e.Settled) (hlive : e.get? h = some inst)
    (hpost : e.PostOrder [h] l) (hp : Engine.Prunes l e e') : Felled e h inst l e' where
  gone k hk := by
    rw [hp.get?_eq, hp.deadline?_eq, if_pos hk, if_pos hk]
    exact ⟨rfl, rfl⟩
  parent p hparent := by
    obtain ⟨a, ha, hmem⟩ := hs.kept h inst p hlive hparent
    obtain ⟨before, after, hchildren⟩ := List.append_of_mem hmem
    refine ⟨a, before, after, ha, hchildren, ?_⟩
    have hnot : p ∉ l := fun hl => hs.not_below_child ha hmem ((mem_iff_below hs hpost).1 hl)
    -- Of the children of the parent only the instance itself is listed.
    have hsibling : ∀ c ∈ a.children, c ≠ h → decide (c ∉ l) = true := fun c hc hne =>
      decide_eq_true fun hl =>
        hs.not_below_sibling ha hc hmem hne ((mem_iff_below hs hpost).1 hl)
    have hself : ¬ decide (h ∉ l) = true := by simp [(mem_iff_below hs hpost).2 .refl]
    have hnodup := hs.nodup p a ha
    rw [hchildren, List.nodup_middle, List.nodup_cons, List.mem_append] at hnodup
    have hwithout : a.children.filter (· ∉ l) = before ++ after := by
      rw [hchildren] at hsibling ⊢
      rw [List.filter_append, List.filter_cons, if_neg hself, List.filter_eq_self.2 fun c hc => ?_,
        List.filter_eq_self.2 fun c hc => ?_]
      · refine hsibling c (by simp [hc]) ?_
        rintro rfl
        exact hnodup.1 (.inr hc)
      · refine hsibling c (by simp [hc]) ?_
        rintro rfl
        exact hnodup.1 (.inl hc)
    rw [hp.get?_eq, if_neg hnot, ha, Option.map_some, Instance.without, hwithout]
  others k hk hparent := by
    rw [hp.get?_eq, if_neg hk]
    cases ha : e.get? k with
    | none => rfl
    | some a =>
      refine congrArg some (Instance.without_eq_self fun c hc hl => ?_)
      obtain ⟨child, hchild, hck⟩ := hs.listed k a c ha hc
      rcases ((mem_iff_below hs hpost).1 hl).cases_head with rfl | ⟨q, hq, hrest⟩
      · cases hlive.symm.trans hchild
        exact hparent hck
      · cases (Engine.parent?_eq_some_iff.2 ⟨child, hchild, hck⟩).symm.trans hq
        exact hk ((mem_iff_below hs hpost).2 hrest)
  timers k hk := by rw [hp.deadline?_eq, if_neg hk]
  instances d := by
    rw [Engine.instancesOf, Engine.instancesOf, Store.instancesOf, Store.instancesOf, hp.roster_eq,
      List.filter_filterMap, List.filterMap_filter]
    refine List.filterMap_congr fun entry _ => ?_
    by_cases hl : entry.2 ∈ l <;> by_cases hkey : entry.1 = d.key <;>
      simp [hl, hkey, Option.filter]
  rest := hp.rest_eq

/-- In a settled engine a termination removes what is below its target, and tells the parent. -/
theorem concludes_of_settled (hidle : host.Idle) (hs : w.engine.Settled)
    (hlive : w.engine.get? h = some inst) (hpost : w.engine.PostOrder [h] l) :
    Concludes host stack
      (fun span w' => (deeds span).reverse = deedsOf h inst cause data l ∧
        Engine.Prunes l w.engine w'.engine)
      (fun span x => (deeds (x :: span)).reverse = deedsOf h inst cause data l ∧
        Engine.Prunes l w.engine x.world.engine ∧ ∃ p a, inst.parent = some p ∧
          w.engine.get? p = some a ∧ a.descriptor.states.length ≤ a.state)
      [] ⟨w, .perform (.terminate h cause data), stack⟩ := by
  have hnodup := hpost.nodup hs (List.pairwise_singleton _ _)
  cases hpost with
  | @cons _ _ sub after _ hlive' hsub hrest =>
    cases hlive.symm.trans hlive'
    cases hrest
    obtain ⟨hbelow, -, hdisjoint⟩ := List.nodup_append.1 hnodup
    have hnot : h ∉ sub := fun hmem => hdisjoint h hmem h (by simp) rfl
    have hcleaned : sub.map (fun k => Deed.cleans k (if k = h then cause else .parent)) =
        sub.map (Deed.cleans · .parent) := by
      refine List.map_congr_left fun k hk => ?_
      rw [if_neg]
      rintro rfl
      exact hnot hk
    refine .of_fells hidle (Nat.le_refl _) hlive (hs.quiet h inst hlive)
      ⟨fun _ _ => rfl, hs.listed, hs.rostered⟩ hnot (fells_of_postOrder hidle hs.quiet hsub hbelow)
      fun hist' w' reply hp hdeeds => ?_
    have hp' : ∀ t, Engine.Prunes (sub ++ [h]) w.engine
        (World.released { w' with now := t } (inst.ending h cause data)).engine := fun t =>
      (World.engine_released _ _).symm ▸ hp
    refine .of_give (Nat.le_refl _) fun t x' ht => ?_
    cases ht with
    | closes hcloses =>
      cases hcloses with
      | released hquiet =>
        refine .returned ⟨?_, hp' t⟩
        have hnotice := notice_of_quiet hquiet inst.parentEvent data
        simp only [Instance.ending] at hnotice
        simp [deedsOf, hdeeds, hcleaned, hnotice]
    | @tells _ _ p _ _ hparent hcause =>
      simp only [Instance.ending] at hparent hcause
      have hnotice := notice_of_ne hcause
      have htold : (.calls (.dispatch p inst.parentEvent data) :: deeds hist').reverse =
          deedsOf h inst cause data (sub ++ [h]) := by
        simp [deedsOf, hdeeds, hcleaned, hparent, hnotice]
      refine .of_idle_dispatch hidle (fun hist'' w'' hengine hdeeds' => ⟨?_, ?_⟩) ?_
      · rw [hdeeds', deeds_give]
        exact htold
      · rw [hengine]
        exact hp' t
      · intro b hb houtside
        obtain ⟨-, a, ha, rfl⟩ := (hp' t).get?_eq_some_iff.1 hb
        exact ⟨htold, hp' t, p, a, hparent, ha, houtside⟩

/-! ## Terminations one after another -/

/-- The listed instances are ended one after another; nothing else changes the engine. -/
inductive Ended (host : Host σ ν) : World σ ν → List Handle → World σ ν → Prop where
  | nil (w : World σ ν) : Ended host w [] w
  | cons {w w₁ w' : World σ ν} {h : Handle} {targets : List Handle} {cause : Cause}
      {data : Option Payload} {stack : List (Frame σ ν)} {y : Execution σ ν}
      {span : List (Execution σ ν)}
      (hspan : Spans host ⟨w, .perform (.terminate h cause data), stack⟩ y span)
      (hreturned : Returned ⟨w, .perform (.terminate h cause data), stack⟩ y)
      (hengine : w₁.engine = y.world.engine) (hrest : Ended host w₁ targets w') :
      Ended host w (h :: targets) w'

/-- The termination of a dead handle leaves the engine alone. -/
theorem concludes_of_dead (hdead : w.engine.get? h = none) :
    Concludes host stack (fun _ w' => w'.engine = w.engine) (fun _ _ => False) []
      ⟨w, .perform (.terminate h cause data), stack⟩ := by
  refine .of_busy (fun _ => nofun) (fun t fault => ?_) fun t x' ht => ?_
  · simp only [step, atTime, begin, beginEnd, hdead]
    exact fun hfaulted => by cases hfaulted
  cases ht with
  | answered hanswers => cases hanswers <;> exact .returned rfl
  | ends hlive => cases hdead.symm.trans hlive

/-- Terminations leave what is not below any of their targets. -/
theorem Ended.live_iff {targets : List Handle} (hended : Ended host w targets w')
    (hidle : host.Idle) (hs : w.engine.Settled) :
    (∃ b, w'.engine.get? k = some b) ↔
      (∃ a, w.engine.get? k = some a) ∧ ∀ h ∈ targets, ¬ w.engine.Below k h := by
  induction hended with
  | nil => simp
  | @cons w w₁ w' h targets cause data stack y span hspan hreturned hengine _ ih =>
    cases hlive : w.engine.get? h with
    | none =>
      have hsame : w₁.engine = w.engine :=
        hengine.trans ((concludes_of_dead hlive).of_spans hspan hreturned)
      have hnot : ∀ a, w.engine.get? k = some a → ¬ w.engine.Below k h := by
        intro a ha hbelow
        rcases hbelow.cases_tail with rfl | ⟨c, -, hparent⟩
        · cases hlive.symm.trans ha
        · obtain ⟨child, hchild, hp⟩ := Engine.parent?_eq_some_iff.1 hparent
          obtain ⟨inst, hinst, -⟩ := hs.kept c child h hchild hp
          cases hlive.symm.trans hinst
      rw [ih (hsame ▸ hs), hsame, List.forall_mem_cons]
      exact and_congr_right fun ⟨a, ha⟩ => (and_iff_right (hnot a ha)).symm
    | some inst =>
      obtain ⟨sub, hsub⟩ := hs.exists_postOrder hlive
      have hpost : w.engine.PostOrder [h] (sub ++ [h]) := .cons hlive hsub .nil
      have hp : Engine.Prunes (sub ++ [h]) w.engine w₁.engine :=
        hengine ▸ ((concludes_of_settled hidle hs hlive hpost).of_spans hspan hreturned).2
      have hclosed := hpost.closed hs
      have hlive₁ : (∃ b, w₁.engine.get? k = some b) ↔
          (∃ a, w.engine.get? k = some a) ∧ ¬ w.engine.Below k h := by
        simp only [hp.get?_eq_some_iff, mem_iff_below hs hpost]
        exact ⟨fun ⟨b, hk, a, ha, _⟩ => ⟨⟨a, ha⟩, hk⟩, fun ⟨⟨a, ha⟩, hk⟩ => ⟨_, hk, a, ha, rfl⟩⟩
      rw [ih (hs.prunes hp hclosed), hlive₁, List.forall_mem_cons, and_assoc]
      refine and_congr_right fun _ => and_congr_right fun hk => ?_
      refine forall₂_congr fun q _ => not_congr ?_
      exact hp.below_iff hclosed fun hmem => hk ((mem_iff_below hs hpost).1 hmem)

/-- Let an engine be reached without direct releases and let nothing be ended in it. If the hooks
make no calls, the termination of an instance cleans up what is below the instance, in post-order
and siblings in the order of their allocation, tells the parent, unless that one has called for it,
and leaves everything else alone. It only stops at the parent if this one is in a state outside its
table. So the order of several terminations does not matter for what survives them: that is what is
not below any of their targets. -/
theorem Run.terminate_fells {host₀ : Host σ ν} {x : Execution σ ν} {past : List (Execution σ ν)}
    (hrun : Run host₀ x past) (hnever : NeverFrees past)
    (hquiet : ∀ h inst, x.world.engine.get? h = some inst → inst.terminating = false)
    (hidle : host.Idle) (hw : w.engine = x.world.engine) :
    (∀ p a, w.engine.get? p = some a →
      a.children.Pairwise fun b c => bornAt (x :: past) b < bornAt (x :: past) c) ∧
    (∀ h inst, w.engine.get? h = some inst → ∃ l, w.engine.PostOrder [h] l ∧ l.Nodup ∧
      (∀ k, k ∈ l ↔ k = h ∨ w.engine.Descends k h) ∧
      ∀ cause data stack, Concludes host stack
        (fun span w' => (deeds span).reverse = deedsOf h inst cause data l ∧
          Felled w.engine h inst l w'.engine)
        (fun span y => (deeds (y :: span)).reverse = deedsOf h inst cause data l ∧
          Felled w.engine h inst l y.world.engine ∧ ∃ p a, inst.parent = some p ∧
            w.engine.get? p = some a ∧ a.descriptor.states.length ≤ a.state)
        [] ⟨w, .perform (.terminate h cause data), stack⟩) ∧
    ∀ targets targets' w' w'', targets.Perm targets' → Ended host w targets w' →
      Ended host w targets' w'' → ∀ k,
        ((∃ b, w'.engine.get? k = some b) ↔ ∃ b, w''.engine.get? k = some b) ∧
        ((∃ b, w'.engine.get? k = some b) ↔ (∃ a, w.engine.get? k = some a) ∧
          ∀ h ∈ targets, k ≠ h ∧ ¬ w.engine.Descends k h) := by
  have hs : w.engine.Settled := hw ▸ hrun.settled hnever hquiet
  refine ⟨fun p a ha => ?_, fun h inst hlive => ?_, ?_⟩
  · rw [hw] at ha
    exact hrun.pairwise_bornAt hnever (Engine.links?_eq_some_iff.2 ⟨a, ha, rfl⟩)
  · obtain ⟨sub, hsub⟩ := hs.exists_postOrder hlive
    have hpost : w.engine.PostOrder [h] (sub ++ [h]) := .cons hlive hsub .nil
    refine ⟨_, hpost, hpost.nodup hs (List.pairwise_singleton _ _), fun k =>
      (mem_iff_below hs hpost).trans Engine.below_iff, fun cause data stack => ?_⟩
    refine (concludes_of_settled hidle hs hlive hpost).mono
      (fun span w' hend => ⟨hend.1, felled_of_prunes hs hlive hpost hend.2⟩)
      fun span y hend => ⟨hend.1, felled_of_prunes hs hlive hpost hend.2.1, hend.2.2⟩
  · intro targets targets' w' w'' hperm hended hended' k
    rw [hended.live_iff hidle hs, hended'.live_iff hidle hs]
    refine ⟨and_congr_right fun _ => forall_congr' fun q => imp_congr_left hperm.mem_iff,
      and_congr_right fun _ => forall₂_congr fun q _ => ?_⟩
    rw [Engine.below_iff, not_or]

/-- A run in which an instance gets two children, and the first one a child of its own. -/
def arbor : Execution Unit Unit × List (Execution Unit Unit) :=
  session passive 10 (idle { logAddr := false } ()) []
    [.alloc .plain none none none, .allocChild .fork ⟨0, 0⟩ 0, .allocChild .plain ⟨0, 0⟩ 0,
      .allocChild .plain ⟨1, 0⟩ 0]

/-- The first child is removed after its own child, and its parent is told. If the root is ended as
well, before or afterwards, nobody survives. -/
theorem arbor_felled :
    (∃ root first, arbor.1.world.engine.get? ⟨0, 0⟩ = some root ∧
      arbor.1.world.engine.get? ⟨1, 0⟩ = some first ∧ root.children = [⟨1, 0⟩, ⟨2, 0⟩] ∧
      first.children = [⟨3, 0⟩] ∧ first.parent = some ⟨0, 0⟩ ∧
      Concludes passive []
        (fun span w' =>
          (deeds span).reverse = [.cleans ⟨3, 0⟩ .parent, .cleans ⟨1, 0⟩ .request,
            .calls (.dispatch ⟨0, 0⟩ 0 none)] ∧
          Felled arbor.1.world.engine ⟨1, 0⟩ first [⟨3, 0⟩, ⟨1, 0⟩] w'.engine)
        (fun _ _ => False) [] ⟨arbor.1.world, .perform (.terminate ⟨1, 0⟩ .request none), []⟩) ∧
    ∀ w' w'', Ended passive arbor.1.world [⟨0, 0⟩, ⟨1, 0⟩] w' →
      Ended passive arbor.1.world [⟨1, 0⟩, ⟨0, 0⟩] w'' →
        ∀ k, (∃ b, w'.engine.get? k = some b) ↔ ∃ b, w''.engine.get? k = some b := by
  have hquiet : ∀ h inst, arbor.1.world.engine.get? h = some inst → inst.terminating = false := by
    intro h inst hlive
    simpa using of_get?_of_all (fun inst => !inst.terminating) (by decide) hlive
  have hrun : Run passive arbor.1 arbor.2 := run_session 10 _ (run_idle _ _)
  have hidle : passive.Idle := fun _ _ _ _ => .done ()
  have hworld : arbor.1.world.engine = arbor.1.world.engine := rfl
  obtain ⟨-, hfells, hseries⟩ := Run.terminate_fells hrun (by decide) hquiet hidle hworld
  refine ⟨?_, fun w' w'' hw' hw'' k => (hseries _ _ w' w'' (by decide) hw' hw'' k).1⟩
  obtain ⟨root, hroot⟩ : ∃ root, arbor.1.world.engine.get? ⟨0, 0⟩ = some root :=
    Engine.isAlive_eq_true_iff.1 (by decide)
  obtain ⟨first, hfirst⟩ : ∃ first, arbor.1.world.engine.get? ⟨1, 0⟩ = some first :=
    Engine.isAlive_eq_true_iff.1 (by decide)
  obtain ⟨leaf, hleaf⟩ : ∃ leaf, arbor.1.world.engine.get? ⟨3, 0⟩ = some leaf :=
    Engine.isAlive_eq_true_iff.1 (by decide)
  have hrootlist : arbor.1.world.engine.children ⟨0, 0⟩ = [⟨1, 0⟩, ⟨2, 0⟩] := by decide
  have hfirstlist : arbor.1.world.engine.children ⟨1, 0⟩ = [⟨3, 0⟩] := by decide
  have hleaflist : arbor.1.world.engine.children ⟨3, 0⟩ = [] := by decide
  have hparent : arbor.1.world.engine.parent? ⟨1, 0⟩ = some ⟨0, 0⟩ := by decide
  have hevent : (arbor.1.world.engine.get? ⟨1, 0⟩).map (·.parentEvent) = some 0 := by decide
  simp only [Engine.children, hroot, hfirst, hleaf] at hrootlist hfirstlist hleaflist
  simp only [Engine.parent?, hfirst, Option.map_some, Option.bind_some, Option.some.injEq]
    at hparent hevent
  refine ⟨root, first, hroot, hfirst, hrootlist, hfirstlist, hparent, ?_⟩
  obtain ⟨l, hpost, -, -, hconcludes⟩ := hfells ⟨1, 0⟩ first hfirst
  obtain rfl : l = [⟨3, 0⟩, ⟨1, 0⟩] := by
    cases hpost with
    | cons hlive hsub hrest =>
      cases hfirst.symm.trans hlive
      cases hrest
      rw [hfirstlist] at hsub
      cases hsub with
      | cons hlive' hsub' hrest' =>
        cases hleaf.symm.trans hlive'
        cases hrest'
        rw [hleaflist] at hsub'
        cases hsub'
        rfl
  refine (hconcludes .request none []).mono (fun span w' hend => ⟨?_, hend.2⟩) ?_
  · rw [hend.1, deedsOf, hparent, hevent]
    rfl
  · rintro span y ⟨-, -, p, a, -, ha, houtside⟩
    have hinside := of_get?_of_all
      (fun inst => decide (inst.state < inst.descriptor.states.length)) (by decide) ha
    exact Nat.not_lt_of_le houtside (of_decide_eq_true hinside)

end Execution

end StateMachines
