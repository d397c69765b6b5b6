import Mathlib.Logic.Function.Basic
import StateMachines.Proofs.Execution.Run

/-!
# The forest of instances

Terminations work on the links between instances: parents, children, and the marks of those whose
termination has begun. This module takes these links apart from everything else an instance holds,
and the ends in progress apart from everything else on the stack, and lists in
`Execution.TreeStep` what a step can do to the two.

## Main definitions

* `Engine.links?`: the links of an instance.
* `Execution.teardowns`: the ends in progress.
* `Execution.TreeStep`: the steps, as far as links and ends are concerned.

## Main results

* `Execution.Transition.treeStep`: the list of steps is complete.
-/

namespace StateMachines

/-- How an instance is linked to others. -/
structure Links where
  parent : Option Handle := none
  children : List Handle := []
  /-- Whether the termination of the instance has begun. -/
  terminating : Bool := false

/-- What is found after what belongs to one handle was replaced. -/
theorem update_eq_some_iff {α : Type} {table : Handle → Option α} {h k : Handle}
    {new : Option α} {l : α} :
    Function.update table h new k = some l ↔ k = h ∧ new = some l ∨ k ≠ h ∧ table k = some l := by
  by_cases hk : k = h
  · subst hk
    simp
  · simp [hk]

/-- The links of an instance. -/
def Instance.links (inst : Instance) : Links := ⟨inst.parent, inst.children, inst.terminating⟩

namespace Engine

variable {e e' : Engine} {h k p : Handle} {inst : Instance} {f : Instance → Instance}
  {g : Links → Links} {d : Descriptor} {payload : Option Payload} {level : Option Level}
  {id : Option String}

/-- The links of the instance a handle refers to. -/
def links? (e : Engine) (h : Handle) : Option Links := (e.get? h).map Instance.links

/-- The links of a live instance. -/
theorem links?_eq_some_iff {l : Links} :
    e.links? h = some l ↔ ∃ inst, e.get? h = some inst ∧ inst.links = l :=
  Option.map_eq_some_iff

/-- A handle without links is dead. -/
theorem links?_eq_none_iff : e.links? h = none ↔ e.get? h = none := Option.map_eq_none_iff

/-- The links after a change of an instance. -/
theorem links?_modify (hf : ∀ a, (f a).links = g a.links) :
    (e.modify h f).links? = Function.update e.links? h ((e.links? h).map g) := by
  funext k
  by_cases hk : k = h
  · subst hk
    rw [Function.update_self, links?, links?, get?_modify_self, Option.map_map, Option.map_map]
    congr 1
    funext a
    exact hf a
  · rw [Function.update_of_ne hk, links?, links?, get?_modify_of_ne hk]

/-- A change that leaves the links of an instance alone leaves all links alone. -/
theorem links?_modify_eq (hf : ∀ a, (f a).links = a.links) : (e.modify h f).links? = e.links? := by
  rw [links?_modify (g := id) hf, Option.map_id, id, Function.update_eq_self]

/-- The links after a release. -/
theorem links?_free : (e.free h).links? = Function.update e.links? h none := by
  funext k
  by_cases hk : k = h
  · subst hk
    rw [Function.update_self, links?, get?_free_self, Option.map_none]
  · rw [Function.update_of_ne hk, links?, links?, get?_free_of_ne hk]

/-- The links after an allocation. -/
theorem links?_alloc (halloc : e.alloc d payload level id = .ok (h, inst, e')) :
    e'.links? = Function.update e.links? h (some {}) := by
  obtain ⟨-, -, -, -, hparent, hchildren, hterminating⟩ := alloc_cases halloc
  funext k
  by_cases hk : k = h
  · subst hk
    rw [Function.update_self, links?, get?_alloc_self halloc, Option.map_some, Instance.links,
      hparent, hchildren, hterminating]
  · rw [Function.update_of_ne hk, links?, links?, get?_alloc_of_ne halloc hk]

/-- The links after a child was linked to its parent. -/
theorem links?_link {event : EventId} {l m : Links} (hchild : e.links? h = some l)
    (hparent : e.links? p = some m) (hne : h ≠ p) :
    (e.link h p event).links? =
      Function.update (Function.update e.links? h (some { l with parent := some p })) p
        (some { m with children := m.children ++ [h] }) := by
  unfold link
  rw [links?_modify (g := fun l => { l with children := l.children ++ [h] }) fun a => rfl,
    links?_modify (g := fun l => { l with parent := some p }) fun a => rfl,
    Function.update_of_ne hne.symm, hchild, hparent]
  rfl

end Engine

/-- The links after the instance of an ending was taken out of the children of its parent. -/
def Ending.detach (ending : Ending) (links : Handle → Option Links) (h : Handle) : Option Links :=
  (links h).map fun l =>
    { l with
      children :=
        if ending.parent = some h then l.children.filter (· ≠ ending.target) else l.children }

/-- The end of an instance in progress. -/
structure Teardown where
  ending : Ending
  /-- The children still to be ended, `none` once the instance is being cleaned up. -/
  children? : Option (List Handle)

variable {σ ν : Type}

/-- The end that a frame carries on. -/
def Frame.teardown? : Frame σ ν → Option Teardown
  | .cascade ending children => some ⟨ending, some children⟩
  | .cleaning ending => some ⟨ending, none⟩
  | _ => none

namespace Execution

/-- The ends in progress, the innermost first. -/
def teardowns (x : Execution σ ν) : List Teardown := x.stack.filterMap Frame.teardown?

/-- The links of instances at a moment. -/
abbrev links? (x : Execution σ ν) : Handle → Option Links := x.world.engine.links?

/-- What a step does to the links of instances and to the ends in progress. -/
inductive TreeStep (x x' : Execution σ ν) : Prop where
  /-- Neither changes. -/
  | keeps (hlinks : x'.links? = x.links?) (hends : x'.teardowns = x.teardowns)
  /-- An instance without links is allocated. -/
  | allocates (h : Handle) (hnew : x.links? h = none)
      (hlinks : x'.links? = Function.update x.links? h (some {}))
      (hends : x'.teardowns = x.teardowns)
  /-- A child is allocated. -/
  | adopts (h p : Handle) (l : Links) (hnew : x.links? h = none) (hparent : x.links? p = some l)
      (hactive : l.terminating = false)
      (hlinks : x'.links? = Function.update (Function.update x.links? h (some { parent := some p }))
        p (some { l with children := l.children ++ [h] }))
      (hends : x'.teardowns = x.teardowns)
  /-- An instance is released by a direct call. -/
  | frees (h : Handle) (hcall : x.control = .perform (.free h))
      (hlinks : x'.links? = Function.update x.links? h none)
      (hends : x'.teardowns = x.teardowns)
  /-- The end of an instance begins. -/
  | begins (ending : Ending) (inst : Instance)
      (hlive : x.world.engine.get? ending.target = some inst)
      (hactive : inst.terminating = false) (hdescriptor : ending.descriptor = inst.descriptor)
      (hparent : ending.parent = inst.parent)
      (hlinks : x'.links? =
        Function.update x.links? ending.target (some { inst.links with terminating := true }))
      (hends : x'.teardowns = ⟨ending, some inst.children⟩ :: x.teardowns)
  /-- The end of an instance turns to its next child. -/
  | turns (ending : Ending) (child : Handle) (rest : List Handle) (outer : List Teardown)
      (hlinks : x'.links? = x.links?)
      (hbefore : x.teardowns = ⟨ending, some (child :: rest)⟩ :: outer)
      (hafter : x'.teardowns = ⟨ending, some rest⟩ :: outer)
      (hchild : x.links? child = none ∨ x'.control = .perform (.terminate child .parent none))
  /-- An instance whose children have been ended is taken out of its parent's children. -/
  | detaches (ending : Ending) (outer : List Teardown)
      (hlinks : x'.links? = ending.detach x.links?)
      (hbefore : x.teardowns = ⟨ending, some []⟩ :: outer)
      (hafter : x'.teardowns = ⟨ending, none⟩ :: outer)
  /-- An instance that has been cleaned up is released. -/
  | releases (ending : Ending) (hanswer : ∃ reply, x.control = .give reply)
      (hstack : ∃ rest, x.stack = .cleaning ending :: rest)
      (hlinks : x'.links? = Function.update x.links? ending.target none)
      (hends : x.teardowns = ⟨ending, none⟩ :: x'.teardowns)

variable {host : Host σ ν} {x x' : Execution σ ν} {w w' : World σ ν} {call : Call}
  {answer reply : Reply} {stack : List (Frame σ ν)} {frame : Frame σ ν}

/-- What a call that is answered at once does to links and ends. -/
theorem treeStep_of_answers (ht : w.engine.store.Tidy) (ha : w.Answers call w' reply) :
    TreeStep (⟨w, .perform call, stack⟩ : Execution σ ν) ⟨w', .give reply, stack⟩ := by
  cases ha with
  | register | unregister | setLogAddr | trySend | shutdown => exact .keeps rfl rfl
  | orphan | unheard | eventRefused | unmoved | changeRefused | endless | ending =>
    exact .keeps rfl rfl
  | setLevel | setPayload | takePayload => exact .keeps (Engine.links?_modify_eq fun _ => rfl) rfl
  | free target => exact .frees target rfl Engine.links?_free rfl
  | @alloc d payload level id handle inst engine halloc =>
    exact .allocates handle (Engine.links?_eq_none_iff.2 (Engine.get?_alloc ht halloc))
      (Engine.links?_alloc halloc) rfl
  | @child d parent event p handle inst engine hlive hactive halloc =>
    have hnew : w.engine.links? handle = none :=
      Engine.links?_eq_none_iff.2 (Engine.get?_alloc ht halloc)
    have hparent : w.engine.links? parent = some p.links := by rw [Engine.links?, hlive]; rfl
    -- The parent is live and the new handle was not, so the two updates do not meet.
    have hne : handle ≠ parent := by
      rintro rfl
      cases hnew.symm.trans hparent
    have halloced := Engine.links?_alloc halloc
    refine .adopts handle parent p.links hnew hparent hactive ?_ rfl
    refine (Engine.links?_link (l := {}) (m := p.links) ?_ ?_ hne).trans ?_
    · rw [halloced, Function.update_self]
    · rw [halloced, Function.update_of_ne hne.symm, hparent]
    · rw [halloced, Function.update_idem]

/-- What an operation that ends at once does to links and ends. -/
theorem treeStep_of_closes (hc : w.Closes frame w' reply) :
    TreeStep (⟨w, .give answer, frame :: stack⟩ : Execution σ ν) ⟨w', .give reply, stack⟩ := by
  cases hc with
  | answer | leaving | entering | unarmed | fired => exact .keeps rfl rfl
  | @armed target inst d timeout label hlive htimeout =>
    refine .keeps ?_ rfl
    exact (congrArg Engine.links? (w.engine_armed target d inst.name timeout label)).trans
      (Engine.links?_modify_eq fun _ => rfl)
  | @released ending hquiet =>
    refine .releases ending ⟨answer, rfl⟩ ⟨stack, rfl⟩ ?_ rfl
    exact (congrArg Engine.links? (w.engine_released ending)).trans Engine.links?_free

/-- The links after an instance was taken out of the children of its parent. -/
theorem links?_detached (w : World σ ν) (ending : Ending) :
    (w.detached ending).engine.links? = ending.detach w.engine.links? := by
  unfold World.detached
  funext k
  cases hparent : ending.parent with
  | none => simp [Ending.detach, hparent]
  | some p =>
    dsimp only
    rw [Engine.unlink, Engine.links?_modify (g := fun l =>
      { l with children := l.children.filter (· ≠ ending.target) }) fun _ => rfl]
    by_cases hk : k = p
    · subst hk
      simp [Ending.detach, hparent]
    · simp [Ending.detach, hparent, hk, Ne.symm hk]

/-- The list of steps is complete. -/
theorem Transition.treeStep (ht : Transition host x x') (htidy : x.world.engine.store.Tidy) :
    TreeStep x x' := by
  cases ht with
  | answered hanswers => exact treeStep_of_answers htidy hanswers
  | closes hcloses => exact treeStep_of_closes hcloses
  | childRefused | deliversAll | delivers | leaves | fires | calls => exact .keeps rfl rfl
  | scriptDone | scriptNote | scriptCall | resumes | skipsTimer | expires => exact .keeps rfl rfl
  | enters hlive => exact .keeps (Engine.links?_modify_eq fun _ => rfl) rfl
  | @ends w target cause data inst stack hlive hactive =>
    refine .begins ⟨target, inst.descriptor, cause, data, inst.parent, inst.parentEvent⟩ inst hlive
      hactive rfl rfl ?_ rfl
    refine (Engine.links?_modify (g := ({ · with terminating := true })) fun _ => rfl).trans ?_
    have hlinks : w.engine.links? target = some inst.links := by rw [Engine.links?, hlive]; rfl
    rw [hlinks]
    rfl
  | @endsChild w ending child rest answer stack hlive =>
    exact .turns ending child rest _ rfl rfl rfl (.inr rfl)
  | @skipsChild w ending child rest answer stack hdead =>
    exact .turns ending child rest _ rfl rfl rfl
      (.inl (Engine.links?_eq_none_iff.2 (Engine.isAlive_eq_false_iff.1 hdead)))
  | @cleans w ending answer stack =>
    exact .detaches ending _ (links?_detached w ending) rfl rfl
  | @tells w ending parent answer stack hparent hcause =>
    refine .releases ending ⟨answer, rfl⟩ ⟨stack, rfl⟩ ?_ rfl
    exact (congrArg Engine.links? (w.engine_released ending)).trans Engine.links?_free

/-- From one moment to the next links and ends change as by a step. -/
theorem Next.treeStep (hnext : Next host x x') (htidy : x.world.engine.store.Tidy) :
    TreeStep x x' := by
  obtain ⟨t, -, ht⟩ | ⟨w, call, answer, rfl, hcontrol, hstack, hengine, -⟩ := hnext.cases
  · -- The time at which the step is taken does not matter.
    cases ht.treeStep htidy with
    | keeps hlinks hends => exact .keeps hlinks hends
    | allocates h hnew hlinks hends => exact .allocates h hnew hlinks hends
    | adopts h p l hnew hparent hactive hlinks hends =>
      exact .adopts h p l hnew hparent hactive hlinks hends
    | frees h hcall hlinks hends => exact .frees h hcall hlinks hends
    | begins ending inst hlive hactive hdescriptor hparent hlinks hends =>
      exact .begins ending inst hlive hactive hdescriptor hparent hlinks hends
    | turns ending child rest outer hlinks hbefore hafter hchild =>
      exact .turns ending child rest outer hlinks hbefore hafter hchild
    | detaches ending outer hlinks hbefore hafter =>
      exact .detaches ending outer hlinks hbefore hafter
    | releases ending hanswer hstack hlinks hends =>
      exact .releases ending hanswer hstack hlinks hends
  · refine .keeps ?_ ?_
    · exact congrArg Engine.links? hengine
    · simp [teardowns, ofCall, hstack]

end Execution

end StateMachines
