import Mathlib.Logic.Function.Basic
import StateMachines.Proofs.Execution.Session
import StateMachines.Proofs.Log.Names

/-!
# Display names along a run

Whether display names carry numbers can be switched during a run. Numbers go on where they were when
they are switched on again, and a release does not give a number back. So of two allocations that
were made while names carried numbers, no matter what became of the instances, no two gave the same
name. An instance keeps the name that its allocation gave.

## Main definitions

* `Allocation`, `Execution.allocations`: the allocations of a history, with the names they gave.
* `Engine.Renames`: what a step does to names.
* `Engine.Named`: how the names in an engine come from the allocations that were made.

## Main results

* `Execution.Next.renames`: a step gives a name only if it allocates an instance.
* `Execution.Run.names_distinct`: names that carry numbers are different.
-/

namespace StateMachines

/-- An allocation that was made. -/
structure Allocation where
  /-- The handle it was answered by. -/
  handle : Handle
  /-- The display name of the instance. -/
  name : String
  /-- Whether display names carried numbers when it was made. -/
  numbered : Bool

namespace Engine

variable {e e' : Engine} {h p : Handle} {inst : Instance} {f : Instance → Instance}
  {d : Descriptor} {payload : Option Payload} {level : Option Level} {id : Option String}
  {made : Option Allocation} {as : List Allocation}

/-! ## Names of instances -/

/-- The display name of the instance a handle refers to. -/
def name? (e : Engine) (h : Handle) : Option String := (e.get? h).map (·.name)

/-- The display name of a live instance. -/
theorem name?_eq_some_iff {name : String} :
    e.name? h = some name ↔ e.isAlive h = true ∧ e.nameOf h = name := by
  rw [name?, Option.map_eq_some_iff, isAlive_eq_true_iff, nameOf]
  cases e.get? h <;> simp

/-- A change of an instance that does not touch its name leaves all names alone. -/
theorem name?_modify (hf : ∀ a, (f a).name = a.name) : (e.modify h f).name? = e.name? := by
  funext k
  by_cases hk : k = h
  · subst hk
    simp [name?, get?_modify_self, Function.comp_def, hf]
  · simp [name?, get?_modify_of_ne hk]

/-- What has a name after a release had it before. -/
theorem name?_of_free {k : Handle} {name : String} (hname : (e.free h).name? k = some name) :
    e.name? k = some name := by
  obtain ⟨b, hb, rfl⟩ := Option.map_eq_some_iff.1 hname
  rw [name?, (get?_of_get?_free hb).2, Option.map_some]

/-- An allocation gives a name to its instance and leaves the other names alone. -/
theorem name?_alloc (halloc : e.alloc d payload level id = .ok (h, inst, e')) :
    e'.name? = Function.update e.name? h (some inst.name) := by
  funext k
  by_cases hk : k = h
  · subst hk
    simp [name?, get?_alloc_self halloc]
  · simp [name?, get?_alloc_of_ne halloc hk, hk]

/-- Linking an instance to a parent leaves the names alone. -/
theorem name?_link (event : EventId) : (e.link h p event).name? = e.name? := by
  have hchild : (e.modify h ({ · with parent := some p, parentEvent := event })).name? =
      e.name? := name?_modify fun _ => rfl
  exact (name?_modify (f := fun inst => { inst with children := inst.children ++ [h] })
    fun _ => rfl).trans hchild

/-! ## Steps -/

/-- What a step does to the names of instances and to the number that was drawn last. The first
index is the allocation that is made, if there is one. -/
inductive Renames (e : Engine) : Option Allocation → Engine → Prop where
  /-- Instances keep their names, as long as they are there. -/
  | keeps {e' : Engine} (hnames : ∀ h name, e'.name? h = some name → e.name? h = some name)
      (haddr : e'.lastAddr = e.lastAddr) : Renames e none e'
  /-- An instance is allocated and named, with a number if names carry numbers. -/
  | gives {e' : Engine} (d : Descriptor) (id : Option String) (h : Handle)
      (hnames : e'.name? = Function.update e.name? h (some (displayName d id e.drawAddr.1)))
      (haddr : e'.lastAddr = e.drawAddr.2.lastAddr) :
      Renames e (some ⟨h, displayName d id e.drawAddr.1, e.config.logAddr⟩) e'

/-- Nothing happens to the names. -/
theorem Renames.of_name?_eq (hnames : e'.name? = e.name?) (haddr : e'.lastAddr = e.lastAddr) :
    e.Renames none e' :=
  .keeps (fun _ _ hname => hnames ▸ hname) haddr

/-- Nothing happens to the instances. -/
theorem Renames.of_store_eq (hstore : e'.store = e.store) (haddr : e'.lastAddr = e.lastAddr) :
    e.Renames none e' := by
  refine .of_name?_eq ?_ haddr
  funext h
  rw [name?, name?, get?, get?, hstore]

/-- A change of an instance that does not touch its name. -/
theorem Renames.modify (e : Engine) (h : Handle) (hf : ∀ a, (f a).name = a.name) :
    e.Renames none (e.modify h f) :=
  .of_name?_eq (name?_modify hf) rfl

/-- A release. -/
theorem Renames.free (e : Engine) (h : Handle) : e.Renames none (e.free h) :=
  .keeps (fun _ _ => name?_of_free) rfl

/-- How the names in an engine come from the allocations that were made, the latest first. -/
structure Named (e : Engine) (as : List Allocation) : Prop where
  /-- What carries a number carries one that was drawn. -/
  numbered : ∀ a ∈ as, a.numbered = true → Numbered e.lastAddr a.name
  /-- Names that carry numbers are different. -/
  distinct : as.Pairwise fun a b => a.numbered = true → b.numbered = true → a.name ≠ b.name
  /-- Numbers are drawn by the allocations that use them only. -/
  count : e.lastAddr = as.countP (·.numbered)
  /-- A live instance has the name that the latest allocation under its handle gave. -/
  current : ∀ h name, e.name? h = some name →
    ∃ a, as.find? (·.handle = h) = some a ∧ a.name = name

/-- A fresh engine has no names, and no allocation was made. -/
theorem named_fresh (config : Config) : Named { config } [] where
  numbered := by simp
  distinct := .nil
  count := rfl
  current h name hname := by cases hname

/-- A step keeps the names in order, with the allocation that it makes added to the others. -/
theorem Named.step (hn : e.Named as) (hs : e.Renames made e') :
    e'.Named (made.toList ++ as) := by
  cases hs with
  | keeps hnames haddr =>
    exact ⟨fun a ha hon => haddr ▸ hn.numbered a ha hon, hn.distinct, haddr ▸ hn.count,
      fun h name hname => hn.current h name (hnames h name hname)⟩
  | gives d id h hnames haddr =>
    rw [Option.toList_some, List.singleton_append]
    -- The new allocation is the latest under its handle, also if the handle was used before.
    have hcurrent : ∀ k name, e'.name? k = some name → ∃ a,
        (⟨h, displayName d id e.drawAddr.1, e.config.logAddr⟩ :: as).find? (·.handle = k) =
          some a ∧ a.name = name := by
      intro k name hname
      rw [hnames] at hname
      by_cases hk : k = h
      · subst hk
        rw [Function.update_self, Option.some.injEq] at hname
        exact ⟨_, List.find?_cons_of_pos (by simp), hname⟩
      · rw [Function.update_of_ne hk] at hname
        obtain ⟨a, ha, heq⟩ := hn.current k name hname
        refine ⟨a, ?_, heq⟩
        rwa [List.find?_cons_of_neg (by simp [Ne.symm hk])]
    cases hlog : e.config.logAddr with
    | false =>
      -- No number is drawn, and the new name is not among those that are compared.
      rw [drawAddr_of_not_logAddr hlog] at haddr
      rw [hlog] at hcurrent
      refine ⟨?_, ?_, ?_, hcurrent⟩
      · intro a ha hon
        rcases List.mem_cons.1 ha with rfl | ha
        · cases hon
        · exact haddr ▸ hn.numbered a ha hon
      · exact .cons (fun b hb hon => by cases hon) hn.distinct
      · rw [haddr, hn.count, List.countP_cons_of_neg (by simp)]
    | true =>
      -- The next number is drawn, and the names so far carry smaller ones.
      rw [drawAddr_of_logAddr hlog] at haddr hcurrent ⊢
      rw [hlog] at hcurrent
      refine ⟨?_, ?_, ?_, hcurrent⟩
      · intro a ha hon
        rw [haddr]
        rcases List.mem_cons.1 ha with rfl | ha
        · exact ⟨d, id, e.lastAddr + 1, Nat.le_refl _, rfl⟩
        · exact (hn.numbered a ha hon).mono (Nat.le_succ _)
      · refine .cons ?_ hn.distinct
        intro b hb _ hon
        exact ((hn.numbered b hb hon).ne_next d id).symm
      · rw [haddr, hn.count, List.countP_cons_of_pos rfl]

end Engine

variable {σ ν : Type}

/-! ## Steps of an execution -/

namespace Execution

/-- The allocation that is made from one moment to the next, if there is one: a call is answered by
the handle of a new instance. -/
def allocation? (x x' : Execution σ ν) : Option Allocation :=
  match x.control, x'.control with
  | .perform _, .give (.allocated h) =>
    some ⟨h, x'.world.engine.nameOf h, x.world.engine.config.logAddr⟩
  | _, _ => none

/-- The allocations that were made in a history, the latest first. -/
def allocations : List (Execution σ ν) → List Allocation
  | x' :: x :: past => (x.allocation? x').toList ++ allocations (x :: past)
  | _ => []

variable {host : Host σ ν} {x x' : Execution σ ν} {past : List (Execution σ ν)}
  {w w' : World σ ν} {call : Call} {frame : Frame σ ν} {reply : Reply}
  {stack stack' : List (Frame σ ν)}

/-- A successful allocation is noticed, with the name that it gives. -/
theorem renames_of_alloc {e : Engine} {d : Descriptor} {payload : Option Payload}
    {level : Option Level} {id : Option String} {h : Handle} {inst : Instance}
    (halloc : w.engine.alloc d payload level id = .ok (h, inst, e))
    (hnames : w'.engine.name? = e.name?) (haddr : w'.engine.lastAddr = e.lastAddr) :
    w.engine.Renames (allocation? ⟨w, .perform call, stack⟩ ⟨w', .give (.allocated h), stack'⟩)
      w'.engine := by
  obtain ⟨hname, hdrawn⟩ := Engine.alloc_name halloc
  -- The name is looked up when the call is answered. The instance is live then.
  have hgiven := hnames.trans (Engine.name?_alloc halloc)
  have hnew : w'.engine.name? h = some inst.name := by rw [hgiven, Function.update_self]
  have hmade : allocation? ⟨w, .perform call, stack⟩ ⟨w', .give (.allocated h), stack'⟩ =
      some ⟨h, inst.name, w.engine.config.logAddr⟩ := by
    rw [← (Engine.name?_eq_some_iff.1 hnew).2]
    rfl
  rw [hmade, hname]
  exact .gives d id h (hname ▸ hgiven) (haddr.trans hdrawn)

/-- What a call that is answered at once does to names. -/
theorem renames_of_answers (ha : w.Answers call w' reply) :
    w.engine.Renames (allocation? ⟨w, .perform call, stack⟩ ⟨w', .give reply, stack'⟩)
      w'.engine := by
  cases ha with
  | alloc halloc => exact renames_of_alloc halloc rfl rfl
  | child hlive hactive halloc => exact renames_of_alloc halloc (Engine.name?_link _) rfl
  | setLevel | setPayload | takePayload => exact .modify _ _ fun _ => rfl
  | free target => exact .free _ target
  | _ => exact .of_store_eq rfl rfl

/-- What an operation that ends at once does to names. -/
theorem renames_of_closes (hc : w.Closes frame w' reply) : w.engine.Renames none w'.engine := by
  cases hc with
  | armed hlive htimeout =>
    rw [World.engine_armed]
    exact .of_name?_eq (Engine.name?_modify fun _ => rfl) rfl
  | released =>
    rw [World.engine_released]
    exact .free _ _
  | _ => exact .of_store_eq rfl rfl

/-- What a step of an execution does to names. -/
theorem Transition.renames (ht : Transition host x x') :
    x.world.engine.Renames (x.allocation? x') x'.world.engine := by
  cases ht with
  | answered hanswers => exact renames_of_answers hanswers
  | closes hcloses => exact renames_of_closes hcloses
  | enters | ends => exact .modify _ _ fun _ => rfl
  | @cleans w ending =>
    show w.engine.Renames none (w.detached ending).engine
    unfold World.detached
    cases ending.parent with
    | none => exact .of_store_eq rfl rfl
    | some parent => exact .modify _ _ fun _ => rfl
  | tells =>
    rw [World.engine_released]
    exact .free _ _
  | _ => exact .of_store_eq rfl rfl

/-- What happens to names from one moment of a run to the next. -/
theorem Next.renames (hnext : Next host x x') :
    x.world.engine.Renames (x.allocation? x') x'.world.engine := by
  obtain ⟨t, -, ht⟩ | ⟨w, call, answer, rfl, hcontrol, -, hengine, -⟩ := hnext.cases
  · exact ht.renames
  · have hnone : x.allocation? (.ofCall w call) = none := by simp [allocation?, hcontrol]
    rw [hnone]
    exact .of_store_eq (congrArg Engine.store hengine) (congrArg Engine.lastAddr hengine)

/-! ## Runs -/

/-- At each moment of a run the names come from the allocations that were made. -/
theorem Run.named (hrun : Run host x past) :
    x.world.engine.Named (allocations (x :: past)) := by
  induction hrun with
  | start w config hfresh =>
    rw [hfresh]
    exact Engine.named_fresh config
  | next hrun hnext ih => exact ih.step hnext.renames

/-- Of the allocations that were made while display names carried numbers, no two gave the same
name, also if numbers were switched off in between, and whether the instances are still there or
not. The number drawn last counts these allocations, so that it fits 64 bits if they are not too
many. A live instance is called by the name that the latest allocation under its handle gave. -/
theorem Run.names_distinct (hrun : Run host x past) :
    ((allocations (x :: past)).Pairwise fun a b =>
      a.numbered = true → b.numbered = true → a.name ≠ b.name) ∧
    x.world.engine.lastAddr = (allocations (x :: past)).countP (·.numbered) ∧
    ((allocations (x :: past)).length < UInt64.size →
      x.world.engine.lastAddr < UInt64.size) ∧
    ∀ h, x.world.engine.isAlive h = true → ∃ a,
      (allocations (x :: past)).find? (·.handle = h) = some a ∧
        a.name = x.world.engine.nameOf h := by
  have hn := hrun.named
  refine ⟨hn.distinct, hn.count, fun hlength => ?_, fun h halive => ?_⟩
  · rw [hn.count]
    exact Nat.lt_of_le_of_lt List.countP_le_length hlength
  · exact hn.current h _ (Engine.name?_eq_some_iff.2 ⟨halive, rfl⟩)

/-- A run in which an instance is allocated without a number between two that get one. The last one
takes the slot of the first, and its identifier ends like the name of the first. -/
def rechristened : Execution Unit Unit × List (Execution Unit Unit) :=
  session passive 10 (idle {} ()) []
    [.alloc .plain none none none, .setLogAddr false, .allocChild .plain ⟨0, 0⟩ 0,
      .setLogAddr true, .free ⟨0, 0⟩, .alloc .plain none none (some "[0x1]")]

/-- The first and the last instance have different names. -/
theorem rechristened_names : ∃ last middle first,
    allocations (rechristened.1 :: rechristened.2) = [last, middle, first] ∧
      (last.handle = ⟨0, 1⟩ ∧ middle.handle = ⟨1, 0⟩ ∧ first.handle = ⟨0, 0⟩) ∧
      (last.numbered = true ∧ middle.numbered = false ∧ first.numbered = true) ∧
      last.name ≠ first.name ∧ rechristened.1.world.engine.lastAddr = 2 ∧
      rechristened.1.world.engine.nameOf ⟨0, 1⟩ = last.name := by
  have hrun : Run passive rechristened.1 rechristened.2 := run_session 10 _ (run_idle _ _)
  obtain ⟨last, middle, first, hmade, hhandles, hnumbered⟩ : ∃ last middle first,
      allocations (rechristened.1 :: rechristened.2) = [last, middle, first] ∧
        (last.handle = ⟨0, 1⟩ ∧ middle.handle = ⟨1, 0⟩ ∧ first.handle = ⟨0, 0⟩) ∧
        last.numbered = true ∧ middle.numbered = false ∧ first.numbered = true :=
    ⟨_, _, _, rfl, ⟨rfl, rfl, rfl⟩, rfl, rfl, rfl⟩
  obtain ⟨hdistinct, hcount, -, hcurrent⟩ := hrun.names_distinct
  obtain ⟨a, hfind, hname⟩ := hcurrent ⟨0, 1⟩ rfl
  rw [hmade] at hdistinct hcount hfind
  refine ⟨last, middle, first, hmade, hhandles, hnumbered, ?_, ?_, ?_⟩
  · exact (List.pairwise_cons.1 hdistinct).1 first (by simp) hnumbered.1 hnumbered.2.2
  · simpa [hnumbered] using hcount
  · rw [List.find?_cons_of_pos (by simp [hhandles]), Option.some.injEq] at hfind
    rw [← hname, hfind]

end Execution

end StateMachines
