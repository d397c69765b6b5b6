import Mathlib.Data.List.Nodup
import Mathlib.Logic.Relation
import StateMachines.Derive.Reachability

/-!
# The search for unreachable nodes

A depth-first search leaves exactly those nodes that no path leads to from the nodes on its stack.
It removes only what a path leads to. And when it ends, the removed nodes are closed under
successors: that the successors of a node seen so far have been seen or are on the stack is an
invariant of the search.

## Main results

* `mem_unreached_iff`: what the search leaves.
-/

namespace StateMachines.Derive

variable {next : Nat → List Nat} {unseen stack : List Nat} {s : Nat}

/-- There is a path from one node to another. -/
abbrev Leads (next : Nat → List Nat) : Nat → Nat → Prop :=
  Relation.ReflTransGen fun a b => b ∈ next a

/-- The search leaves only nodes that it was given. -/
theorem mem_of_mem_unreached (hs : s ∈ unreached next unseen stack) : s ∈ unseen := by
  fun_induction unreached next unseen stack with
  | case1 unseen => exact hs
  | case2 unseen node rest hmem ih => exact List.mem_of_mem_erase (ih hs)
  | case3 unseen node rest hmem ih => exact ih hs

/-- The search leaves nodes in the order in which it was given them. -/
theorem unreached_sublist (next : Nat → List Nat) (unseen stack : List Nat) :
    (unreached next unseen stack).Sublist unseen := by
  fun_induction unreached next unseen stack with
  | case1 unseen => exact .refl unseen
  | case2 unseen node rest hmem ih => exact ih.trans List.erase_sublist
  | case3 unseen node rest hmem ih => exact ih

/-- The search removes only nodes that a path leads to. -/
theorem exists_leads_of_removed (hs : s ∈ unseen) (hremoved : s ∉ unreached next unseen stack) :
    ∃ r ∈ stack, Leads next r s := by
  fun_induction unreached next unseen stack with
  | case1 unseen => exact absurd hs hremoved
  | case2 unseen node rest hmem ih =>
    -- Either the node itself is removed, or what is removed later is found through it or the rest.
    by_cases heq : s = node
    · exact ⟨node, List.mem_cons_self, heq ▸ .refl⟩
    · obtain ⟨r, hr, hpath⟩ := ih ((List.mem_erase_of_ne heq).2 hs) hremoved
      rcases List.mem_append.1 hr with hsucc | hrest
      · exact ⟨node, List.mem_cons_self, hpath.head (List.mem_reverse.1 hsucc)⟩
      · exact ⟨r, List.mem_cons_of_mem node hrest, hpath⟩
  | case3 unseen node rest hmem ih =>
    obtain ⟨r, hr, hpath⟩ := ih hs hremoved
    exact ⟨r, List.mem_cons_of_mem node hr, hpath⟩

/-- The successors of a node that has been seen have been seen or are on the stack. -/
def Tracked (next : Nat → List Nat) (unseen stack : List Nat) : Prop :=
  ∀ a, a ∉ unseen → ∀ b ∈ next a, b ∉ unseen ∨ b ∈ stack

/-- A node that has been visited is tracked once its successors are on the stack. -/
theorem Tracked.visit {node : Nat} {rest : List Nat} (hnodup : unseen.Nodup)
    (htracked : Tracked next unseen (node :: rest)) :
    Tracked next (unseen.erase node) ((next node).reverse ++ rest) := by
  intro a ha b hb
  -- The successors of `node` are put on the stack, those of other nodes were tracked before.
  by_cases hnode : a = node
  · exact .inr (List.mem_append_left rest (List.mem_reverse.2 (hnode ▸ hb)))
  · have hseen : a ∉ unseen := fun hmem => ha ((List.mem_erase_of_ne hnode).2 hmem)
    rcases htracked a hseen b hb with hbseen | hbstack
    · exact .inl fun hmem => hbseen (List.mem_of_mem_erase hmem)
    · rcases List.mem_cons.1 hbstack with rfl | hrest
      · exact .inl hnodup.not_mem_erase
      · exact .inr (List.mem_append_right _ hrest)

/-- A node that was seen before need not be on the stack. -/
theorem Tracked.skip {node : Nat} {rest : List Nat} (hseen : node ∉ unseen)
    (htracked : Tracked next unseen (node :: rest)) : Tracked next unseen rest := by
  intro a ha b hb
  rcases htracked a ha b hb with hbseen | hbstack
  · exact .inl hbseen
  · rcases List.mem_cons.1 hbstack with rfl | hrest
    · exact .inl hseen
    · exact .inr hrest

/-- When the search ends, nothing on the stack is left and what is not left has no successors that
are left. -/
theorem unreached_closed (hnodup : unseen.Nodup) (htracked : Tracked next unseen stack) :
    (∀ r ∈ stack, r ∉ unreached next unseen stack) ∧
      ∀ a, a ∉ unreached next unseen stack → ∀ b ∈ next a, b ∉ unreached next unseen stack := by
  fun_induction unreached next unseen stack with
  | case1 unseen =>
    refine ⟨nofun, fun a ha b hb => ?_⟩
    rcases htracked a ha b hb with hseen | hstack
    · exact hseen
    · cases hstack
  | case2 unseen node rest hmem ih =>
    obtain ⟨hstack, hclosed⟩ := ih (hnodup.erase node) (htracked.visit hnodup)
    refine ⟨fun r hr => ?_, hclosed⟩
    rcases List.mem_cons.1 hr with rfl | hrest
    · exact fun hleft => hnodup.not_mem_erase (mem_of_mem_unreached hleft)
    · exact hstack r (List.mem_append_right _ hrest)
  | case3 unseen node rest hmem ih =>
    obtain ⟨hstack, hclosed⟩ := ih hnodup (htracked.skip hmem)
    refine ⟨fun r hr => ?_, hclosed⟩
    rcases List.mem_cons.1 hr with rfl | hrest
    · exact fun hleft => hmem (mem_of_mem_unreached hleft)
    · exact hstack r hrest

/-- The search leaves exactly the nodes that no path leads to from the stack. -/
theorem mem_unreached_iff (hnodup : unseen.Nodup) (htracked : Tracked next unseen stack) :
    s ∈ unreached next unseen stack ↔ s ∈ unseen ∧ ∀ r ∈ stack, ¬ Leads next r s := by
  obtain ⟨hstack, hclosed⟩ := unreached_closed hnodup htracked
  -- What the search removes contains the stack and is closed, so it contains every path.
  have hremoved : ∀ r ∈ stack, ∀ s, Leads next r s → s ∉ unreached next unseen stack := by
    intro r hr s hpath
    induction hpath with
    | refl => exact hstack r hr
    | tail _ hedge ih => exact hclosed _ ih _ hedge
  constructor
  · intro hleft
    exact ⟨mem_of_mem_unreached hleft, fun r hr hpath => hremoved r hr s hpath hleft⟩
  · rintro ⟨hs, hnone⟩
    by_contra hgone
    obtain ⟨r, hr, hpath⟩ := exists_leads_of_removed hs hgone
    exact hnone r hr hpath

end StateMachines.Derive
