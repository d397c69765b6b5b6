/-!
# Reachability

A depth-first search over numbered nodes. `unreached next unseen stack` is what remains of
`unseen` after everything that can be reached from the stack has been visited, in the order it
had.
-/

namespace StateMachines.Derive

/-- The nodes of `unseen` that are not reached from the stack along `next`. -/
def unreached (next : Nat → List Nat) (unseen : List Nat) (stack : List Nat) : List Nat :=
  match stack with
  | [] => unseen
  | node :: rest =>
    if _hmem : node ∈ unseen then unreached next (unseen.erase node) ((next node).reverse ++ rest)
    else unreached next unseen rest
termination_by (unseen.length, stack.length)
decreasing_by
  · have := List.length_erase_of_mem _hmem
    have := List.length_pos_of_mem _hmem
    exact Prod.Lex.left _ _ (by omega)
  · exact Prod.Lex.right _ (by simp)

end StateMachines.Derive
