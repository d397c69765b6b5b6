import Mathlib.Data.List.Nodup
import StateMachines.Derive.Code
import StateMachines.Proofs.Mask

/-!
# Accepted enums

What it takes for a state enum to be accepted, and what its table holds then.

## Main definitions

* `StateEnum.WellFormed`: what is checked before the search for unreachable states.
* `StateEnum.table`: the table of a state enum.

## Main results

* `deriveStates_of_wellFormed`, `exists_wellFormed_of_ok`: accepted enums are well-formed.
* `StateVariant.contains_out_derived`: the targets of a row.
-/

namespace StateMachines.Derive

variable {e : StateEnum} {t : StateTable} {v : StateVariant} {vs : List StateVariant}
  {idents : List String} {eventEnum : Option Path} {i : Nat} {name : String}

/-! ## Lists -/

/-- The place of a name in a list of different names. -/
theorem idxOf?_eq_some_iff_of_nodup (hnodup : idents.Nodup) :
    idents.idxOf? name = some i ↔ idents[i]? = some name := by
  rw [List.idxOf?_eq_some_iff, List.getElem?_eq_some_iff]
  constructor
  · rintro ⟨hi, heq, -⟩
    exact ⟨hi, heq⟩
  · rintro ⟨hi, heq⟩
    refine ⟨hi, heq, fun j hj hsame => ?_⟩
    exact Nat.ne_of_lt hj ((List.getElem_inj hnodup).1 (hsame.trans heq.symm))

/-- The place of a name is in the list. -/
theorem lt_of_idxOf? (h : idents.idxOf? name = some i) : i < idents.length :=
  (List.idxOf?_eq_some_iff.1 h).1

/-- If a value can be made of each element of a list, then one can be made of the list. -/
theorem exists_mapM {α β : Type} {f : α → Option β} {xs : List α}
    (h : ∀ x ∈ xs, ∃ y, f x = some y) : ∃ ys : List β, xs.mapM f = some ys := by
  induction xs with
  | nil => exact ⟨[], rfl⟩
  | cons x xs ih =>
    obtain ⟨y, hy⟩ := h x List.mem_cons_self
    obtain ⟨ys, hys⟩ := ih fun x' hx' => h x' (List.mem_cons_of_mem x hx')
    exact ⟨y :: ys, by simp [List.mapM_cons, hy, hys]⟩

/-- What is made of a list is made place by place. -/
theorem getElem?_of_mapM {α β : Type} {f : α → Option β} {xs : List α} {ys : List β}
    (h : xs.mapM f = some ys) :
    ys.length = xs.length ∧ ∀ i : Nat, ys[i]? = xs[i]?.bind f := by
  induction xs generalizing ys with
  | nil =>
    cases h
    exact ⟨rfl, fun i => rfl⟩
  | cons x xs ih =>
    rw [List.mapM_cons] at h
    obtain ⟨y, hy, hrest⟩ := Option.bind_eq_some_iff.1 h
    obtain ⟨ys', hys, hcons⟩ := Option.bind_eq_some_iff.1 hrest
    cases hcons
    obtain ⟨hlength, hget⟩ := ih hys
    refine ⟨congrArg (· + 1) hlength, fun i => ?_⟩
    cases i with
    | zero => exact hy.symm
    | succ i => exact hget i

/-! ## Variants without errors -/

namespace StateVariant

/-- If nothing is wrong with a variant that accepts events, there is an event enum. -/
theorem exists_eventEnum_of_errors (h : v.errors idents eventEnum = []) (hevents : v.events ≠ []) :
    ∃ enum, eventEnum = some enum := by
  have hmissing := (List.append_eq_nil_iff.1 (List.append_eq_nil_iff.1 h).1).2
  cases eventEnum with
  | some enum => exact ⟨enum, rfl⟩
  | none => simp [hevents] at hmissing

/-- The targets of a row are the numbers of the targets that the variant names. -/
theorem contains_out_derived (v : StateVariant) (hlength : idents.length ≤ Mask.width) :
    (v.derived idents).out.contains i = true ↔
      ∃ target ∈ v.out, targetNumber? idents target = some i := by
  -- A target is numbered by its place, which is below the number of states.
  have hfits : ∀ number ∈ v.out.filterMap (targetNumber? idents), number < Mask.width := by
    intro number hnumber
    obtain ⟨target, -, htarget⟩ := List.mem_filterMap.1 hnumber
    obtain ⟨name, -, hplace⟩ := Option.bind_eq_some_iff.1 htarget
    exact Nat.lt_of_lt_of_le (lt_of_idxOf? hplace) hlength
  obtain ⟨m, hm, hmem⟩ := Mask.exists_foldlM_insert? hfits .empty
  have hout : (v.derived idents).out = m := Mask.foldl_insert?_getD hm
  simp [hout, hmem, List.mem_filterMap]

end StateVariant

/-! ## Accepted enums -/

/-- What is checked of a state enum before the search for unreachable states: it has the given
variants, which are not too many, and nothing is wrong with them. -/
structure StateEnum.WellFormed (e : StateEnum) (vs : List StateVariant) : Prop where
  variants : e.variants = some vs
  ne_nil : vs ≠ []
  length_le : vs.length ≤ Mask.width
  errors : ∀ v ∈ vs, v.errors (vs.map (·.ident)) e.events = []

/-- The table of a state enum with the given variants. -/
def StateEnum.table (e : StateEnum) (vs : List StateVariant) : StateTable :=
  { ident := e.ident, events := e.events, states := vs.map (·.derived (vs.map (·.ident))) }

/-- An item with some variants, and not too many, is an enum that can be numbered. -/
theorem checkedVariants_eq_ok_iff {α : Type} {kind : EnumKind} {declared : Option (List α)}
    {variants : List α} : checkedVariants kind declared = .ok variants ↔
      declared = some variants ∧ variants ≠ [] ∧ variants.length ≤ Mask.width := by
  cases declared with
  | none => simp [checkedVariants]
  | some vs =>
    simp only [checkedVariants, List.isEmpty_iff, Option.some.injEq]
    split_ifs with hempty hmany
    · constructor
      · nofun
      · rintro ⟨rfl, hne, -⟩
        exact absurd hempty hne
    · constructor
      · nofun
      · rintro ⟨rfl, -, hle⟩
        exact absurd hmany (Nat.not_lt_of_le hle)
    · constructor
      · intro h
        cases h
        exact ⟨rfl, hempty, Nat.le_of_not_lt hmany⟩
      · rintro ⟨rfl, -, -⟩
        rfl

/-- A well-formed state enum is accepted, unless it has unreachable states that are not allowed. -/
theorem deriveStates_of_wellFormed (he : e.WellFormed vs) :
    deriveStates e =
      match if e.allowUnreachable then [] else unreachableErrors (e.table vs).states with
      | [] => .ok (e.table vs)
      | errors => .error errors := by
  -- None of the checks before the search finds anything.
  have hchecked : checkedVariants .states e.variants = .ok vs :=
    checkedVariants_eq_ok_iff.2 ⟨he.variants, he.ne_nil, he.length_le⟩
  have hnone : vs.flatMap (·.errors (vs.map (·.ident)) e.events) = [] :=
    List.flatMap_eq_nil_iff.2 he.errors
  unfold deriveStates
  rw [hchecked]
  dsimp only
  rw [hnone]
  rfl

/-- An accepted state enum is well-formed, and its table lists its variants. -/
theorem exists_wellFormed_of_ok (h : deriveStates e = .ok t) :
    ∃ vs, e.WellFormed vs ∧ t = e.table vs := by
  unfold deriveStates at h
  split at h
  next => cases h
  next vs hchecked =>
    obtain ⟨hvariants, hne, hlength⟩ := checkedVariants_eq_ok_iff.1 hchecked
    dsimp only at h
    split at h
    next hnone =>
      split at h
      next =>
        cases h
        exact ⟨vs, ⟨hvariants, hne, hlength, List.flatMap_eq_nil_iff.1 hnone⟩, rfl⟩
      next => cases h
    next => cases h

/-- The table of an event enum with the given variants. -/
def EventEnum.table (ev : EventEnum) (evs : List EventVariant) : EventTable :=
  { ident := ev.ident
    events := evs.map fun v => { ident := v.ident, name := v.name.getD v.ident } }

/-- An accepted event enum has some variants, and not too many, and its table lists them. -/
theorem deriveEvents_eq_ok_iff {ev : EventEnum} {et : EventTable} : deriveEvents ev = .ok et ↔
    ∃ evs, ev.variants = some evs ∧ evs ≠ [] ∧ evs.length ≤ Mask.width ∧ et = ev.table evs := by
  unfold deriveEvents
  split
  next hchecked =>
    refine ⟨nofun, fun ⟨evs, hvariants, hne, hlength, _⟩ => ?_⟩
    cases hchecked.symm.trans (checkedVariants_eq_ok_iff.2 ⟨hvariants, hne, hlength⟩)
  next evs hchecked =>
    obtain ⟨hvariants, hne, hlength⟩ := checkedVariants_eq_ok_iff.1 hchecked
    constructor
    · intro h
      cases h
      exact ⟨evs, hvariants, hne, hlength, rfl⟩
    · rintro ⟨evs', hvariants', -, -, rfl⟩
      obtain rfl := Option.some.inj (hvariants.symm.trans hvariants')
      rfl

end StateMachines.Derive
