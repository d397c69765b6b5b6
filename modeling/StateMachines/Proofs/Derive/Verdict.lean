import StateMachines.Proofs.Derive.Unreachable

/-!
# The verdict on a state enum

Which state enums are accepted, what their tables hold, and what is reported of those that are
refused. A number of variants that does not fit a mask is reported alone. Otherwise every defect is
reported once: bad targets before a missing event enum before bad events within each variant, and
the variants in the order of their declaration. Only an enum without such defects is searched for
unreachable states, which are reported in this order, too.

Variants are told apart by their places. A name that several of them share stands for the first.

## Main definitions

* `Path.Targets`: the variant that a path names.
* `Defect`, `StateEnum.Reports`: what can be wrong with an enum, and how it is reported.
* `ReportedOnce`: the errors are the reports of all defects, in order.
* `StateEnum.Accepted`: what it takes to be accepted.

## Main results

* `deriveStates_verdict`: acceptance, tables and reports.
-/

namespace StateMachines.Derive

variable {e : StateEnum} {t : StateTable} {v : StateVariant} {vs : List StateVariant}
  {p : Path} {name : String} {i j : Nat} {errors : List DeriveError}

/-! ## Names and targets -/

/-- A path is a single plain name. -/
theorem Path.name?_eq_some_iff : p.name? = some name ↔ p = .ofName name := by
  constructor
  · intro h
    unfold name? at h
    split at h
    next _ _ segment hrooted hsegments =>
      obtain ⟨rooted, segments⟩ := p
      cases h
      cases hrooted
      cases hsegments
      rfl
    next => cases h
  · rintro rfl
    rfl

/-- A path that is no single plain name. -/
theorem Path.name?_eq_none_iff : p.name? = none ↔ ∀ name, p ≠ .ofName name := by
  rw [Option.eq_none_iff_forall_ne_some]
  exact forall_congr' fun _ => not_congr name?_eq_some_iff

/-- The path is the plain name of the variant at a place, and of none before it. -/
def Path.Targets (vs : List StateVariant) (p : Path) (j : Nat) : Prop :=
  ∃ v, vs[j]? = some v ∧ p = .ofName v.ident ∧
    ∀ k < j, ∀ w, vs[k]? = some w → w.ident ≠ v.ident

/-- A target is numbered by the place of the variant that it names. -/
theorem targetNumber?_eq_some_iff :
    StateVariant.targetNumber? (vs.map (·.ident)) p = some j ↔ p.Targets vs j := by
  simp only [StateVariant.targetNumber?, Option.bind_eq_some_iff, Path.name?_eq_some_iff,
    List.idxOf?_eq_some_iff, List.length_map, List.getElem_map]
  constructor
  · rintro ⟨name, rfl, hj, rfl, hbefore⟩
    refine ⟨vs[j], List.getElem?_eq_getElem hj, rfl, fun k hk w hw => ?_⟩
    obtain ⟨hk', rfl⟩ := List.getElem?_eq_some_iff.1 hw
    exact hbefore k hk
  · rintro ⟨v, hv, rfl, hbefore⟩
    obtain ⟨hj, rfl⟩ := List.getElem?_eq_some_iff.1 hv
    refine ⟨_, rfl, hj, rfl, fun k hk => ?_⟩
    exact hbefore k hk _ (List.getElem?_eq_getElem (Nat.lt_trans hk hj))

/-- A target has no number if it does not name a variant. -/
theorem targetNumber?_eq_none_iff :
    StateVariant.targetNumber? (vs.map (·.ident)) p = none ↔ ∀ w ∈ vs, p ≠ .ofName w.ident := by
  simp only [StateVariant.targetNumber?, Option.bind_eq_none_iff, Path.name?_eq_some_iff,
    List.idxOf?_eq_none_iff]
  constructor
  · rintro h w hw rfl
    exact h _ rfl (List.mem_map_of_mem hw)
  · rintro h name rfl hmem
    obtain ⟨w, hw, rfl⟩ := List.mem_map.1 hmem
    exact h w hw rfl

/-- A variant leads to another one: one of its targets names it. -/
def Edge (vs : List StateVariant) (i j : Nat) : Prop :=
  ∃ v, vs[i]? = some v ∧ ∃ p ∈ v.out, p.Targets vs j

/-- There is a path of edges from the first variant. -/
def Reachable (vs : List StateVariant) : Nat → Prop := Relation.ReflTransGen (Edge vs) 0

/-! ## Defects -/

/-- What is wrong with the declaration of a variant. Variants, targets and events are referred to by
their places. -/
inductive Defect where
  /-- A target does not name a variant. -/
  | target (variant place : Nat)
  /-- The variant accepts events, but no event enum is given. -/
  | eventEnum (variant : Nat)
  /-- An event is no plain name. -/
  | event (variant place : Nat)

namespace Defect

/-- The variant in which a defect is. -/
def variant : Defect → Nat
  | .target variant _ | .eventEnum variant | .event variant _ => variant

/-- One defect comes before another one: in an earlier variant, or earlier in the same one. -/
inductive Before : Defect → Defect → Prop where
  | variant {d d' : Defect} (h : d.variant < d'.variant) : Before d d'
  | targets {i k k' : Nat} (h : k < k') : Before (.target i k) (.target i k')
  | targetEnum (i k : Nat) : Before (.target i k) (.eventEnum i)
  | targetEvent (i k k' : Nat) : Before (.target i k) (.event i k')
  | enumEvent (i k : Nat) : Before (.eventEnum i) (.event i k)
  | events {i k k' : Nat} (h : k < k') : Before (.event i k) (.event i k')

end Defect

/-- The defects of an enum with the given variants, and how each of them is reported. -/
inductive StateEnum.Reports (e : StateEnum) (vs : List StateVariant) : Defect → DeriveError → Prop
  | target {i k : Nat} {v : StateVariant} {p : Path} (hv : vs[i]? = some v)
      (hp : v.out[k]? = some p) (hbad : ∀ w ∈ vs, p ≠ .ofName w.ident) :
      Reports e vs (.target i k) (.unknownTarget v.ident)
  | eventEnum {i : Nat} {v : StateVariant} (hv : vs[i]? = some v) (hevents : v.events ≠ [])
      (hnone : e.events = none) : Reports e vs (.eventEnum i) .eventEnumMissing
  | event {i k : Nat} {v : StateVariant} {p : Path} (hv : vs[i]? = some v)
      (hp : v.events[k]? = some p) (hbad : ∀ name, p ≠ .ofName name) :
      Reports e vs (.event i k) .badEventName

/-- How a state that cannot be reached is reported, by its place. -/
def ReportsUnreachable (vs : List StateVariant) (i : Nat) (error : DeriveError) : Prop :=
  ∃ v initial, vs[i]? = some v ∧ vs[0]? = some initial ∧ ¬ Reachable vs i ∧
    error = .unreachable v.ident initial.ident

/-- The errors are the reports of all defects, each of them reported once and in order. -/
def ReportedOnce {δ : Type} (before : δ → δ → Prop) (reports : δ → DeriveError → Prop)
    (errors : List DeriveError) : Prop :=
  ∃ defects : List δ, defects.Pairwise before ∧ List.Forall₂ reports defects errors ∧
    ∀ d error, reports d error → d ∈ defects

/-- What it takes for an enum with the given variants to be accepted. -/
structure StateEnum.Accepted (e : StateEnum) (vs : List StateVariant) : Prop where
  /-- There is a variant. -/
  one_le : 1 ≤ vs.length
  /-- The variants fit a mask. -/
  length_le : vs.length ≤ 32
  /-- Every target is the plain name of a variant. -/
  targets : ∀ v ∈ vs, ∀ p ∈ v.out, ∃ w ∈ vs, p = .ofName w.ident
  /-- Every event is a plain name. -/
  events : ∀ v ∈ vs, ∀ p ∈ v.events, ∃ name, p = .ofName name
  /-- Events are accepted only if an event enum is given. -/
  eventEnum : ∀ v ∈ vs, v.events ≠ [] → e.events ≠ none
  /-- Every variant can be reached, unless this is not asked for. -/
  reachable : e.allowUnreachable = false → ∀ i < vs.length, Reachable vs i

/-- The errors for which an item is refused. -/
inductive StateEnum.Refused (e : StateEnum) : List DeriveError → Prop
  | notAnEnum (hvariants : e.variants = none) : Refused e [.notAnEnum .states]
  | noVariants (hvariants : e.variants = some []) : Refused e [.noVariants .states]
  | tooManyVariants {vs : List StateVariant} (hvariants : e.variants = some vs)
      (hmany : 32 < vs.length) : Refused e [.tooManyVariants .states vs.length]
  | defects {vs : List StateVariant} {errors : List DeriveError}
      (hvariants : e.variants = some vs) (hone : 1 ≤ vs.length) (hfits : vs.length ≤ 32)
      (hne : errors ≠ []) (hreported : ReportedOnce Defect.Before (e.Reports vs) errors) :
      Refused e errors
  | unreachable {vs : List StateVariant} {errors : List DeriveError}
      (hvariants : e.variants = some vs) (hone : 1 ≤ vs.length) (hfits : vs.length ≤ 32)
      (hnone : ∀ d error, ¬ e.Reports vs d error) (hasked : e.allowUnreachable = false)
      (hne : errors ≠ []) (hreported : ReportedOnce (· < ·) (ReportsUnreachable vs) errors) :
      Refused e errors

/-- A state says what a variant declares. -/
structure DerivedState.Says (vs : List StateVariant) (v : StateVariant) (state : DerivedState) :
    Prop where
  ident : state.ident = v.ident
  name : state.name = v.name.getD v.ident
  /-- The events are listed by their names. -/
  events : state.events.map .ofName = v.events
  /-- The bits of the mask are the places of the variants that the targets name. -/
  out : ∀ j, state.out.contains j = true ↔ ∃ p ∈ v.out, p.Targets vs j

/-! ## Reports of defects -/

/-- The members of a list that a test finds, by their places. -/
def places {α : Type} (found : α → Bool) (xs : List α) : List Nat :=
  (xs.zipIdx.filter (found ·.1)).map (·.2)

/-- The places of what a test finds are listed in ascending order. -/
theorem pairwise_places {α : Type} (found : α → Bool) (xs : List α) :
    (places found xs).Pairwise (· < ·) := by
  refine List.pairwise_map.2 (List.Pairwise.filter _ ?_)
  have hplaces : (xs.zipIdx.map (·.2)).Pairwise (· < ·) := by
    simpa [List.zipIdx_map_snd] using List.pairwise_lt_range'
  exact List.pairwise_map.1 hplaces

/-- A place is listed if the test finds what is there. -/
theorem mem_places_iff {α : Type} {found : α → Bool} {xs : List α} :
    i ∈ places found xs ↔ ∃ x, xs[i]? = some x ∧ found x = true := by
  simp [places, List.mem_filter, List.mem_zipIdx_iff_getElem?]

/-- What is found and its places are listed in step. -/
theorem forall₂_places {α : Type} (found : α → Bool) (xs : List α) :
    List.Forall₂ (fun i x => xs[i]? = some x ∧ found x = true) (places found xs)
      (xs.filter found) := by
  have hfilter : xs.filter found = (xs.zipIdx.filter (found ·.1)).map (·.1) := by
    conv_lhs => rw [← List.zipIdx_map_fst 0 xs, List.filter_map]
    rfl
  rw [hfilter, places, List.forall₂_map_left_iff, List.forall₂_map_right_iff, List.forall₂_same]
  intro entry hentry
  obtain ⟨hmem, hfound⟩ := List.mem_filter.1 hentry
  exact ⟨List.mem_zipIdx_iff_getElem?.1 hmem, hfound⟩

/-- The defects of the variant at a place. -/
def StateVariant.defects (v : StateVariant) (idents : List String) (eventEnum : Option Path)
    (i : Nat) : List Defect :=
  (places (fun p => (targetNumber? idents p).isNone) v.out).map (.target i) ++
    (if !v.events.isEmpty && eventEnum.isNone then [.eventEnum i] else []) ++
    (places (fun p => p.name?.isNone) v.events).map (.event i)

/-- A defect of a variant is in that variant. -/
theorem StateVariant.variant_of_mem_defects {idents : List String} {eventEnum : Option Path}
    {d : Defect} (hd : d ∈ v.defects idents eventEnum i) : d.variant = i := by
  simp only [defects, List.mem_append, List.mem_map] at hd
  rcases hd with (⟨k, -, rfl⟩ | hd) | ⟨k, -, rfl⟩
  · rfl
  · split at hd
    next => rw [List.mem_singleton.1 hd, Defect.variant]
    next => cases hd
  · rfl

/-- The defects of a variant are listed in order. -/
theorem StateVariant.pairwise_defects (v : StateVariant) (idents : List String)
    (eventEnum : Option Path) (i : Nat) :
    (v.defects idents eventEnum i).Pairwise Defect.Before := by
  have htargets : ((places (fun p => (targetNumber? idents p).isNone) v.out).map
      (Defect.target i)).Pairwise Defect.Before :=
    List.pairwise_map.2 ((pairwise_places _ _).imp .targets)
  have hevents : ((places (fun p => p.name?.isNone) v.events).map
      (Defect.event i)).Pairwise Defect.Before :=
    List.pairwise_map.2 ((pairwise_places _ _).imp .events)
  unfold defects
  split
  next =>
    refine List.pairwise_append.2 ⟨List.pairwise_append.2 ⟨htargets, List.pairwise_singleton _ _,
      ?_⟩, hevents, ?_⟩
    · intro a ha b hb
      obtain ⟨k, -, rfl⟩ := List.mem_map.1 ha
      rw [List.mem_singleton.1 hb]
      exact .targetEnum i k
    · intro a ha b hb
      obtain ⟨k', -, rfl⟩ := List.mem_map.1 hb
      rcases List.mem_append.1 ha with ha | ha
      · obtain ⟨k, -, rfl⟩ := List.mem_map.1 ha
        exact .targetEvent i k k'
      · rw [List.mem_singleton.1 ha]
        exact .enumEvent i k'
  next =>
    rw [List.append_nil]
    refine List.pairwise_append.2 ⟨htargets, hevents, ?_⟩
    intro a ha b hb
    obtain ⟨k, -, rfl⟩ := List.mem_map.1 ha
    obtain ⟨k', -, rfl⟩ := List.mem_map.1 hb
    exact .targetEvent i k k'

/-- The errors of a variant are the reports of its defects. -/
theorem StateVariant.forall₂_defects (hv : vs[i]? = some v) :
    List.Forall₂ (e.Reports vs) (v.defects (vs.map (·.ident)) e.events i)
      (v.errors (vs.map (·.ident)) e.events) := by
  unfold defects errors
  refine List.rel_append (List.rel_append ?_ ?_) ?_
  · rw [List.forall₂_map_left_iff, List.forall₂_map_right_iff]
    refine (forall₂_places _ _).imp fun k p ⟨hp, hfound⟩ => .target hv hp ?_
    exact targetNumber?_eq_none_iff.1 (Option.isNone_iff_eq_none.1 hfound)
  · split
    next hmissing =>
      rw [Bool.and_eq_true, Bool.not_eq_true', Option.isNone_iff_eq_none] at hmissing
      refine .cons (.eventEnum hv ?_ hmissing.2) .nil
      exact List.isEmpty_eq_false_iff.1 hmissing.1
    next => exact .nil
  · rw [List.forall₂_map_left_iff, List.forall₂_map_right_iff]
    refine (forall₂_places _ _).imp fun k p ⟨hp, hfound⟩ => .event hv hp ?_
    exact Path.name?_eq_none_iff.1 (Option.isNone_iff_eq_none.1 hfound)

/-- Every defect of an enum is a defect of the variant at its place. -/
theorem StateEnum.Reports.mem_defects {d : Defect} {error : DeriveError}
    (h : e.Reports vs d error) :
    ∃ v, vs[d.variant]? = some v ∧ d ∈ v.defects (vs.map (·.ident)) e.events d.variant := by
  simp only [StateVariant.defects, List.mem_append, List.mem_map]
  cases h with
  | @target i k v p hv hp hbad =>
    refine ⟨v, hv, .inl (.inl ⟨k, mem_places_iff.2 ⟨p, hp, ?_⟩, rfl⟩)⟩
    rw [targetNumber?_eq_none_iff.2 hbad, Option.isNone_none]
  | @eventEnum i v hv hevents hnone =>
    refine ⟨v, hv, .inl (.inr ?_)⟩
    rw [if_pos (by simp [hevents, hnone])]
    exact List.mem_singleton_self _
  | @event i k v p hv hp hbad =>
    refine ⟨v, hv, .inr ⟨k, mem_places_iff.2 ⟨p, hp, ?_⟩, rfl⟩⟩
    rw [Path.name?_eq_none_iff.2 hbad, Option.isNone_none]

/-- The errors of all variants report every defect once, variant by variant. -/
theorem reportedOnce_errors (e : StateEnum) (vs : List StateVariant) :
    ReportedOnce Defect.Before (e.Reports vs)
      (vs.flatMap (·.errors (vs.map (·.ident)) e.events)) := by
  let listed (entry : StateVariant × Nat) :=
    entry.1.defects (vs.map (·.ident)) e.events entry.2
  refine ⟨vs.zipIdx.flatMap listed, ?_, ?_, fun d error hd => ?_⟩
  · refine List.pairwise_flatMap.2 ⟨fun entry _ => entry.1.pairwise_defects _ _ _, ?_⟩
    have hplaces : (vs.zipIdx.map (·.2)).Pairwise (· < ·) := by
      simpa [List.zipIdx_map_snd] using List.pairwise_lt_range'
    refine (List.pairwise_map.1 hplaces).imp fun {a b} hlt d hd d' hd' => .variant ?_
    rw [StateVariant.variant_of_mem_defects hd, StateVariant.variant_of_mem_defects hd']
    exact hlt
  · -- The variants are taken together with their places on either side.
    have herrors : vs.flatMap (·.errors (vs.map (·.ident)) e.events) =
        vs.zipIdx.flatMap fun entry => entry.1.errors (vs.map (·.ident)) e.events := by
      conv_lhs => rw [← List.zipIdx_map_fst 0 vs, List.flatMap_map]
      simp [List.zipIdx_map_fst]
    rw [herrors, List.flatMap, List.flatMap]
    refine List.rel_flatten ?_
    rw [List.forall₂_map_left_iff, List.forall₂_map_right_iff, List.forall₂_same]
    intro entry hentry
    exact StateVariant.forall₂_defects (List.mem_zipIdx_iff_getElem?.1 hentry)
  · obtain ⟨v, hv, hmem⟩ := hd.mem_defects
    exact List.mem_flatMap.2 ⟨(v, d.variant), List.mem_zipIdx_iff_getElem?.2 hv, hmem⟩

/-- An enum in which nothing is to be reported has no defects. -/
theorem ReportedOnce.of_nil {δ : Type} {before : δ → δ → Prop} {reports : δ → DeriveError → Prop}
    (h : ReportedOnce before reports []) (d : δ) (error : DeriveError) : ¬ reports d error := by
  obtain ⟨defects, -, hreports, hall⟩ := h
  obtain rfl := List.forall₂_nil_right_iff.1 hreports
  exact fun hd => List.not_mem_nil (hall d error hd)

/-! ## Reports of unreachable states -/

/-- The edges of a derived table are those that the variants declare. -/
theorem mem_successors_table_iff (hlength : vs.length ≤ Mask.width) :
    j ∈ successors (e.table vs).states i ↔ Edge vs i j := by
  unfold successors Edge StateEnum.table
  rw [List.getElem?_map]
  cases vs[i]? with
  | none => simp
  | some v =>
    simp only [Option.map_some, Mask.mem_toList, Option.some.injEq, exists_eq_left']
    rw [v.contains_out_derived (by simpa using hlength)]
    simp only [targetNumber?_eq_some_iff]

/-- The states that are reported are those that cannot be reached, in the order of the variants. -/
theorem reportedOnce_unreachable (e : StateEnum) (hne : vs ≠ [])
    (hlength : vs.length ≤ Mask.width) :
    ReportedOnce (· < ·) (ReportsUnreachable vs) (unreachableErrors (e.table vs).states) := by
  have hedges : (fun a b => b ∈ successors (e.table vs).states a) = Edge vs := by
    funext a b
    exact propext (mem_successors_table_iff hlength)
  have hmem : ∀ i, i ∈ (e.table vs).reported ↔ i < vs.length ∧ ¬ Reachable vs i := by
    intro i
    rw [StateTable.mem_reported_iff, Leads, hedges]
    simp [StateEnum.table, Reachable]
  have hident : ∀ i v, vs[i]? = some v → (e.table vs).identOf i = v.ident := by
    intro i v hv
    simp [StateTable.identOf, StateEnum.table, hv, StateVariant.derived]
  refine ⟨(e.table vs).reported, ?_, ?_, fun i error hi => ?_⟩
  · exact List.Pairwise.sublist (unreached_sublist _ _ _) List.pairwise_lt_range
  · rw [StateTable.unreachableErrors_eq (by simpa [StateEnum.table] using hne),
      List.forall₂_map_right_iff, List.forall₂_same]
    intro i hi
    obtain ⟨hlt, hnot⟩ := (hmem i).1 hi
    have hv := List.getElem?_eq_getElem hlt
    have hinitial := List.getElem?_eq_getElem (List.length_pos_iff.2 hne)
    refine ⟨_, _, hv, hinitial, hnot, ?_⟩
    rw [StateTable.report, hident _ _ hv, hident _ _ hinitial]
  · obtain ⟨v, initial, hv, -, hnot, -⟩ := hi
    exact (hmem i).2 ⟨(List.getElem?_eq_some_iff.1 hv).1, hnot⟩

/-! ## The verdict -/

/-- A variant without errors has only good targets and events, and needs no event enum that is not
given. -/
theorem StateVariant.errors_eq_nil_iff :
    v.errors (vs.map (·.ident)) e.events = [] ↔
      (∀ p ∈ v.out, ∃ w ∈ vs, p = .ofName w.ident) ∧ (v.events ≠ [] → e.events ≠ none) ∧
        ∀ p ∈ v.events, ∃ name, p = .ofName name := by
  have htarget : ∀ p, (targetNumber? (vs.map (·.ident)) p).isNone = false ↔
      ∃ w ∈ vs, p = .ofName w.ident := by
    intro p
    rw [← Bool.not_eq_true, Option.isNone_iff_eq_none, targetNumber?_eq_none_iff]
    push Not
    rfl
  have hevent : ∀ p : Path, p.name?.isNone = false ↔ ∃ name, p = .ofName name := by
    intro p
    rw [← Bool.not_eq_true, Option.isNone_iff_eq_none, Path.name?_eq_none_iff]
    push Not
    rfl
  simp only [errors, List.append_eq_nil_iff, List.map_eq_nil_iff, List.filter_eq_nil_iff,
    Bool.not_eq_true, htarget, hevent, and_assoc]
  refine and_congr_right fun _ => and_congr_left fun _ => ?_
  simp

/-- The enums that are accepted are those that are well-formed and have no unreachable states that
are not allowed. -/
theorem StateEnum.accepted_iff (hvariants : e.variants = some vs) :
    e.Accepted vs ↔ e.WellFormed vs ∧
      (e.allowUnreachable = false → ∀ i < vs.length, Reachable vs i) := by
  constructor
  · intro h
    refine ⟨⟨hvariants, List.length_pos_iff.1 h.one_le, h.length_le, fun v hv => ?_⟩, h.reachable⟩
    exact StateVariant.errors_eq_nil_iff.2 ⟨h.targets v hv, h.eventEnum v hv, h.events v hv⟩
  · rintro ⟨he, hreachable⟩
    have herrors := fun v hv => StateVariant.errors_eq_nil_iff.1 (he.errors v hv)
    exact {
      one_le := List.length_pos_iff.2 he.ne_nil
      length_le := he.length_le
      targets := fun v hv => (herrors v hv).1
      events := fun v hv => (herrors v hv).2.2
      eventEnum := fun v hv => (herrors v hv).2.1
      reachable := hreachable }

/-- Nothing is reported if every state can be reached, and only then. -/
theorem unreachableErrors_table_eq_nil_iff (e : StateEnum) (hne : vs ≠ [])
    (hlength : vs.length ≤ Mask.width) :
    unreachableErrors (e.table vs).states = [] ↔ ∀ i < vs.length, Reachable vs i := by
  obtain ⟨places, -, hreports, hall⟩ := reportedOnce_unreachable e hne hlength
  generalize unreachableErrors (e.table vs).states = errors at hreports
  constructor
  · rintro rfl i hi
    obtain rfl := List.forall₂_nil_right_iff.1 hreports
    by_contra hnot
    have hinitial := List.getElem?_eq_getElem (List.length_pos_iff.2 hne)
    exact List.not_mem_nil (hall i _ ⟨_, _, List.getElem?_eq_getElem hi, hinitial, hnot, rfl⟩)
  · intro hreachable
    cases hreports with
    | nil => rfl
    | cons hreport _ =>
      obtain ⟨v, -, hv, -, hnot, -⟩ := hreport
      exact absurd (hreachable _ (List.getElem?_eq_some_iff.1 hv).1) hnot

/-- The states of a derived table say what the variants declare. -/
theorem StateEnum.WellFormed.says (he : e.WellFormed vs) :
    List.Forall₂ (DerivedState.Says vs) vs (e.table vs).states := by
  unfold StateEnum.table
  rw [List.forall₂_map_right_iff, List.forall₂_same]
  intro v hv
  obtain ⟨-, -, hevents⟩ := StateVariant.errors_eq_nil_iff.1 (he.errors v hv)
  refine ⟨rfl, rfl, ?_, fun j => ?_⟩
  · have hname : ∀ p ∈ v.events, (p.name?.map Path.ofName) = some p := by
      intro p hp
      obtain ⟨name, rfl⟩ := hevents p hp
      rfl
    change (v.events.filterMap Path.name?).map Path.ofName = v.events
    rw [List.map_filterMap, List.filterMap_congr hname, List.filterMap_some]
  · rw [v.contains_out_derived (by simpa using he.length_le)]
    simp only [targetNumber?_eq_some_iff]

/-- A well-formed enum is refused for its unreachable states only. -/
theorem StateEnum.WellFormed.refused (he : e.WellFormed vs) (h : deriveStates e = .error errors) :
    e.Refused errors := by
  rw [deriveStates_of_wellFormed he] at h
  have hnone : ∀ d error, ¬ e.Reports vs d error := by
    have hdefects := reportedOnce_errors e vs
    rw [List.flatMap_eq_nil_iff.2 he.errors] at hdefects
    exact hdefects.of_nil
  cases hallow : e.allowUnreachable with
  | true =>
    rw [hallow, if_pos rfl] at h
    cases h
  | false =>
    rw [hallow, if_neg Bool.false_ne_true] at h
    split at h
    next => cases h
    next hsome =>
      cases h
      exact .unreachable he.variants (List.length_pos_iff.2 he.ne_nil) he.length_le hnone hallow
        hsome (reportedOnce_unreachable e he.ne_nil he.length_le)

/-- An enum with some variants, and not too many, that is not well-formed is refused for its
defects. -/
theorem deriveStates_of_defects (hvariants : e.variants = some vs) (hne : vs ≠ [])
    (hfits : vs.length ≤ Mask.width)
    (hdefects : vs.flatMap (·.errors (vs.map (·.ident)) e.events) ≠ []) :
    deriveStates e = .error (vs.flatMap (·.errors (vs.map (·.ident)) e.events)) := by
  unfold deriveStates
  rw [checkedVariants_eq_ok_iff.2 ⟨hvariants, hne, hfits⟩]
  dsimp only
  split
  next hnil => exact absurd hnil hdefects
  next => rfl

/-- A refused item is refused for a wrong number of variants, for all of its defects, or for all of
its unreachable states. -/
theorem StateEnum.refused_of_error (h : deriveStates e = .error errors) : e.Refused errors := by
  cases hvariants : e.variants with
  | none =>
    simp only [deriveStates, hvariants, checkedVariants, Except.error.injEq] at h
    subst h
    exact .notAnEnum hvariants
  | some vs =>
    rcases eq_or_ne vs [] with rfl | hne
    · simp only [deriveStates, hvariants, checkedVariants, List.isEmpty_nil, if_true,
        Except.error.injEq] at h
      subst h
      exact .noVariants hvariants
    rcases Nat.lt_or_ge Mask.width vs.length with hmany | hfits
    · simp only [deriveStates, hvariants, checkedVariants, List.isEmpty_iff, hne, hmany, if_true,
        if_false, Except.error.injEq] at h
      subst h
      exact .tooManyVariants hvariants hmany
    by_cases hnone : vs.flatMap (·.errors (vs.map (·.ident)) e.events) = []
    · have he : e.WellFormed vs := ⟨hvariants, hne, hfits, List.flatMap_eq_nil_iff.1 hnone⟩
      exact he.refused h
    · rw [deriveStates_of_defects hvariants hne hfits hnone] at h
      cases h
      exact .defects hvariants (List.length_pos_iff.2 hne) hfits hnone (reportedOnce_errors e vs)

/-- Exactly the well-formed enums are accepted. The tables of those that are say what the variants
declare, and those that are not are refused for a wrong number of variants alone, or else for each
of their defects, or else, if there are none, for each of the states that cannot be reached. -/
theorem deriveStates_verdict (e : StateEnum) :
    ((∃ t, deriveStates e = .ok t) ↔ ∃ vs, e.variants = some vs ∧ e.Accepted vs) ∧
    (∀ t, deriveStates e = .ok t → ∃ vs, e.variants = some vs ∧
      t.ident = e.ident ∧ t.events = e.events ∧
        List.Forall₂ (DerivedState.Says vs) vs t.states) ∧
    ∀ errors, deriveStates e = .error errors → e.Refused errors := by
  refine ⟨⟨?_, ?_⟩, ?_, fun errors => StateEnum.refused_of_error⟩
  · rintro ⟨t, ht⟩
    obtain ⟨vs, he, -⟩ := exists_wellFormed_of_ok ht
    refine ⟨vs, he.variants, (StateEnum.accepted_iff he.variants).2 ⟨he, fun hasked => ?_⟩⟩
    rw [deriveStates_of_wellFormed he, hasked, if_neg Bool.false_ne_true] at ht
    rw [← unreachableErrors_table_eq_nil_iff e he.ne_nil he.length_le]
    split at ht
    next hnil => exact hnil
    next => cases ht
  · rintro ⟨vs, hvariants, haccepted⟩
    obtain ⟨he, hreachable⟩ := (StateEnum.accepted_iff hvariants).1 haccepted
    rw [deriveStates_of_wellFormed he]
    cases hallow : e.allowUnreachable with
    | true => exact ⟨_, rfl⟩
    | false =>
      rw [if_neg Bool.false_ne_true,
        (unreachableErrors_table_eq_nil_iff e he.ne_nil he.length_le).2 (hreachable hallow)]
      exact ⟨_, rfl⟩
  · intro t ht
    obtain ⟨vs, he, rfl⟩ := exists_wellFormed_of_ok ht
    exact ⟨vs, he.variants, rfl, rfl, he.says⟩

/-- The first of two variants of one name stands for both, and an unreachable variant is not
mentioned beside other defects. -/
example : deriveStates {
      ident := "Muddle"
      variants := some [
        { ident := "A"
          out := [.ofName "B", .ofName "C", { segments := [{ name := "m" }, { name := "B" }] }] },
        { ident := "B", events := [{ rooted := true, segments := [{ name := "E" }] }] },
        { ident := "B", out := [.ofName "r#A"] }] } =
    .error [.unknownTarget "A", .unknownTarget "A", .eventEnumMissing, .badEventName,
      .unknownTarget "B"] := by
  decide

end StateMachines.Derive
