import StateMachines.Derive.Samples
import StateMachines.Proofs.Derive.Search
import StateMachines.Proofs.Derive.Tables
import StateMachines.Proofs.Descriptor
import StateMachines.Proofs.Execution.Passive
import StateMachines.Proofs.Execution.Wraparound

/-!
# Unreachable states

The search for unreachable states reports exactly the states that no instance of the class ever
is in. The edges of the derived table are those of the descriptor that is made of it, so a state
that is reported is never entered, whatever the hooks do; and a state that is not reported is
entered by a fresh instance that is moved along the edges, one change of state after another.

The first of these needs that no state is written into an instance of another class than the one
for which the edge was checked. That happens only if a slot is vacated `2 ^ 32` times while a hook
for leaving runs, so that a handle refers to another instance than before. It does happen then, and
an enum may turn the search off: `lookout_entered_islands_unreported`.

## Main definitions

* `StateTable.reported`: the states that are reported as unreachable.

## Main results

* `StateTable.mem_reported_iff`: no edges lead to a state that is reported.
* `deriveStates_eq_of_reported`: how unreachable states are reported.
* `reaches_iff_leads`: the descriptor and the derived table have the same reachable states.
* `unreachable_iff_never_entered`: the states that are reported are those that are never entered.
-/

namespace StateMachines.Derive

open Execution

variable {e : StateEnum} {t : StateTable} {vs : List StateVariant} {events : Conversions}
  {rows : List StateRow} {b : Blueprint} {d : Descriptor} {key s target : Nat}

namespace StateTable

/-- The states that are reported as unreachable, by their numbers. -/
def reported (t : StateTable) : List Nat :=
  unreached (successors t.states) (List.range t.states.length) [0]

/-- The identifier of a state. -/
def identOf (t : StateTable) (number : Nat) : String :=
  match t.states[number]? with
  | some state => state.ident
  | none => ""

/-- The report of a state. -/
def report (t : StateTable) (number : Nat) : DeriveError :=
  .unreachable (t.identOf number) (t.identOf 0)

/-- A state is reported if no edges lead to it from the first one. -/
theorem mem_reported_iff :
    s ∈ t.reported ↔ s < t.states.length ∧ ¬ Leads (successors t.states) 0 s := by
  have htracked : Tracked (successors t.states) (List.range t.states.length) [0] := by
    -- A number outside the table has no successors.
    intro a ha b hb
    have hnone : t.states[a]? = none := by
      simpa using ha
    rw [successors, hnone] at hb
    cases hb
  rw [reported, mem_unreached_iff List.nodup_range htracked]
  simp

/-- There is one error for each state that is reported. -/
theorem unreachableErrors_eq (hne : t.states ≠ []) :
    unreachableErrors t.states = t.reported.map t.report := by
  obtain ⟨initial, rest, hstates⟩ := List.exists_cons_of_ne_nil hne
  have hinitial : t.identOf 0 = initial.ident := by
    rw [identOf, hstates]
    rfl
  have hreport : ∀ number ∈ t.reported,
      (t.states[number]?.map fun state => DeriveError.unreachable state.ident initial.ident) =
        some (t.report number) := by
    intro number hnumber
    have hlt := (mem_reported_iff.1 hnumber).1
    rw [report, hinitial, identOf, List.getElem?_eq_getElem hlt]
    rfl
  unfold unreachableErrors
  rw [hstates]
  dsimp only
  rw [← hstates]
  exact (List.filterMap_congr hreport).trans (congrFun List.filterMap_eq_map' t.reported)

end StateTable

/-- Unreachable states make a state enum refused that would be accepted otherwise. -/
theorem deriveStates_eq_of_reported
    (h : deriveStates { e with allowUnreachable := true } = .ok t) :
    deriveStates { e with allowUnreachable := false } =
      if t.reported = [] then .ok t else .error (t.reported.map t.report) := by
  obtain ⟨vs, he, rfl⟩ := exists_wellFormed_of_ok h
  have he' : StateEnum.WellFormed { e with allowUnreachable := false } vs :=
    ⟨he.variants, he.ne_nil, he.length_le, he.errors⟩
  -- The errors are listed relative to the first state, and there is one.
  have hne : (e.table vs).states ≠ [] := by
    simpa [StateEnum.table] using he.ne_nil
  have herrors : unreachableErrors
      (StateEnum.table { e with allowUnreachable := false } vs).states =
        (e.table vs).reported.map (e.table vs).report :=
    StateTable.unreachableErrors_eq hne
  have htable : StateEnum.table { e with allowUnreachable := true } vs = e.table vs := rfl
  rw [deriveStates_of_wellFormed he', if_neg Bool.false_ne_true, herrors, htable]
  cases (e.table vs).reported with
  | nil => rfl
  | cons number rest => rfl

/-- A row leads to the states to which the derived state leads. -/
theorem out_of_row? {state : DerivedState} {eventEnum : Option Path} {row : StateRow}
    (h : (state.code eventEnum).row? events = some row) : row.out = state.out := by
  obtain ⟨numbers, -, hrest⟩ := Option.bind_eq_some_iff.1 h
  obtain ⟨mask, -, hrow⟩ := Option.bind_eq_some_iff.1 hrest
  cases hrow
  exact Mask.ofBits_toNat state.out

/-- The edges of a derived table are those of the descriptor that is made of it. -/
theorem mem_successors_iff (hrows : t.code.table? events = some rows) (hd : d.states = rows) :
    target ∈ successors t.states s ↔ d.permits s target = true := by
  have hget := (getElem?_of_mapM hrows).2 s
  have hcode : t.code.rows[s]? = t.states[s]?.map (·.code t.events) := by
    simp [StateTable.code]
  rw [hcode] at hget
  unfold successors Descriptor.permits Descriptor.row?
  rw [hd]
  -- The row of a number is made of the derived state of that number, or there is neither.
  cases hstate : t.states[s]? with
  | none =>
    rw [hstate] at hget
    simp [hget]
  | some state =>
    rw [hstate] at hget
    have hlt : s < rows.length := by
      rw [(getElem?_of_mapM hrows).1, StateTable.code, List.length_map]
      exact (List.getElem?_eq_some_iff.1 hstate).1
    rw [List.getElem?_eq_getElem hlt] at hget ⊢
    dsimp only
    rw [out_of_row? hget.symm, Mask.mem_toList]

/-- The states that the edges of the descriptor lead to are those that the edges of the derived
table lead to. -/
theorem reaches_iff_leads (hrows : t.code.table? events = some rows) (hd : d.states = rows) :
    d.Reaches s ↔ Leads (successors t.states) 0 s := by
  have hedges : (fun source target => d.permits source target = true) =
      fun source target => target ∈ successors t.states source := by
    funext source target
    exact propext (mem_successors_iff hrows hd).symm
  rw [Descriptor.Reaches, hedges]

/-- The states that the search reports as unreachable, and for which alone a state enum is refused,
are those that no live instance of the class ever is in. A state that is not reported is entered by
every fresh instance that is moved along the right states, if the hooks do nothing.

`Entered` speaks of runs with few releases. A state that is reported is never entered in any other
run either, unless a state was written into an instance of another class than the one for which the
edge was checked; with few releases this does not happen, by `Execution.Run.keepsClass`. -/
theorem unreachable_iff_never_entered
    (htable : deriveStates { e with allowUnreachable := true } = .ok t)
    (hrows : t.code.table? events = some rows) (hstates : b.states = rows)
    (hbuild : b.build key = .ok d) :
    (deriveStates { e with allowUnreachable := false } =
      if t.reported = [] then .ok t else .error (t.reported.map t.report)) ∧
    (∀ s < t.states.length, s ∈ t.reported ↔ ¬ Entered d s) ∧
    (∀ s ∈ t.reported, ∀ {σ ν : Type} {host : Host σ ν} {x : Execution σ ν}
      {past : List (Execution σ ν)}, Run host x past → KeepsClass past →
        ∀ h inst, x.world.engine.get? h = some inst → inst.descriptor = d → inst.state ≠ s) ∧
    ∀ s < t.states.length, s ∉ t.reported → ∃ states, ∀ {σ ν : Type} {host : Host σ ν}
      {w : World σ ν} {h : Handle} {inst : Instance}, host.Passive →
        w.engine.get? h = some inst → inst.descriptor = d → inst.state = 0 →
          ∃ w', Carried host w (moves h states) w' ∧ w'.engine.state? h = some s := by
  have hd : d.states = rows := (Blueprint.states_of_build hbuild).trans hstates
  have hreported : ∀ s < t.states.length, (s ∈ t.reported ↔ ¬ d.Reaches s) := by
    intro s hs
    rw [reaches_iff_leads hrows hd, StateTable.mem_reported_iff]
    exact and_iff_right hs
  -- Both sides of the agreement are about reachability in the table of the class.
  refine ⟨deriveStates_eq_of_reported htable, fun s hs => ?_, ?_, fun s hs hleft => ?_⟩
  · rw [hreported s hs, entered_iff_reaches]
  · intro s hmem σ ν host x past hrun hkeeps h inst hlive hclass hstate
    refine (hreported s (StateTable.mem_reported_iff.1 hmem).1).1 hmem ?_
    rw [← hclass, ← hstate]
    exact hrun.reaches_state_of_mem hkeeps List.mem_cons_self hlive
  · have hreaches : d.Reaches s := not_not.1 fun hnot => hleft ((hreported s hs).2 hnot)
    obtain ⟨states, hmoves⟩ := exists_moves_of_leads hreaches
    refine ⟨states, fun {σ ν host w h inst} hpassive hlive hclass hstate => ?_⟩
    obtain ⟨w', hcarried, hmoved⟩ := hmoves hpassive hlive hclass hstate
    exact ⟨w', hcarried, by rw [Engine.state?, hmoved, Option.map_some]⟩

/-- An enum with a state that leads to the others and to which none of them leads. -/
def lookout : StateEnum :=
  { ident := "Lookout"
    variants := some [
      { ident := "Start", out := [.ofName "Wait"] },
      { ident := "Wait", out := [.ofName "Start"] },
      { ident := "Above", out := [.ofName "Start", .ofName "Wait"] }] }

/-- The class of `lookout`. -/
def lookoutClass : Descriptor where
  key := 3
  name := "LOOKOUT"
  subsystem := "fsm"
  states :=
    [{ name := "Start", out := .ofBits 2 }, { name := "Wait", out := .ofBits 1 },
      { name := "Above", out := .ofBits 3 }]
  allStates := .empty
  eventNames := none
  timerCallback := false
  states_ne_nil := by decide
  out_lt := by decide

/-- No edges lead to the third state of `lookout`. -/
theorem reported_lookout : (lookout.table (lookout.variants.getD [])).reported = [2] := by cbv

/-- The third state of `lookout` is reported, and never entered; the second one is entered. -/
theorem lookout_never_entered :
    deriveStates lookout = .error [.unreachable "Above" "Start"] ∧ ¬ Entered lookoutClass 2 ∧
      Entered lookoutClass 1 := by
  have htable : deriveStates { lookout with allowUnreachable := true } =
      .ok (lookout.table (lookout.variants.getD [])) := rfl
  let blueprint : Blueprint := { name := "LOOKOUT", states := lookoutClass.states }
  obtain ⟨hrefused, hentered, -, -⟩ :=
    @unreachable_iff_never_entered lookout _ (.ofVariants "" []) _ blueprint lookoutClass 3
      htable rfl rfl rfl
  rw [reported_lookout] at hrefused hentered
  refine ⟨hrefused, (hentered 2 (by decide)).1 (by decide), ?_⟩
  exact not_not.1 (mt (hentered 1 (by decide)).2 (by decide))

/-- The class of `islands`. -/
def islandsClass : Descriptor where
  key := 4
  name := "ISLANDS"
  subsystem := "fsm"
  states := [{ name := "Start" }, { name := "Elsewhere" }]
  allStates := .empty
  eventNames := none
  timerCallback := false
  states_ne_nil := by decide
  out_lt := by decide

/-- Neither the bound on the releases nor that the search is turned on can be dropped. The third
state of `lookout` is reported, and is entered in a run in which a slot is vacated `2 ^ 32` times
within one call. The second state of `islands` is not reported, since that enum allows unreachable
states, and no changes of state lead a fresh instance to it. -/
theorem lookout_entered_islands_unreported :
    (deriveStates lookout = .error [.unreachable "Above" "Start"] ∧
      (∃ t, deriveStates { lookout with allowUnreachable := true } = .ok t ∧
        t.code.table? (.ofVariants "" []) = some lookoutClass.states) ∧
      ∃ (host : Host Unit Unit) (x : Execution Unit Unit) (past : List (Execution Unit Unit))
        (h : Handle) (inst : Instance), Run host x past ∧ NeverFrees past ∧
          x.world.engine.get? h = some inst ∧ inst.descriptor = lookoutClass ∧ inst.state = 2) ∧
    (∃ t, deriveStates islands = .ok t ∧
      t.code.table? (.ofVariants "" []) = some islandsClass.states) ∧
    ∀ {σ ν : Type} {host : Host σ ν} {w w' : World σ ν} {h : Handle} {inst : Instance}
      {states : List StateId}, w.engine.get? h = some inst → inst.descriptor = islandsClass →
        inst.state = 0 → Carried host w (moves h states) w' → w'.engine.state? h = some 0 := by
  have hrefused : deriveStates lookout = .error [.unreachable "Above" "Start"] := by
    have htable : deriveStates { lookout with allowUnreachable := true } =
        .ok (lookout.table (lookout.variants.getD [])) := rfl
    have hreport := deriveStates_eq_of_reported htable
    rwa [reported_lookout] at hreport
  refine ⟨⟨hrefused, ⟨_, rfl, rfl⟩, ?_⟩, ⟨_, rfl, rfl⟩, ?_⟩
  · obtain ⟨x, past, inst, hrun, hnever, -, -, hlive, hclass, hstate, -⟩ :=
      exists_usurped lookoutClass
    exact ⟨_, x, past, ⟨0, 0⟩, inst, hrun, hnever, hlive, hclass, hstate⟩
  · intro σ ν host w w' h inst states hlive hclass hinitial hcarried
    have hisolated : ∀ s, inst.descriptor.permits inst.state s = false := by
      rw [hclass, hinitial]
      exact fun s => Bool.eq_false_iff.2 fun hpermits => by
        simpa using Mask.mem_toList.2 hpermits
    obtain rfl := hcarried.eq_nil_of_isolated hlive hisolated
    cases hcarried
    rw [Engine.state?, hlive, Option.map_some, hinitial]

end StateMachines.Derive
