import StateMachines.Descriptor.Build
import StateMachines.Proofs.Mask

/-!
# What can be built

A blueprint makes a descriptor exactly if it is closed: its table is neither empty nor too long, its
edges stay in the table, and its events have names if events have names at all. A blueprint that
makes none is reported by its first defect. In a descriptor that was built, every state that edges
lead to and every event that is accepted somewhere is called by its name.

## Main definitions

* `Blueprint.Closed`: nothing that a blueprint mentions is missing.
* `Blueprint.FirstDefect`: the defect that comes first, with what is told about it.
* `Blueprint.Makes`: a descriptor holds what a blueprint says.

## Main results

* `Blueprint.exists_build_of_closed`: a closed blueprint makes a descriptor.
* `Blueprint.build_verdict`: what a blueprint makes, and how it is called.
-/

namespace StateMachines

/-- All states that a row leads to are among the first `n`. -/
def StateRow.StaysBelow (row : StateRow) (n : Nat) : Prop :=
  ∀ target, row.out.contains target = true → target < n

namespace Blueprint

variable {b : Blueprint} {i key : Nat} {d : Descriptor} {error : BuildError}

/-- Nothing that a blueprint mentions is missing, and its table fits a mask. -/
structure Closed (b : Blueprint) : Prop where
  ne_nil : b.states ≠ []
  length_le : b.states.length ≤ Mask.width
  edges : ∀ row ∈ b.states, ∀ i, row.out.contains i = true → i < b.states.length
  events : ∀ names, b.eventNames = some names → ∀ row ∈ b.states, ∀ i,
    row.events.contains i = true → i < names.length
  allStates : ∀ names, b.eventNames = some names → ∀ i,
    b.allStates.contains i = true → i < names.length

/-- An event is in use if a state accepts it or it is handled in every state. -/
def Uses (b : Blueprint) (event : EventId) : Prop :=
  b.allStates.contains event = true ∨ ∃ row ∈ b.states, row.events.contains event = true

/-- The first defect of a blueprint, in the order in which defects are looked for. Of the rows with
edges out of the table the first one is reported, with its greatest target; of the events in use the
greatest one. -/
inductive FirstDefect (b : Blueprint) : BuildError → Prop where
  | noStates (hnil : b.states = []) : b.FirstDefect (.noStates b.name)
  | tooManyStates (hlong : Mask.width < b.states.length) :
    b.FirstDefect (.tooManyStates b.name b.states.length)
  | stateOutOfRange {before after : List StateRow} {row : StateRow} {target : StateId}
    (hlength : b.states.length ≤ Mask.width) (hstates : b.states = before ++ row :: after)
    (hbefore : ∀ earlier ∈ before, earlier.StaysBelow b.states.length)
    (hgreatest : IsGreatest {target | row.out.contains target = true} target)
    (hstray : b.states.length ≤ target) :
    b.FirstDefect (.stateOutOfRange b.name row.name target)
  | eventOutOfRange {names : List String} {event : EventId}
    (hne : b.states ≠ []) (hlength : b.states.length ≤ Mask.width)
    (hedges : ∀ row ∈ b.states, row.StaysBelow b.states.length)
    (hnames : b.eventNames = some names) (hgreatest : IsGreatest {event | b.Uses event} event)
    (hunnamed : names.length ≤ event) :
    b.FirstDefect (.eventOutOfRange b.name event)

/-- A descriptor holds what a blueprint says. -/
structure Makes (b : Blueprint) (key : Nat) (d : Descriptor) : Prop where
  key : d.key = key
  name : d.name = b.name
  subsystem : d.subsystem = b.subsystem
  states : d.states = b.states
  allStates : d.allStates = b.allStates
  eventNames : d.eventNames = b.eventNames
  timerCallback : d.timerCallback = b.timerCallback

/-! ## Events in use -/

/-- The members of the events in use, when the table is gone through. -/
theorem contains_foldl_union (rows : List StateRow) (m : Mask) :
    (rows.foldl (fun used row => used.union row.events) m).contains i = true ↔
      m.contains i = true ∨ ∃ row ∈ rows, row.events.contains i = true := by
  induction rows generalizing m with
  | nil => simp
  | cons row rows ih => simp [ih, or_assoc]

/-- The mask of the events in use has them as its members. -/
@[simp]
theorem contains_usedEvents : b.usedEvents.contains i = true ↔ b.Uses i :=
  contains_foldl_union b.states b.allStates

/-- No event is without a name exactly if all events in use lie below the number of names. -/
theorem unnamedEvent?_eq_none_iff : b.unnamedEvent? = none ↔
    ∀ names, b.eventNames = some names → ∀ event, b.Uses event → event < names.length := by
  unfold unnamedEvent?
  cases b.eventNames with
  | none => simp
  | some names =>
    simp only [Mask.highest_filter_eq_none_iff, contains_usedEvents, Option.some.injEq,
      forall_eq']

/-- The event that is reported to have no name is the greatest one in use. -/
theorem unnamedEvent?_eq_some_iff : b.unnamedEvent? = some i ↔
    ∃ names, b.eventNames = some names ∧ IsGreatest {event | b.Uses event} i ∧
      names.length ≤ i := by
  unfold unnamedEvent?
  cases b.eventNames with
  | none => simp
  | some names =>
    simp only [Mask.highest_filter_eq_some_iff, contains_usedEvents, Option.some.injEq,
      exists_eq_left']

/-! ## Edges -/

/-- No edge is stray exactly if all edges stay in the table. -/
theorem strayEdge?_eq_none_iff :
    b.strayEdge? = none ↔ ∀ row ∈ b.states, row.StaysBelow b.states.length := by
  simp only [strayEdge?, List.findSome?_eq_none_iff, Option.map_eq_none_iff, strayTarget?,
    Mask.highest_filter_eq_none_iff, StateRow.StaysBelow]

/-- The edge that is reported to be stray starts in the first row with such an edge and leads to the
greatest target of this row. -/
theorem strayEdge?_eq_some_iff {name : String} {target : StateId} :
    b.strayEdge? = some (name, target) ↔ ∃ before row after, b.states = before ++ row :: after ∧
      row.name = name ∧ (IsGreatest {target | row.out.contains target = true} target ∧
        b.states.length ≤ target) ∧ ∀ earlier ∈ before, earlier.StaysBelow b.states.length := by
  simp only [strayEdge?, List.findSome?_eq_some_iff, Option.map_eq_some_iff,
    Option.map_eq_none_iff, strayTarget?, Mask.highest_filter_eq_none_iff,
    Mask.highest_filter_eq_some_iff, StateRow.StaysBelow, Prod.mk.injEq]
  constructor
  · rintro ⟨before, row, after, hstates, ⟨top, htop, hname, rfl⟩, hbefore⟩
    exact ⟨before, row, after, hstates, hname, htop, hbefore⟩
  · rintro ⟨before, row, after, hstates, hname, htop, hbefore⟩
    exact ⟨before, row, after, hstates, ⟨target, htop, hname, rfl⟩, hbefore⟩

/-! ## Verdicts -/

/-- The events in use of a closed blueprint have names. -/
theorem Closed.lt_of_uses (hb : b.Closed) {names : List String} (hnames : b.eventNames = some names)
    (hi : b.Uses i) : i < names.length := by
  rcases hi with hall | ⟨row, hrow, hrows⟩
  · exact hb.allStates names hnames i hall
  · exact hb.events names hnames row hrow i hrows

/-- A closed blueprint makes a descriptor. -/
theorem exists_build_of_closed (hb : b.Closed) (key : Nat) : ∃ d, b.build key = .ok d := by
  have hedges : b.strayEdge? = none := strayEdge?_eq_none_iff.2 hb.edges
  have hevents : b.unnamedEvent? = none :=
    unnamedEvent?_eq_none_iff.2 fun names hnames event => hb.lt_of_uses hnames
  unfold build
  rw [dif_neg hb.ne_nil, if_neg (Nat.not_lt_of_le hb.length_le)]
  split
  next state target hedge => cases hedges.symm.trans hedge
  next =>
    rw [hevents]
    exact ⟨_, rfl⟩

/-- The first defect of a blueprint is what building it reports. -/
theorem FirstDefect.build_eq (h : b.FirstDefect error) (key : Nat) :
    b.build key = .error error := by
  unfold build
  cases h with
  | noStates hnil => rw [dif_pos hnil]
  | tooManyStates hlong =>
    have hne : b.states ≠ [] := by
      intro hnil
      simp [hnil] at hlong
    rw [dif_neg hne, if_pos hlong]
  | @stateOutOfRange before after row target hlength hstates hbefore hgreatest hstray =>
    have hne : b.states ≠ [] := by simp [hstates]
    have hedge : b.strayEdge? = some (row.name, target) := strayEdge?_eq_some_iff.2
      ⟨before, row, after, hstates, rfl, ⟨hgreatest, hstray⟩, hbefore⟩
    rw [dif_neg hne, if_neg (Nat.not_lt_of_le hlength)]
    split
    next hfound =>
      cases hedge.symm.trans hfound
      rfl
    next hnone => cases hedge.symm.trans hnone
  | @eventOutOfRange names event hne hlength hedges hnames hgreatest hunnamed =>
    have hevent : b.unnamedEvent? = some event :=
      unnamedEvent?_eq_some_iff.2 ⟨names, hnames, hgreatest, hunnamed⟩
    rw [dif_neg hne, if_neg (Nat.not_lt_of_le hlength)]
    split
    next hfound => cases (strayEdge?_eq_none_iff.2 hedges).symm.trans hfound
    next => rw [hevent]

/-- What is built is what a closed blueprint says, and what is reported is the first defect. -/
theorem build_spec (b : Blueprint) (key : Nat) :
    match b.build key with
    | .ok d => b.Closed ∧ b.Makes key d
    | .error error => b.FirstDefect error := by
  unfold build
  by_cases hne : b.states = []
  · rw [dif_pos hne]
    exact .noStates hne
  rw [dif_neg hne]
  by_cases hlong : Mask.width < b.states.length
  · rw [if_pos hlong]
    exact .tooManyStates hlong
  rw [if_neg hlong]
  have hlength := Nat.le_of_not_lt hlong
  split
  next d hok =>
    -- No check has found anything, so the blueprint is closed.
    split at hok
    next => cases hok
    next hedge =>
      have hedges := strayEdge?_eq_none_iff.1 hedge
      split at hok
      next => cases hok
      next hevent =>
        cases hok
        have hevents := unnamedEvent?_eq_none_iff.1 hevent
        refine ⟨⟨hne, hlength, hedges, ?_, ?_⟩, ⟨rfl, rfl, rfl, rfl, rfl, rfl, rfl⟩⟩
        · intro names hnames row hrow i hi
          exact hevents names hnames i (.inr ⟨row, hrow, hi⟩)
        · intro names hnames i hi
          exact hevents names hnames i (.inl hi)
  next error herror =>
    -- Events are looked at only if no edge is stray, so a stray edge is the first defect.
    split at herror
    next name target hedge =>
      cases herror
      obtain ⟨before, row, after, hstates, rfl, ⟨hgreatest, hstray⟩, hbefore⟩ :=
        strayEdge?_eq_some_iff.1 hedge
      exact .stateOutOfRange hlength hstates hbefore hgreatest hstray
    next hedge =>
      split at herror
      next event hevent =>
        cases herror
        obtain ⟨names, hnames, hgreatest, hunnamed⟩ := unnamedEvent?_eq_some_iff.1 hevent
        exact .eventOutOfRange hne hlength (strayEdge?_eq_none_iff.1 hedge) hnames hgreatest
          hunnamed
      next => cases herror

/-! ## Names -/

/-- Every event that is accepted somewhere is called by its name, if events have names. -/
theorem Makes.eventName_eq (hd : b.Makes key d) (hb : b.Closed) {names : List String}
    {event : EventId} (hnames : d.eventNames = some names)
    (hevent : d.allStates.contains event = true ∨ ∃ state, d.accepts state event = true) :
    ∃ name, names[event]? = some name ∧ d.eventName event = name := by
  have huses : b.Uses event := by
    rcases hevent with hall | ⟨state, haccepts⟩
    · exact .inl (hd.allStates ▸ hall)
    · -- What a state accepts is in its row, and the rows are those of the blueprint.
      unfold Descriptor.accepts Descriptor.row? at haccepts
      split at haccepts
      next row hrow => exact .inr ⟨row, hd.states ▸ List.mem_of_getElem? hrow, haccepts⟩
      next => cases haccepts
  have hlt : event < names.length := hb.lt_of_uses (hd.eventNames ▸ hnames) huses
  refine ⟨names[event], List.getElem?_eq_getElem hlt, ?_⟩
  rw [Descriptor.eventName, hnames, Option.bind_some, List.getElem?_eq_getElem hlt]

/-- A blueprint makes a descriptor exactly if it is closed, and otherwise its first defect is
reported. A descriptor that was built holds what the blueprint says. In it every event that is
accepted somewhere is called by its entry among the names, if there are names, and every state that
an edge leads to is called by the name in its row. -/
theorem build_verdict (b : Blueprint) (key : Nat) :
    ((∃ d, b.build key = .ok d) ↔ b.Closed) ∧
    (∀ error, b.build key = .error error ↔ b.FirstDefect error) ∧
    ∀ d, b.build key = .ok d → b.Makes key d ∧
      (∀ names, d.eventNames = some names → ∀ event,
        (d.allStates.contains event = true ∨ ∃ state, d.accepts state event = true) →
        ∃ name, names[event]? = some name ∧ d.eventName event = name) ∧
      ∀ source target, d.permits source target = true →
        ∃ row, d.row? target = some row ∧ d.stateName target = row.name := by
  have hspec := build_spec b key
  refine ⟨⟨?_, fun hb => exists_build_of_closed hb key⟩,
    fun error => ⟨?_, fun hdefect => hdefect.build_eq key⟩, fun d hd => ?_⟩
  · rintro ⟨d, hd⟩
    rw [hd] at hspec
    exact hspec.1
  · intro herror
    rwa [herror] at hspec
  · rw [hd] at hspec
    obtain ⟨hb, hmakes⟩ := hspec
    refine ⟨hmakes, fun names hnames event => hmakes.eventName_eq hb hnames, ?_⟩
    intro source target hpermits
    have hrow := List.getElem?_eq_getElem (Descriptor.lt_of_permits hpermits)
    refine ⟨_, hrow, ?_⟩
    rw [Descriptor.stateName, Descriptor.row?, hrow]

/-- Two states that accept the same event. The edges of the second one are given by bits. -/
def twoRows (out : Nat) : Blueprint where
  name := "door"
  states := [⟨"open", .ofBits 1, .ofBits 2⟩, ⟨"shut", .ofBits 1, .ofBits out⟩]
  eventNames := some ["push"]

/-- A row that leads to the states 0 and 3 is out of place in a table of two rows, and 3 is what is
reported. If it leads to 0 only, there is a descriptor with a name for all that can happen. -/
theorem build_verdict_twoRows : (twoRows 9).FirstDefect (.stateOutOfRange "door" "shut" 3) ∧
    ∃ d, (twoRows 1).build 0 = .ok d ∧ (∃ name, ["push"][0]? = some name ∧ d.eventName 0 = name) ∧
      ∃ row, d.row? 1 = some row ∧ d.stateName 1 = row.name := by
  refine ⟨((build_verdict (twoRows 9) 0).2.1 _).1 rfl, ?_⟩
  have hbuilt : ∃ d, (twoRows 1).build 0 = .ok d ∧ d.eventNames = some ["push"] ∧
      d.accepts 0 0 = true ∧ d.permits 0 1 = true := ⟨_, rfl, rfl, rfl, rfl⟩
  obtain ⟨d, hd, hnames, haccepts, hpermits⟩ := hbuilt
  obtain ⟨-, hevents, hstates⟩ := (build_verdict (twoRows 1) 0).2.2 d hd
  exact ⟨d, hd, hevents _ hnames 0 (.inr ⟨0, haccepts⟩), hstates 0 1 hpermits⟩

end Blueprint

end StateMachines
