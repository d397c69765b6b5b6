import StateMachines.Derive.Samples
import StateMachines.Proofs.Derive.Tables
import StateMachines.Proofs.Descriptor

/-!
# Numbers of variants

The variants of an enum are numbered three times: by the conversions that are generated for it, by
the bits that stand for targets in the rows, and by the order of the rows and of the display names.
All of these agree with the order of declaration. So the rows say what the variants declare, they
can always be made, and together with the names of the events they always make a descriptor.

## Main definitions

* `Conversions.Numbers`: conversions that number a list of variants.
* `StateVariant.Describes`: a row that says what a variant declares.
* `StateVariant.Lists`, `StateVariant.LeadsTo`: what a variant declares.

## Main results

* `Conversions.numbers_ofVariants`: generated conversions are inverse to each other.
* `StateEnum.WellFormed.exists_rows`: the rows of a state enum can be made.
* `tables_build`: all numberings agree, and the tables make a descriptor.
-/

namespace StateMachines.Derive

/-! ## Conversions -/

namespace Conversions

variable {c : Conversions} {enum ident : String} {variants : List String} {number : Nat}

/-- Conversions that number a list of variants: the variants and the numbers below their count are
converted into each other, and other numbers are handed back. -/
structure Numbers (c : Conversions) (variants : List String) : Prop where
  variant : ∀ number ident, c.variant? number = .ok ident ↔ variants[number]? = some ident
  inverse : ∀ number ident, c.number? ident = some number ↔ c.variant? number = .ok ident
  stray : ∀ number, variants.length ≤ number → c.variant? number = .error number

/-- Looking for a variant in a numbered list is looking for its place. -/
theorem lookup_zipIdx (variants : List String) (ident : String) (start : Nat) :
    (variants.zipIdx start).lookup ident = (variants.idxOf? ident).map (start + ·) := by
  induction variants generalizing start with
  | nil => rfl
  | cons first rest ih =>
    rw [List.zipIdx_cons, List.lookup_cons, ih, List.idxOf?_cons]
    by_cases heq : ident = first
    · simp [heq]
    · -- The place is found in the rest, one further on.
      have hne : ¬ first = ident := fun h => heq h.symm
      simp [beq_eq_false_iff_ne.2 heq, hne, Function.comp_def, Nat.add_assoc, Nat.add_comm 1]

/-- Looking for a number in a numbered list is looking at a place. -/
theorem lookup_swap_zipIdx (variants : List String) (start number : Nat) :
    ((variants.zipIdx start).map fun (variant, i) => (i, variant)).lookup (start + number) =
      variants[number]? := by
  induction variants generalizing start number with
  | nil => rfl
  | cons first rest ih =>
    rw [List.zipIdx_cons, List.map_cons, List.lookup_cons]
    cases number with
    | zero => simp
    | succ number =>
      have hne : ¬ start + (number + 1) = start := by omega
      have hnext : start + (number + 1) = start + 1 + number := by omega
      simp only [beq_eq_false_iff_ne.2 hne, List.getElem?_cons_succ]
      rw [hnext, ih]

/-- The number of a variant is its place. -/
theorem number?_ofVariants : (ofVariants enum variants).number? ident = variants.idxOf? ident := by
  simp [ofVariants, number?, lookup_zipIdx]

/-- The variant of a number is at that place. -/
theorem variant?_ofVariants :
    (ofVariants enum variants).variant? number =
      match variants[number]? with
      | some ident => .ok ident
      | none => .error number := by
  have hlookup := lookup_swap_zipIdx variants 0 number
  rw [Nat.zero_add] at hlookup
  unfold variant? ofVariants
  cases hident : variants[number]? <;> simp only [hlookup, hident]

/-- The conversions that are generated for different variants are inverse to each other. -/
theorem numbers_ofVariants (hnodup : variants.Nodup) :
    (ofVariants enum variants).Numbers variants := by
  have hvariant : ∀ number ident,
      (ofVariants enum variants).variant? number = .ok ident ↔ variants[number]? = some ident := by
    intro number ident
    rw [variant?_ofVariants]
    split <;> simp [*]
  refine ⟨hvariant, fun number ident => ?_, fun number hlength => ?_⟩
  · rw [hvariant, number?_ofVariants, idxOf?_eq_some_iff_of_nodup hnodup]
  · rw [variant?_ofVariants, List.getElem?_eq_none hlength]

end Conversions

/-! ## Rows -/

namespace StateVariant

variable {v : StateVariant} {idents : List String} {states events : Conversions} {row : StateRow}
  {eventEnum : Option Path}

/-- A variant names the state of a number as a target. -/
def LeadsTo (v : StateVariant) (states : Conversions) (number : Nat) : Prop :=
  ∃ target ∈ v.out, ∃ ident, target.name? = some ident ∧ states.number? ident = some number

/-- A variant lists the event of a number. -/
def Lists (v : StateVariant) (events : Conversions) (number : Nat) : Prop :=
  ∃ event ∈ v.events, ∃ ident, event.name? = some ident ∧ events.number? ident = some number

/-- A row says what a variant declares. -/
structure Describes (v : StateVariant) (states events : Conversions) (row : StateRow) : Prop where
  name : row.name = v.name.getD v.ident
  out : ∀ number, row.out.contains number = true ↔ v.LeadsTo states number
  events : ∀ number, row.events.contains number = true ↔ v.Lists events number

end StateVariant

namespace StateVariant

variable {v : StateVariant} {idents : List String} {events : Conversions} {row : StateRow}
  {eventEnum : Option Path} {number : Nat}

/-- The code for a row adds the events that the variant lists. -/
theorem mem_events_code (h : v.errors idents eventEnum = []) :
    (∃ entry ∈ ((v.derived idents).code eventEnum).events, events.number? entry.2 = some number) ↔
      v.Lists events number := by
  unfold DerivedState.code Lists
  cases eventEnum with
  | some enum =>
    dsimp only [derived]
    constructor
    · rintro ⟨entry, hentry, hnumber⟩
      obtain ⟨ident, hident, rfl⟩ := List.mem_map.1 hentry
      obtain ⟨event, hevent, hname⟩ := List.mem_filterMap.1 hident
      exact ⟨event, hevent, ident, hname, hnumber⟩
    · rintro ⟨event, hevent, ident, hname, hnumber⟩
      have hident : ident ∈ v.events.filterMap Path.name? :=
        List.mem_filterMap.2 ⟨event, hevent, hname⟩
      exact ⟨(enum, ident), List.mem_map.2 ⟨ident, hident, rfl⟩, hnumber⟩
  | none =>
    -- Without an event enum the variant lists no events.
    have hnone : v.events = [] := by
      by_contra hsome
      obtain ⟨enum, henum⟩ := exists_eventEnum_of_errors h hsome
      cases henum
    simp [hnone]

/-- The row of a variant can be made if its events have numbers, and it says what the variant
declares. -/
theorem exists_row (enum : String) (h : v.errors idents eventEnum = [])
    (hlength : idents.length ≤ Mask.width)
    (hlisted : ∀ event ∈ v.events, ∀ ident, event.name? = some ident →
      ∃ number < Mask.width, events.number? ident = some number) :
    ∃ row, ((v.derived idents).code eventEnum).row? events = some row ∧
      v.Describes (.ofVariants enum idents) events row := by
  -- Each event that the code adds is one that the variant lists, so it has a number.
  have hnumbered : ∀ entry ∈ ((v.derived idents).code eventEnum).events,
      ∃ number < Mask.width, events.number? entry.2 = some number := by
    intro entry hentry
    unfold DerivedState.code at hentry
    cases eventEnum with
    | some enum =>
      obtain ⟨ident, hident, rfl⟩ := List.mem_map.1 hentry
      obtain ⟨event, hevent, hname⟩ := List.mem_filterMap.1 hident
      exact hlisted event hevent ident hname
    | none => cases hentry
  obtain ⟨numbers, hnumbers⟩ := exists_mapM fun entry hentry =>
    (hnumbered entry hentry).imp fun _ hnumber => hnumber.2
  obtain ⟨-, hget⟩ := getElem?_of_mapM hnumbers
  have hmem : ∀ number, number ∈ numbers ↔ v.Lists events number := by
    intro number
    rw [← mem_events_code h, List.mem_iff_getElem?]
    simp only [hget, Option.bind_eq_some_iff, List.mem_iff_getElem?]
    exact ⟨fun ⟨i, entry, hentry, hnumber⟩ => ⟨entry, ⟨i, hentry⟩, hnumber⟩,
      fun ⟨entry, ⟨i, hentry⟩, hnumber⟩ => ⟨i, entry, hentry, hnumber⟩⟩
  have hfits : ∀ number ∈ numbers, number < Mask.width := by
    intro number hnumber
    obtain ⟨event, hevent, ident, hname, hplace⟩ := (hmem number).1 hnumber
    obtain ⟨number', hlt, hplace'⟩ := hlisted event hevent ident hname
    exact Option.some.inj (hplace.symm.trans hplace') ▸ hlt
  obtain ⟨mask, hmask, hmembers⟩ := Mask.exists_ofList? hfits
  refine ⟨⟨v.name.getD v.ident, mask, (v.derived idents).out⟩, ?_, rfl, fun number => ?_,
    fun number => (hmembers number).trans (hmem number)⟩
  · simp only [RowCode.row?, hnumbers, Option.bind_eq_bind, Option.bind_some, hmask]
    simp [DerivedState.code, derived]
  · rw [contains_out_derived v hlength]
    simp only [LeadsTo, targetNumber?, Option.bind_eq_some_iff, Conversions.number?_ofVariants]

end StateVariant

/-! ## Tables -/

variable {e : StateEnum} {ev : EventEnum} {t : StateTable} {et : EventTable}
  {vs : List StateVariant} {evs : List EventVariant} {events : Conversions} {rows : List StateRow}
  {b : Blueprint}

/-- The conversions that are generated for a state enum number its variants. -/
theorem StateEnum.conversions_table (e : StateEnum) (vs : List StateVariant) :
    (e.table vs).code.conversions = .ofVariants e.ident (vs.map (·.ident)) := by
  simp [table, StateTable.code, StateVariant.derived, Function.comp_def]

/-- The conversions that are generated for an event enum number its variants. -/
theorem EventEnum.conversions_table (ev : EventEnum) (evs : List EventVariant) :
    (ev.table evs).code.conversions = .ofVariants ev.ident (evs.map (·.ident)) := by
  simp [table, EventTable.code, Function.comp_def]

/-- The display names come in the order of the variants. -/
theorem EventEnum.names_table (ev : EventEnum) (evs : List EventVariant) :
    (ev.table evs).code.names = evs.map fun v => v.name.getD v.ident := by
  simp [table, EventTable.code, Function.comp_def]

/-- The number of an event is below the number of display names. -/
theorem EventEnum.lt_of_number? {number : Nat} {ident : String}
    (h : (ev.table evs).code.conversions.number? ident = some number) :
    number < (ev.table evs).code.names.length := by
  rw [ev.conversions_table, Conversions.number?_ofVariants] at h
  rw [ev.names_table]
  simpa using lt_of_idxOf? h

/-- The rows of a state enum can be made if the events that it lists have numbers. Each of them
says what the variant at its place declares. -/
theorem StateEnum.WellFormed.exists_rows (he : e.WellFormed vs)
    (hlisted : ∀ v ∈ vs, ∀ event ∈ v.events, ∀ ident, event.name? = some ident →
      ∃ number < Mask.width, events.number? ident = some number) :
    ∃ rows, (e.table vs).code.table? events = some rows ∧ rows.length = vs.length ∧
      ∀ (number : Nat) (v : StateVariant), vs[number]? = some v →
        ∃ row, rows[number]? = some row ∧
          v.Describes (e.table vs).code.conversions events row := by
  have hlength : (vs.map (·.ident)).length ≤ Mask.width := by
    rw [List.length_map]
    exact he.length_le
  have hrow := fun (v : StateVariant) hv =>
    v.exists_row e.ident (he.errors v hv) hlength (hlisted v hv)
  have hmade : ∀ code ∈ (e.table vs).code.rows, ∃ row, code.row? events = some row := by
    intro code hcode
    obtain ⟨state, hstate, rfl⟩ := List.mem_map.1 hcode
    obtain ⟨v, hv, rfl⟩ := List.mem_map.1 hstate
    obtain ⟨row, hrow, -⟩ := hrow v hv
    exact ⟨row, hrow⟩
  obtain ⟨rows, hrows⟩ := exists_mapM hmade
  obtain ⟨hcount, hget⟩ := getElem?_of_mapM hrows
  -- The row of a number is made of the code of the variant of that number.
  have hplace : ∀ number : Nat, rows[number]? = vs[number]?.bind fun v : StateVariant =>
      ((v.derived (vs.map (·.ident))).code e.events).row? events := by
    intro number
    rw [hget]
    simp [StateEnum.table, StateTable.code, Option.bind_map, Function.comp_def]
  refine ⟨rows, hrows, ?_, fun number v hv => ?_⟩
  · rw [hcount]
    simp [StateEnum.table, StateTable.code]
  · obtain ⟨row, hmaderow, hdescribes⟩ := hrow v (List.mem_of_getElem? hv)
    rw [e.conversions_table]
    exact ⟨row, by rw [hplace, hv]; exact hmaderow, hdescribes⟩

/-- A blueprint is closed if its rows describe the variants of a state enum, if it has the display
names of an event enum, and if the further events have numbers. -/
theorem StateEnum.WellFormed.closed (he : e.WellFormed vs) (hlength : b.states.length = vs.length)
    (hdescribes : ∀ (number : Nat) (v : StateVariant), vs[number]? = some v →
      ∃ row, b.states[number]? = some row ∧
        v.Describes (e.table vs).code.conversions (ev.table evs).code.conversions row)
    (hnamed : b.eventNames = some (ev.table evs).code.names)
    (hall : ∀ number, b.allStates.contains number = true → number < evs.length) : b.Closed := by
  -- Every row belongs to a variant, so its members are numbers of states and of events.
  have hrow : ∀ row ∈ b.states, ∃ v : StateVariant,
      v.Describes (e.table vs).code.conversions (ev.table evs).code.conversions row := by
    intro row hrow
    obtain ⟨number, hnumber⟩ := List.mem_iff_getElem?.1 hrow
    have hlt : number < vs.length := hlength ▸ (List.getElem?_eq_some_iff.1 hnumber).1
    obtain ⟨row', hrow', hdescribes'⟩ :=
      hdescribes number vs[number] (List.getElem?_eq_getElem hlt)
    obtain rfl := Option.some.inj (hrow'.symm.trans hnumber)
    exact ⟨_, hdescribes'⟩
  -- There are states and not too many, the edges stay in the table, and the events have names.
  refine ⟨?_, hlength ▸ he.length_le, fun row hmem i hi => ?_, fun names hnames row hmem i hi => ?_,
    fun names hnames i hi => ?_⟩
  · rw [← List.length_pos_iff, hlength, List.length_pos_iff]
    exact he.ne_nil
  · obtain ⟨v, hv⟩ := hrow row hmem
    obtain ⟨target, -, ident, -, hnumber⟩ := (hv.out i).1 hi
    rw [e.conversions_table, Conversions.number?_ofVariants] at hnumber
    rw [hlength]
    simpa using lt_of_idxOf? hnumber
  · obtain ⟨v, hv⟩ := hrow row hmem
    obtain ⟨event, -, ident, -, hnumber⟩ := (hv.events i).1 hi
    obtain rfl := Option.some.inj (hnames.symm.trans hnamed)
    exact EventEnum.lt_of_number? hnumber
  · obtain rfl := Option.some.inj (hnames.symm.trans hnamed)
    rw [ev.names_table, List.length_map]
    exact hall i hi

/-- The tables of an accepted state enum with different variants and of an accepted event enum that
has all events the state enum lists. The conversions number the variants in the order of their
declaration, those of the events provided that these are different; the display names and the rows
come in this order, every row can be made and says what its variant declares. With any further
events that have numbers, and under any name, rows and display names make a descriptor. -/
theorem tables_build (hstates : deriveStates e = .ok t) (hevents : deriveEvents ev = .ok et)
    (hvs : e.variants = some vs) (hevs : ev.variants = some evs)
    (hdistinct : (vs.map (·.ident)).Nodup)
    (hlisted : ∀ v ∈ vs, ∀ event ∈ v.events, ∀ ident, event.name? = some ident →
      ident ∈ evs.map (·.ident)) :
    t.code.conversions.Numbers (vs.map (·.ident)) ∧
    ((evs.map (·.ident)).Nodup → et.code.conversions.Numbers (evs.map (·.ident))) ∧
    et.code.names = evs.map (fun v => v.name.getD v.ident) ∧
    ∃ rows, t.code.table? et.code.conversions = some rows ∧ rows.length = vs.length ∧
      (∀ (number : Nat) (v : StateVariant), vs[number]? = some v →
        ∃ row, rows[number]? = some row ∧
          v.Describes t.code.conversions et.code.conversions row) ∧
      ∀ b : Blueprint, b.states = rows → b.eventNames = some et.code.names →
        (∀ number, b.allStates.contains number = true → number < evs.length) →
        ∀ key, ∃ d, b.build key = .ok d ∧ d.states = rows := by
  obtain ⟨vs', he, rfl⟩ := exists_wellFormed_of_ok hstates
  obtain rfl : vs' = vs := Option.some.inj (he.variants.symm.trans hvs)
  obtain ⟨evs', hevs', -, hcount, rfl⟩ := deriveEvents_eq_ok_iff.1 hevents
  obtain rfl : evs' = evs := Option.some.inj (hevs'.symm.trans hevs)
  -- Every listed event is a variant of the event enum, which is not too long for a mask.
  have hnumbered : ∀ v ∈ vs', ∀ event ∈ v.events, ∀ ident, event.name? = some ident →
      ∃ number < Mask.width, (ev.table evs').code.conversions.number? ident = some number := by
    intro v hv event hevent ident hname
    have hmem := hlisted v hv event hevent ident hname
    obtain ⟨number, hnumber⟩ :=
      Option.ne_none_iff_exists'.1 (mt List.idxOf?_eq_none_iff.1 (not_not.2 hmem))
    refine ⟨number, ?_, by rw [ev.conversions_table, Conversions.number?_ofVariants, hnumber]⟩
    exact Nat.lt_of_lt_of_le (by simpa using lt_of_idxOf? hnumber) hcount
  obtain ⟨rows, hrows, hlength, hdescribes⟩ := he.exists_rows hnumbered
  refine ⟨?_, fun hnodup => ?_, ev.names_table evs', rows, hrows, hlength, hdescribes, ?_⟩
  · rw [e.conversions_table]
    exact Conversions.numbers_ofVariants hdistinct
  · rw [ev.conversions_table]
    exact Conversions.numbers_ofVariants hnodup
  · rintro b rfl hnamed hall key
    obtain ⟨d, hd⟩ :=
      Blueprint.exists_build_of_closed (he.closed hlength hdescribes hnamed hall) key
    exact ⟨d, hd, Blueprint.states_of_build hd⟩

/-- The tables of a call make a descriptor in which an active call accepts its release, the fourth
event, and may lead to the fourth state. -/
theorem call_tables_build : ∃ t et rows d,
    deriveStates callState = .ok t ∧ deriveEvents callEvent = .ok et ∧
      t.code.table? et.code.conversions = some rows ∧
      ({ name := "CALL", states := rows, allStates := .ofBits 8
         eventNames := some et.code.names } : Blueprint).build 7 = .ok d ∧
      t.code.conversions.variant? 3 = .ok "Released" ∧ t.code.conversions.variant? 4 = .error 4 ∧
      et.code.names[3]? = some "MNCC_REL_IND" ∧
      d.accepts 2 3 = true ∧ d.permits 2 3 = true := by
  have hformed : callState.WellFormed (callState.variants.getD []) :=
    ⟨rfl, by decide, by decide, by decide⟩
  have hreachable :
      unreachableErrors (callState.table (callState.variants.getD [])).states = [] := by
    cbv
  have hstates : deriveStates callState = .ok (callState.table (callState.variants.getD [])) := by
    rw [deriveStates_of_wellFormed hformed, hreachable]
    rfl
  have hevents : deriveEvents callEvent = .ok (callEvent.table (callEvent.variants.getD [])) := rfl
  have hall : ∀ number, (Mask.ofBits 8).contains number = true → number < 4 := by
    intro number hnumber
    have hmem : number ∈ [3] := Mask.mem_toList.2 hnumber
    rw [List.mem_singleton.1 hmem]
    decide
  obtain ⟨hnumbers, -, -, rows, hrows, -, hdescribes, hbuild⟩ :=
    tables_build hstates hevents rfl rfl (by decide) (by decide)
  obtain ⟨d, hd, hdstates⟩ :=
    hbuild { name := "CALL", states := rows, allStates := .ofBits 8, eventNames := _ } rfl rfl
      hall 7
  obtain ⟨row, hrow, -, hout, haccepted⟩ := hdescribes 2 _ rfl
  refine ⟨_, _, rows, d, hstates, hevents, hrows, hd, (hnumbers.variant _ _).2 rfl,
    hnumbers.stray 4 (by decide), rfl, ?_, ?_⟩
  · simp only [Descriptor.accepts, Descriptor.row?, hdstates, hrow]
    exact (haccepted 3).2 ⟨.ofName "Release", by decide, "Release", rfl, rfl⟩
  · simp only [Descriptor.permits, Descriptor.row?, hdstates, hrow]
    exact (hout 3).2 ⟨.ofName "Released", by decide, "Released", rfl, rfl⟩

end StateMachines.Derive
