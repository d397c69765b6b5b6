import StateMachines.Proofs.Source.Items
import StateMachines.Proofs.Source.Spelling

/-!
# Tables from source text

From every text of an enum the same is derived as from the enum itself, tables or errors: the text
is read as an item, the item declares the enum, whatever the order in which its attributes say so,
and the tables are derived from what is declared.

## Main results

* `foldl_set`, `foldl_takes`: fields are set in any order.
* `stateVariant_reading`, `eventVariant_reading`, `stateEnum_reading`: attributes declare what is
  given there.
* `tables_of_text`: tables from source text are those of the enum.
-/

namespace StateMachines.Source

open Derive (Path StateEnum StateVariant EventEnum EventVariant)

variable {ρ : Type} {gs : List Given} {ss : List Setting}

/-! ## Setting fields -/

/-- A setting that means something for a field has its name. -/
theorem Given.MeantBy.path {given : Given} {s : Setting} (hs : given.MeantBy s) :
    s.path.toText = given.field := by
  have hpath : s.path = .ofName given.field := by
    cases given <;> exact hs.1
  rw [hpath]
  rfl

/-- Each setting can be read, and takes a field over. -/
def TakesOver (fields : Fields ρ) (takeOver : String → ρ → ρ) (given : Given) : Prop :=
  ∀ s, given.MeantBy s → ∃ setField, fields given.field = some setField ∧
    ∀ record, setField s record = .ok (takeOver given.field record)

/-- Fields that are given once are taken over one by one, without an error. -/
theorem foldl_set {fields : Fields ρ} {takeOver : String → ρ → ρ}
    (hss : List.Forall₂ (fun given s => given.MeantBy s) gs ss)
    (hnodup : (gs.map Given.field).Nodup) (htakes : ∀ given ∈ gs, TakesOver fields takeOver given)
    (r : Reading ρ) (hfresh : ∀ given ∈ gs, given.field ∉ r.given) (herrors : r.errors = []) :
    (ss.foldl (Reading.set fields) r).errors = [] ∧
      (ss.foldl (Reading.set fields) r).record =
        (gs.map Given.field).foldl (fun record field => takeOver field record) r.record := by
  induction hss generalizing r with
  | nil => exact ⟨herrors, rfl⟩
  | @cons given s gs ss hs _ ih =>
    obtain ⟨hhead, hnodup⟩ := List.nodup_cons.1 hnodup
    obtain ⟨htake, htakes⟩ := List.forall_mem_cons.1 htakes
    obtain ⟨hnew, hfresh⟩ := List.forall_mem_cons.1 hfresh
    obtain ⟨setField, hfield, hset⟩ := htake s hs
    have hstep : r.set fields s = { record := takeOver given.field r.record
                                    given := given.field :: r.given
                                    errors := [] } := by
      simp only [Reading.set, hs.path, hfield, if_neg hnew, hset, herrors]
    rw [List.foldl_cons, List.map_cons, List.foldl_cons, hstep]
    refine ih hnodup htakes _ (fun other hother hmem => ?_) rfl
    rcases List.mem_cons.1 hmem with heq | hmem
    · exact hhead (heq ▸ List.mem_map_of_mem hother)
    · exact hfresh other hother hmem

/-! ## Declarations -/

attribute [ext] StateVariant EventVariant StateEnum

/-- Takes a field over from another variant. -/
def takeOverState (v : StateVariant) (field : String) (record : StateVariant) : StateVariant :=
  { record with
    name := if field = "name" then v.name else record.name
    out := if field = "out" then v.out else record.out
    events := if field = "events" then v.events else record.events }

/-- As for the variants of an event enum. -/
def takeOverEvent (v : EventVariant) (field : String) (record : EventVariant) : EventVariant :=
  { record with name := if field = "name" then v.name else record.name }

/-- Takes a field over from another enum. -/
def takeOverEnum (e : StateEnum) (field : String) (record : StateEnum) : StateEnum :=
  { record with
    events := if field = "events" then e.events else record.events
    allowUnreachable :=
      if field = "allow_unreachable" then e.allowUnreachable else record.allowUnreachable }

/-- What is gathered from attributes is taken over field by field, without an error. -/
theorem ofAttributes_eq {own : String} {fields : Fields ρ} {takeOver : String → ρ → ρ}
    {attributes : List Setting} (hgathers : Gathers (some own) attributes ss)
    (hss : List.Forall₂ (fun given s => given.MeantBy s) gs ss)
    (hnodup : (gs.map Given.field).Nodup) (htakes : ∀ given ∈ gs, TakesOver fields takeOver given)
    (record : ρ) :
    (Reading.ofAttributes own fields record attributes).errors = [] ∧
      (Reading.ofAttributes own fields record attributes).record =
        (gs.map Given.field).foldl (fun record field => takeOver field record) record := by
  rw [Reading.ofAttributes, hgathers own rfl]
  exact foldl_set hss hnodup htakes { record } (by simp) rfl

section

variable {α : Type} {value : α} {takeOver : String → ρ → ρ} {record : ρ}

/-- What is taken over already stays as it is. -/
theorem foldl_keeps (get : ρ → α)
    (hkeeps : ∀ field record, get record = value → get (takeOver field record) = value)
    (fields : List String) (hrecord : get record = value) :
    get (fields.foldl (fun record field => takeOver field record) record) = value := by
  induction fields generalizing record with
  | nil => exact hrecord
  | cons field fields ih => exact ih (hkeeps field record hrecord)

/-- What is given for a field is taken over, wherever it stands among the others. -/
theorem foldl_takes (get : ρ → α) (field : String)
    (hkeeps : ∀ field record, get record = value → get (takeOver field record) = value)
    (htakes : ∀ record, get (takeOver field record) = value)
    (hgiven : value = get record ∨ ∃ given ∈ gs, given.field = field) :
    get ((gs.map Given.field).foldl (fun record field => takeOver field record) record) =
      value := by
  rcases hgiven with hrecord | hgiven
  · exact foldl_keeps get hkeeps _ hrecord.symm
  · obtain ⟨before, after, hfields⟩ := List.append_of_mem (List.mem_map.2 hgiven)
    rw [hfields, List.foldl_append, List.foldl_cons]
    exact foldl_keeps get hkeeps after (htakes _)

end

/-- The attributes of a state declare what is given in them. -/
theorem stateVariant_reading {v : StateVariant} {attributes : List Setting}
    (hgives : StateVariant.Gives v gs)
    (hss : List.Forall₂ (fun given s => given.MeantBy s) gs ss)
    (hgathers : Gathers (some "state") attributes ss) :
    (Reading.ofAttributes "state" stateFields { ident := v.ident } attributes).errors = [] ∧
      (Reading.ofAttributes "state" stateFields { ident := v.ident } attributes).record = v := by
  have htakes : ∀ given ∈ gs, TakesOver stateFields (takeOverState v) given := by
    intro given hgiven s hs
    rcases hgives.declared given hgiven with ⟨name, hname, rfl⟩ | rfl | rfl
    · exact ⟨_, rfl, fun record => by simp [hs.2, takeOverState, hname, Given.field]⟩
    · exact ⟨_, rfl, fun record => by simp [hs.2, takeOverState, Given.field]⟩
    · exact ⟨_, rfl, fun record => by simp [hs.2, takeOverState, Given.field]⟩
  obtain ⟨herrors, hrecord⟩ := ofAttributes_eq hgathers hss hgives.nodup htakes { ident := v.ident }
  have hname : v.name = none ∨ ∃ given ∈ gs, given.field = "name" :=
    v.name.eq_none_or_eq_some.imp_right fun h =>
      h.elim fun name hname => ⟨_, hgives.name name hname, rfl⟩
  have hout : v.out = [] ∨ ∃ given ∈ gs, given.field = "out" :=
    or_iff_not_imp_left.2 fun hne => ⟨_, hgives.out hne, rfl⟩
  have hevents : v.events = [] ∨ ∃ given ∈ gs, given.field = "events" :=
    or_iff_not_imp_left.2 fun hne => ⟨_, hgives.events hne, rfl⟩
  refine ⟨herrors, hrecord.trans (StateVariant.ext ?ident ?name ?out ?events)⟩
  case ident => exact foldl_keeps StateVariant.ident (by simp [takeOverState]) _ rfl
  case name =>
    exact foldl_takes StateVariant.name "name" (by simp +contextual [takeOverState]) (fun _ => rfl)
      hname
  case out =>
    exact foldl_takes StateVariant.out "out" (by simp +contextual [takeOverState]) (fun _ => rfl)
      hout
  case events =>
    exact foldl_takes StateVariant.events "events" (by simp +contextual [takeOverState])
      (fun _ => rfl) hevents

/-- The attributes of an event declare what is given in them. -/
theorem eventVariant_reading {v : EventVariant} {attributes : List Setting}
    (hgives : EventVariant.Gives v gs)
    (hss : List.Forall₂ (fun given s => given.MeantBy s) gs ss)
    (hgathers : Gathers (some "event") attributes ss) :
    (Reading.ofAttributes "event" eventFields { ident := v.ident } attributes).errors = [] ∧
      (Reading.ofAttributes "event" eventFields { ident := v.ident } attributes).record = v := by
  have htakes : ∀ given ∈ gs, TakesOver eventFields (takeOverEvent v) given := by
    intro given hgiven s hs
    obtain ⟨name, hname, rfl⟩ := hgives.declared given hgiven
    exact ⟨_, rfl, fun record => by simp [hs.2, takeOverEvent, hname, Given.field]⟩
  obtain ⟨herrors, hrecord⟩ := ofAttributes_eq hgathers hss hgives.nodup htakes { ident := v.ident }
  have hname : v.name = none ∨ ∃ given ∈ gs, given.field = "name" :=
    v.name.eq_none_or_eq_some.imp_right fun h =>
      h.elim fun name hname => ⟨_, hgives.name name hname, rfl⟩
  refine ⟨herrors, hrecord.trans (EventVariant.ext ?ident ?name)⟩
  case ident => exact foldl_keeps EventVariant.ident (by simp [takeOverEvent]) _ rfl
  case name =>
    exact foldl_takes EventVariant.name "name" (by simp +contextual [takeOverEvent]) (fun _ => rfl)
      hname

/-- The attributes of a state enum declare what is given in them. -/
theorem stateEnum_reading {e : StateEnum} {attributes : List Setting}
    (hgives : StateEnum.Gives e gs)
    (hss : List.Forall₂ (fun given s => given.MeantBy s) gs ss)
    (hgathers : Gathers (some "fsm") attributes ss) :
    (Reading.ofAttributes "fsm" stateEnumFields { ident := e.ident, variants := none }
      attributes).errors = [] ∧
    (Reading.ofAttributes "fsm" stateEnumFields { ident := e.ident, variants := none }
      attributes).record = { e with variants := none } := by
  have htakes : ∀ given ∈ gs, TakesOver stateEnumFields (takeOverEnum e) given := by
    intro given hgiven s hs
    rcases hgives.declared given hgiven with ⟨path, hpath, rfl⟩ | rfl
    · exact ⟨_, rfl, fun record => by simp [hs.2, takeOverEnum, hpath, Given.field]⟩
    · exact ⟨_, rfl, fun record => by simp [hs.2, takeOverEnum, Given.field]⟩
  obtain ⟨herrors, hrecord⟩ := ofAttributes_eq hgathers hss hgives.nodup htakes
    { ident := e.ident, variants := none }
  have hevents : e.events = none ∨ ∃ given ∈ gs, given.field = "events" :=
    e.events.eq_none_or_eq_some.imp_right fun h =>
      h.elim fun path hpath => ⟨_, hgives.events path hpath, rfl⟩
  have hallow : e.allowUnreachable = false ∨ ∃ given ∈ gs, given.field = "allow_unreachable" :=
    e.allowUnreachable.eq_false_or_eq_true.symm.imp_right fun hallow =>
      ⟨_, hgives.allowUnreachable hallow, rfl⟩
  refine ⟨herrors, hrecord.trans (StateEnum.ext ?ident ?variants ?events ?allow)⟩
  case ident => exact foldl_keeps StateEnum.ident (by simp [takeOverEnum]) _ rfl
  case variants => exact foldl_keeps StateEnum.variants (by simp [takeOverEnum]) _ rfl
  case events =>
    exact foldl_takes StateEnum.events "events" (by simp +contextual [takeOverEnum]) (fun _ => rfl)
      hevents
  case allow =>
    exact foldl_takes StateEnum.allowUnreachable "allow_unreachable"
      (by simp +contextual [takeOverEnum]) (fun _ => rfl) hallow

/-! ## Tables -/

/-- Variants are declared if nothing is wrong with any of them. -/
theorem readVariants_eq {read : Variant → Reading ρ} {records : List ρ} {vs : List Variant}
    (hread : List.Forall₂ (fun record v => (read v).errors = [] ∧ (read v).record = record)
      records vs) : readVariants read vs = .ok records := by
  have herrors : (vs.map read).flatMap (·.errors) = [] ∧
      (vs.map read).map (·.record) = records := by
    induction hread with
    | nil => exact ⟨rfl, rfl⟩
    | cons hv _ ih =>
      rw [List.map_cons, List.flatMap_cons, List.map_cons, hv.1, hv.2, ih.1, ih.2]
      exact ⟨rfl, rfl⟩
  unfold readVariants
  simp only [herrors.1, herrors.2]

/-- Variants without fields have the right shape. -/
theorem shapeErrors_eq_nil {item : Item} {vs : List Variant} (hvariants : item.variants = some vs)
    (hvs : ∀ v ∈ vs, v.shape = .unit) : item.shapeErrors = [] := by
  rw [Item.shapeErrors, hvariants]
  refine List.filterMap_eq_nil_iff.2 fun v hv => ?_
  rw [Variant.shapeError?, hvs v hv]

/-- The fields of a state that something is given for have names. -/
theorem StateVariant.Gives.isFree {v : StateVariant} (hgives : StateVariant.Gives v gs) :
    ∀ given ∈ gs, IsFree given.field := by
  intro given hgiven
  rcases hgives.declared given hgiven with ⟨name, -, rfl⟩ | rfl | rfl
  · exact show isName "name" = true by decide
  · exact show isName "out" = true by decide
  · exact show isName "events" = true by decide

/-- As for the fields of an event. -/
theorem EventVariant.Gives.isFree {v : EventVariant} (hgives : EventVariant.Gives v gs) :
    ∀ given ∈ gs, IsFree given.field := by
  intro given hgiven
  obtain ⟨name, -, rfl⟩ := hgives.declared given hgiven
  exact show isName "name" = true by decide

/-- As for the fields of a state enum. -/
theorem StateEnum.Gives.isFree {e : StateEnum} (hgives : StateEnum.Gives e gs) :
    ∀ given ∈ gs, IsFree given.field := by
  intro given hgiven
  rcases hgives.declared given hgiven with ⟨path, -, rfl⟩ | rfl
  · exact show isName "events" = true by decide
  · exact show isName "allow_unreachable" = true by decide

/-- A text that is read as an item is one. -/
theorem readItem_eq {ts : List Tree} {text : String} {item : Item} (htext : TextOf ts text)
    (hitem : Reads (Grammar.nested (4 * treesSize ts + 4)).item ts item []) :
    readItem text = .ok item := by
  rw [readItem, htext.read?_eq]
  simp only [readPart, hitem.readAll]

/-- Variants are read, whatever can be given for them. -/
theorem variants_readPart {ν : Type} {gives : ν → List Given → Prop} {ident : ν → String}
    {own : String} {n : Nat} (hown : IsFree own)
    (hfields : ∀ v gs, gives v gs → ∀ given ∈ gs, IsFree given.field) (v : ν) (part : List Tree)
    (hpart : ∃ gs, gives v gs ∧ VariantTrees own (ident v) gs part) :
    ∃ read, (∃ gs, gives v gs ∧ VariantMeans own (ident v) gs read) ∧
      ReadsPart (Grammar.nested (n + 4)).variant part read := by
  obtain ⟨gs, hgives, htrees⟩ := hpart
  obtain ⟨read, hmeans, hread⟩ := variant_readsPart htrees hown (hfields v gs hgives)
  exact ⟨read, ⟨gs, hgives, hmeans⟩, hread⟩

/-- Variants that mean something have no fields. -/
theorem shape_eq_unit {ν : Type} {gives : ν → List Given → Prop} {ident : ν → String}
    {own : String} {variants : List ν} {vs : List Variant}
    (hvs : List.Forall₂ (fun v read => ∃ gs, gives v gs ∧ VariantMeans own (ident v) gs read)
      variants vs) : ∀ v ∈ vs, v.shape = .unit := by
  induction hvs with
  | nil => simp
  | cons hv _ ih =>
    obtain ⟨gs, -, hmeans⟩ := hv
    exact List.forall_mem_cons.2 ⟨hmeans.shape, ih⟩

/-- A text of a state enum declares this enum. -/
theorem StateEnumText.stateEnum_eq {e : StateEnum} {text : String} (htext : StateEnumText e text) :
    ∃ item, readItem text = .ok item ∧ item.stateEnum = .ok e := by
  obtain ⟨variants, gs, ts, hvariants, hgives, henum, htext⟩ := htext
  obtain ⟨as, ss, vs, hss, hgathers, hvs, hitem⟩ := item_reads (n := 4 * treesSize ts) henum
    (by rintro name ⟨⟩; exact show isName "fsm" = true by decide) hgives.isFree
    (variants_readPart (show isName "state" = true by decide) fun v gs hgives => hgives.isFree)
  refine ⟨_, readItem_eq htext hitem, ?_⟩
  obtain ⟨herrors, hrecord⟩ := stateEnum_reading hgives hss hgathers
  have hshape : Item.shapeErrors { attributes := as, ident := e.ident, variants := some vs } = [] :=
    shapeErrors_eq_nil rfl (shape_eq_unit hvs)
  have hread : readVariants (fun v => Reading.ofAttributes "state" stateFields { ident := v.ident }
      v.attributes) vs = .ok variants := by
    refine readVariants_eq (hvs.imp fun v read hmeans => ?_)
    obtain ⟨gs, hgives, hident, -, ss, hss, hgathers⟩ := hmeans
    rw [hident]
    exact stateVariant_reading hgives hss hgathers
  unfold Item.stateEnum
  simp only [herrors, hrecord, hshape, List.append_nil, Option.getD_some, hread]
  rw [← hvariants]

/-- A text of an event enum declares this enum. -/
theorem EventEnumText.eventEnum_eq {e : EventEnum} {text : String} (htext : EventEnumText e text) :
    ∃ item, readItem text = .ok item ∧ item.eventEnum = .ok e := by
  obtain ⟨variants, ts, hvariants, henum, htext⟩ := htext
  obtain ⟨as, ss, vs, -, -, hvs, hitem⟩ := item_reads (n := 4 * treesSize ts) henum
    (by simp) (by simp)
    (variants_readPart (show isName "event" = true by decide) fun v gs hgives => hgives.isFree)
  refine ⟨_, readItem_eq htext hitem, ?_⟩
  have hshape : Item.shapeErrors { attributes := as, ident := e.ident, variants := some vs } = [] :=
    shapeErrors_eq_nil rfl (shape_eq_unit hvs)
  have hread : readVariants (fun v => Reading.ofAttributes "event" eventFields { ident := v.ident }
      v.attributes) vs = .ok variants := by
    refine readVariants_eq (hvs.imp fun v read hmeans => ?_)
    obtain ⟨gs, hgives, hident, -, ss, hss, hgathers⟩ := hmeans
    rw [hident]
    exact eventVariant_reading hgives hss hgathers
  unfold Item.eventEnum
  simp only [hshape, Option.getD_some, hread]
  rw [← hvariants]

/-- From a text of an enum the same is derived as from the enum itself: its tables, or the same
errors. -/
theorem tables_of_text :
    (∀ (e : StateEnum) (text : String), StateEnumText e text →
      stateTable text = (Derive.deriveStates e).mapError .derivation) ∧
    (∀ (e : EventEnum) (text : String), EventEnumText e text →
      eventTable text = (Derive.deriveEvents e).mapError .derivation) := by
  constructor
  · intro e text htext
    obtain ⟨item, hitem, henum⟩ := htext.stateEnum_eq
    rw [stateTable, hitem]
    simp only [henum]
    cases Derive.deriveStates e <;> rfl
  · intro e text htext
    obtain ⟨item, hitem, henum⟩ := htext.eventEnum_eq
    rw [eventTable, hitem]
    simp only [henum]
    cases Derive.deriveEvents e <;> rfl

/-- A state with another name. -/
def shut : StateVariant where
  ident := "Shut"
  name := some "zu"
  out := [.ofName "Open"]
  events := [.ofName "Push"]

/-- Two states. -/
def door : StateEnum where
  ident := "Door"
  events := some (.ofName "Knock")
  variants := some [shut, { ident := "Open" }]
  allowUnreachable := true

/-- A text of these states. A comment comes first, and one of them has two attributes. -/
def doorText : String :=
  "// doors\n# [ fsm ( allow_unreachable , events = Knock ) ] enum Door \x7b " ++
    "# [ state ( name = \"zu\" ) ] # [ state ( events ( Push ) , out ( Open ) , ) ] Shut = 1 , " ++
    "Open \x7d "

/-- The trees of the first one in this text. -/
def shutTrees : List Tree :=
  [.punct '#' false, .group .bracket [.ident "state", .group .paren [.ident "name",
      .punct '=' false, .literal (.string "zu" false) (String.ofList (quotedText "zu"))]],
    .punct '#' false, .group .bracket [.ident "state", .group .paren [.ident "events",
      .group .paren [.ident "Push"], .punct ',' false, .ident "out",
      .group .paren [.ident "Open"], .punct ',' false]],
    .ident "Shut", .punct '=' false, .literal .int "1"]

/-- The trees of this text. -/
def doorTrees : List Tree :=
  [.punct '#' false, .group .bracket [.ident "fsm", .group .paren [.ident "allow_unreachable",
      .punct ',' false, .ident "events", .punct '=' false, .ident "Knock"]],
    .ident "enum", .ident "Door",
    .group .brace (shutTrees ++ .punct ',' false :: [.ident "Open"])]

/-- They are written in it. -/
theorem textOf_doorText : TextOf doorTrees doorText := by
  have hone : ∀ {more rest}, Written more rest →
      Written (.literal .int "1" :: more) ('1' :: ' ' :: rest) := by
    intro more rest hrest
    have hexponent : NoExponent (' ' :: rest) := by
      rintro c text hc - hprefix
      rw [(List.cons_prefix_cons.1 hprefix).1] at hc
      exact absurd hc (by decide)
    have hspelling : IntegerText ['1'] (' ' :: rest) :=
      .decimal rfl (List.forall_mem_nil _) (by rintro c ⟨⟩; decide) nofun hexponent nofun
    have hsuffix : Suffix [] (' ' :: rest) := .none (by rintro c ⟨⟩; decide)
    have hlexeme : Lexeme [.literal .int "1"] ['1'] (' ' :: rest) :=
      .integer hspelling hsuffix (by rintro c ⟨⟩; decide)
    exact .cons hlexeme hrest.blank
  -- From the end of the text to its beginning.
  have hopen := ((Written.nil.closing .brace).plainWord "Open" rfl).mark (c := ',') (by decide)
    (by decide)
  have hshut := ((hone hopen).mark (c := '=') (by decide) (by decide)).plainWord "Shut" rfl
  have hout := (((((hshut.closing .bracket).closing .paren).mark (c := ',') (by decide)
    (by decide)).closing .paren).plainWord "Open" rfl).opening .paren
  have hpush := (((((hout.plainWord "out" rfl).mark (c := ',') (by decide)
    (by decide)).closing .paren).plainWord "Push" rfl).opening .paren).plainWord "events" rfl
  have hlist := (((hpush.opening .paren).plainWord "state" rfl).opening .bracket).mark (c := '#')
    (by decide) (by decide)
  have hname := ((((hlist.closing .bracket).closing .paren).text "zu").mark (c := '=') (by decide)
    (by decide)).plainWord "name" rfl
  have hstate := (((hname.opening .paren).plainWord "state" rfl).opening .bracket).mark (c := '#')
    (by decide) (by decide)
  have henum := ((hstate.opening .brace).plainWord "Door" rfl).plainWord "enum" rfl
  have hevents := ((((henum.closing .bracket).closing .paren).plainWord "Knock" rfl).mark (c := '=')
    (by decide) (by decide)).plainWord "events" rfl
  have hallow := (hevents.mark (c := ',') (by decide) (by decide)).plainWord "allow_unreachable" rfl
  have hfsm := (((hallow.opening .paren).plainWord "fsm" rfl).opening .bracket).mark (c := '#')
    (by decide) (by decide)
  have hplain : ¬ IsDocLine " doors".toList := by simp [IsDocLine]
  have hcomment := Written.cons (.line (show '\n' ∉ " doors".toList by decide) hplain (.inr rfl))
    (.cons (.blank (c := '\n') (by decide)) hfsm)
  have hwritten : Written (treesTokens doorTrees) _ := hcomment
  exact ⟨_, hwritten, .inl (by decide +kernel)⟩

/-- What is given in this text. -/
theorem stateEnumText_door : StateEnumText door doorText := by
  have hpath : ∀ name, IsFree name → PathTrees IsFree (.ofName name) [.ident name] :=
    fun name hname => .plain (.single hname)
  have hattributes : AttributesTrees (some "fsm")
      ([.flag "allow_unreachable" true, .path "events" (.ofName "Knock")] ++ [])
      [.punct '#' false, .group .bracket [.ident "fsm", .group .paren ([.ident "allow_unreachable"]
        ++ .punct ',' false :: [.ident "events", .punct '=' false, .ident "Knock"])]] :=
    .list rfl (.cons .word (.single (.path (hpath "Knock" rfl)))) .nil
  have hshut : VariantTrees "state" "Shut" ([.text "name" "zu"] ++
      ([.paths "events" [.ofName "Push"], .paths "out" [.ofName "Open"]] ++ [])) shutTrees :=
    .variant (.list rfl (.single .text) (.list rfl (.cons (.paths (.single (hpath "Push" rfl)))
      (.cons (.paths (.single (hpath "Open" rfl))) .nil)) .nil)) rfl .positive
  have hgives : StateVariant.Gives shut ([.text "name" "zu"] ++
      ([.paths "events" [.ofName "Push"], .paths "out" [.ofName "Open"]] ++ [])) :=
    ⟨by decide, by simp [shut], by simp [shut], by simp [shut], by simp [shut]⟩
  have hopen : VariantTrees "state" "Open" [] ([] ++ .ident "Open" :: []) :=
    .variant .nil rfl .none
  have hcontent : Commas
      (fun v ts => ∃ gs, StateVariant.Gives v gs ∧ VariantTrees "state" v.ident gs ts)
      [shut, { ident := "Open" }] (shutTrees ++ .punct ',' false :: [.ident "Open"]) :=
    .cons ⟨_, hgives, hshut⟩
      (.single ⟨[], ⟨by decide, by simp, by simp, by simp, by simp⟩, hopen⟩)
  refine ⟨_, _, doorTrees, rfl, ?_, .enum hattributes .default rfl hcontent, textOf_doorText⟩
  exact ⟨by decide, by simp [door], by simp [door], by simp [door]⟩

/-- An event enum without events. -/
theorem eventEnumText_empty :
    EventEnumText { ident := "Knock", variants := some [] } "enum Knock \x7b \x7d " := by
  have hwritten : Written (treesTokens [.ident "enum", .ident "Knock", .group .brace []]) _ :=
    (((Written.nil.closing .brace).opening .brace).plainWord "Knock" rfl).plainWord "enum" rfl
  exact ⟨[], _, rfl, .enum .nil .default rfl .nil, _, hwritten, .inl (by decide +kernel)⟩

/-- The tables of a text, and the errors of another one. -/
theorem tables_of_doorText :
    (StateEnumText door doorText ∧ stateTable doorText = .ok {
      ident := "Door"
      events := some (.ofName "Knock")
      states := [
        { ident := "Shut", name := "zu", out := ⟨2⟩, events := ["Push"] },
        { ident := "Open", name := "Open", out := ⟨0⟩, events := [] }] }) ∧
    (EventEnumText { ident := "Knock", variants := some [] } "enum Knock \x7b \x7d " ∧
      eventTable "enum Knock \x7b \x7d " = .error (.derivation [.noVariants .events])) :=
  ⟨⟨stateEnumText_door, (tables_of_text.1 door doorText stateEnumText_door).trans rfl⟩,
    ⟨eventEnumText_empty, (tables_of_text.2 _ _ eventEnumText_empty).trans rfl⟩⟩

end StateMachines.Source
