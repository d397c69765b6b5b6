import StateMachines.Derive.Declaration
import StateMachines.Derive.Reachability
import StateMachines.Mask

/-!
# Derived tables

`deriveStates` and `deriveEvents` check a declared enum and number its variants in the order of
their declaration.

A declaration that has a wrong number of variants is refused for that alone. Otherwise all bad
targets and events are reported, variant by variant. Only if there are none is it checked that
every state can be reached from the first one, and every state that cannot is reported.
-/

namespace StateMachines.Derive

/-- Which of the two kinds of enums is derived. -/
inductive EnumKind where
  | states
  | events
deriving DecidableEq, Inhabited

/-- Why no tables are derived. -/
inductive DeriveError where
  | notAnEnum (kind : EnumKind)
  | noVariants (kind : EnumKind)
  | tooManyVariants (kind : EnumKind) (count : Nat)
  /-- A target of the variant is not the plain name of a variant. -/
  | unknownTarget (ident : String)
  /-- A variant accepts events, but no event enum is given. -/
  | eventEnumMissing
  /-- An event is not a plain name. -/
  | badEventName
  | unreachable (ident initial : String)
deriving DecidableEq, Inhabited

/-- The word for the variants of an enum. -/
def EnumKind.variantsText : EnumKind → String
  | .states => "states"
  | .events => "events"

/-- The name under which the derivation is invoked. -/
def EnumKind.derivationName : EnumKind → String
  | .states => "FsmStates"
  | .events => "FsmEvent"

/-- The wording of an error. -/
def DeriveError.message : DeriveError → String
  | .notAnEnum kind => kind.derivationName ++ " can only be derived for enums"
  | .noVariants kind => "at least one variant is required for " ++ kind.variantsText
  | .tooManyVariants kind count =>
    toString count ++ " " ++ kind.variantsText ++ " declared, at most " ++
      toString Mask.width ++ " fit a permission mask"
  | .unknownTarget ident => s!"unknown state in `out` of `{ident}`"
  | .eventEnumMissing =>
    "`events(...)` needs the event enum: add #[fsm(events = YourEvent)]"
  | .badEventName => "expected an event variant name"
  | .unreachable ident initial =>
    s!"state `{ident}` is unreachable from initial state `{initial}`"

/-- A state of a derived table. Its position is its number. -/
structure DerivedState where
  ident : String
  /-- The display name. -/
  name : String
  /-- The states it leads to. -/
  out : Mask
  /-- The events it accepts, by their identifiers in the event enum. -/
  events : List String
deriving DecidableEq, Inhabited

/-- The table of a state enum. -/
structure StateTable where
  ident : String
  /-- The event enum. -/
  events : Option Path
  states : List DerivedState
deriving DecidableEq, Inhabited

/-- An event of a derived table. Its position is its number. -/
structure DerivedEvent where
  ident : String
  /-- The display name. -/
  name : String
deriving DecidableEq, Inhabited

/-- The table of an event enum. -/
structure EventTable where
  ident : String
  events : List DerivedEvent
deriving DecidableEq, Inhabited

/-- The variants of an item, provided that there are some and not too many. -/
def checkedVariants {α : Type} (kind : EnumKind) :
    Option (List α) → Except DeriveError (List α)
  | none => .error (.notAnEnum kind)
  | some variants =>
    if variants.isEmpty then .error (.noVariants kind)
    else if Mask.width < variants.length then
      .error (.tooManyVariants kind variants.length)
    else .ok variants

namespace StateVariant

/-- The number of the state a target names: the place of the first variant of that name. -/
def targetNumber? (idents : List String) (target : Path) : Option Nat :=
  target.name?.bind fun name => idents.idxOf? name

/-- What is wrong with the targets and events of a variant. -/
def errors (v : StateVariant) (idents : List String) (eventEnum : Option Path) :
    List DeriveError :=
  (v.out.filter fun target => (targetNumber? idents target).isNone).map
      (fun _ => DeriveError.unknownTarget v.ident) ++
    (if !v.events.isEmpty && eventEnum.isNone then [.eventEnumMissing] else []) ++
    (v.events.filter fun event => event.name?.isNone).map (fun _ => DeriveError.badEventName)

/-- The state a variant declares. -/
def derived (v : StateVariant) (idents : List String) : DerivedState :=
  { ident := v.ident
    name := v.name.getD v.ident
    out := (v.out.filterMap (targetNumber? idents)).foldl
      (fun out number => (out.insert? number).getD out) .empty
    events := v.events.filterMap Path.name? }

end StateVariant

/-- The states that a state leads to. -/
def successors (states : List DerivedState) (number : Nat) : List Nat :=
  match states[number]? with
  | some state => state.out.toList
  | none => []

/-- One error for each state that cannot be reached from the first one. -/
def unreachableErrors (states : List DerivedState) : List DeriveError :=
  match states with
  | [] => []
  | initial :: _ =>
    (unreached (successors states) (List.range states.length) [0]).filterMap fun number =>
      states[number]?.map fun state => .unreachable state.ident initial.ident

/-- The table of a state enum, or everything that is wrong with it. -/
def deriveStates (e : StateEnum) : Except (List DeriveError) StateTable :=
  match checkedVariants .states e.variants with
  | .error error => .error [error]
  | .ok variants =>
    let idents := variants.map (·.ident)
    let states := variants.map (·.derived idents)
    match variants.flatMap (·.errors idents e.events) with
    | [] =>
      match if e.allowUnreachable then [] else unreachableErrors states with
      | [] => .ok { ident := e.ident, events := e.events, states }
      | errors => .error errors
    | errors => .error errors

/-- The table of an event enum, or what is wrong with it. -/
def deriveEvents (e : EventEnum) : Except (List DeriveError) EventTable :=
  match checkedVariants .events e.variants with
  | .error error => .error [error]
  | .ok variants =>
    .ok
      { ident := e.ident
        events := variants.map fun v => { ident := v.ident, name := v.name.getD v.ident } }

/-- The wording of several errors, one on each line. -/
def DeriveError.messages (errors : List DeriveError) : String :=
  "\n".intercalate (errors.map DeriveError.message)

end StateMachines.Derive
