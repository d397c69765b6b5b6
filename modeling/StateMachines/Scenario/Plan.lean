import StateMachines.Scenario.Environment
import StateMachines.Execution.Step

/-!
# How operations are carried out

An operation of a scenario either can be answered by reading the engine, or is one call together
with a way to read its answer afterwards. That is its `Plan`. Steps of a scenario and operations
of rules have the same plans; `Cast.host` makes the rules of all classes into the hooks of an
engine.

Hooks have a budget: no rule runs inside forty others, and none after three thousand hook calls.
-/

namespace StateMachines.Scenario

/-- What an operation does. -/
inductive Plan where
  /-- It is answered at once. -/
  | answer (env : Environment) (answer : Answer)
  /-- It is a call, whose outcome is read afterwards. -/
  | call (call : Call) (read : Reply → Context Environment → Environment × Answer)

/-- Where an operation stands. -/
inductive Scope where
  /-- Among the steps of the scenario. -/
  | top
  /-- In a rule that runs for `self`, called with `data`. -/
  | rule (self : Handle) (data : Option Payload)

/-- The number written in decimal digits after `child:`. -/
def childNumber? (name : String) : Option Nat :=
  match name.splitOn ":" with
  | ["child", digits] => if String.all digits Char.isDigit then digits.toNat? else none
  | _ => none

/-- The handle a name refers to. Variables come first. -/
def resolve? (ctx : Context Environment) (scope : Scope) (name : String) : Option Handle :=
  match ctx.env.lookup? name, scope with
  | some h, _ => some h
  | none, .top => none
  | none, .rule self _ =>
    if name = "self" then some self
    else if name = "parent" then ctx.engine.parent? self
    else (childNumber? name).bind fun n => (ctx.engine.children self)[n]?

namespace Datum

/-- The data an operation hands over in its scope. -/
def payload? (scope : Scope) : Datum → Option Payload
  | .given payload => payload
  | .received =>
    match scope with
    | .rule _ data => data
    | .top => none

end Datum

namespace Plan

/-- The answer is read off the engine. -/
def read (ctx : Context Environment) (value : Answer) : Plan := .answer ctx.env value

/-- A call that answers whether it was refused. -/
def attempt (c : Call) : Plan :=
  .call c fun reply ctx =>
    (ctx.env, match reply with
      | .refused why => .refused why
      | _ => .ok)

/-- A call that allocates an instance, which is then bound. -/
def allocate (c : Call) (binding : Option String) : Plan :=
  .call c fun reply ctx =>
    match reply with
    | .allocated h => (ctx.env.bind binding h, .handle h)
    | .refused why => (ctx.env, .refused why)
    | _ => (ctx.env, .nothing)

/-- A call after which something is read off the engine. -/
def thenRead (c : Call) (value : Context Environment → Answer) : Plan :=
  .call c fun _ ctx => (ctx.env, value ctx)

end Plan

/-- An answer that may be missing. -/
def Answer.ofOption {α : Type} (f : α → Answer) : Option α → Answer
  | some a => f a
  | none => .nothing

/-- The plan of an operation on the engine. -/
def EngineOperation.plan (cast : Cast) (scope : Scope) (ctx : Context Environment) :
    EngineOperation → Plan
  | .register cls =>
    match cast.descriptor? cls with
    | some d => .thenRead (.register d) fun ctx => .number ctx.engine.catalogue.length
    | none => .read ctx .nothing
  | .unregister cls =>
    match cast.descriptor? cls with
    | some d => .thenRead (.unregister d) fun ctx => .number ctx.engine.catalogue.length
    | none => .read ctx .nothing
  | .find name => .read ctx (.ofOption (.number ·.key) (ctx.engine.findDescriptor? name))
  | .descriptors => .read ctx (.numbers (ctx.engine.catalogue.map (·.key)))
  | .alloc cls data level id binding =>
    match cast.descriptor? cls with
    | some d => .allocate (.alloc d (data.payload? scope) level id) binding
    | none => .read ctx .nothing
  | .instancesOf cls =>
    match cast.descriptor? cls with
    | some d => .read ctx (.handles (ctx.engine.instancesOf d))
    | none => .read ctx .nothing
  | .live => .read ctx (.number ctx.engine.liveCount)
  | .setLogAddr value => .thenRead (.setLogAddr value) fun ctx => .flag ctx.engine.config.logAddr
  | .config => .read ctx (.settings ctx.engine.config)
  | .fire =>
    .call .fireExpired fun reply ctx =>
      (ctx.env, match reply with
        | .count n => .number n
        | _ => .nothing)
  | .nextDeadline => .read ctx (.ofOption .time ctx.engine.nextDeadline?)
  | .shutdown mode =>
    if ctx.env.handleInRules then .attempt (.shutdown mode) else .read ctx .nothing

/-- The plan of an operation on an instance. -/
def InstanceOperation.plan (cast : Cast) (scope : Scope) (ctx : Context Environment)
    (h : Handle) : InstanceOperation → Plan
  | .allocChild cls event binding =>
    match cast.descriptor? cls with
    | some d => .allocate (.allocChild d h event) binding
    | none => .read ctx .nothing
  | .bind binding => .answer (ctx.env.bind binding h) (.handle h)
  | .free => .attempt (.free h)
  | .dispatch event data => .attempt (.dispatch h event (data.payload? scope))
  | .changeState state timeout label => .attempt (.changeState h state timeout label)
  | .terminate cause data => .attempt (.terminate h cause (data.payload? scope))
  | .setLevel level =>
    .thenRead (.setLevel h level) fun ctx =>
      .ofOption .level (ctx.engine.level? h)
  | .setPayload data =>
    match data.payload? scope with
    | some payload => .attempt (.setPayload h payload)
    | none => .read ctx .ok
  | .addPayload value =>
    match ctx.engine.payload? h with
    | some (.number n) =>
      .thenRead (.setPayload h (.number (n + value))) fun ctx =>
        .ofOption .payload (ctx.engine.payload? h)
    | _ => .read ctx .nothing
  | .appendPayload value =>
    match ctx.engine.payload? h with
    | some (.text s) =>
      .thenRead (.setPayload h (.text (s ++ value))) fun ctx =>
        .ofOption .payload (ctx.engine.payload? h)
    | _ => .read ctx .nothing
  | .takePayload =>
    .call (.takePayload h) fun reply ctx =>
      (ctx.env, match reply with
        | .detached payload => .ofOption .payload payload
        | _ => .nothing)
  | .alive => .read ctx (.flag (ctx.engine.isAlive h))
  | .info => .read ctx (.info (.read ctx.engine ctx.now h))
  | .trySend event =>
    if ctx.env.handleInRules then
      .call (.trySend ⟨h, event⟩) fun reply ctx =>
        (ctx.env, match reply with
          | .sent delivery => .sent delivery
          | _ => .nothing)
    else .read ctx .nothing

/-- The plan of an operation. A name that refers to nothing is answered, and nothing is done. -/
def Operation.plan (cast : Cast) (scope : Scope) (ctx : Context Environment) :
    Operation → Plan
  | .onEngine operation => operation.plan cast scope ctx
  | .onInstance target operation =>
    match resolve? ctx scope target with
    | some h => operation.plan cast scope ctx h
    | none => .read ctx (.noHandle target)

/-- No rule runs inside this many others. -/
def maxDepth : Nat := 40

/-- No rule runs after this many calls of scripted hooks. -/
def maxHookCalls : Nat := 3000

/-- Whether an argument passes a filter. -/
def passes {α : Type} [DecidableEq α] (filter argument : Option α) : Bool :=
  filter.isNone || filter = argument

namespace Rule

/-- Whether a rule is for this call of a hook of `self`. -/
def isFor (rule : Rule) (ctx : Context Environment) (self : Handle) (arguments : HookArguments) :
    Bool :=
  rule.kind = arguments.kind && passes rule.state arguments.state &&
    passes rule.event arguments.event && passes rule.other arguments.other &&
    passes rule.cause arguments.cause && passes rule.label arguments.label &&
    passes rule.id (ctx.engine.id? self) &&
    match rule.who with
    | some name => ctx.env.lookup? name = some self
    | none => true

/-- Whether a rule that has run `used` times can run again. -/
def isLeft (rule : Rule) (used : Nat) : Bool :=
  match rule.times with
  | some times => decide (used < times)
  | none => true

end Rule

/-- The first rule of a class that is for this call and not used up, with its place. -/
def firstRule? (ctx : Context Environment) (d : Descriptor) (self : Handle)
    (arguments : HookArguments) (rules : List Rule) : Option (Rule × Nat) :=
  rules.zipIdx.find? fun (rule, place) =>
    rule.isFor ctx self arguments && rule.isLeft (ctx.env.usesOf (d.key, place))

/-- The script that carries out the operations of a rule one after the other. -/
def runOperations (cast : Cast) (scope : Scope) :
    List Operation → Context Environment → Script Environment Note
  | [], ctx => .done { ctx.env with depth := ctx.env.depth - 1 }
  | operation :: rest, ctx =>
    match operation.plan cast scope ctx with
    | .answer env answer =>
      .note (.returned operation answer) (runOperations cast scope rest { ctx with env })
    | .call call read =>
      .call call ctx.env fun reply ctx =>
        let (env, answer) := read reply ctx
        .note (.returned operation answer) (runOperations cast scope rest { ctx with env })

/-- The script of a hook of a scripted class. -/
def runRules (cast : Cast) (rules : List Rule) (d : Descriptor) (self : Handle) (hook : Hook)
    (ctx : Context Environment) : Script Environment Note :=
  let arguments := HookArguments.ofHook (ctx.engine.timerLabel? self) hook
  let data := hookPayload hook
  let env := { ctx.env with hookCalls := ctx.env.hookCalls + 1 }
  .note (.hook self arguments data (ctx.engine.state? self)) <|
    if maxDepth ≤ env.depth ∨ maxHookCalls < env.hookCalls then .note .limit (.done env)
    else
      match firstRule? ctx d self arguments rules with
      | some (rule, place) =>
        let env := { env.countUse (d.key, place) with depth := env.depth + 1 }
        runOperations cast (.rule self data) rule.operations { ctx with env }
      | none => .done env

/-- The hooks of the classes of a scenario. -/
def Cast.host (cast : Cast) : Host Environment Note where
  script d self hook ctx :=
    match cast.behaviour d with
    | .inert =>
      match hook with
      | .action state event _ => .note (.inert self state event) (.done ctx.env)
      | _ => .done ctx.env
    | .scripted rules => runRules cast rules d self hook ctx

end StateMachines.Scenario
