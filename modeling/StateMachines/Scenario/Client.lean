import StateMachines.Scenario.Plan
import StateMachines.Loop

/-!
# Clients of the loop

A client works on a stack of handles to the inbox of a loop: it sends events, asks the loop to
stop, clones and drops handles, and sleeps. Client and loop take turns. The loop goes on until it
is parked or has ended; then the client goes on until it sleeps, waits for a place in the queue,
or has ended. When neither can go on, the clock jumps to the next moment at which one can.
-/

namespace StateMachines.Scenario

/-- The world of a scenario. -/
abbrev Stage := World Environment Note

/-- Why a scenario has no answer. -/
inductive Interruption where
  | fault (fault : Fault)
  /-- The steps granted to a call were not enough. -/
  | unfinished
deriving DecidableEq, Inhabited

/-- The number of steps granted to a call. -/
def stepLimit : Nat := 1000000000000

/-- What a client waits for. -/
inductive Wait where
  | nothing
  | clock (time : Time)
  /-- The request that waits for a place in the queue. -/
  | place (request : Request)
deriving DecidableEq, Inhabited

/-- A client of a loop. -/
structure Client where
  /-- The operations to come. While the client waits, the first one is in progress. -/
  rest : List ClientOperation
  /-- The height of the stack of handles. -/
  handles : Nat := 1
  wait : Wait := .nothing
  ended : Bool := false
deriving Inhabited

namespace Client

/-- What the beginning of an operation leads to. -/
inductive Beginning where
  | answered (stage : Stage) (handles : Nat) (answer : Answer)
  | waits (stage : Stage) (wait : Wait)

/-- Begins an operation that needs a handle on the stack. -/
def withHandle (stage : Stage) (handles : Nat) (begin : Beginning) : Beginning :=
  if handles = 0 then .answered stage handles .gone else begin

/-- Begins an operation that needs a handle on the stack and refers to an instance. -/
def withTarget (stage : Stage) (handles : Nat) (target : String) (begin : Handle → Beginning) :
    Beginning :=
  withHandle stage handles <|
    match stage.env.lookup? target with
    | some h => begin h
    | none => .answered stage handles (.noHandle target)

/-- Begins an operation. -/
def begin (stage : Stage) (handles : Nat) : ClientOperation → Beginning
  | .send target event =>
    withTarget stage handles target fun h =>
      match stage.inbox.beginSend ⟨h, event⟩ with
      | (.full, inbox) => .waits { stage with inbox } (.place ⟨h, event⟩)
      | (delivery, inbox) => .answered { stage with inbox } handles (.sent delivery)
  | .trySend target event =>
    withTarget stage handles target fun h =>
      let (delivery, inbox) := stage.inbox.trySend ⟨h, event⟩
      .answered { stage with inbox } handles (.sent delivery)
  | .shutdown mode =>
    withHandle stage handles <|
      .answered { stage with inbox := stage.inbox.shutdown mode } handles .ok
  | .clone =>
    withHandle stage handles <|
      .answered { stage with inbox := stage.inbox.addSender } (handles + 1)
        (.number (handles + 1))
  | .drop =>
    withHandle stage handles <|
      .answered { stage with inbox := stage.inbox.dropSenders 1 } (handles - 1)
        (.number (handles - 1))
  | .sleep duration =>
    if duration = 0 then .answered stage handles .ok
    else .waits stage (.clock (stage.now + duration))

/-- Notes the answer of an operation. -/
def noteAnswer (stage : Stage) (operation : ClientOperation) (answer : Answer) : Stage :=
  stage.enter (.note (.client operation answer))

/-- Ends a client: its handles are dropped. The handle of the rules, if they have one, is used
for a graceful shutdown and dropped as well. -/
def leave (stage : Stage) (handles : Nat) : Stage :=
  let inbox := stage.inbox.dropSenders handles
  let stage :=
    if stage.env.handleInRules then
      { stage with
        inbox := (inbox.shutdown .graceful).dropSenders 1
        env.handleInRules := false }
    else { stage with inbox }
  stage.enter (.note .clientEnd)

/-- Goes through operations until the client waits or has ended. -/
def goOn (stage : Stage) (handles : Nat) : List ClientOperation → Stage × Client
  | [] => (leave stage handles, { rest := [], handles := 0, ended := true })
  | operation :: rest =>
    match begin stage handles operation with
    | .answered stage handles answer => goOn (noteAnswer stage operation answer) handles rest
    | .waits stage wait => (stage, { rest := operation :: rest, handles, wait })

/-- Goes through the operations that precede the loop. None of them waits. -/
def prepare (stage : Stage) (handles : Nat) : List ClientOperation → Stage × Nat
  | [] => (stage, handles)
  | operation :: rest =>
    match begin stage handles operation with
    | .answered stage handles answer => prepare (noteAnswer stage operation answer) handles rest
    | .waits stage _ => prepare stage handles rest

/-- Ends the operation in progress and goes on. -/
def resolve (c : Client) (stage : Stage) (answer : Answer) : Stage × Client :=
  match c.rest with
  | operation :: rest => goOn (noteAnswer stage operation answer) c.handles rest
  | [] => goOn stage c.handles []

/-- The turn of a client; `none` if it cannot go on. -/
def turn? (c : Client) (stage : Stage) : Option (Stage × Client) :=
  if c.ended then none
  else
    match c.wait with
    | .nothing => some (goOn stage c.handles c.rest)
    | .clock time => if time ≤ stage.now then some (c.resolve stage .ok) else none
    | .place request =>
      match stage.inbox.finishSend request with
      | (.full, _) => none
      | (delivery, inbox) => some (c.resolve { stage with inbox } (.sent delivery))

/-- When a client goes on by itself. -/
def wakeUp? (c : Client) : Option Time :=
  match c.wait with
  | .clock time => some time
  | _ => none

end Client

/-- The loop beside a client. -/
inductive Partner where
  | working (loop : Loop Environment Note)
  | ended (stage : Stage)

namespace Partner

/-- The world the loop works in. -/
def stage : Partner → Stage
  | .working loop => loop.task.world
  | .ended stage => stage

/-- Changes the world the loop works in. -/
def withStage (stage : Stage) : Partner → Partner
  | .working loop => .working (loop.update fun _ => stage)
  | .ended _ => .ended stage

/-- The turn of the loop. -/
def turn (host : Host Environment Note) : Partner → Except Interruption Partner
  | .ended stage => .ok (.ended stage)
  | .working loop =>
    match loop.run host stepLimit with
    | some (.parked loop) => .ok (.working loop)
    | some (.ended stage _) => .ok (.ended (stage.enter (.note .loopEnd)))
    | some (.faulted fault) => .error (.fault fault)
    | some (.running _) | none => .error .unfinished

/-- When a loop goes on by itself. -/
def wakeUp? : Partner → Option Time
  | .working loop => loop.task.world.engine.nextDeadline?
  | .ended _ => none

end Partner

/-- The earlier of two moments that may not come. -/
def earlier? : Option Time → Option Time → Option Time
  | some a, some b => some (min a b)
  | some a, none => some a
  | none, b => b

/-- Loop and client take turns until both have ended. -/
def takeTurns (host : Host Environment Note) :
    Nat → Partner → Client → Except Interruption Stage
  | 0, _, _ => .error .unfinished
  | fuel + 1, partner, client =>
    match partner.turn host with
    | .error why => .error why
    | .ok partner =>
      match client.turn? partner.stage, partner with
      | some (stage, client), partner => takeTurns host fuel (partner.withStage stage) client
      | none, partner =>
        match earlier? client.wakeUp? partner.wakeUp?, partner with
        | some time, partner =>
          takeTurns host fuel (partner.withStage { partner.stage with now := time }) client
        | none, .ended stage => .ok stage
        | none, .working _ => .error .unfinished

/-- A loop to be run together with a client. -/
structure Serving where
  /-- The number of places in the queue. -/
  capacity : Nat
  /-- What the client does before the loop begins. -/
  before : List ClientOperation
  client : List ClientOperation
  /-- Whether rules get a handle to the inbox. -/
  handleInRules : Bool

/-- Runs a loop together with a client. -/
def Serving.run (s : Serving) (host : Host Environment Note) (stage : Stage) :
    Except Interruption (Stage × Answer) :=
  if s.capacity = 0 then .ok (stage, .noCapacity stage.now)
  else
    let inbox : Inbox :=
      { capacity := s.capacity, senders := if s.handleInRules then 2 else 1 }
    let stage := { stage with inbox, env.handleInRules := s.handleInRules }
    let (stage, handles) := Client.prepare stage 1 s.before
    match takeTurns host stepLimit (.working (.ofWorld stage)) { rest := s.client, handles } with
    | .ok stage => .ok ({ stage with inbox := .shut }, .served stage.now)
    | .error why => .error why

end StateMachines.Scenario
