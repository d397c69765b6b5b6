import StateMachines.Scenario.Client

/-!
# Sessions

A session carries out the steps of a scenario one after the other and reports on each: what it
answered, what was published and noted meanwhile, and what can be seen of the current engine
afterwards. A session may use several engines, one of which is the current one; they share the
clock, the variables and the classes.
-/

namespace StateMachines.Scenario

/-- A step of a scenario. -/
inductive Step where
  | perform (operation : Operation)
  /-- Makes another engine the current one, a new one if its number is new. -/
  | useEngine (number : Nat)
  /-- Moves the clock. -/
  | advance (duration : Duration)
  /-- Runs a loop together with a client. -/
  | serve (serving : Serving)

/-- What can be seen of the current engine. -/
structure View where
  /-- The live instances among the handles that were ever answered. -/
  instances : List Info
  live : Nat
  next : Option Time

/-- What is reported on a step. -/
structure Report where
  answer : Answer
  /-- What was published and noted during the step, in order. -/
  entries : List (Entry Note)
  view : View

/-- A scenario in progress. -/
structure Session where
  cast : Cast
  config : Config
  stage : Stage
  /-- The number of the current engine. -/
  current : Nat := 0
  /-- The other engines, by their numbers. -/
  shelved : List (Nat × Engine) := []

namespace Session

/-- A session with a fresh engine at the beginning of time. -/
def start (cast : Cast) (config : Config) : Session :=
  { cast, config, stage := { engine := { config }, now := 0, env := {} } }

/-- What can be seen of the current engine. -/
def view (s : Session) : View :=
  let engine := s.stage.engine
  { instances :=
      (s.stage.env.known.filter engine.isAlive).map (Info.read engine s.stage.now)
    live := engine.liveCount
    next := engine.nextDeadline? }

/-- Carries out an operation. -/
def perform (s : Session) (operation : Operation) : Except Interruption (Answer × Session) :=
  match operation.plan s.cast .top s.stage.toContext with
  | .answer env answer => .ok (answer, { s with stage := { s.stage with env } })
  | .call call read =>
    match (Execution.ofCall s.stage call).run s.cast.host stepLimit with
    | some (.ok (stage, reply)) =>
      let (env, answer) := read reply stage.toContext
      .ok (answer, { s with stage := { stage with env } })
    | some (.error fault) => .error (.fault fault)
    | none => .error .unfinished

/-- Makes another engine the current one. -/
def useEngine (s : Session) (number : Nat) : Session :=
  if number = s.current then s
  else
    let engine := (s.shelved.lookup number).getD { config := s.config }
    { s with
      stage := { s.stage with engine }
      current := number
      shelved := (s.current, s.stage.engine) :: s.shelved.filter (·.1 ≠ s.current) }

/-- Carries out a step. -/
def step (s : Session) : Step → Except Interruption (Answer × Session)
  | .perform operation => s.perform operation
  | .useEngine number => .ok (.number number, s.useEngine number)
  | .advance duration =>
    let now := s.stage.now + duration
    .ok (.time now, { s with stage := { s.stage with now } })
  | .serve serving =>
    match serving.run s.cast.host s.stage with
    | .ok (stage, answer) => .ok (answer, { s with stage })
    | .error why => .error why

/-- Carries out a step and reports on it. -/
def report (s : Session) (step : Step) : Except Interruption (Report × Session) :=
  match s.step step with
  | .error why => .error why
  | .ok (answer, s) =>
    .ok ({ answer, entries := s.stage.journal.reverse, view := s.view },
      { s with stage := { s.stage with journal := [] } })

/-- Carries out steps one after the other. The last view is the one at the end. -/
def run (s : Session) : List Step → Except Interruption (List Report × View)
  | [] => .ok ([], s.view)
  | step :: rest =>
    match s.report step with
    | .error why => .error why
    | .ok (report, s) =>
      match s.run rest with
      | .error why => .error why
      | .ok (reports, view) => .ok (report :: reports, view)

end Session

end StateMachines.Scenario
