import Grimoire.Workflow.Input
import Grimoire.Workflow.Orchestrator

/-!
# Runs

A run goes through the phases of its definition. It waits where a phase asks the provider or runs a
workflow; between two waits, and around each look at the published instances, it does one block of
work. `System.step?` does one such block of one task, or lets something happen to it: an answer comes,
the time of a phase is over, an instance is cancelled. Any interleaving of tasks is a list of events.

| here | there |
| --- | --- |
| `maxNesting`         | `MAX_NESTING_DEPTH` |
| `begin`              | `run`, up to its first look at the instances |
| `check`              | the head of the loop of `run`: `is_cancelled` |
| `startPhase`         | `execute_phase` and `dispatch`, up to the first wait |
| `endPhase`           | the end of `execute_phase`, and the loop of `run` up to `store` |
| `expire?`            | `timeout` around `dispatch` |
| `publish`            | `store` in the loop of `run` |
| `finish`, `conclude` | the end of `run`: the counters and the last event |
| `deliver`            | the return of a nested `run` into `dispatch` |

What `run` writes to the log is left out.
-/
namespace Grimoire.Workflow

open Event (InstanceId)

/-- The longest chain of workflows that start one another. -/
def maxNesting : Nat := 8

/-! ## Frames -/

/-- A call of the provider. -/
structure Call where
  query : Provider.Query
  /-- The clock when the provider is done with it. -/
  due : Nat
  /-- The payload, once it is answered. -/
  outcome? : Option (Except WorkflowError Json) := none

/-- A phase under way. -/
structure Underway where
  phase : Phase
  input : Object
  /-- The clock at its start. -/
  since : Nat

/-- Where a run stands. -/
inductive Control
  /-- Before its next phase. -/
  | check
  /-- Waiting for the provider. -/
  | calling (u : Underway) (calls : List Call)
  /-- Waiting for the workflow that its phase runs. -/
  | nested (u : Underway)
  /-- After a phase, with the news not published. -/
  | publish (stop : Bool)
  /-- After its last phase. -/
  | finish

/-- A run with its own view of its instance. -/
structure Frame where
  definition : Definition
  run : Instance
  control : Control

/-- What became of a run. -/
abbrev Outcome := Except WorkflowError RunResult

/-- A run with the runs that wait for it, the nearest first. -/
inductive Task
  | running (top : Frame) (below : List Frame)
  | finished (outcome : Outcome)

namespace Frame

/-- The phase that follows those which have ended. -/
def next? (f : Frame) : Option Phase := f.definition.phases[f.run.phases.length]?

/-- Where a run stands when it has no phase under way. -/
def between (f : Frame) : Control := if f.next?.isSome then .check else .finish

def underway? (f : Frame) : Option Underway :=
  match f.control with
  | .calling u _ | .nested u => some u
  | .check | .publish _ | .finish => none

/-- When the time of the phase under way is over. -/
def deadline? (f : Frame) : Option Nat := do
  let u ← f.underway?
  return u.since + (← u.phase.timeout)

end Frame

namespace Stage

/-! ## Blocks of work -/

/-- Start a run. -/
def begin (s : Stage) (d : Definition) (context : Json) (parent : Option InstanceId) :
    Stage × Frame :=
  let o := s.orchestrator
  let run : Instance :=
    { id := .numbered (o.instances.length + 1), workflow := d.id, name := d.name, context
      totalPhases := d.phases.length, started := s.now, parent }
  let o := { o with
    instances := o.instances ++ [run]
    counters := { o.counters with started := o.counters.started + 1 } }
  ({ s with orchestrator := o }.announce (.workflowStarted run.id d.id),
   { definition := d, run, control := if d.phases.isEmpty then .finish else .check })

/-- The result of a phase that ends now. -/
def phaseResult (s : Stage) (f : Frame) (u : Underway) (outcome : Except WorkflowError Json) :
    PhaseResult :=
  let base : PhaseResult :=
    { phase := u.phase.id, name := u.phase.name, success := true
      guardian := f.definition.agent u.phase, input := u.input, duration := s.host.clock - u.since }
  match outcome with
  | .ok output => { base with output := some output }
  | .error e => { base with success := false, error := some e.message }

/-- The outputs kept, with the one of a phase that succeeded. -/
def keepOutput (results : Object) (p : Phase) (outcome : Except WorkflowError Json) : Object :=
  match p.outputKey, outcome with
  | some key, .ok output => Object.insert results key output
  | _, _ => results

/-- End the phase under way. -/
def endPhase (s : Stage) (f : Frame) (u : Underway) (outcome : Except WorkflowError Json) :
    Stage × Frame :=
  let result := s.phaseResult f u outcome
  let run := { f.run with
    phases := f.run.phases ++ [result], results := keepOutput f.run.results u.phase outcome }
  let stop := !result.success && u.phase.critical
  let run :=
    if stop then
      { run with
        status := .failed
        error := some (WorkflowError.phaseFailed u.phase.name (result.error.getD "unknown error")).message }
    else run
  (s.announce (.phaseCompleted run.id u.phase.id result.success), { f with run, control := .publish stop })

/-- A task whose innermost run has ended its phase. -/
def endPhaseOf (s : Stage) (f : Frame) (below : List Frame) (u : Underway)
    (outcome : Except WorkflowError Json) : Stage × Task :=
  let (s, f) := s.endPhase f u outcome
  (s, .running f below)

/-- The payload of a workflow that a phase ran. -/
def nestedOutcome (p : Phase) (workflow : String) (r : RunResult) : Except WorkflowError Json :=
  if r.success then .ok (.object r.results)
  else .error (.phaseFailed p.id (r.error.getD ("nested workflow " ++ workflow ++ " failed")))

/-- Hand the result of a run to the run that waits for it. -/
def deliver (s : Stage) (r : RunResult) : List Frame → Stage × Task
  | [] => (s, .finished (.ok r))
  | f :: below =>
    match f.control with
    | .nested u =>
      match u.phase.action with
      | .nested workflow => s.endPhaseOf f below u (nestedOutcome u.phase workflow r)
      | _ => (s, .running f below)
    | _ => (s, .running f below)

/-- Ask the provider all that a phase has to ask. -/
def askAll (s : Stage) (queries : List Provider.Query) : Stage × List Call :=
  ({ s with host := queries.foldl Host.ask s.host },
   queries.map fun query => { query, due := s.host.clock + s.host.provider.delay query })

/-- Start a phase. -/
def startPhase (s : Stage) (f : Frame) (below : List Frame) (p : Phase) : Stage × Task :=
  let f := { f with run := { f.run with currentPhase := f.run.phases.length } }
  let u : Underway := { phase := p, input := resolveInputs p f.run.results, since := s.host.clock }
  match p.action with
  | .nested workflow =>
    if below.length + 1 ≥ maxNesting then
      let reason := "nesting deeper than " ++ toString maxNesting ++ " workflows"
      s.endPhaseOf f below u (.error (.phaseFailed p.id reason))
    else
      match s.orchestrator.definitions.get? workflow with
      | none => s.endPhaseOf f below u (.error (.notFound workflow))
      | some d =>
        let (s, inner) := s.begin d (.object u.input) (some f.run.id)
        (s, .running inner ({ f with control := .nested u } :: below))
  | _ =>
    let provider := s.orchestrator.config.textProvider
    let (s, calls) := s.askAll (p.queries provider (f.definition.agent p) u.input f.run.context)
    (s, .running { f with control := .calling u calls } below)

/-- Look for a cancellation, then start the next phase. -/
def check (s : Stage) (f : Frame) (below : List Frame) : Stage × Task :=
  if s.orchestrator.isCancelled f.run.id then
    let run := { f.run with
      status := .cancelled, error := some (WorkflowError.cancelled f.run.id).message }
    (s, .running { f with run, control := .finish } below)
  else
    match f.next? with
    | some p => s.startPhase f below p
    | none => (s, .running { f with control := .finish } below)

/-- Publish what a phase has brought. -/
def publish (s : Stage) (f : Frame) (below : List Frame) (stop : Bool) : Stage × Task :=
  ({ s with orchestrator := s.orchestrator.publish f.run },
   .running { f with control := if stop then .finish else f.between } below)

/-- Count a run that has ended, and announce it; a cancellation was announced when it was asked for. -/
def conclude (s : Stage) (run : Instance) (duration : Nat) : Stage :=
  let o := s.orchestrator
  let c := o.counters
  let count (c : Counters) : Stage := { s with orchestrator := { o with counters := c } }
  match run.status with
  | .completed =>
    (count { c with completed := c.completed + 1, completedTime := c.completedTime + duration }).announce
      (.workflowCompleted run.id run.workflow duration)
  | .cancelled => count { c with cancelled := c.cancelled + 1 }
  | .failed | .running =>
    (count { c with failed := c.failed + 1 }).announce
      (.workflowFailed run.id run.workflow (run.error.getD ""))

/-- End a run: one that nothing stopped is complete. -/
def finish (s : Stage) (f : Frame) (below : List Frame) : Stage × Task :=
  let run := { f.run with
    status := if f.run.status = .running then .completed else f.run.status, ended := some s.now }
  let duration := elapsed run.started s.now
  let s := { s with orchestrator := s.orchestrator.publish run }.conclude run duration
  s.deliver
    { id := run.id, workflow := run.workflow, name := run.name, status := run.status, duration
      results := run.results, phases := run.phases, error := run.error } below

/-- One block of work, if the run does not wait. -/
def advance? (s : Stage) (f : Frame) (below : List Frame) : Option (Stage × Task) :=
  match f.control with
  | .check => some (s.check f below)
  | .publish stop => some (s.publish f below stop)
  | .finish => some (s.finish f below)
  | .calling .. | .nested _ => none

/-! ## What a run waits for -/

/-- The payloads of calls that are all answered, or the first error in their order. -/
def allAnswered? (calls : List Call) : Option (Except WorkflowError (List Json)) :=
  (calls.mapM Call.outcome?).map fun outcomes => outcomes.mapM id

/-- The provider answers a call that is due; with the last answer the phase ends. -/
def answer? (s : Stage) (f : Frame) (below : List Frame) (place : Nat) : Option (Stage × Task) := do
  let .calling u calls := f.control | none
  let call ← calls[place]?
  if call.outcome?.isSome ∨ s.host.clock < call.due then none
  let (reply, host) := s.host.answer call.query
  let provider := s.orchestrator.config.textProvider
  let outcome := (Provider.payload reply provider).mapError WorkflowError.provider
  let calls := calls.set place { call with outcome? := some outcome }
  let s := { s with host }
  match allAnswered? calls with
  | some payloads => return s.endPhaseOf f below u (payloads.map u.phase.output)
  | none => return (s, .running { f with control := .calling u calls } below)

/-- The time of a phase is over: what it waits for is dropped, and its running descendants fail. -/
def expire? (s : Stage) (f : Frame) (below : List Frame) : Option (Stage × Task) := do
  let u ← f.underway?
  let millis ← u.phase.timeout
  if !s.orchestrator.config.enforcePhaseTimeouts ∨ s.host.clock < u.since + millis then none
  let o := match f.control with
    | .nested _ => s.orchestrator.abandonChildren s.now f.run.id
    | _ => s.orchestrator
  return { s with orchestrator := o }.endPhaseOf f below u (.error (.phaseTimedOut u.phase.id millis))

end Stage

/-! ## Tasks -/

/-- A stage with its tasks, in the order of their start. -/
structure System extends Stage where
  tasks : List Task := []

/-- What can happen. -/
inductive Happening
  /-- A workflow is asked for. -/
  | start (workflow : String) (context : Json)
  /-- A task does a block of work. -/
  | advance (task : Nat)
  /-- The provider answers a call of a task. -/
  | answer (task call : Nat)
  /-- The time of a phase is over; the innermost run of the task has level 0. -/
  | expire (task level : Nat)
  | cancel (id : InstanceId)
  /-- The clock goes on. -/
  | wait (millis : Nat)

namespace System

/-- Work on one task. -/
def onTask? (s : System) (task : Nat) (work? : Stage → Frame → List Frame → Option (Stage × Task)) :
    Option System := do
  let .running f below ← s.tasks[task]? | none
  let (stage, t) ← work? s.toStage f below
  return { toStage := stage, tasks := s.tasks.set task t }

/-- A workflow that is not known fails at once. -/
def start (s : System) (workflow : String) (context : Json) : System :=
  match s.orchestrator.definitions.get? workflow with
  | none => { s with tasks := s.tasks ++ [.finished (.error (.notFound workflow))] }
  | some d =>
    let (stage, f) := s.toStage.begin d context none
    { toStage := stage, tasks := s.tasks ++ [.running f []] }

/-- The state after something has happened, if it can happen. -/
def step? (s : System) : Happening → Option System
  | .start workflow context => some (s.start workflow context)
  | .advance task => s.onTask? task Stage.advance?
  | .answer task call => s.onTask? task fun stage f below => stage.answer? f below call
  | .expire task level => s.onTask? task fun stage f below =>
      match (f :: below).drop level with
      | g :: outer => stage.expire? g outer
      | [] => none
  | .cancel id => some { s with toStage := (s.toStage.cancel id).2 }
  | .wait millis => some { s with host.clock := s.host.clock + millis }

/-- The state after a list of happenings, if each can happen in its turn. -/
def run? (s : System) (happenings : List Happening) : Option System :=
  happenings.foldlM step? s

/-- What became of a task, once it is finished. -/
def outcome? (s : System) (task : Nat) : Option Outcome :=
  match s.tasks[task]? with
  | some (.finished outcome) => some outcome
  | _ => none

end System

end Grimoire.Workflow
