import Grimoire.Workflow.Run

/-!
# Clients of an orchestrator

A client makes its requests one after another and waits for each answer. Several clients share one
clock, which goes on only when all of them wait: what needs no time is done first. `Stage.serve` is one
fixed order of happenings: clients in their order, due answers before timeouts, and of the timeouts
that are due the innermost first.

| here | there |
| --- | --- |
| `Request`     | `start_workflow`, `cancel_workflow`, `get_workflow_status` and the lists |
| `Stage.serve` | callers that share an orchestrator, under a paused clock |
| `Stage.run`   | one `start_workflow` that is awaited with nothing beside it |
-/
namespace Grimoire.Workflow

open Event (InstanceId)

/-! ## The next happening of a task -/

/-- The place of the first call that the provider is done with. -/
def dueCall? (clock : Nat) (calls : List Call) : Option Nat :=
  calls.findIdx? fun c => c.outcome?.isNone && c.due ≤ clock

namespace System

/-- The deadlines of a task that count, the innermost first. -/
def deadlines (s : System) (frames : List Frame) : List (Option Nat) :=
  if s.orchestrator.config.enforcePhaseTimeouts then frames.map Frame.deadline? else []

/-- What happens next to a task at the present clock. -/
def next? (s : System) (task : Nat) : Option Happening :=
  match s.tasks[task]? with
  | some (.running f below) =>
    let dueAnswer? : Option Nat := match f.control with
      | .calling _ calls => dueCall? s.host.clock calls
      | _ => none
    if f.underway?.isNone then some (.advance task)
    else match dueAnswer? with
      | some call => some (.answer task call)
      | none =>
        ((s.deadlines (f :: below)).findIdx? fun deadline? =>
          deadline?.any (· ≤ s.host.clock)).map (.expire task ·)
  | _ => none

/-- The clock when the next thing happens to a task that waits. -/
def wake? (s : System) (task : Nat) : Option Nat :=
  match s.tasks[task]? with
  | some (.running f below) =>
    let dues : List Nat := match f.control with
      | .calling _ calls => (calls.filter (·.outcome?.isNone)).map (·.due)
      | _ => []
    (dues ++ (s.deadlines (f :: below)).filterMap id).min?
  | _ => none

end System

/-! ## Clients -/

inductive Request
  | start (workflow : String) (context : Json)
  | status (id : InstanceId)
  | cancel (id : InstanceId)
  | active
  | metrics
  | sleep (millis : Nat)

inductive Answer
  | outcome (outcome : Outcome)
  | status (report? : Option Report)
  | cancelled (found : Bool)
  | active (reports : List Report)
  | metrics (metrics : Orchestrator.Metrics)
  | slept

inductive Waiting
  | ready
  | forTask (task : Nat)
  | untilClock (clock : Nat)

structure Client where
  /-- The requests not made yet. -/
  requests : List Request
  waiting : Waiting := .ready
  /-- The latest first. -/
  answers : List Answer := []

namespace Client

def hear (c : Client) (a : Answer) : Client := { c with waiting := .ready, answers := a :: c.answers }

/-- Make a request. -/
def ask (s : System) (c : Client) : Request → System × Client
  | .start workflow context =>
    (s.start workflow context, { c with waiting := .forTask s.tasks.length })
  | .status id => (s, c.hear (.status (s.report? id)))
  | .cancel id =>
    let (found, stage) := s.toStage.cancel id
    ({ s with toStage := stage }, c.hear (.cancelled found))
  | .active => (s, c.hear (.active s.activeReports))
  | .metrics => (s, c.hear (.metrics s.orchestrator.metrics))
  | .sleep millis => (s, { c with waiting := .untilClock (s.host.clock + millis) })

/-- The next move of a client; none while it waits for the clock, or has no more requests. -/
def move? (s : System) (c : Client) : Option (System × Client) :=
  match c.waiting with
  | .ready =>
    match c.requests with
    | [] => none
    | r :: rs => some (ask s { c with requests := rs } r)
  | .forTask task =>
    match s.outcome? task with
    | some outcome => some (s, c.hear (.outcome outcome))
    | none => do return (← s.step? (← s.next? task), c)
  | .untilClock clock => if clock ≤ s.host.clock then some (s, c.hear .slept) else none

/-- The clock that a client waits for. -/
def wake? (s : System) (c : Client) : Option Nat :=
  match c.waiting with
  | .ready => none
  | .forTask task => s.wake? task
  | .untilClock clock => some clock

/-- The move of the first client that has one. -/
def firstMove? (s : System) : List Client → Option (System × List Client)
  | [] => none
  | c :: cs =>
    match move? s c with
    | some (s, c) => some (s, c :: cs)
    | none => (firstMove? s cs).map fun (s, cs) => (s, c :: cs)

/-- One move, or on to the next clock that a client waits for; none when all are served. -/
def turn? (s : System) (cs : List Client) : Option (System × List Client) :=
  match firstMove? s cs with
  | some next => some next
  | none => do
    let clock ← (cs.filterMap (wake? s)).min?
    return ({ s with host.clock := max s.host.clock clock }, cs)

/-- Turns until all are served, `turns` at most. -/
def turns : (turns : Nat) → System → List Client → System × List Client
  | 0, s, cs => (s, cs)
  | n + 1, s, cs =>
    match turn? s cs with
    | some (s, cs) => turns n s cs
    | none => (s, cs)

end Client

/-! ## Enough turns -/

/-- The most of a measure over the registered definitions. -/
def Orchestrator.most (o : Orchestrator) (measure : Definition → Nat) : Nat :=
  (o.definitions.values.map measure).foldl max 0

def PhaseAction.isNested : PhaseAction → Bool
  | nested _ => true
  | _ => false

def PhaseAction.width : PhaseAction → Nat
  | parallel guardians => guardians.length
  | _ => 1

/-- No more instances than these come from one start: in a chain of at most `maxNesting` each starts
at most one instance for each of its nested phases. -/
def Orchestrator.instanceBound (o : Orchestrator) : Nat :=
  let width := o.most fun d => (d.phases.filter (·.action.isNested)).length
  ((List.range maxNesting).map fun depth => Nat.pow width depth).foldr (· + ·) 0

/-- No more happenings than these come from one start: a phase has a check, its answers, a timeout and
a publication, and a run has an end. -/
def Orchestrator.happeningBound (o : Orchestrator) : Nat :=
  o.instanceBound * ((o.most fun d => (d.phases.map fun p => p.action.width + 4).foldr (· + ·) 0) + 2)

/-- Serve clients at the same time; the answers of each, in the order of its requests. -/
def Stage.serve (s : Stage) (scripts : List (List Request)) : Stage × List (List Answer) :=
  let requests := (scripts.map List.length).foldr (· + ·) 0
  let (t, clients) := Client.turns (2 * requests * (s.orchestrator.happeningBound + 3) + 1)
    { toStage := s } (scripts.map fun requests => { requests })
  (t.toStage, clients.map fun c => c.answers.reverse)

/-- Run a workflow with nothing else going on. -/
def Stage.run (s : Stage) (workflow : String) (context : Json) : Outcome × Stage :=
  match s.serve [[.start workflow context]] with
  | (s, [[.outcome outcome]]) => (outcome, s)
  | (s, _) => (.error (.notFound workflow), s)

end Grimoire.Workflow
