import Grimoire.Catalog
import Grimoire.Config
import Grimoire.Host
import Grimoire.Workflow.Error
import Grimoire.Workflow.Instance

/-!
# Orchestrators

An orchestrator keeps the registered definitions, what has been published of each instance, and
counters. A run works on its own view of its instance and publishes that view; the request to cancel
an instance is written into the published one, where the run finds it.

| here | there |
| --- | --- |
| `Orchestrator`             | `WorkflowOrchestrator` |
| `Counters`, `Metrics`      | `MetricsRecorder`, `WorkflowMetrics` |
| `isCancelled`, `publish`   | `is_cancelled`, `store` |
| `abandonChildren`          | `abandon_children` |
| `register`, `list`         | `register_workflow`, `list_workflows` |
| `cancel`                   | `cancel_workflow` |
| `report?`, `activeReports` | `get_workflow_status`, `list_active_workflows` |
| `metrics`                  | `metrics`, `MetricsRecorder::snapshot` |

The locks around the instances are left out: what is done under one of them lies inside one block of `System.step?`.
-/
namespace Grimoire.Workflow

open Event (InstanceId)
open Time (Instant)

/-! ## Counters -/

structure Counters where
  started : Nat := 0
  completed : Nat := 0
  failed : Nat := 0
  cancelled : Nat := 0
  /-- Milliseconds that the completed runs took together. -/
  completedTime : Nat := 0

structure Orchestrator where
  config : Config := {}
  definitions : Catalog Definition := .empty
  /-- The published instances, in the order of their start. -/
  instances : List Instance := []
  counters : Counters := {}

/-- An orchestrator and the host of its runs. -/
structure Stage where
  orchestrator : Orchestrator := {}
  host : Host

namespace Orchestrator

/-! ## Published instances -/

def instance? (o : Orchestrator) (id : InstanceId) : Option Instance :=
  o.instances.find? (·.id == id)

def update (o : Orchestrator) (id : InstanceId) (f : Instance → Instance) : Orchestrator :=
  { o with instances := o.instances.map fun i => if i.id == id then f i else i }

def isCancelled (o : Orchestrator) (id : InstanceId) : Bool :=
  (o.instance? id).any (·.status == .cancelled)

/-- Publish the view of a run. A cancellation that the run has not seen yet stays visible. -/
def publish (o : Orchestrator) (run : Instance) : Orchestrator :=
  if run.status = .running ∧ o.isCancelled run.id then
    o.update run.id fun _ => { run with status := .cancelled }
  else o.update run.id fun _ => run

/-- The running instances, the oldest first. -/
def active (o : Orchestrator) : List Instance := o.instances.filter (·.status == .running)

/-! ## Abandoned instances -/

/-- An instance whose parent stopped waiting for it. -/
def abandoned (now : Instant) (i : Instance) : Instance :=
  { i with status := .failed, ended := some now, error := some "parent phase timed out" }

/-- The running instances that one of the parents started. -/
def runningChildren (o : Orchestrator) (parents : List InstanceId) : List InstanceId :=
  (o.active.filter fun i => i.parent.any parents.contains).map (·.id)

/-- Abandon the running children of the parents, then their running children, and so on. Each round
abandons an instance, so there are no more rounds than instances. -/
def abandonRounds (now : Instant) : (rounds : Nat) → List InstanceId → Orchestrator → Orchestrator
  | 0, _, o => o
  | rounds + 1, parents, o =>
    match o.runningChildren parents with
    | [] => o
    | children =>
      abandonRounds now rounds children (children.foldl (fun o id => o.update id (abandoned now)) o)

def abandonChildren (o : Orchestrator) (now : Instant) (parent : InstanceId) : Orchestrator :=
  abandonRounds now o.instances.length [parent] o

/-! ## Metrics -/

structure Metrics where
  counters : Counters
  active : Nat
  registered : Nat

def metrics (o : Orchestrator) : Metrics where
  counters := o.counters
  active := o.active.length
  registered := o.definitions.size

/-- The completed share of the started runs, in percent. -/
def Metrics.successRate (m : Metrics) : Float :=
  if m.counters.started = 0 then 0.0 else percent m.counters.completed m.counters.started

/-- The mean time of a completed run, in milliseconds. -/
def Metrics.meanTime (m : Metrics) : Float :=
  if m.counters.completed = 0 then 0.0
  else Float.ofNat m.counters.completedTime / Float.ofNat m.counters.completed

def Metrics.toJson (m : Metrics) : Json :=
  .object
    [("workflows_started", Json.ofNat m.counters.started),
     ("workflows_completed", Json.ofNat m.counters.completed),
     ("workflows_failed", Json.ofNat m.counters.failed),
     ("workflows_cancelled", Json.ofNat m.counters.cancelled),
     ("avg_execution_time_ms", Json.ofFloat m.meanTime),
     ("active_workflows", Json.ofNat m.active), ("registered_workflows", Json.ofNat m.registered),
     ("success_rate", Json.ofFloat m.successRate)]

/-! ## Definitions -/

structure Summary where
  id : String
  name : String
  description : String
  phases : Nat
  orchestrator : String
deriving DecidableEq, Repr

def Summary.toJson (s : Summary) : Json :=
  .object
    [("id", .string s.id), ("name", .string s.name), ("description", .string s.description),
     ("phases", Json.ofNat s.phases), ("orchestrator", .string s.orchestrator)]

/-- The registered workflows, in the order of their first registration. -/
def list (o : Orchestrator) : List Summary :=
  o.definitions.toList.map fun (_, d) => ⟨d.id, d.name, d.description, d.phases.length, d.orchestrator⟩

def withDefinition (o : Orchestrator) (d : Definition) : Orchestrator :=
  { o with definitions := o.definitions.put d.id d }

/-- An orchestrator that knows the definitions. -/
def ofDefinitions (ds : List Definition) : Orchestrator := ds.foldl withDefinition {}

end Orchestrator

/-! ## Requests -/

namespace Stage

/-- The instant that the clock of the host shows. -/
def now (s : Stage) : Instant := Instant.epoch.addMillis s.host.clock

def announce (s : Stage) (e : Event) : Stage := { s with host := s.host.announce e }

/-- Register a definition in the place of any with the same id. -/
def register (s : Stage) (d : Definition) : Stage :=
  { s with orchestrator := s.orchestrator.withDefinition d }.announce (.workflowRegistered d.id)

/-- Ask a running instance to stop before its next phase; false if there is none with this id. -/
def cancel (s : Stage) (id : InstanceId) : Bool × Stage :=
  if (s.orchestrator.instance? id).any (·.status == .running) then
    let stop (i : Instance) : Instance := { i with status := .cancelled, ended := some s.now }
    (true, { s with orchestrator := s.orchestrator.update id stop }.announce (.workflowCancelled id))
  else (false, s)

def report? (s : Stage) (id : InstanceId) : Option Report :=
  (s.orchestrator.instance? id).map (·.report s.now)

/-- Reports of the running instances, the oldest first. -/
def activeReports (s : Stage) : List Report := s.orchestrator.active.map (·.report s.now)

end Stage

end Grimoire.Workflow
