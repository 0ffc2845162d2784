import Grimoire.Time.Instant
import Grimoire.Event.InstanceId
import Grimoire.Workflow.Definition

/-!
# Workflow instances

An instance is one run of a workflow: its status, the results of its phases so far and the outputs
kept under keys. A report shows an instance at an instant; a run result is what its caller gets.

| here | there |
| --- | --- |
| `Status`                               | `WorkflowStatus`, `WorkflowStatus::is_terminal` |
| `PhaseResult`, `Instance`, `RunResult` | `PhaseResult`, `WorkflowInstance`, `WorkflowRunResult` |
| `elapsed`                              | `elapsed_ms` |
| `Instance.report`                      | `WorkflowInstance::report`, with `Report` for `WorkflowStatusReport` |
-/
namespace Grimoire.Workflow

open Event (InstanceId)
open Time (Instant)

/-! ## Instances -/

inductive Status
  | running | completed | failed | cancelled
deriving DecidableEq, Repr

def Status.isTerminal (s : Status) : Bool := s != .running

structure PhaseResult where
  phase : String
  name : String
  success : Bool
  guardian : String
  output : Option Json := none
  error : Option String := none
  input : Object
  /-- Milliseconds. -/
  duration : Nat

structure Instance where
  id : InstanceId
  /-- The definition that is run. -/
  workflow : String
  name : String
  context : Json
  status : Status := .running
  currentPhase : Nat := 0
  totalPhases : Nat
  /-- The phases that have ended, in order. -/
  phases : List PhaseResult := []
  /-- The outputs kept, by their keys. -/
  results : Object := []
  started : Instant
  ended : Option Instant := none
  error : Option String := none
  /-- The instance whose phase started this one. -/
  parent : Option InstanceId := none

/-- Milliseconds from one instant to another, none when it lies before. -/
def elapsed (start stop : Instant) : Nat := (stop.millisSince start).toNat

/-! ## Reports -/

structure Report where
  id : InstanceId
  name : String
  status : Status
  currentPhase : Nat
  totalPhases : Nat
  duration : Nat
  /-- The share of phases that have ended, in percent. -/
  progress : Float
  resultKeys : List String

/-- A part in percent of a whole. -/
def percent (part whole : Nat) : Float := Float.ofNat part / Float.ofNat whole * 100.0

/-- A workflow without phases is all done. -/
def Instance.progress (i : Instance) : Float :=
  if i.totalPhases = 0 then 100.0 else percent i.phases.length i.totalPhases

def Instance.report (i : Instance) (now : Instant) : Report where
  id := i.id
  name := i.name
  status := i.status
  currentPhase := i.currentPhase
  totalPhases := i.totalPhases
  duration := elapsed i.started (i.ended.getD now)
  progress := i.progress
  resultKeys := Object.keys i.results

/-! ## Results -/

structure RunResult where
  id : InstanceId
  workflow : String
  name : String
  status : Status
  duration : Nat
  results : Object
  phases : List PhaseResult
  error : Option String

def RunResult.success (r : RunResult) : Bool := r.status == .completed

/-! ## Stored form -/

def Status.name : Status → String
  | running => "running"
  | completed => "completed"
  | failed => "failed"
  | cancelled => "cancelled"

def Status.ofJson? (j : Json) : Option Status := do
  let name ← j.asName?
  [Status.running, .completed, .failed, .cancelled].find? (·.name == name)

/-- Output and error are left out when there are none. -/
def PhaseResult.toJson (r : PhaseResult) : Json :=
  .object
    ([("phase_id", .string r.phase), ("name", .string r.name), ("success", .bool r.success),
      ("guardian", .string r.guardian)]
      ++ (r.output.map (("output", ·))).toList
      ++ (r.error.map fun e => ("error", Json.string e)).toList
      ++ [("input", .object r.input), ("duration_ms", Json.ofNat r.duration)])

def PhaseResult.ofJson? (j : Json) : Option PhaseResult := do
  let r ← Record.of? 8 j
  return {
    phase := ← r.required 0 "phase_id" Json.asString?
    name := ← r.required 1 "name" Json.asString?
    success := ← r.required 2 "success" Json.asBool?
    guardian := ← r.required 3 "guardian" Json.asString?
    output := ← r.defaulted 4 "output" (Json.asOption? some) none
    error := ← r.defaulted 5 "error" (Json.asOption? Json.asString?) none
    input := ← r.required 6 "input" Json.asObject?
    duration := ← r.required 7 "duration_ms" (Json.asNat? (Nat.pow 2 64)) }

def Instance.ofJson? (j : Json) : Option Instance := do
  let r ← Record.of? 13 j
  let id (j : Json) : Option InstanceId := j.asString?.bind InstanceId.ofText?
  let instant (j : Json) : Option Instant := j.asString?.bind Instant.ofText?
  return {
    id := ← r.required 0 "id" id
    workflow := ← r.required 1 "definition_id" Json.asString?
    name := ← r.required 2 "name" Json.asString?
    context := ← r.required 3 "context" some
    status := ← r.required 4 "status" Status.ofJson?
    currentPhase := ← r.required 5 "current_phase" (Json.asNat? (Nat.pow 2 64))
    totalPhases := ← r.required 6 "total_phases" (Json.asNat? (Nat.pow 2 64))
    phases := ← r.required 7 "phases" (Json.asList? PhaseResult.ofJson?)
    results := ← r.required 8 "results_by_key" Json.asObject?
    started := ← r.required 9 "started_at" instant
    ended := ← r.optional 10 "ended_at" instant
    error := ← r.optional 11 "error" Json.asString?
    parent := ← r.optional 12 "parent" id }

def Report.toJson (r : Report) : Json :=
  .object
    [("instance_id", .string r.id.text), ("name", .string r.name), ("status", .string r.status.name),
     ("current_phase", Json.ofNat r.currentPhase), ("total_phases", Json.ofNat r.totalPhases),
     ("duration_ms", Json.ofNat r.duration), ("progress", Json.ofFloat r.progress),
     ("result_keys", Json.strings r.resultKeys)]

/-- The error is left out when there is none. -/
def RunResult.toJson (r : RunResult) : Json :=
  .object
    ([("success", .bool r.success), ("instance_id", .string r.id.text),
      ("workflow_id", .string r.workflow), ("workflow_name", .string r.name),
      ("status", .string r.status.name), ("duration_ms", Json.ofNat r.duration),
      ("results_by_key", .object r.results), ("phases", .array (r.phases.map PhaseResult.toJson))]
      ++ (r.error.map fun e => ("error", Json.string e)).toList)

end Grimoire.Workflow
