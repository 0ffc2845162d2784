import Grimoire.Event.InstanceId
import Grimoire.Json.Record

/-!
# Events

What sessions, triggers and workflows announce while they run, with the stored form: a record whose
member `type` names the event.

| here | there |
| --- | --- |
| `Event`             | `RuntimeEvent` |
| `typeName`          | `RuntimeEvent::event_type` |
| `toJson`, `ofJson?` | the derived stored form, tagged by `type` |
-/
namespace Grimoire

open Event (InstanceId)

inductive Event
  | sourceLoaded (path : Option String) (declarations parseErrors : Nat)
  | spellRegistered (name : String)
  | spellCast (name provider : String) (guardian : Option String) (duration : Nat)
  | spellFailed (name error : String)
  | characterCreated (name : String)
  | worldBuilt (name : String)
  | archetypeDefined (name : String)
  | enrichmentFailed (entity slot error : String)
  | triggerRegistered (trigger name : String)
  | triggerUnregistered (trigger : String)
  | triggerStateChanged (trigger : String) (enabled : Bool)
  | triggerExecuted (trigger guardian : String) (confidence : Float) (success : Bool)
  | triggerFailed (trigger error : String)
  | workflowRegistered (workflow : String)
  | workflowStarted (instanceId : InstanceId) (workflow : String)
  | phaseCompleted (instanceId : InstanceId) (phase : String) (success : Bool)
  | workflowCompleted (instanceId : InstanceId) (workflow : String) (duration : Nat)
  | workflowFailed (instanceId : InstanceId) (workflow error : String)
  | workflowCancelled (instanceId : InstanceId)

namespace Event

def typeName : Event → String
  | sourceLoaded .. => "SourceLoaded"
  | spellRegistered .. => "SpellRegistered"
  | spellCast .. => "SpellCast"
  | spellFailed .. => "SpellFailed"
  | characterCreated .. => "CharacterCreated"
  | worldBuilt .. => "WorldBuilt"
  | archetypeDefined .. => "ArchetypeDefined"
  | enrichmentFailed .. => "EnrichmentFailed"
  | triggerRegistered .. => "TriggerRegistered"
  | triggerUnregistered .. => "TriggerUnregistered"
  | triggerStateChanged .. => "TriggerStateChanged"
  | triggerExecuted .. => "TriggerExecuted"
  | triggerFailed .. => "TriggerFailed"
  | workflowRegistered .. => "WorkflowRegistered"
  | workflowStarted .. => "WorkflowStarted"
  | phaseCompleted .. => "PhaseCompleted"
  | workflowCompleted .. => "WorkflowCompleted"
  | workflowFailed .. => "WorkflowFailed"
  | workflowCancelled .. => "WorkflowCancelled"

/-- The instance an event is about, if it is about a workflow run. -/
def instance? : Event → Option InstanceId
  | workflowStarted i _ | phaseCompleted i _ _ | workflowCompleted i _ _ | workflowFailed i _ _
  | workflowCancelled i => some i
  | _ => none

/-! ## Stored form -/

def optionText : Option String → Json
  | some s => .string s
  | none => .null

/-- The members after the type. -/
def members : Event → Object
  | sourceLoaded path declarations parseErrors =>
    [("path", optionText path), ("declarations", Json.ofNat declarations),
     ("parse_errors", Json.ofNat parseErrors)]
  | spellRegistered name | characterCreated name | worldBuilt name | archetypeDefined name =>
    [("name", .string name)]
  | spellCast name provider guardian duration =>
    [("name", .string name), ("provider_id", .string provider), ("guardian_id", optionText guardian),
     ("duration_ms", Json.ofNat duration)]
  | spellFailed name error => [("name", .string name), ("error", .string error)]
  | enrichmentFailed entity slot error =>
    [("entity", .string entity), ("slot", .string slot), ("error", .string error)]
  | triggerRegistered trigger name => [("trigger_id", .string trigger), ("name", .string name)]
  | triggerUnregistered trigger => [("trigger_id", .string trigger)]
  | triggerStateChanged trigger enabled =>
    [("trigger_id", .string trigger), ("enabled", .bool enabled)]
  | triggerExecuted trigger guardian confidence success =>
    [("trigger_id", .string trigger), ("guardian", .string guardian),
     ("confidence", Json.ofFloat confidence), ("success", .bool success)]
  | triggerFailed trigger error => [("trigger_id", .string trigger), ("error", .string error)]
  | workflowRegistered workflow => [("workflow_id", .string workflow)]
  | workflowStarted i workflow => [("instance_id", .string i.text), ("workflow_id", .string workflow)]
  | phaseCompleted i phase success =>
    [("instance_id", .string i.text), ("phase_id", .string phase), ("success", .bool success)]
  | workflowCompleted i workflow duration =>
    [("instance_id", .string i.text), ("workflow_id", .string workflow),
     ("duration_ms", Json.ofNat duration)]
  | workflowFailed i workflow error =>
    [("instance_id", .string i.text), ("workflow_id", .string workflow), ("error", .string error)]
  | workflowCancelled i => [("instance_id", .string i.text)]

def toJson (e : Event) : Json := .object (("type", .string e.typeName) :: e.members)

def ofRecord? (type : String) (r : Record) : Option Event := do
  let text (i : Nat) (name : String) := r.required i name Json.asString?
  let flag (i : Nat) (name : String) := r.required i name Json.asBool?
  let count (i : Nat) (name : String) := r.required i name (Json.asNat? (Nat.pow 2 64))
  let id (i : Nat) := r.required i "instance_id" fun j => j.asString?.bind InstanceId.ofText?
  match type with
  | "SourceLoaded" =>
    return sourceLoaded (← r.optional 0 "path" Json.asString?) (← count 1 "declarations")
      (← count 2 "parse_errors")
  | "SpellRegistered" => return spellRegistered (← text 0 "name")
  | "SpellCast" =>
    return spellCast (← text 0 "name") (← text 1 "provider_id")
      (← r.optional 2 "guardian_id" Json.asString?) (← count 3 "duration_ms")
  | "SpellFailed" => return spellFailed (← text 0 "name") (← text 1 "error")
  | "CharacterCreated" => return characterCreated (← text 0 "name")
  | "WorldBuilt" => return worldBuilt (← text 0 "name")
  | "ArchetypeDefined" => return archetypeDefined (← text 0 "name")
  | "EnrichmentFailed" =>
    return enrichmentFailed (← text 0 "entity") (← text 1 "slot") (← text 2 "error")
  | "TriggerRegistered" => return triggerRegistered (← text 0 "trigger_id") (← text 1 "name")
  | "TriggerUnregistered" => return triggerUnregistered (← text 0 "trigger_id")
  | "TriggerStateChanged" => return triggerStateChanged (← text 0 "trigger_id") (← flag 1 "enabled")
  | "TriggerExecuted" =>
    return triggerExecuted (← text 0 "trigger_id") (← text 1 "guardian")
      (← r.required 2 "confidence" Json.asFloat?) (← flag 3 "success")
  | "TriggerFailed" => return triggerFailed (← text 0 "trigger_id") (← text 1 "error")
  | "WorkflowRegistered" => return workflowRegistered (← text 0 "workflow_id")
  | "WorkflowStarted" => return workflowStarted (← id 0) (← text 1 "workflow_id")
  | "PhaseCompleted" => return phaseCompleted (← id 0) (← text 1 "phase_id") (← flag 2 "success")
  | "WorkflowCompleted" =>
    return workflowCompleted (← id 0) (← text 1 "workflow_id") (← count 2 "duration_ms")
  | "WorkflowFailed" => return workflowFailed (← id 0) (← text 1 "workflow_id") (← text 2 "error")
  | "WorkflowCancelled" => return workflowCancelled (← id 0)
  | _ => none

def ofJson? (j : Json) : Option Event := do
  let (type, r) ← Record.tagged? "type" j
  ofRecord? type r

end Event

end Grimoire
