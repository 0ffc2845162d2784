import Grimoire.Json.Record

/-!
# Workflow definitions

A workflow is a named list of phases. A phase asks the provider for something, or runs another
workflow; its output may be kept under a key, where later phases find it. `Phase.ofJson?` and
`Definition.ofJson?` read what `toJson` writes.

| here | there |
| --- | --- |
| `PhaseAction`                         | `PhaseAction` |
| `Phase`                               | `PhaseSpec` |
| `Completion`                          | `CompletionHandler` |
| `Definition`                          | `WorkflowDefinition` |
| `Phase.ofJson?`, `Definition.ofJson?` | their derived stored forms |

`run_completion_handler` only writes to the log and is left out.
-/
namespace Grimoire.Workflow

/-! ## Phases -/

/-- What a phase does with its input. -/
inductive PhaseAction
  | generate
  | enhance
  | validate
  /-- Generate once for each guardian, all at the same time. -/
  | parallel (guardians : List String)
  /-- Run a workflow; its results are the output of the phase. -/
  | nested (workflow : String)
deriving DecidableEq, Repr

def PhaseAction.kind : PhaseAction → String
  | generate => "generate"
  | enhance => "enhance"
  | validate => "validate"
  | parallel _ => "parallel"
  | nested _ => "workflow"

structure Phase where
  id : String
  name : String
  /-- Who runs the phase; the workflow's orchestrator when there is none. -/
  guardian : Option String := none
  skill : Option String := none
  action : PhaseAction
  prompt : String := ""
  /-- Dotted references into the outputs of earlier phases. -/
  inputs : List String := []
  /-- Input that is there before the references are resolved. -/
  parameters : Object := []
  /-- Where the output is kept. -/
  outputKey : Option String := none
  /-- How many milliseconds the phase may take. -/
  timeout : Option Nat := none
  /-- Does the workflow fail with the phase? -/
  critical : Bool := true

/-! ## Workflows -/

/-- What is looked at when a workflow is complete; the run is not changed by it. -/
inductive Completion
  | world | character | story | spell
deriving DecidableEq, Repr

structure Definition where
  id : String
  name : String
  description : String := ""
  /-- The guardian of the phases that name none. -/
  orchestrator : String
  phases : List Phase
  onComplete : Option Completion := none

def Completion.subject : Completion → String
  | world => "world"
  | character => "character"
  | story => "story"
  | spell => "spell"

/-- The result that a complete workflow should have. -/
def Completion.requiredKey : Completion → String
  | world => "cosmology"
  | character => "archetype"
  | story | spell => "concept"

/-- Who runs a phase. -/
def Definition.agent (d : Definition) (p : Phase) : String := p.guardian.getD d.orchestrator

/-! ## Stored form -/

/-- The members that name the action. -/
def PhaseAction.members (a : PhaseAction) : Object :=
  ("action", .string a.kind) :: match a with
    | parallel guardians => [("guardians", Json.strings guardians)]
    | nested workflow => [("workflow_id", .string workflow)]
    | generate | enhance | validate => []

/-- The kind of an action by its name, or by its place in the order of declaration. -/
def PhaseAction.kind? : Json → Option String
  | .string name => some name
  | j => do ["generate", "enhance", "validate", "parallel", "workflow"][← j.asNat? (Nat.pow 2 64)]?

/-- An action among the members of its phase. -/
def PhaseAction.ofMembers? (members : Object) : Option PhaseAction := do
  let r := Record.named members
  match ← r.required 0 "action" PhaseAction.kind? with
  | "generate" => return generate
  | "enhance" => return enhance
  | "validate" => return validate
  | "parallel" => return parallel (← r.required 0 "guardians" (Json.asList? Json.asString?))
  | "workflow" => return nested (← r.required 0 "workflow_id" Json.asString?)
  | _ => none

def optionText (text? : Option String) : Json := Json.ofOption (text?.map .string)

def Phase.members (p : Phase) : Object :=
  [("id", .string p.id), ("name", .string p.name), ("guardian", optionText p.guardian),
   ("skill", optionText p.skill)] ++ p.action.members ++
  [("prompt", .string p.prompt), ("inputs", Json.strings p.inputs),
   ("parameters", .object p.parameters), ("output_key", optionText p.outputKey),
   ("timeout_ms", Json.ofOption (p.timeout.map Json.ofNat)), ("critical", .bool p.critical)]

def Phase.toJson (p : Phase) : Json := .object p.members

def Phase.ofJson? (j : Json) : Option Phase := do
  let members ← j.asObject?
  let r := Record.named members
  return {
    id := ← r.required 0 "id" Json.asString?
    name := ← r.required 1 "name" Json.asString?
    guardian := ← r.optional 2 "guardian" Json.asString?
    skill := ← r.optional 3 "skill" Json.asString?
    action := ← PhaseAction.ofMembers? members
    prompt := ← r.defaulted 4 "prompt" Json.asString? ""
    inputs := ← r.defaulted 5 "inputs" (Json.asList? Json.asString?) []
    parameters := ← r.defaulted 6 "parameters" Json.asObject? []
    outputKey := ← r.optional 7 "output_key" Json.asString?
    timeout := ← r.optional 8 "timeout_ms" (Json.asNat? (Nat.pow 2 64))
    critical := ← r.defaulted 9 "critical" Json.asBool? true }

def Completion.name (c : Completion) : String := "validate_" ++ c.subject

def Completion.all : List Completion := [world, character, story, spell]

def Completion.ofJson? (j : Json) : Option Completion := do
  let name ← j.asName?
  all.find? (·.name == name)

def Definition.toJson (d : Definition) : Json :=
  .object
    [("id", .string d.id), ("name", .string d.name), ("description", .string d.description),
     ("orchestrator", .string d.orchestrator), ("phases", .array (d.phases.map Phase.toJson)),
     ("on_complete", optionText (d.onComplete.map Completion.name))]

def Definition.ofJson? (j : Json) : Option Definition := do
  let r ← Record.of? 6 j
  return {
    id := ← r.required 0 "id" Json.asString?
    name := ← r.required 1 "name" Json.asString?
    description := ← r.defaulted 2 "description" Json.asString? ""
    orchestrator := ← r.required 3 "orchestrator" Json.asString?
    phases := ← r.required 4 "phases" (Json.asList? Phase.ofJson?)
    onComplete := ← r.defaulted 5 "on_complete" (Json.asOption? Completion.ofJson?) none }

end Grimoire.Workflow
