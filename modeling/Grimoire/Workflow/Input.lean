import Grimoire.Json.Path
import Grimoire.Json.Printer
import Grimoire.Provider.Request
import Grimoire.Workflow.Definition

/-!
# The input of a phase

A phase starts from its parameters; each of its references leads to a part of an earlier output and
puts it under the key of that output. A reference that leads nowhere changes nothing. The requests of
a phase are made from its prompt, its input and the context of the run.

| here | there |
| --- | --- |
| `resolve?`, `resolveInputs`     | `resolve_inputs` |
| `Phase.generationPrompt`        | `generation_prompt` with `describe_input` |
| `Phase.generation`              | `WorkflowOrchestrator::generate` |
| `Phase.contentQuery`            | `WorkflowOrchestrator::content_request` |
| `Phase.queries`, `Phase.output` | the arms of `WorkflowOrchestrator::dispatch` |
-/
namespace Grimoire.Workflow

open Provider (Query)

/-! ## References -/

/-- The key of a reference and the path into the output under that key. -/
def splitReference (reference : String) : String × String :=
  match Text.splitOnce '.' reference.toList with
  | some (key, path) => (String.ofList key, String.ofList path)
  | none => (reference, "")

/-- The key and the value that a reference leads to. -/
def resolve? (results : Object) (reference : String) : Option (String × Json) := do
  let (key, path) := splitReference reference
  return (key, ← (← Object.get? results key).lookup? path)

/-- The input with what a reference leads to. -/
def addReference (results input : Object) (reference : String) : Object :=
  match resolve? results reference with
  | some (key, value) => Object.insert input key value
  | none => input

/-- The input of a phase, given the outputs kept so far. -/
def resolveInputs (p : Phase) (results : Object) : Object :=
  p.inputs.foldl (addReference results) p.parameters

/-! ## Requests -/

/-- Does a context say anything? -/
def hasContent : Json → Bool
  | .null => false
  | .object members => !members.isEmpty
  | _ => true

/-- The prompt of a generation; empty parts are left out. -/
def Phase.generationPrompt (p : Phase) (input : Object) (context : Json) : String :=
  p.prompt ++ (if input.isEmpty then "" else "\n\nInput: " ++ (Json.object input).text)
    ++ (if hasContent context then "\n\nContext: " ++ context.text else "")

def Phase.generation (p : Phase) (provider agent : String) (input : Object) (context : Json) : Query :=
  .text
    { provider, prompt := p.generationPrompt input context, options := { guardian := some agent } }

def Phase.contentQuery (p : Phase) (task : Provider.ContentTask) (provider agent : String)
    (input : Object) (context : Json) : Query :=
  .content task
    { provider := some provider, guardian := some agent, instruction := p.prompt
      content := .object input, context }

/-- What a phase asks the provider; nothing when it runs a workflow. -/
def Phase.queries (p : Phase) (provider agent : String) (input : Object) (context : Json) :
    List Query :=
  match p.action with
  | .generate => [p.generation provider agent input context]
  | .enhance => [p.contentQuery .enhance provider agent input context]
  | .validate => [p.contentQuery .validate provider agent input context]
  | .parallel [] => [p.generation provider agent input context]
  | .parallel guardians => guardians.map fun g => p.generation provider g input context
  | .nested _ => []

/-- The output of a phase from the payloads of its calls. -/
def Phase.output (p : Phase) (payloads : List Json) : Json :=
  match p.action with
  | .parallel _ => .object [("parallel", .bool true), ("results", .array payloads)]
  | _ => payloads.headD .null

end Grimoire.Workflow
