import Grimoire.Workflow.Client
import Grimoire.Trigger.Router
import Grimoire.Trigger.Strategy

/-!
# Actions of triggers

When a trigger matches, its actions are carried out one after another: they ask the provider, offer
suggestions, run a workflow or call a handler of the host. A failed action is noted and the next one
follows, unless the action is critical: then it is the last.

| here | there |
| --- | --- |
| `Invocation`, `Handler`                    | `ActionInvocation`, `ActionHandler`; a handler here is a function |
| `ActionKind`, `Action`                     | `ActionKind`, `TriggerAction` |
| `Action.displayName`, `Action.instruction` | `TriggerAction::display_name`, `TriggerAction::instruction` |
| `suggestions`                              | the suggestions of `execute_action` |
| `Attached`                                 | `TriggerEngine::with_orchestrator`, with the provider and the bus of that orchestrator |
| `Setting`                                  | what `execute_action` reads of `TriggerEngine` |
| `output`                                   | `TriggerEngine::execute_action`, with `capability_output` as `Setting.call` |
| `runAction`, `runActions`                  | the loop of `TriggerEngine::execute_trigger` |
| `ActionResult`                             | `ActionResult` |
-/
namespace Grimoire.Trigger

open Provider (ProviderError Query)

/-! ## Actions -/

/-- What a handler is given. -/
structure Invocation where
  context : Json
  guardian : String
  outcome : Outcome Float
  parameters : Object

/-- An action of the host's own; what it does may depend on how many such actions came before. -/
structure Handler where
  name : String
  handle : (before : Nat) → Invocation → Except ProviderError Json

inductive ActionKind
  | generate
  | content (task : Provider.ContentTask)
  /-- The openers of the guardian and the techniques of the skills. -/
  | suggest (skills : List String)
  /-- Run a workflow in the context of the trigger. -/
  | workflow (id : String)
  | custom (handler : Handler)

def contentTaskName : Provider.ContentTask → String
  | .analyze => "analyze"
  | .enhance => "enhance"
  | .transform => "transform"
  | .validate => "validate"

def ActionKind.name : ActionKind → String
  | generate => "generate"
  | content task => contentTaskName task
  | suggest _ => "suggest"
  | workflow _ => "workflow"
  | custom _ => "custom"

structure Action where
  name : Option String := none
  kind : ActionKind
  parameters : Object := []
  /-- Does the trigger fail with the action? -/
  critical : Bool := false

/-- An action without a name of its own is shown by its kind. -/
def Action.displayName (a : Action) : String := a.name.getD a.kind.name

/-- The parameter that says what to do with the content. -/
def instructionKey : Provider.ContentTask → String
  | .analyze => "analysis_type"
  | .enhance => "enhancement_type"
  | .transform => "target_format"
  | .validate => "rules"

/-- The parameter for the task, else the parameter `instruction`, as text. -/
def Action.instruction (a : Action) (task : Provider.ContentTask) : String :=
  let found? := (Object.get? a.parameters (instructionKey task)).or
    (Object.get? a.parameters "instruction")
  (found?.map Json.coerceText).getD ""

/-! ## Requests -/

/-- The parameter `prompt`, else the text of the context; all other parameters go along, the context
last. -/
def Action.generation (a : Action) (provider guardian : String) (context : Json) : Query :=
  .text
    { provider
      prompt := ((Object.get? a.parameters "prompt").map Json.coerceText).getD (contextText context)
      options :=
        { guardian := some guardian
          extra := Object.insert (Object.remove a.parameters "prompt") "context" context } }

def Action.contentQuery (a : Action) (task : Provider.ContentTask) (provider guardian : String)
    (context : Json) : Query :=
  .content task
    { provider := some provider, guardian := some guardian, instruction := a.instruction task
      content := .string (contextText context), context }

/-- The suggestions of a guardian and of skills. -/
def suggestions (guardian : String) (skills : List String) : Json :=
  let all := Router.openers guardian ++ skills.flatMap Router.techniques
  .object
    [("guardian", .string guardian), ("suggestions", .array (all.map Router.Suggestion.toJson)),
     ("count", Json.ofNat all.length)]

/-! ## Carrying out -/

/-- An orchestrator that actions run workflows on. It asks the provider of the actions and announces on
their bus unless it has its own. -/
structure Attached where
  orchestrator : Workflow.Orchestrator
  line? : Option Line := none
  bus? : Option (List Event) := none

/-- The stage of its runs, given the host of the actions. -/
def Attached.stage (a : Attached) (h : Host) : Workflow.Stage where
  orchestrator := a.orchestrator
  host :=
    { toLine := a.line?.getD h.toLine
      announced := a.bus?.getD h.announced
      clock := h.clock }

/-- What actions work with. -/
structure Setting where
  config : Config := {}
  host : Host
  attached? : Option Attached := none
  /-- How many actions of the host's own were carried out. -/
  handled : Nat := 0

namespace Setting

def announce (s : Setting) (e : Event) : Setting := { s with host := s.host.announce e }

def call (s : Setting) (q : Query) : Except String Json × Setting :=
  let (reply, host) := s.host.call q
  ((Provider.payload reply s.config.textProvider).mapError ProviderError.message, { s with host })

/-- The data of a workflow that succeeded, or why it did not. -/
def workflowData (id : String) : Workflow.Outcome → Except String Json
  | .error e => .error e.message
  | .ok r => if r.success then .ok r.toJson else .error (r.error.getD ("workflow " ++ id ++ " failed"))

/-- The setting after a run; what the orchestrator has of its own stays with it. -/
def afterRun (s : Setting) (a : Attached) (t : Workflow.Stage) : Setting :=
  { s with
    host :=
      { toLine := if a.line?.isSome then s.host.toLine else t.host.toLine
        announced := if a.bus?.isSome then s.host.announced else t.host.announced
        clock := t.host.clock }
    attached? := some
      { orchestrator := t.orchestrator
        line? := a.line?.map fun _ => t.host.toLine
        bus? := a.bus?.map fun _ => t.host.announced } }

def runWorkflow (s : Setting) (id : String) (context : Json) : Except String Json × Setting :=
  match s.attached? with
  | none => (.error "no workflow orchestrator attached", s)
  | some a =>
    let (outcome, t) := (a.stage s.host).run id context
    (workflowData id outcome, s.afterRun a t)

/-- The output of an action, or the reason of its failure. -/
def output (s : Setting) (a : Action) (context : Json) (guardian : String) (outcome : Outcome Float) :
    Except String Json × Setting :=
  match a.kind with
  | .generate => s.call (a.generation s.config.textProvider guardian context)
  | .content task => s.call (a.contentQuery task s.config.textProvider guardian context)
  | .suggest skills => (.ok (suggestions guardian skills), s)
  | .workflow id => s.runWorkflow id context
  | .custom handler =>
    ((handler.handle s.handled { context, guardian, outcome, parameters := a.parameters }).mapError
      ProviderError.message, { s with handled := s.handled + 1 })

end Setting

/-! ## Results -/

structure ActionResult where
  name : String
  success : Bool
  output : Option Json := none
  error : Option String := none
  /-- Milliseconds. -/
  duration : Nat

def ActionResult.ofOutput (a : Action) (duration : Nat) : Except String Json → ActionResult
  | .ok output => { name := a.displayName, success := true, output := some output, duration }
  | .error reason =>
    { name := a.displayName, success := false
      error := some (TriggerError.actionFailed a.displayName reason).message, duration }

/-- Output and error are left out when there are none. -/
def ActionResult.toJson (r : ActionResult) : Json :=
  .object
    ([("name", .string r.name), ("success", .bool r.success)]
      ++ (r.output.map (("output", ·))).toList
      ++ (r.error.map fun e => ("error", Json.string e)).toList
      ++ [("duration_ms", Json.ofNat r.duration)])

namespace Setting

def runAction (s : Setting) (a : Action) (context : Json) (guardian : String)
    (outcome : Outcome Float) : ActionResult × Setting :=
  let (output, t) := s.output a context guardian outcome
  (.ofOutput a (t.host.clock - s.host.clock) output, t)

/-- Carry out actions until a critical one fails; the results, and the error of that one. -/
def runActions (context : Json) (guardian : String) (outcome : Outcome Float) :
    List Action → Setting → List ActionResult × Option String × Setting
  | [], s => ([], none, s)
  | a :: rest, s =>
    let (result, s) := s.runAction a context guardian outcome
    if !result.success && a.critical then ([result], result.error, s)
    else
      let (results, error, s) := runActions context guardian outcome rest s
      (result :: results, error, s)

end Setting

end Grimoire.Trigger
