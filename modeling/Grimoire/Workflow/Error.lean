import Grimoire.Event.InstanceId
import Grimoire.Provider.Request

/-!
# Failures of workflows

A workflow fails to start when it is not known; a phase fails for a reason of its own, when its time
is over, or when its provider fails.

`WorkflowError` is `WorkflowError`, and `WorkflowError.message` its `Display`.
-/
namespace Grimoire.Workflow

open Event (InstanceId)

inductive WorkflowError
  | notFound (id : String)
  | instanceNotFound (id : InstanceId)
  | phaseFailed (phase reason : String)
  | phaseTimedOut (phase : String) (millis : Nat)
  | cancelled (id : InstanceId)
  | provider (e : Provider.ProviderError)
deriving DecidableEq, Repr

def WorkflowError.message : WorkflowError → String
  | notFound id => "Workflow not found: " ++ id
  | instanceNotFound id => "Workflow instance not found: " ++ id.text
  | phaseFailed phase reason => "Phase " ++ phase ++ " failed: " ++ reason
  | phaseTimedOut phase millis =>
    "Phase " ++ phase ++ " timed out after " ++ toString millis ++ "ms"
  | cancelled id => "Workflow instance " ++ id.text ++ " was cancelled"
  | provider e => "Capability error: " ++ e.message

end Grimoire.Workflow
