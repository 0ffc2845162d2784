import Grimoire.Config
import Grimoire.Session.Error
import Grimoire.Trigger.Error
import Grimoire.Workflow.Error

/-!
# Failures

Any failure of the library, with the part it came from in front of its message.

| here | there |
| --- | --- |
| `Failure`         | `ArcaneaError` |
| `Failure.message` | its `Display` |
-/
namespace Grimoire

inductive Failure
  | source (e : Source.LexError)
  | provider (e : Provider.ProviderError)
  | session (e : Session.SessionError)
  | trigger (e : Trigger.TriggerError)
  | workflow (e : Workflow.WorkflowError)
  | config (e : ConfigError)

def Failure.message : Failure → String
  | source e => "Lex error: " ++ e.message
  | provider e => "Capability error: " ++ e.message
  | session e => "Interpreter error: " ++ e.message
  | trigger e => "Trigger error: " ++ e.message
  | workflow e => "Workflow error: " ++ e.message
  | config e => "Config error: " ++ e.message

end Grimoire
