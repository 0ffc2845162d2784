/-!
# Failures of triggers

A trigger is refused when one of its patterns or its schedule does not read; an action that does not
succeed fails with the reason given by what it called.

`TriggerError` is `TriggerError`, and `TriggerError.message` its `Display`.
-/
namespace Grimoire.Trigger

inductive TriggerError
  | invalidPattern (pattern reason : String)
  | invalidSchedule (spec reason : String)
  | notFound (id : String)
  | actionFailed (action reason : String)
deriving DecidableEq, Repr

def TriggerError.message : TriggerError → String
  | invalidPattern pattern reason => "Invalid pattern '" ++ pattern ++ "': " ++ reason
  | invalidSchedule spec reason => "Invalid schedule '" ++ spec ++ "': " ++ reason
  | notFound id => "Trigger not found: " ++ id
  | actionFailed action reason => "Action " ++ action ++ " failed: " ++ reason

end Grimoire.Trigger
