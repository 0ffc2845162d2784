import Grimoire.Trigger.Action

/-!
# The trigger engine

An engine keeps triggers in the order of their registration. A processed context is put into the
history and shown to every trigger that is enabled; each one that matches routes to a guardian, carries
out its actions and gives a result. A trigger registered again takes the place of the old one and
starts to count anew.

| here | there |
| --- | --- |
| `Trigger`, `Registered`                | `Trigger`, `RegisteredTrigger` |
| `Summary`, `MatchResult`               | `TriggerSummary`, `MatchResult` |
| `Setting.execute`                      | `TriggerEngine::execute_trigger` |
| `Engine`, `Processed`                  | `TriggerEngine`, `HistoryEntry` |
| `register`, `unregister`, `setEnabled` | `register`, `unregister`, `set_trigger_state` |
| `latest`, `trim`                       | `history`, `trim_history` |
| `withConfig`                           | `with_config` |
| `fire`                                 | the body of the loop of `process_at` |
| `process`                              | `process_at` |
| `statistics`                           | `stats` |

The instant of a registration is left out; only its report tells it. An empty id becomes one with a number,
where `register` takes a new instance id.
-/
namespace Grimoire

open Trigger
open Time (Instant)

/-! ## Triggers -/

structure Trigger where
  /-- Made up at registration when it is empty. -/
  id : String
  name : String
  strategy : Strategy
  /-- The confidence of a match; the configured one when there is none. -/
  confidence : Option Float := none
  /-- Where a match is routed to; the router decides when there is none. -/
  guardian : Option String := none
  actions : List Action := []
  enabled : Bool := true

namespace Trigger

/-- A trigger with its compiled strategy and its counters. -/
structure Registered where
  trigger : Trigger
  matcher : Matcher
  /-- How often it has matched. -/
  fireCount : Nat := 0
  lastFired : Option Instant := none

/-- What the trigger finds in a context. -/
def Registered.outcome? (r : Registered) (config : Config) (context : Json) (instant : Instant) :
    Option (Outcome Float) :=
  if r.trigger.enabled then
    r.matcher.outcome? context (r.trigger.confidence.getD config.defaultConfidence) instant
  else none

/-- The trigger has matched once more. -/
def Registered.fired (r : Registered) (instant : Instant) : Registered :=
  { r with fireCount := r.fireCount + 1, lastFired := some instant }

def Registered.enable (r : Registered) (enabled : Bool) : Registered :=
  { r with trigger := { r.trigger with enabled } }

structure Summary where
  id : String
  name : String
  enabled : Bool
  strategy : String
  fireCount : Nat
  lastFired : Option Instant

def Registered.summary (r : Registered) : Summary where
  id := r.trigger.id
  name := r.trigger.name
  enabled := r.trigger.enabled
  strategy := r.trigger.strategy.kind
  fireCount := r.fireCount
  lastFired := r.lastFired

/-! ## Matches -/

structure MatchResult where
  trigger : String
  name : String
  /-- Did no critical action fail? -/
  success : Bool
  outcome : Outcome Float
  guardian : String
  actions : List ActionResult
  error : Option String
  /-- Milliseconds. -/
  duration : Nat

/-- The error is left out when there is none. -/
def MatchResult.toJson (r : MatchResult) : Json :=
  .object
    ([("trigger_id", .string r.trigger), ("trigger_name", .string r.name), ("success", .bool r.success)]
      ++ r.outcome.members
      ++ [("guardian", .string r.guardian), ("actions", .array (r.actions.map ActionResult.toJson))]
      ++ (r.error.map fun e => ("error", Json.string e)).toList
      ++ [("duration_ms", Json.ofNat r.duration)])

/-- Announce how the actions of a trigger went. -/
def Setting.announceMatch (s : Setting) (r : MatchResult) : Setting :=
  let s := match r.error with
    | some e => s.announce (.triggerFailed r.trigger e)
    | none => s
  s.announce (.triggerExecuted r.trigger r.guardian r.outcome.confidence r.success)

/-- Carry out the actions of a trigger that has matched. -/
def Setting.execute (s : Setting) (t : Trigger) (context : Json) (outcome : Outcome Float) :
    MatchResult × Setting :=
  let guardian := t.guardian.getD (Router.select (contextText context))
  let (actions, error, after) := Setting.runActions context guardian outcome t.actions s
  let result : MatchResult :=
    { trigger := t.id, name := t.name, success := error.isNone, outcome, guardian, actions, error
      duration := after.host.clock - s.host.clock }
  (result, after.announceMatch result)

/-! ## Engines -/

/-- A context that was processed. -/
structure Processed where
  context : Json
  instant : Instant

structure Engine extends Setting where
  triggers : List Registered := []
  /-- The processed contexts, the oldest first. -/
  history : List Processed := []
  /-- How many matches there were. -/
  matched : Nat := 0
  /-- How many ids were made up. -/
  generated : Nat := 0

structure Statistics where
  matched : Nat
  registered : Nat
  enabled : Nat
  history : Nat

namespace Engine

def announce (e : Engine) (event : Event) : Engine :=
  { e with toSetting := e.toSetting.announce event }

/-! ## Registration -/

/-- A trigger takes the place of one with its id, or comes last. -/
def place : List Registered → Registered → List Registered
  | [], r => [r]
  | t :: ts, r => if t.trigger.id == r.trigger.id then r :: ts else t :: place ts r

/-- The trigger with an id made up if it has none. -/
def named (e : Engine) (t : Trigger) : Engine × Trigger :=
  if t.id.isEmpty then
    ({ e with generated := e.generated + 1 },
     { t with id := "trigger_generated-" ++ toString (e.generated + 1) })
  else (e, t)

/-- Register a trigger; its id, or why its strategy does not compile. -/
def register [RegexEngine] (e : Engine) (t : Trigger) : Except TriggerError String × Engine :=
  match t.strategy.compile with
  | .error fault => (.error fault, e)
  | .ok matcher =>
    let (e, t) := e.named t
    (.ok t.id,
      { e with triggers := place e.triggers { trigger := t, matcher } }.announce
        (.triggerRegistered t.id t.name))

def get? (e : Engine) (id : String) : Option Trigger :=
  (e.triggers.find? (·.trigger.id == id)).map (·.trigger)

def contains (e : Engine) (id : String) : Bool := e.triggers.any (·.trigger.id == id)

/-- Remove a trigger; was there one? -/
def unregister (e : Engine) (id : String) : Bool × Engine :=
  if e.contains id then
    (true, { e with triggers := e.triggers.filter (·.trigger.id != id) }.announce
      (.triggerUnregistered id))
  else (false, e)

/-- Enable or disable a trigger; is there one? -/
def setEnabled (e : Engine) (id : String) (enabled : Bool) : Bool × Engine :=
  if e.contains id then
    let triggers := e.triggers.map fun r => if r.trigger.id == id then r.enable enabled else r
    (true, { e with triggers }.announce (.triggerStateChanged id enabled))
  else (false, e)

def list (e : Engine) : List Summary := e.triggers.map Registered.summary

/-! ## History -/

/-- The last entries, so many at most. -/
def latest (limit : Nat) (history : List Processed) : List Processed :=
  history.drop (history.length - limit)

/-- The history never grows beyond its configured length. -/
def trim (e : Engine) : Engine := { e with history := latest e.config.maxHistory e.history }

def remember (e : Engine) (p : Processed) : Engine :=
  ({ e with history := e.history ++ [p] } : Engine).trim

def withConfig (e : Engine) (config : Config) : Engine := ({ e with config } : Engine).trim

def statistics (e : Engine) : Statistics where
  matched := e.matched
  registered := e.triggers.length
  enabled := e.triggers.countP (·.trigger.enabled)
  history := e.history.length

/-! ## Processing -/

/-- Show a context to triggers one after another: the triggers with their counters, the results. -/
def fire (context : Json) (instant : Instant) :
    List Registered → Setting → List Registered × List MatchResult × Setting
  | [], s => ([], [], s)
  | r :: rs, s =>
    match r.outcome? s.config context instant with
    | none =>
      let (rs, results, s) := fire context instant rs s
      (r :: rs, results, s)
    | some outcome =>
      let (result, s) := s.execute r.trigger context outcome
      let (rs, results, s) := fire context instant rs s
      (r.fired instant :: rs, result :: results, s)

/-- Process a context that came at an instant. -/
def process (e : Engine) (context : Json) (instant : Instant) : List MatchResult × Engine :=
  let e := e.remember { context, instant }
  let (triggers, results, setting) := fire context instant e.triggers e.toSetting
  (results, { e with toSetting := setting, triggers, matched := e.matched + results.length })

end Engine

/-! ## Reports as data -/

def Action.toJson (a : Action) : Json :=
  .object
    [("display", .string a.displayName), ("kind", .string a.kind.name),
     ("parameters", .object a.parameters), ("critical", .bool a.critical)]

def toJson (t : Trigger) : Json :=
  .object
    [("id", .string t.id), ("name", .string t.name), ("strategy", t.strategy.toJson),
     ("confidence", Json.ofOption (t.confidence.map Json.ofFloat)),
     ("guardian", Json.ofOption (t.guardian.map .string)), ("enabled", .bool t.enabled),
     ("actions", .array (t.actions.map Action.toJson))]

def Summary.toJson (s : Summary) : Json :=
  .object
    [("id", .string s.id), ("name", .string s.name), ("enabled", .bool s.enabled),
     ("strategy", .string s.strategy), ("fire_count", Json.ofNat s.fireCount),
     ("last_fired", Json.ofOption (s.lastFired.map fun t => .string t.text))]

def Processed.toJson (p : Processed) : Json :=
  .object [("context", p.context), ("timestamp", .string p.instant.text)]

def Statistics.toJson (s : Statistics) : Json :=
  .object
    [("triggers_fired", Json.ofNat s.matched), ("registered_triggers", Json.ofNat s.registered),
     ("enabled_triggers", Json.ofNat s.enabled), ("history_size", Json.ofNat s.history)]

end Trigger

end Grimoire
