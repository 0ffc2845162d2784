import Grimoire.Trigger.Condition
import Grimoire.Trigger.Cron
import Grimoire.Text.Lowercase

/-!
# Match strategies

A strategy says which contexts a trigger answers to: keywords, patterns, an intent, conditions or a
schedule. Compiling a strategy reads its patterns and its cron expression once; the matcher so gained
looks at a context at an instant and gives an outcome with a confidence.

| here | there |
| --- | --- |
| `Schedule`, `Strategy`        | `Schedule`, `MatchStrategy` |
| `Outcome`                     | `MatchOutcome` |
| `contextText`, `lastRun`      | `context_text`, `last_run` |
| `Matcher`, `Strategy.compile` | `Matcher`, `Matcher::compile` |
| `Matcher.outcome?`            | `Matcher::evaluate` |
| `signedWord`                  | the cast of `interval_ms` in `Matcher::evaluate` |

Confidences are doubles when the program runs (`Degree Float`) and rational numbers in proofs about them.
-/
namespace Grimoire.Trigger

/-! ## Strategies -/

inductive Schedule
  /-- The minutes that the expression selects. -/
  | cron (expression : String)
  /-- At least so many milliseconds after the last run that the context tells. -/
  | interval (millis : Nat)
deriving DecidableEq, Repr

inductive Strategy
  /-- Parts of the text in any case; confidence grows with the share that is found. -/
  | keyword (keywords : List String)
  /-- Patterns in any case; the first that matches counts. -/
  | pattern (patterns : List String)
  /-- The share of the intent's words in the text reaches the base confidence. -/
  | semantic (intent : String)
  /-- Every condition holds. -/
  | conditional (conditions : List Condition)
  | composite (expression : Expression)
  | scheduled (schedule : Schedule)

def Strategy.kind : Strategy → String
  | keyword _ => "keyword"
  | pattern _ => "pattern"
  | semantic _ => "semantic"
  | conditional _ => "conditional"
  | composite _ => "composite"
  | scheduled _ => "scheduled"

/-! ## Confidence -/

/-- Numbers to compute confidences in: doubles where triggers run, exact fractions where the laws of
confidence are stated. -/
class Degree (α : Type) where
  certain : α
  /-- The share of a part in a whole. -/
  share (part whole : Nat) : α
  scale (base share : α) : α
  atMost (a b : α) : Bool

instance : Degree Float where
  certain := 1.0
  share part whole := Float.ofNat part / Float.ofNat whole
  scale base share := base * share
  atMost a b := a ≤ b

instance : Degree Rat where
  certain := 1
  share part whole := part / whole
  scale base share := base * share
  atMost a b := a ≤ b

/-- A confidence is certainty at most. -/
def Degree.cap {α : Type} [Degree α] (a : α) : α := if atMost a certain then a else certain

/-- What a match found. -/
structure Outcome (α : Type) where
  confidence : α
  /-- The keywords found, or the text of the pattern's match. -/
  matched : List String := []
  /-- The named groups of the pattern's match, by name. -/
  groups : List (String × String) := []

def Outcome.certain {α : Type} [Degree α] : Outcome α := { confidence := Degree.certain }

/-! ## Contexts -/

/-- The text of a context: its member `text`, else `content`, if it is a string. -/
def contextText (context : Json) : String :=
  let text? (key : String) : Option String := context.asObject?.bind fun o =>
    (Object.get? o key).bind Json.asString?
  ((text? "text").or (text? "content")).getD ""

/-- The instant of the member `lastRun`, as text or in milliseconds since the epoch; the epoch when
there is none that can be read. -/
def lastRun (context : Json) : Time.Instant :=
  let found? : Option Time.Instant := do
    match ← Object.get? (← context.asObject?) "lastRun" with
    | .string s => Time.Instant.ofText? s
    | .number (.whole n) => if n.val < 9223372036854775808 then Time.Instant.ofMillis? n.val else none
    | _ => none
  found?.getD .epoch

/-! ## Matchers -/

inductive Matcher
  /-- In lower case. -/
  | keyword (keywords : List (List Char))
  | pattern (patterns : List Regex)
  /-- In lower case. -/
  | semantic (words : List (List Char))
  | conditional (conditions : List CompiledCondition)
  | composite (expression : CompiledExpression)
  | cron (cron : Cron)
  | interval (millis : Nat)

/-- The words of an intent in lower case; only the space separates them. -/
def intentWords (intent : String) : List (List Char) :=
  Text.words (· == ' ') (Text.lower intent.toList)

def Strategy.compile [RegexEngine] : Strategy → Except TriggerError Matcher
  | keyword keywords => .ok (.keyword (keywords.map fun k => Text.lower k.toList))
  | pattern patterns =>
    (patterns.mapM fun p => (RegexEngine.compile true p).mapError (TriggerError.invalidPattern p)).map .pattern
  | semantic intent => .ok (.semantic (intentWords intent))
  | conditional conditions => (conditions.mapM Condition.compile).map .conditional
  | composite expression => expression.compile.map .composite
  | scheduled (.cron expression) =>
    match Cron.parse expression with
    | .ok c => .ok (.cron c)
    | .error fault => .error (.invalidSchedule expression fault.message)
  | scheduled (.interval millis) => .ok (.interval millis)

/-- A word of 64 bits read as a signed one. -/
def signedWord (n : Nat) : Int := (n : Int).bmod (Nat.pow 2 64)

/-- The keywords that occur in the text, in the order of the list; without any there is no match. -/
def matchKeywords {α : Type} [Degree α] (keywords : List (List Char)) (base : α) (text : List Char) :
    Option (Outcome α) :=
  let found := keywords.filter fun k => Text.occursIn k text
  if found.isEmpty then none
  else some
    { confidence := Degree.cap (Degree.scale base (Degree.share found.length keywords.length))
      matched := found.map String.ofList }

/-- The first pattern that matches. -/
def matchPatterns {α : Type} [Degree α] (patterns : List Regex) (base : α) (text : String) :
    Option (Outcome α) :=
  (patterns.findSome? fun p => p.captures? text).map fun m =>
    { confidence := Degree.cap base
      matched := [m.text]
      groups := m.groups.mergeSort fun a b => a.1 ≤ b.1 }

/-- The share of the words that occur in the text, when it reaches the base confidence. -/
def matchWords {α : Type} [Degree α] (words : List (List Char)) (base : α) (text : List Char) :
    Option (Outcome α) :=
  let found := words.filter fun w => Text.occursIn w text
  let share := Degree.share found.length words.length
  if !words.isEmpty && Degree.atMost base share then some { confidence := share } else none

/-- What the matcher finds in a context at an instant, given the trigger's confidence. -/
def Matcher.outcome? {α : Type} [Degree α] (m : Matcher) (context : Json) (base : α)
    (instant : Time.Instant) : Option (Outcome α) :=
  let certainIf (b : Bool) : Option (Outcome α) := if b then some .certain else none
  match m with
  | keyword keywords => matchKeywords keywords base (Text.lower (contextText context).toList)
  | pattern patterns => matchPatterns patterns base (contextText context)
  | semantic words => matchWords words base (Text.lower (contextText context).toList)
  | conditional conditions => certainIf (conditions.all (·.holds context))
  | composite expression => certainIf (expression.holds context)
  | cron c => certainIf (c.isDue instant)
  | interval millis => certainIf (signedWord millis ≤ instant.millisSince (lastRun context))

/-! ## Stored form -/

def Schedule.toJson : Schedule → Json
  | cron expression => .object [("cron", .string expression)]
  | interval millis => .object [("interval", .object [("interval_ms", Json.ofNat millis)])]

def Schedule.ofJson? (j : Json) : Option Schedule := do
  match ← j.asAlternative? with
  | ("cron", .string expression) => return cron expression
  | ("interval", data) =>
    let r ← Record.of? 1 data
    return interval (← r.required 0 "interval_ms" (Json.asNat? (Nat.pow 2 64)))
  | _ => none

def Strategy.members : Strategy → Object
  | keyword keywords => [("keywords", Json.strings keywords)]
  | pattern patterns => [("patterns", Json.strings patterns)]
  | semantic intent => [("intent", .string intent)]
  | conditional conditions => [("conditions", .array (conditions.map Condition.toJson))]
  | composite expression => [("expr", expression.toJson)]
  | scheduled schedule => [("schedule", schedule.toJson)]

/-- A record whose member `type` names the kind. -/
def Strategy.toJson (s : Strategy) : Json := .object (("type", .string s.kind) :: s.members)

def Strategy.ofJson? (j : Json) : Option Strategy := do
  let (kind, r) ← Record.tagged? "type" j
  let r ← Record.of? 1 r.data
  let texts := Json.asList? Json.asString?
  match kind with
  | "keyword" => return keyword (← r.required 0 "keywords" texts)
  | "pattern" => return pattern (← r.required 0 "patterns" texts)
  | "semantic" => return semantic (← r.required 0 "intent" Json.asString?)
  | "conditional" =>
    return conditional (← r.defaulted 0 "conditions" (Json.asList? Condition.ofJson?) [])
  | "composite" => return composite (← r.required 0 "expr" Expression.ofJson?)
  | "scheduled" => return scheduled (← r.required 0 "schedule" Schedule.ofJson?)
  | _ => none

/-- Matches and groups are left out when there are none. -/
def Outcome.members (o : Outcome Float) : Object :=
  [("confidence", Json.ofFloat o.confidence)]
    ++ (if o.matched.isEmpty then [] else [("matches", Json.strings o.matched)])
    ++ (if o.groups.isEmpty then []
        else [("groups", .object (o.groups.map fun (name, text) => (name, .string text)))])

end Grimoire.Trigger
