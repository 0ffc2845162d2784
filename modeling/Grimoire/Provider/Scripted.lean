import Grimoire.Provider.Request
import Grimoire.Text.Basic

/-!
# Scripted providers

A `Provider` answers a query as a function of the queries before it, and says how long it takes and
what it notes of the call. A `Script` is the provider of offline sessions: rules on parts of the
prompt, transport errors before refusals before scripted data, and an echo of the prompt where no
rule applies.

| here | there |
| --- | --- |
| `Provider`        | an implementation of `GenerationProvider` |
| `Script`          | `MockGenerationProvider` with `respond_when`, `fail_when`, `error_when`, `with_delay` |
| `Script.reply`    | `MockGenerationProvider::answer` and `answer_content` |
| `note`            | `RecordedCall` |
| `generationsOnly` | `TextOnly`: the default methods of `GenerationProvider` |
| `failing`         | `FailingProvider` |
-/
namespace Grimoire

open Provider

namespace Provider

/-! ## Providers -/

/-- What a call is noted as. -/
inductive Capability
  | text | image | content (task : ContentTask)
deriving DecidableEq, Repr

def Capability.name : Capability → String
  | text => "GenerateText"
  | image => "GenerateImage"
  | content task => task.verb

def Capability.all : List Capability :=
  [text, image, content .analyze, content .enhance, content .transform, content .validate]

def Capability.ofName? (name : String) : Option Capability := all.find? (·.name == name)

/-- A call as the provider noted it when it answered. -/
structure NotedCall where
  capability : Capability
  provider : String
  guardian : Option String
  prompt : String

end Provider

/-- Any behaviour toward a sequence of queries. -/
structure Provider where
  /-- The reply, given the queries asked before, the latest first. -/
  reply : List Query → Query → Reply
  /-- How many milliseconds the reply takes. -/
  delay : Query → Nat
  /-- What is noted of a query once it is answered. -/
  note? : Query → Option NotedCall

namespace Provider

/-! ## Scripts -/

structure Script where
  /-- Data for prompts that hold the text. -/
  responses : List (String × Json) := []
  /-- Refuse prompts that hold the text. -/
  failures : List String := []
  /-- Do not get through with prompts that hold the text. -/
  errors : List String := []
  delay : Nat := 0

namespace Script

def holds (prompt needle : String) : Bool := Text.occursIn needle.toList prompt.toList

/-- The note of a query: a generation by its prompt, content behind its instruction. -/
def note : Query → NotedCall
  | .text r => ⟨.text, r.provider, r.options.guardian, r.prompt⟩
  | .image r => ⟨.image, r.provider, r.options.guardian, r.prompt⟩
  | .content task r =>
    ⟨.content task, r.providerName, r.guardian, r.instruction ++ " " ++ r.text⟩

/-- The data where no rule applies: an echo of the prompt, or the address of a made-up image. -/
def echo (asked : Nat) : Query → Json
  | .text r => .string ("[" ++ r.provider ++ "] " ++ r.prompt)
  | .image r =>
    .object
      [("url", .string ("mock://" ++ r.provider ++ "/image/" ++ toString asked)),
       ("prompt", .string r.prompt)]
  | .content task r =>
    .string ("[" ++ task.verb ++ ":" ++ r.providerName ++ "] " ++ r.instruction ++ " " ++ r.text)

/-- The reply after `asked` earlier calls. -/
def reply (s : Script) (asked : Nat) (q : Query) : Reply :=
  let call := note q
  match s.errors.find? (holds call.prompt) with
  | some needle => .error (.requestFailed call.provider ("mock error for '" ++ needle ++ "'"))
  | none =>
    match s.failures.find? (holds call.prompt) with
    | some needle => .ok (.failure ("mock failure for '" ++ needle ++ "'"))
    | none =>
      match s.responses.find? (fun rule => holds call.prompt rule.1) with
      | some (_, data) => .ok (.ok data)
      | none => .ok (.ok (echo asked q))

def toProvider (s : Script) : Provider where
  reply asked q := s.reply asked.length q
  delay _ := s.delay
  note? q := some (note q)

end Script

/-! ## Variations -/

/-- Content calls become calls for text. -/
def Query.asText : Query → Query
  | .content task r => .text (r.toGeneration task.verb)
  | q => q

/-- A provider that only generates. -/
def generationsOnly (p : Provider) : Provider where
  reply asked q := p.reply (asked.map Query.asText) q.asText
  delay q := p.delay q.asText
  note? q := p.note? q.asText

/-- A provider that no request gets through to. -/
def failing (reason : String) : Provider where
  reply _ q :=
    .error (match q with
      | .content .validate r => .requestFailed (r.provider.getD "validator") reason
      | .content _ r => .requestFailed r.providerName reason
      | .text r | .image r => .requestFailed r.provider reason)
  delay _ := 0
  note? _ := none

/-- The text that fixed rules look at. -/
def ruleText : Query → String
  | .text r | .image r => r.prompt
  | .content _ r => r.instruction

/-- Fixed responses for prompts or instructions that hold a text, before all else. -/
def withFixed (p : Provider) (rules : List (String × Response)) : Provider :=
  let fixed? (q : Query) : Option Response :=
    (rules.find? fun rule => Script.holds (ruleText q) rule.1).map (·.2)
  { reply := fun asked q =>
      match fixed? q with
      | some r => .ok r
      | none => p.reply (asked.filter fun q => (fixed? q).isNone) q
    delay := fun q => if (fixed? q).isSome then 0 else p.delay q
    note? := fun q => if (fixed? q).isSome then none else p.note? q }

/-! ## Stored form of notes -/

def NotedCall.toJson (c : NotedCall) : Json :=
  .object
    [("capability", .string c.capability.name), ("provider_id", .string c.provider),
     ("guardian", optionText c.guardian), ("prompt", .string c.prompt)]

end Provider

end Grimoire
