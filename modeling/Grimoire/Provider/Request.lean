import Grimoire.Json.Record
import Grimoire.Json.Printer
import Grimoire.Json.Coercion

/-!
# Requests to a provider

A provider generates text and images from prompts and works on content that exists already. This
module holds the requests, the responses, the ways a call fails, and their stored forms.

| here | there |
| --- | --- |
| `Options`, `Generation` | `GenerationOptions`, `GenerationRequest` |
| `Content`               | `ContentRequest` |
| `Content.toGeneration`  | `ContentRequest::into_generation` |
| `Query`                 | the methods of `GenerationProvider`, with their arguments |
| `Response`              | `CapabilityResponse` |
| `Response.payload`      | `CapabilityResponse::into_result` |
| `ProviderError`         | `CapabilityError` |
-/
namespace Grimoire.Provider

/-- The provider of content requests that name none. -/
def defaultName : String := "anthropic-claude"

/-! ## Failures -/

inductive ProviderError
  | notConfigured
  /-- The request did not get through. -/
  | requestFailed (provider reason : String)
  /-- The provider answered that it did not succeed. -/
  | rejected (provider message : String)
  | handlerFailed (handler reason : String)
deriving DecidableEq, Repr

def ProviderError.message : ProviderError → String
  | notConfigured => "No generation provider configured"
  | requestFailed provider reason => "Request to " ++ provider ++ " failed: " ++ reason
  | rejected provider message => "Provider " ++ provider ++ " reported failure: " ++ message
  | handlerFailed handler reason => "Custom handler " ++ handler ++ " failed: " ++ reason

/-! ## Requests -/

structure Options where
  temperature : Option Float := none
  maxTokens : Option Nat := none
  /-- The guardian that colours the request. -/
  guardian : Option String := none
  extra : Object := []
deriving Inhabited

/-- A call for text or an image. -/
structure Generation where
  provider : String
  prompt : String
  options : Options := {}
deriving Inhabited

/-- A call that works on content. -/
structure Content where
  provider : Option String := none
  guardian : Option String := none
  /-- What to do with the content. -/
  instruction : String
  content : Json
  context : Json := .null
deriving Inhabited

/-- The content as text: a string as it is, all else as compact data. -/
def Content.text (r : Content) : String :=
  match r.content with
  | .string s => s
  | j => j.text

def Content.providerName (r : Content) : String := r.provider.getD defaultName

/-- The call for text that asks for the same, with a verb before the instruction. -/
def Content.toGeneration (r : Content) (verb : String) : Generation where
  provider := r.providerName
  prompt := verb ++ " the following. " ++ r.instruction ++ "\n\n" ++ r.text
  options := { guardian := r.guardian }

/-- What can be asked of content. -/
inductive ContentTask
  | analyze | enhance | transform | validate
deriving DecidableEq, Repr

/-- One call of a provider. -/
inductive Query
  | text (r : Generation)
  | image (r : Generation)
  | content (task : ContentTask) (r : Content)

def ContentTask.verb : ContentTask → String
  | analyze => "Analyze"
  | enhance => "Enhance"
  | transform => "Transform"
  | validate => "Validate"

/-! ## Responses -/

structure Response where
  success : Bool
  data : Option Json := none
  error : Option String := none

/-- A call either does not get through or has a response. -/
abbrev Reply := Except ProviderError Response

def Response.ok (data : Json) : Response := { success := true, data := some data }

def Response.failure (error : String) : Response := { success := false, error := some error }

/-- The payload of a response that succeeded; one that did not is an error of the provider. -/
def Response.payload (r : Response) (provider : String) : Except ProviderError Json :=
  if r.success then .ok (r.data.getD .null)
  else .error (.rejected provider (r.error.getD "unspecified failure"))

/-- The payload of a call. -/
def payload (reply : Reply) (provider : String) : Except ProviderError Json :=
  reply.bind (·.payload provider)

/-! ## Stored forms -/

def optionJson (value? : Option Json) : Json := value?.getD .null

def optionText (value? : Option String) : Json := optionJson (value?.map .string)

/-- Extra members are left out when there are none. -/
def Options.toJson (o : Options) : Json :=
  .object
    ([("temperature", optionJson (o.temperature.map Json.ofFloat)),
      ("max_tokens", optionJson (o.maxTokens.map Json.ofNat)), ("guardian", optionText o.guardian)]
      ++ if o.extra.isEmpty then [] else [("extra", .object o.extra)])

def Options.ofJson? (j : Json) : Option Options := do
  let r ← Record.of? 4 j
  return {
    temperature := ← r.optional 0 "temperature" Json.asFloat?
    maxTokens := ← r.optional 1 "max_tokens" (Json.asNat? (Nat.pow 2 32))
    guardian := ← r.optional 2 "guardian" Json.asString?
    extra := ← r.defaulted 3 "extra" Json.asObject? [] }

def Generation.toJson (g : Generation) : Json :=
  .object
    [("provider_id", .string g.provider), ("prompt", .string g.prompt), ("options", g.options.toJson)]

def Generation.ofJson? (j : Json) : Option Generation := do
  let r ← Record.of? 3 j
  return {
    provider := ← r.required 0 "provider_id" Json.asString?
    prompt := ← r.required 1 "prompt" Json.asString?
    options := ← r.defaulted 2 "options" Options.ofJson? {} }

def Content.toJson (c : Content) : Json :=
  .object
    [("provider_id", optionText c.provider), ("guardian", optionText c.guardian),
     ("instruction", .string c.instruction), ("content", c.content), ("context", c.context)]

def Content.ofJson? (j : Json) : Option Content := do
  let r ← Record.of? 5 j
  return {
    provider := ← r.optional 0 "provider_id" Json.asString?
    guardian := ← r.optional 1 "guardian" Json.asString?
    instruction := ← r.required 2 "instruction" Json.asString?
    content := ← r.required 3 "content" some
    context := ← r.defaulted 4 "context" some .null }

/-- Data and error are left out when there are none. -/
def Response.toJson (r : Response) : Json :=
  .object
    ([("success", .bool r.success)] ++ (r.data.map (("data", ·))).toList
      ++ (r.error.map fun e => ("error", Json.string e)).toList)

def Response.ofJson? (j : Json) : Option Response := do
  let r ← Record.of? 3 j
  return {
    success := ← r.required 0 "success" Json.asBool?
    data := (← r.defaulted 1 "data" (Json.asOption? some) none)
    error := (← r.defaulted 2 "error" (Json.asOption? Json.asString?) none) }

def Query.request : Query → Json
  | text r | image r => r.toJson
  | content _ r => r.toJson

end Grimoire.Provider
