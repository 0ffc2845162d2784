import Grimoire.Json.Record
import Grimoire.Decimal.Reading
import Grimoire.Decimal.Shortest
import Grimoire.Text.Lowercase

/-!
# Configuration

The settings shared by sessions, triggers and workflows; their defaults; their form as data and as
environment variables; and the ranges that `Config.validate` checks, the first fault in the order of
the fields.

| here | there |
| --- | --- |
| `Config` and its defaults | `ArcaneaConfig`, `ArcaneaConfig::default` |
| `validate`                | `ArcaneaConfig::validate` |
| `ConfigError`             | `ConfigError::InvalidValue` |
| `ofEnvironment`           | `ArcaneaConfig::from_env`, with the variables as a function |
-/
namespace Grimoire

structure Config where
  /-- Confidence of triggers that declare none. -/
  defaultConfidence : Float := 0.8
  /-- How many processed contexts the trigger history keeps. -/
  maxHistory : Nat := 1000
  /-- Are characters and worlds enriched by the provider? -/
  enableEnrichment : Bool := true
  /-- The provider used when no rule selects one. -/
  textProvider : String := "anthropic-claude"
  imageProvider : String := "midjourney"
  spellTemperature : Float := 0.8
  spellMaxTokens : Nat := 2000
  /-- Do phases end when their time is over? -/
  enforcePhaseTimeouts : Bool := true
deriving Inhabited

/-- A field whose value is out of range. -/
structure ConfigError where
  field : String
  value : String
  reason : String

def ConfigError.message (e : ConfigError) : String :=
  "Invalid value for " ++ e.field ++ ": " ++ e.value ++ " - " ++ e.reason

namespace Config

/-! ## Ranges -/

/-- Positional decimal text. -/
def plainFloat (x : Float) : String := String.ofList (Decimal.Layout.plain.write x)

/-- The first field out of range. -/
def validate (c : Config) : Except ConfigError Unit :=
  if !(0.0 ≤ c.defaultConfidence && c.defaultConfidence ≤ 1.0) then
    .error ⟨"default_confidence", plainFloat c.defaultConfidence, "must be within [0, 1]"⟩
  else if c.maxHistory = 0 then .error ⟨"max_history", "0", "must be at least 1"⟩
  else if c.spellMaxTokens = 0 then .error ⟨"spell_max_tokens", "0", "must be at least 1"⟩
  else .ok ()

/-! ## Data -/

/-- The members of the stored form; `float` writes the fractional settings. -/
def members (float : Float → Json) (c : Config) : Object :=
  [("default_confidence", float c.defaultConfidence), ("max_history", Json.ofNat c.maxHistory),
   ("enable_enrichment", .bool c.enableEnrichment), ("default_text_provider", .string c.textProvider),
   ("default_image_provider", .string c.imageProvider), ("spell_temperature", float c.spellTemperature),
   ("spell_max_tokens", Json.ofNat c.spellMaxTokens),
   ("enforce_phase_timeouts", .bool c.enforcePhaseTimeouts)]

def ofJson? (j : Json) : Option Config := do
  let r ← Record.of? 8 j
  return {
    defaultConfidence := ← r.required 0 "default_confidence" Json.asFloat?
    maxHistory := ← r.required 1 "max_history" (Json.asNat? (Nat.pow 2 64))
    enableEnrichment := ← r.required 2 "enable_enrichment" Json.asBool?
    textProvider := ← r.required 3 "default_text_provider" Json.asString?
    imageProvider := ← r.required 4 "default_image_provider" Json.asString?
    spellTemperature := ← r.required 5 "spell_temperature" Json.asFloat?
    spellMaxTokens := ← r.required 6 "spell_max_tokens" (Json.asNat? (Nat.pow 2 32))
    enforcePhaseTimeouts := ← r.required 7 "enforce_phase_timeouts" Json.asBool? }

/-- The default configuration with some members replaced. -/
def overlay? (changes : Object) : Option Config :=
  ofJson? (.object (changes.foldl (fun o m => Object.insert o m.1 m.2)
    (members Json.ofFloat {})))

/-! ## Environment variables -/

/-- Anything but the word `false` is true. -/
def readSwitch (text : String) : Bool := Text.lowerString text != "false"

/-- A blank name is as good as none. -/
def readName? (text : String) : Option String :=
  if (Text.trim text.toList).isEmpty then none else some text

/-- A variable that is missing or does not read leaves the default. -/
def ofEnvironment (lookup? : String → Option String) : Config :=
  let read {α : Type} (name : String) (value? : String → Option α) (default : α) : α :=
    ((lookup? name).bind value?).getD default
  let float (s : String) := Decimal.readDouble? s.toList
  let base : Config := {}
  { defaultConfidence := read "ARCANEA_DEFAULT_CONFIDENCE" float base.defaultConfidence
    maxHistory := read "ARCANEA_MAX_HISTORY" (Decimal.readWord? 64 ·.toList) base.maxHistory
    enableEnrichment := read "ARCANEA_ENABLE_ENRICHMENT" (some ∘ readSwitch) base.enableEnrichment
    textProvider := read "ARCANEA_TEXT_PROVIDER" readName? base.textProvider
    imageProvider := read "ARCANEA_IMAGE_PROVIDER" readName? base.imageProvider
    spellTemperature := read "ARCANEA_SPELL_TEMPERATURE" float base.spellTemperature
    spellMaxTokens := read "ARCANEA_SPELL_MAX_TOKENS" (Decimal.readWord? 32 ·.toList) base.spellMaxTokens
    enforcePhaseTimeouts :=
      read "ARCANEA_ENFORCE_PHASE_TIMEOUTS" (some ∘ readSwitch) base.enforcePhaseTimeouts }

end Config

end Grimoire
