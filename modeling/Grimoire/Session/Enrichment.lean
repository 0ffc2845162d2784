import Grimoire.Source.Declaration
import Grimoire.Provider.Request
import Grimoire.Config

/-!
# Enrichment

The calls that add to a character or a world, one for each slot, in order: what is asked, of which
provider, and within which limits.

| here | there |
| --- | --- |
| `textRequest`, `imageRequest` | `text_request`, `image_request` |
| `characterCalls`              | `enrich_character`, slot by slot |
| `worldCalls`                  | `enrich_world`, slot by slot |
-/
namespace Grimoire.Session

open Provider (Generation Query)

/-! ## Providers -/

def narrativeProvider : String := "anthropic-claude"

def creativeProvider : String := "openai-gpt4"

def technicalProvider : String := "google-gemini"

/-- A call for text within limits. -/
def textRequest (provider prompt : String) (temperature : Float) (maxTokens : Nat) : Generation :=
  { provider, prompt, options := { temperature := some temperature, maxTokens := some maxTokens } }

/-- A call for an image in a style. -/
def imageRequest (config : Config) (prompt style : String) : Generation :=
  { provider := config.imageProvider, prompt, options := { extra := [("style", .string style)] } }

/-! ## Slots -/

/-- The call that fills a slot. -/
structure SlotCall where
  slot : String
  query : Query

def joined (separator : String) (parts : List String) : String := separator.intercalate parts

def analysisPrompt (c : Source.Character) : String :=
  "As a master character analyst, provide a deep psychological profile for this character:\n\n"
    ++ "Name: " ++ c.name ++ "\nArchetype: " ++ c.archetype ++ "\nElemental Alignment: "
    ++ joined ", " c.elements ++ "\nData: " ++ (Json.object c.data).pretty
    ++ "\n\nProvide analysis covering:\n1. Core motivations and fears\n"
    ++ "2. Personality traits and behaviors\n3. Relationship patterns\n4. Character arc potential\n"
    ++ "5. Conflicts and growth opportunities"

def portraitPrompt (c : Source.Character) : String :=
  "Character portrait: " ++ c.name ++ ", " ++ c.archetype ++ " archetype, "
    ++ joined " and " c.elements ++ " elemental alignment, fantasy character design, "
    ++ "detailed facial features, cinematic lighting"

def voicePrompt (c : Source.Character) : String :=
  "Describe the ideal voice characteristics for character: " ++ c.name ++ ", " ++ c.archetype
    ++ " archetype, " ++ joined " and " c.elements ++ " alignment"

def characterCalls (config : Config) (c : Source.Character) : List SlotCall :=
  [⟨"personality_analysis", .text (textRequest narrativeProvider (analysisPrompt c) 0.7 1500)⟩,
   ⟨"portrait", .image (imageRequest config (portraitPrompt c) "character-design")⟩,
   ⟨"voice_profile", .text (textRequest creativeProvider (voicePrompt c) 0.6 300)⟩]

def culturePrompt (w : Source.World) : String :=
  "Generate detailed cultural information for world: " ++ w.name ++ ". Include societies, customs, "
    ++ "languages, belief systems, and social structures based on: " ++ (Json.object w.cosmology).text

def magicPrompt (w : Source.World) : String :=
  "Design magical systems for world: " ++ w.name ++ " that align with its cosmology and elemental "
    ++ "balance. Include laws, limitations, and practical applications."

def timelinePrompt (w : Source.World) : String :=
  "Create a historical timeline for world: " ++ w.name ++ " with major events, eras, and turning "
    ++ "points that shaped its current state."

def worldCalls (w : Source.World) : List SlotCall :=
  [⟨"culture_details", .text (textRequest narrativeProvider (culturePrompt w) 0.8 2000)⟩,
   ⟨"magic_systems", .text (textRequest creativeProvider (magicPrompt w) 0.7 1500)⟩,
   ⟨"historical_timeline", .text (textRequest technicalProvider (timelinePrompt w) 0.6 1800)⟩]

end Grimoire.Session
