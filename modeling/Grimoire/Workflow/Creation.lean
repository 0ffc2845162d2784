import Grimoire.Workflow.Definition

/-!
# Workflows of creation

The workflows that come with the library: a world, a character, a story and a spell. Each phase refers
to outputs of earlier phases only.

| here | there |
| --- | --- |
| `world`, `character`, `story`, `spell` | `world_creation`, `character_creation`, `story_creation`, `spell_creation` |
| `definitions`                          | `default_workflows` |
-/
namespace Grimoire.Workflow.Creation

/-- A generation that keeps its output. -/
def phase (id name prompt guardian skill : String) (inputs : List String) (outputKey : String)
    (timeout : Nat) : Phase :=
  { id, name, prompt, guardian := some guardian, skill := some skill, action := .generate, inputs
    outputKey := some outputKey, timeout := some timeout }

def world : Definition where
  id := "world-creation"
  name := "Complete World Building"
  description := "Create a complete fictional world from scratch"
  orchestrator := "crystal-architect"
  phases :=
    [phase "foundation" "Cosmological Foundation"
      "Design the fundamental cosmology: physics, magic system, and universal laws"
      "crystal-architect" "skill_base_build" [] "cosmology" 10000,
     phase "geography" "Geographical Design"
      "Create detailed geography: continents, climates, biomes, and landmarks"
      "crystal-architect" "skill_structure" ["cosmology"] "geography" 10000,
     phase "cultures" "Cultural Development"
      "Develop diverse cultures: societies, traditions, conflicts, and relationships"
      "river-storyteller" "skill_narrative" ["cosmology", "geography.landmarks"] "cultures" 15000,
     phase "history" "Historical Timeline"
      "Create a rich historical timeline: ages, events, wars, and evolution"
      "ocean-memory" "skill_narrative" ["cosmology", "cultures.societies"] "history" 15000,
     phase "magic" "Magic System Design"
      "Design detailed magic system: sources, limitations, costs, and applications"
      "quantum-designer" "skill_reality" ["cosmology"] "magic_system" 12000]
  onComplete := some .world

def character : Definition where
  id := "character-creation"
  name := "Complete Character Development"
  description := "Create a fully realized character with all dimensions"
  orchestrator := "character-shaper"
  phases :=
    [phase "archetype" "Archetype Definition" "Determine core archetype and role in the narrative"
      "void-gazer" "skill_vision" [] "archetype" 5000,
     phase "foundation" "Foundation Traits"
      "Establish core personality traits, values, and foundation"
      "mountain-builder" "skill_base_build" ["archetype.type"] "foundation" 8000,
     phase "backstory" "Backstory Creation"
      "Create emotional backstory with formative experiences and wounds"
      "ocean-memory" "skill_narrative" ["foundation.traits", "archetype.role"] "backstory" 12000,
     phase "voice" "Voice Development"
      "Develop authentic voice: speech patterns, vocabulary, rhythm"
      "whisper-messenger" "skill_communicate" ["foundation.traits", "backstory.experiences"] "voice"
      8000,
     phase "visual" "Visual Design"
      "Create visual appearance: features, style, distinctive markers"
      "vision-artist" "skill_vision" ["foundation.traits", "archetype.type"] "visual" 10000,
     phase "relationships" "Relationship Mapping"
      "Map key relationships: allies, enemies, mentors, loves"
      "rain-singer" "skill_relationship" ["foundation.traits", "backstory.connections"]
      "relationships" 10000]
  onComplete := some .character

def story : Definition where
  id := "story-creation"
  name := "Complete Story Development"
  description := "Develop a complete story from concept to outline"
  orchestrator := "story-weaver"
  phases :=
    [phase "concept" "Concept Generation" "Generate unique story concept with hook and premise"
      "void-gazer" "skill_vision" [] "concept" 8000,
     { id := "characters", name := "Character Ensemble", guardian := some "character-shaper"
       skill := some "skill_create", action := .nested "character-creation"
       outputKey := some "characters", timeout := some 30000 },
     phase "plot" "Plot Architecture"
      "Design plot structure: acts, turning points, climax, resolution"
      "crystal-architect" "skill_structure" ["concept.premise", "characters.archetype"] "plot" 12000,
     phase "scenes" "Scene Breakdown"
      "Break down into individual scenes with purposes and emotional beats"
      "river-storyteller" "skill_narrative" ["plot.acts", "characters"] "scenes" 15000,
     phase "themes" "Thematic Layering"
      "Weave in themes: symbolic elements, motifs, deeper meanings"
      "mist-weaver" "skill_narrative" ["concept.themes", "plot.climax"] "themes" 10000]
  onComplete := some .story

def spell : Definition where
  id := "spell-creation"
  name := "Arcane Spell Crafting"
  description := "Create a magical spell with system integration"
  orchestrator := "crystal-architect"
  phases :=
    [phase "concept" "Spell Concept" "Define spell concept: effect, purpose, uniqueness"
      "void-gazer" "skill_vision" [] "concept" 5000,
     phase "mechanics" "Mechanics Design"
      "Design mechanics: cost, limitations, requirements, duration"
      "crystal-architect" "skill_structure" ["concept.effect"] "mechanics" 8000,
     phase "lore" "Lore Integration"
      "Create lore: origin, famous users, legendary uses, cultural significance"
      "river-storyteller" "skill_narrative" ["concept.effect", "mechanics.cost"] "lore" 8000,
     phase "visual" "Visual Manifestation"
      "Describe visual appearance: casting, effects, aftermath"
      "vision-artist" "skill_vision" ["concept.effect", "mechanics.components"] "visual" 6000]
  onComplete := some .spell

def definitions : List Definition := [world, character, story, spell]

end Grimoire.Workflow.Creation
