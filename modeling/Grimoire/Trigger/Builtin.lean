import Grimoire.Trigger.Engine

/-!
# Triggers for writers

The triggers that come with the library: help when the work is stuck, with structure, and with the
flow of a story.

`builtins` is `builtin_triggers`.
-/
namespace Grimoire.Trigger

/-- A trigger on keywords that offers suggestions. -/
def helper (id name guardian : String) (confidence : Float) (keywords skills : List String) : Trigger :=
  { id, name, strategy := .keyword keywords, confidence := some confidence, guardian := some guardian
    actions := [{ kind := .suggest skills }] }

def builtins : List Trigger :=
  [helper "creative-block-remover" "Creative Block Remover" "dragon-forge" 0.85
     ["stuck", "blocked", "can't start", "don't know"] ["skill_block_remove"],
   helper "structure-helper" "Structure Helper" "crystal-architect" 0.80
     ["structure", "organize", "framework", "design"] ["skill_structure", "skill_order"],
   helper "story-flow-assistant" "Story Flow Assistant" "river-storyteller" 0.80
     ["story", "narrative", "flow", "plot"] ["skill_narrative"]]

end Grimoire.Trigger
