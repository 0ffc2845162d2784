import Grimoire.Text.Basic
import Grimoire.Text.Lowercase
import Grimoire.Json.Basic

/-!
# Routing to guardians

Free text goes to the guardian with the most keywords in it, in any case; of equal guardians to the
one that stands earlier in the table. Guardians and skills have tables of suggestions.

| here | there |
| --- | --- |
| `fallback`, `table`     | `FALLBACK_GUARDIAN`, `GUARDIAN_KEYWORDS` |
| `scores`                | `GuardianRouter::scores` |
| `select`                | `GuardianRouter::select` |
| `guardians`             | `GuardianRouter::guardians` |
| `openers`, `techniques` | `GuardianRouter::suggestions`, `skill_suggestions` |
-/
namespace Grimoire.Trigger

namespace Router

/-! ## Routing -/

/-- The guardian of texts without any keyword. -/
def fallback : String := "elemental-fusion"

/-- Guardians with their keywords. -/
def table : List (String × List String) :=
  [("dragon-forge", ["stuck", "blocked", "ignite", "burn", "transform", "fire"]),
   ("phoenix-artisan", ["rebuild", "renew", "rise", "ashes", "rebirth"]),
   ("volcano-sculptor", ["explode", "breakthrough", "pressure", "force", "erupt"]),
   ("crystal-architect", ["structure", "design", "build", "foundation", "architecture"]),
   ("mountain-builder", ["foundation", "core", "base", "solid", "enduring"]),
   ("river-storyteller", ["flow", "story", "narrative", "journey", "path"]),
   ("ocean-memory", ["depth", "emotion", "memory", "feel", "subconscious"]),
   ("whisper-messenger", ["communicate", "say", "express", "voice", "speak"]),
   ("void-gazer", ["imagine", "infinite", "possibility", "vision", "dream"])]

def guardians : List String := table.map (·.1)

/-- How many of the keywords occur in the text. -/
def score (text : List Char) (keywords : List String) : Nat :=
  (keywords.filter fun k => Text.occursIn k.toList text).length

/-- The score of each guardian, in the order of the table. -/
def scores (text : String) : List (String × Nat) :=
  let text := Text.lower text.toList
  table.map fun (guardian, keywords) => (guardian, score text keywords)

/-- Keep the best so far unless the next guardian scores more. -/
def better (text : List Char) (best? : Option (String × Nat)) (entry : String × List String) :
    Option (String × Nat) :=
  let s := score text entry.2
  if s > 0 && best?.all (fun best => s > best.2) then some (entry.1, s) else best?

/-- The guardian for a text. -/
def select (text : String) : String :=
  ((table.foldl (better (Text.lower text.toList)) none).map (·.1)).getD fallback

/-! ## Suggestions -/

structure Suggestion where
  kind : String
  text : String
deriving DecidableEq, Repr

def Suggestion.toJson (s : Suggestion) : Json :=
  .object [("type", .string s.kind), ("text", .string s.text)]

/-- Openers in the manner of a guardian; most guardians share one set. -/
def openers (guardian : String) : List Suggestion :=
  match guardian with
  | "dragon-forge" =>
    [⟨"ignite", "Ignite creative fire..."⟩, ⟨"burn", "Burn away limitations..."⟩,
     ⟨"transform", "Transform this into..."⟩]
  | "crystal-architect" =>
    [⟨"structure", "Structure this as..."⟩, ⟨"design", "Design the foundation..."⟩,
     ⟨"build", "Build the framework..."⟩]
  | "river-storyteller" =>
    [⟨"flow", "Let this flow into..."⟩, ⟨"narrative", "The narrative unfolds..."⟩,
     ⟨"journey", "On this journey..."⟩]
  | _ =>
    [⟨"combine", "Combine elemental forces..."⟩, ⟨"harmonize", "Harmonize all elements..."⟩,
     ⟨"unify", "Unify diverse energies..."⟩]

/-- Techniques of a skill; one in general terms for a skill without any. -/
def techniques (skill : String) : List Suggestion :=
  match skill with
  | "skill_block_remove" =>
    [⟨"technique", "Try the 5-minute free-write technique"⟩,
     ⟨"prompt", "Write the worst version first, then refine"⟩,
     ⟨"exercise", "Change your environment - move to a different space"⟩]
  | "skill_structure" =>
    [⟨"framework", "Use the Three-Act Structure"⟩,
     ⟨"outline", "Start with bullet points for each section"⟩,
     ⟨"template", "Apply the Hero's Journey template"⟩]
  | "skill_narrative" =>
    [⟨"arc", "Consider the character's transformation arc"⟩,
     ⟨"tension", "Add tension through internal conflict"⟩,
     ⟨"pacing", "Vary scene lengths for rhythm"⟩]
  | "skill_order" =>
    [⟨"organize", "Group related concepts together"⟩,
     ⟨"sequence", "Present ideas in logical progression"⟩,
     ⟨"hierarchy", "Use heading levels for importance"⟩]
  | _ => [⟨"general", "Apply " ++ skill ++ " technique"⟩]

end Router

end Grimoire.Trigger
