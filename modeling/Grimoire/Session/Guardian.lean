import Grimoire.Json.Basic

/-!
# Guardians and the choice of providers

Guardians are voices that a request can be coloured with. The tags of a spell choose its provider and
its guardian: the rules are tried in order, and the first one with a tag of the spell decides.

| here | there |
| --- | --- |
| `Guardian`, `Guardian.all`          | `Guardian`, `default_guardians` |
| `providerRules`, `guardianRules`    | `PROVIDER_RULES`, `GUARDIAN_RULES` |
| `firstRule?`                        | `first_rule` |
| `selectProvider`, `selectGuardian?` | `select_provider`, `select_guardian` |
-/
namespace Grimoire.Session

structure Guardian where
  id : String
  name : String
  element : String
  /-- Hertz. -/
  frequency : Nat
deriving DecidableEq, Repr

def Guardian.toJson (g : Guardian) : Json :=
  .object
    [("id", .string g.id), ("name", .string g.name), ("element", .string g.element),
     ("frequency", Json.ofNat g.frequency)]

/-- The guardians of every session. -/
def Guardian.all : List Guardian :=
  [⟨"draconia", "Draconia", "fire", 528⟩, ⟨"lyssandria", "Lyssandria", "earth", 396⟩,
   ⟨"maylinn", "Maylinn", "water", 639⟩, ⟨"aiyami", "Aiyami", "void", 963⟩]

/-! ## Rules -/

/-- Tags that call for a target. -/
abbrev Rule := List String × String

def providerRules : List Rule :=
  [(["narrative", "story"], "anthropic-claude"), (["creative", "artistic"], "openai-gpt4"),
   (["technical", "system"], "google-gemini")]

def guardianRules : List Rule :=
  [(["fire", "transformation"], "draconia"), (["earth", "foundation"], "lyssandria"),
   (["water", "emotion"], "maylinn"), (["void", "innovation"], "aiyami")]

/-- The target of the first rule with one of the tags. -/
def firstRule? (rules : List Rule) (tags : List String) : Option String :=
  (rules.find? fun rule => rule.1.any tags.contains).map (·.2)

def selectProvider (tags : List String) (fallback : String) : String :=
  (firstRule? providerRules tags).getD fallback

def selectGuardian? (tags : List String) : Option String := firstRule? guardianRules tags

end Grimoire.Session
