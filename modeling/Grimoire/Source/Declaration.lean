import Grimoire.Json.Basic

/-!
# Declarations

What a source declares: spells (templates for generation), characters with spells of their own,
worlds, and archetypes. Every declaration remembers the line of its name; `withoutLines` forgets it.

| here | there |
| --- | --- |
| `Spell`, `Character`, `World`, `Archetype` | `SpellDecl`, `CharacterDecl`, `WorldDecl`, `ArchetypeDecl` |
| `name`, `line`, `kindName`                 | `Declaration::name`, `Declaration::line`, `Declaration::kind_name` |
| `withoutLines`                             | `Declaration::without_lines` |
| `sameIgnoringLines`                        | `Declaration::eq_ignoring_lines` |
-/
namespace Grimoire.Source

/-- A named template for generation. -/
structure Spell where
  name : String
  description : String := ""
  archetypes : List String := []
  parameters : Object := []
  usage : String := ""
  implementation : String := ""
  line : Nat := 0
deriving Inhabited

structure Character where
  name : String
  archetype : String := ""
  elements : List String := []
  data : Object := []
  backstory : String := ""
  relationships : List Json := []
  spells : List Spell := []
  line : Nat := 0
deriving Inhabited

structure World where
  name : String
  cosmology : Object := []
  geography : Object := []
  cultures : List Json := []
  history : List Json := []
  line : Nat := 0
deriving Inhabited

structure Archetype where
  name : String
  description : String
  line : Nat := 0
deriving Inhabited

inductive Declaration
  | spell (s : Spell)
  | character (c : Character)
  | world (w : World)
  | archetype (a : Archetype)
deriving Inhabited

namespace Declaration

def name : Declaration → String
  | spell s => s.name
  | character c => c.name
  | world w => w.name
  | archetype a => a.name

/-- The line of the name. -/
def line : Declaration → Nat
  | spell s => s.line
  | character c => c.line
  | world w => w.line
  | archetype a => a.line

/-- The word that introduces the declaration. -/
def kindName : Declaration → String
  | spell _ => "spell"
  | character _ => "character"
  | world _ => "world"
  | archetype _ => "archetype"

/-- With every line forgotten, those of a character's own spells too. -/
def withoutLines : Declaration → Declaration
  | spell s => spell { s with line := 0 }
  | character c =>
    character { c with line := 0, spells := c.spells.map fun s => { s with line := 0 } }
  | world w => world { w with line := 0 }
  | archetype a => archetype { a with line := 0 }

end Declaration

/-! ## Equality as data -/

def Spell.same (a b : Spell) : Bool :=
  a.name == b.name && a.description == b.description && a.archetypes == b.archetypes
    && (Json.object a.parameters).same (.object b.parameters) && a.usage == b.usage
    && a.implementation == b.implementation && a.line == b.line

def Character.same (a b : Character) : Bool :=
  a.name == b.name && a.archetype == b.archetype && a.elements == b.elements
    && (Json.object a.data).same (.object b.data) && a.backstory == b.backstory
    && Json.sameItems a.relationships b.relationships
    && a.spells.length == b.spells.length && (a.spells.zip b.spells).all (fun (s, t) => s.same t)
    && a.line == b.line

def World.same (a b : World) : Bool :=
  a.name == b.name && (Json.object a.cosmology).same (.object b.cosmology)
    && (Json.object a.geography).same (.object b.geography) && Json.sameItems a.cultures b.cultures
    && Json.sameItems a.history b.history && a.line == b.line

/-- Equal in every field; the order of an object's members does not matter. -/
def Declaration.same : Declaration → Declaration → Bool
  | spell a, spell b => a.same b
  | character a, character b => a.same b
  | world a, world b => a.same b
  | archetype a, archetype b => a.name == b.name && a.description == b.description && a.line == b.line
  | _, _ => false

def Declaration.sameIgnoringLines (a b : Declaration) : Bool := a.withoutLines.same b.withoutLines

/-- Equal lists of declarations up to lines. -/
def Declaration.sameAll (as bs : List Declaration) : Bool :=
  as.length == bs.length && (as.zip bs).all fun (a, b) => a.sameIgnoringLines b

end Grimoire.Source
