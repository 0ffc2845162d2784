import Grimoire.Source.Declaration
import Grimoire.Source.Token
import Grimoire.Source.Lexer
import Grimoire.Json.Printer

/-!
# Declarations as source

The canonical source of a declaration: one clause a line, empty clauses left out, text quoted, data in
its compact form, and list items bare where they are identifiers.

| here | there |
| --- | --- |
| `escape`, `quote`                               | `escape_string` |
| `isPlainIdentifier`, `printWords`               | `is_plain_identifier`, `word_list` |
| `mapClause`, `sequenceClause`                   | `map_literal`, `sequence_literal` |
| `Spell.print`, `Character.print`, `World.print` | `pretty_print_spell`, `pretty_print_character`, `pretty_print_world` |
| `Declaration.print`, `printAll`                 | `pretty_print_declaration`, `pretty_print` |
-/
namespace Grimoire.Source

/-- The written form of one character of a string. -/
def escapeChar (c : Char) : List Char :=
  if c = '\\' then ['\\', '\\']
  else if c = '"' then ['\\', '"']
  else if c = '\n' then ['\\', 'n']
  else if c = '\t' then ['\\', 't']
  else if c = '\r' then ['\\', 'r']
  else [c]

/-- The text of a string between its quotes. -/
def escape (cs : List Char) : List Char := cs.flatMap escapeChar

def quote (s : String) : List Char := '"' :: (escape s.toList ++ ['"'])

/-- Does the word read back as an identifier? -/
def isPlainIdentifier (cs : List Char) : Bool :=
  match cs with
  | [] => false
  | c :: rest => startsWord c && rest.all continuesWord && (Kind.ofReserved? cs).isNone

def printWord (word : String) : List Char :=
  if isPlainIdentifier word.toList then word.toList else quote word

def printWords (words : List String) : List Char :=
  '[' :: (Text.join [',', ' '] (words.map printWord) ++ [']'])

/-! ## Clauses -/

/-- One clause on a line of its own. -/
def clauseLine (indent : Nat) (word : String) (value : List Char) : List Char :=
  List.replicate indent ' ' ++ '@' :: (word.toList ++ ' ' :: (value ++ ['\n']))

/-- A clause that is left out when its value is empty. -/
def clauseUnless (empty : Bool) (indent : Nat) (word : String) (value : List Char) : List Char :=
  if empty then [] else clauseLine indent word value

def textClause (indent : Nat) (word text : String) : List Char :=
  clauseUnless text.isEmpty indent word (quote text)

def wordsClause (indent : Nat) (word : String) (words : List String) : List Char :=
  clauseUnless words.isEmpty indent word (printWords words)

def mapClause (indent : Nat) (word : String) (members : Object) : List Char :=
  clauseUnless members.isEmpty indent word (Json.object members).compact

def sequenceClause (indent : Nat) (word : String) (items : List Json) : List Char :=
  clauseUnless items.isEmpty indent word (Json.array items).compact

/-! ## Declarations -/

/-- A spell, its clauses two blanks further in; the implementation is always there. -/
def Spell.print (s : Spell) (indent : Nat) : List Char :=
  clauseLine indent "spell" s.name.toList
    ++ textClause (indent + 2) "description" s.description
    ++ wordsClause (indent + 2) "archetypes" s.archetypes
    ++ mapClause (indent + 2) "parameters" s.parameters
    ++ textClause (indent + 2) "example" s.usage
    ++ clauseLine (indent + 2) "implementation" (quote s.implementation)

/-- The spells of a character between brackets that stand on lines of their own. -/
def printSpells (spells : List Spell) : List Char :=
  '[' :: '\n' :: (spells.flatMap (·.print 4) ++ [' ', ' ', ']'])

def Character.print (c : Character) : List Char :=
  clauseLine 0 "character" c.name.toList
    ++ textClause 2 "archetype" c.archetype
    ++ wordsClause 2 "elements" c.elements
    ++ mapClause 2 "data" c.data
    ++ textClause 2 "backstory" c.backstory
    ++ sequenceClause 2 "relationships" c.relationships
    ++ clauseUnless c.spells.isEmpty 2 "arc_spells" (printSpells c.spells)

def World.print (w : World) : List Char :=
  clauseLine 0 "world" w.name.toList
    ++ mapClause 2 "cosmology" w.cosmology
    ++ mapClause 2 "geography" w.geography
    ++ sequenceClause 2 "cultures" w.cultures
    ++ sequenceClause 2 "history" w.history

def Archetype.print (a : Archetype) : List Char :=
  clauseLine 0 "archetype" (a.name.toList ++ [' ', ':', ':', ' '] ++ quote a.description)

def Declaration.print : Declaration → List Char
  | spell s => s.print 0
  | character c => c.print
  | world w => w.print
  | archetype a => a.print

/-- All declarations, with an empty line between neighbours. -/
def printAll (ds : List Declaration) : List Char := Text.join ['\n'] (ds.map Declaration.print)

end Grimoire.Source
