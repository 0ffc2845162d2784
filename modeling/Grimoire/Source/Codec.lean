import Grimoire.Source.Parser
import Grimoire.Json.Record
import Grimoire.Text.Escape

/-!
# Declarations and tokens as data

The stored form of declarations, both ways, and the report forms of tokens and parse errors.

| here | there |
| --- | --- |
| `toJson`, `ofJson?`                                   | the derived stored form of `Declaration` |
| `Token.toJson`, `ParseError.toJson`, `Program.toJson` | the parts of `Token`, `ParseError` and `ArcProgram` |
| `ParseError.display`                                  | the `Display` of `ParseError` |
-/
namespace Grimoire.Source

/-! ## Declarations -/

/-- Whole numbers of the stored form are below this bound. -/
def wordBound : Nat := Nat.pow 2 64

def Spell.members (s : Spell) : Object :=
  [("name", .string s.name), ("description", .string s.description),
   ("archetypes", Json.strings s.archetypes), ("parameters", .object s.parameters),
   ("example", .string s.usage), ("implementation", .string s.implementation),
   ("line", Json.ofNat s.line)]

def Spell.ofRecord? (r : Record) : Option Spell := do
  return {
    name := ← r.required 0 "name" Json.asString?
    description := ← r.required 1 "description" Json.asString?
    archetypes := ← r.required 2 "archetypes" (Json.asList? Json.asString?)
    parameters := ← r.required 3 "parameters" Json.asObject?
    usage := ← r.required 4 "example" Json.asString?
    implementation := ← r.required 5 "implementation" Json.asString?
    line := ← r.required 6 "line" (Json.asNat? wordBound) }

def Spell.ofJson? (j : Json) : Option Spell := (Record.of? 7 j).bind Spell.ofRecord?

def Character.members (c : Character) : Object :=
  [("name", .string c.name), ("archetype", .string c.archetype),
   ("elemental_alignment", Json.strings c.elements), ("data", .object c.data),
   ("backstory", .string c.backstory), ("relationships", .array c.relationships),
   ("arc_spells", .array (c.spells.map fun s => .object s.members)), ("line", Json.ofNat c.line)]

def Character.ofRecord? (r : Record) : Option Character := do
  return {
    name := ← r.required 0 "name" Json.asString?
    archetype := ← r.required 1 "archetype" Json.asString?
    elements := ← r.required 2 "elemental_alignment" (Json.asList? Json.asString?)
    data := ← r.required 3 "data" Json.asObject?
    backstory := ← r.required 4 "backstory" Json.asString?
    relationships := ← r.required 5 "relationships" (Json.asList? some)
    spells := ← r.required 6 "arc_spells" (Json.asList? Spell.ofJson?)
    line := ← r.required 7 "line" (Json.asNat? wordBound) }

def Character.ofJson? (j : Json) : Option Character := (Record.of? 8 j).bind Character.ofRecord?

def World.members (w : World) : Object :=
  [("name", .string w.name), ("cosmology", .object w.cosmology), ("geography", .object w.geography),
   ("cultures", .array w.cultures), ("history", .array w.history), ("line", Json.ofNat w.line)]

def World.ofRecord? (r : Record) : Option World := do
  return {
    name := ← r.required 0 "name" Json.asString?
    cosmology := ← r.required 1 "cosmology" Json.asObject?
    geography := ← r.required 2 "geography" Json.asObject?
    cultures := ← r.required 3 "cultures" (Json.asList? some)
    history := ← r.required 4 "history" (Json.asList? some)
    line := ← r.required 5 "line" (Json.asNat? wordBound) }

def World.ofJson? (j : Json) : Option World := (Record.of? 6 j).bind World.ofRecord?

def Archetype.members (a : Archetype) : Object :=
  [("name", .string a.name), ("description", .string a.description), ("line", Json.ofNat a.line)]

def Archetype.ofRecord? (r : Record) : Option Archetype := do
  return {
    name := ← r.required 0 "name" Json.asString?
    description := ← r.required 1 "description" Json.asString?
    line := ← r.required 2 "line" (Json.asNat? wordBound) }

def Archetype.ofJson? (j : Json) : Option Archetype := (Record.of? 3 j).bind Archetype.ofRecord?

namespace Declaration

/-- A record with the kind of the declaration before its fields. -/
def toJson : Declaration → Json
  | spell s => .object (("type", .string "Spell") :: s.members)
  | character c => .object (("type", .string "Character") :: c.members)
  | world w => .object (("type", .string "World") :: w.members)
  | archetype a => .object (("type", .string "Archetype") :: a.members)

/-- A listed record holds no more items than the kind has fields. -/
def ofJson? (j : Json) : Option Declaration := do
  let (kind, r) ← Record.tagged? "type" j
  match kind with
  | "Spell" => (Spell.ofJson? r.data).map spell
  | "Character" => (Character.ofJson? r.data).map character
  | "World" => (World.ofJson? r.data).map world
  | "Archetype" => (Archetype.ofJson? r.data).map archetype
  | _ => none

end Declaration

/-! ## Tokens -/

def Symbol.name : Symbol → String
  | .at => "At"
  | .openBrace => "LBrace"
  | .closeBrace => "RBrace"
  | .openBracket => "LBracket"
  | .closeBracket => "RBracket"
  | .openParen => "LParen"
  | .closeParen => "RParen"
  | .colon => "Colon"
  | .doubleColon => "DoubleColon"
  | .comma => "Comma"
  | .hash => "Hash"

def Keyword.name : Keyword → String
  | .spell => "Spell"
  | .character => "Character"
  | .world => "World"
  | .archetype => "Archetype"
  | .description => "Description"
  | .parameters => "Parameters"
  | .example => "Example"
  | .implementation => "Implementation"
  | .data => "Data"
  | .backstory => "Backstory"
  | .relationships => "Relationships"
  | .arcSpells => "ArcSpells"
  | .primordial => "Primordial"
  | .modifier => "Modifier"
  | .direction => "Direction"
  | .pattern => "Pattern"

def Kind.name : Kind → String
  | .symbol s => s.name
  | .newline => "Newline"
  | .keyword k => k.name
  | .string _ => "String"
  | .number _ => "Number"
  | .boolean _ => "Boolean"
  | .identifier _ => "Identifier"
  | .endOfInput => "Eof"

def Category.name : Category → String
  | .structural => "Structural"
  | .identifier => "Identifier"
  | .keyword => "Keyword"
  | .stringLiteral => "StringLiteral"
  | .numberLiteral => "NumberLiteral"
  | .newline => "Newline"
  | .endOfInput => "EndOfInput"

def Token.toJson (t : Token) : Json :=
  .object
    [("kind", .string t.kind.name), ("category", .string t.kind.category.name),
     ("lexeme", .string (String.ofList t.lexeme)), ("start", Json.ofNat t.span.start),
     ("end", Json.ofNat t.span.stop), ("line", Json.ofNat t.span.line),
     ("column", Json.ofNat t.span.column), ("literal", Json.ofOption t.literal?),
     ("word", Json.ofOption (t.word?.map fun w => .string (String.ofList w)))]

/-! ## Parse errors -/

/-- The message with its place, and with the token it stands at unless that has no text. -/
def ParseError.display (e : ParseError) : String :=
  "Parse error at line " ++ toString e.token.span.line ++ ", column " ++ toString e.token.span.column
    ++ ": " ++ e.fault.message
    ++ if e.token.lexeme.isEmpty then ""
       else " (near '" ++ String.ofList (Text.escape e.token.lexeme) ++ "')"

def ParseError.toJson (e : ParseError) : Json :=
  .object
    [("message", .string e.fault.message), ("line", Json.ofNat e.token.span.line),
     ("column", Json.ofNat e.token.span.column), ("token", .string (String.ofList e.token.lexeme)),
     ("display", .string e.display)]

/-- The declarations, their kinds, names and lines, and the errors. -/
def Program.toJson (p : Program) : Json :=
  .object
    [("declarations", .array (p.declarations.map Declaration.toJson)),
     ("names", .array (p.declarations.map fun d =>
        .array [.string d.kindName, .string d.name, Json.ofNat d.line])),
     ("errors", .array (p.errors.map ParseError.toJson)),
     ("clean", .bool p.isClean)]

end Grimoire.Source
