import Grimoire.Json.Basic
import Grimoire.Text.Basic

/-!
# Tokens

The words and signs of the declaration language, each with the text it was read from and its place:
bytes from the start of the source, and a line and a column that count from one.

| here | there |
| --- | --- |
| `Kind`              | `TokenKind`, its words and signs as `Keyword` and `Symbol` |
| `Kind.ofReserved?`  | `keyword_kind` |
| `Kind.category`     | `TokenKind::category` |
| `Span`, `Token`     | `Span`, `Token` |
| `literal?`, `word?` | `Token::literal`, `Token::word` |
-/
namespace Grimoire.Source

/-- Signs that structure a source. -/
inductive Symbol
  | at | openBrace | closeBrace | openBracket | closeBracket | openParen | closeParen
  | colon | doubleColon | comma | hash
deriving DecidableEq, Repr

/-- Reserved words other than the truth values. -/
inductive Keyword
  | spell | character | world | archetype
  | description | parameters | example | implementation
  | data | backstory | relationships | arcSpells
  | primordial | modifier | direction | pattern
deriving DecidableEq, Repr

inductive Kind
  | symbol (s : Symbol)
  | newline
  | keyword (k : Keyword)
  | string (value : List Char)
  | number (value : Float)
  | boolean (value : Bool)
  | identifier (name : List Char)
  | endOfInput
deriving DecidableEq

/-- Where a token stands: its bytes, and the line and column of its first character. -/
structure Span where
  start : Nat
  stop : Nat
  line : Nat
  column : Nat
deriving DecidableEq, Repr

structure Token where
  kind : Kind
  lexeme : List Char
  span : Span
deriving DecidableEq

/-! ## Reserved words -/

/-- The spelling of every reserved word. -/
def Kind.reserved : List (String × Kind) :=
  [("spell", .keyword .spell), ("character", .keyword .character), ("world", .keyword .world),
   ("archetype", .keyword .archetype), ("description", .keyword .description),
   ("parameters", .keyword .parameters), ("example", .keyword .example),
   ("implementation", .keyword .implementation), ("data", .keyword .data),
   ("backstory", .keyword .backstory), ("relationships", .keyword .relationships),
   ("arc_spells", .keyword .arcSpells), ("primordial", .keyword .primordial),
   ("modifier", .keyword .modifier), ("direction", .keyword .direction),
   ("pattern", .keyword .pattern), ("true", .boolean true), ("false", .boolean false)]

/-- The kind of a reserved word. -/
def Kind.ofReserved? (word : List Char) : Option Kind :=
  (Kind.reserved.find? (·.1.toList == word)).map (·.2)

/-! ## Classes -/

inductive Category
  | structural | identifier | keyword | stringLiteral | numberLiteral | newline | endOfInput
deriving DecidableEq, Repr

def Kind.category : Kind → Category
  | .symbol _ => .structural
  | .newline => .newline
  | .keyword _ | .boolean _ => .keyword
  | .string _ => .stringLiteral
  | .number _ => .numberLiteral
  | .identifier _ => .identifier
  | .endOfInput => .endOfInput

namespace Token

def isSymbol (t : Token) (s : Symbol) : Bool := t.kind == .symbol s

def isNewline (t : Token) : Bool := t.kind == .newline

def isEnd (t : Token) : Bool := t.kind == .endOfInput

def isIdentifier (t : Token) : Bool :=
  match t.kind with
  | .identifier _ => true
  | _ => false

/-- The value of a string, number or truth value; a number beyond the doubles has none. -/
def literal? (t : Token) : Option Json :=
  match t.kind with
  | .string value => some (.string (String.ofList value))
  | .number x => if Decimal.isFinite x then some (.number (.float x)) else none
  | .boolean b => some (.bool b)
  | _ => none

/-- The bare word of an identifier or a reserved word. -/
def word? (t : Token) : Option (List Char) :=
  match t.kind with
  | .identifier name => some name
  | .keyword _ | .boolean _ => some t.lexeme
  | _ => none

/-- The text of a string, or the bare word. -/
def stringOrWord? (t : Token) : Option (List Char) :=
  match t.kind with
  | .string value => some value
  | _ => t.word?

end Token

end Grimoire.Source
