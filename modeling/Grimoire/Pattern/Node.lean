import Grimoire.Pattern.CharSet

/-!
# Patterns as trees

What a pattern means: characters of a set, places, sequences, choices in order of preference,
repetitions that prefer more or fewer rounds, and groups whose text is kept.

These are the trees of `Pattern.engine`; triggers know of them through `RegexEngine` alone.
-/
namespace Grimoire.Pattern

/-- Tests of the place between two characters. -/
inductive Look
  | start | finish
  /-- Ends of lines; with `crlf` also a carriage return ends a line. -/
  | lineStart (crlf : Bool)
  | lineEnd (crlf : Bool)
  | boundary (ascii negated : Bool)
  | wordStart (ascii : Bool)
  | wordEnd (ascii : Bool)
  | wordStartHalf (ascii : Bool)
  | wordEndHalf (ascii : Bool)
deriving DecidableEq, Repr

def isWord (ascii : Bool) (c? : Option Char) : Bool :=
  c?.any fun c => if ascii then Text.inRanges asciiWord c else Text.isWordChar c

/-- Does the test hold between these two characters? -/
def Look.holds (l : Look) (before after : Option Char) : Bool :=
  match l with
  | start => before.isNone
  | finish => after.isNone
  | lineStart false => before.all (· == '\n')
  | lineStart true => before.all fun c => c == '\n' || (c == '\r' && after != some '\n')
  | lineEnd false => after.all (· == '\n')
  | lineEnd true => after.all fun c => c == '\r' || (c == '\n' && before != some '\r')
  | boundary ascii negated => (isWord ascii before != isWord ascii after) != negated
  | wordStart ascii => !isWord ascii before && isWord ascii after
  | wordEnd ascii => isWord ascii before && !isWord ascii after
  | wordStartHalf ascii => !isWord ascii before
  | wordEndHalf ascii => !isWord ascii after

inductive Node
  | empty
  | set (s : CharSet) (f : Folding)
  | look (l : Look)
  | seq (a b : Node)
  /-- The first alternative is preferred. -/
  | choice (a b : Node)
  /-- Between `least` and `most` rounds; a greedy repetition prefers more. -/
  | repetition (greedy : Bool) (least : Nat) (most : Option Nat) (body : Node)
  /-- The text of the body is kept under the number. -/
  | group (number : Nat) (body : Node)

namespace Node

/-- Can the node match without taking a character? -/
def nullable : Node → Bool
  | empty | look _ => true
  | set .. => false
  | seq a b => a.nullable && b.nullable
  | choice a b => a.nullable || b.nullable
  | repetition _ least _ body => least == 0 || body.nullable
  | group _ body => body.nullable

/-- How many instructions the node compiles to, at most. -/
def cost : Node → Nat
  | empty => 0
  | set .. | look _ => 1
  | seq a b => a.cost + b.cost
  | choice a b => a.cost + b.cost + 2
  | repetition _ least most body => (body.cost + 2) * max (least + 1) (most.getD 0)
  | group _ body => body.cost + 2

def ofList : List Node → Node
  | [] => empty
  | [n] => n
  | n :: ns => seq n (ofList ns)

def ofChoices : List Node → Node
  | [] => empty
  | [n] => n
  | n :: ns => choice n (ofChoices ns)

end Node

end Grimoire.Pattern
