import Grimoire.Json.Reader

/-!
# Blocks of data

The text between the delimiters of a block is data if it reads as such between them; otherwise the
block keeps its text under the key `raw`.

| here | there |
| --- | --- |
| `BlockShape`                  | `LiteralShape` |
| `decode?`                     | `decode_structured_literal` |
| `rawText`                     | `RawFallback` |
| `decodeMap`, `decodeSequence` | `decode_map_or_raw`, `decode_sequence_or_raw` |
-/
namespace Grimoire.Source

/-- Which delimiters a block has. -/
inductive BlockShape
  | map
  | sequence
deriving DecidableEq, Repr

namespace BlockShape

def opening : BlockShape → Char
  | map => '{'
  | sequence => '['

def closing : BlockShape → Char
  | map => '}'
  | sequence => ']'

/-- The data of a block, if the text between the delimiters reads as a value of its shape. -/
def decode? (shape : BlockShape) (inner : List Char) : Option Json :=
  match shape, Json.read? (shape.opening :: (inner ++ [shape.closing])) with
  | .map, some (.object members) => some (.object members)
  | .sequence, some (.array items) => some (.array items)
  | _, _ => none

end BlockShape

/-- What a block keeps of a text that is no data. -/
def rawText (inner : List Char) : Object := [("raw", .string (String.ofList inner))]

/-- The members of a block in braces. -/
def decodeMap (inner : List Char) : Object :=
  match BlockShape.map.decode? inner with
  | some (.object members) => members
  | _ => rawText inner

/-- The items of a block in brackets. -/
def decodeSequence (inner : List Char) : List Json :=
  match BlockShape.sequence.decode? inner with
  | some (.array items) => items
  | _ => [.object (rawText inner)]

/-! ## Parts of a source -/

/-- The text after the first `n` bytes, if a character begins there. -/
def dropBytes : Nat → List Char → Option (List Char)
  | 0, cs => some cs
  | _ + 1, [] => none
  | n + 1, c :: cs => if c.utf8Size ≤ n + 1 then dropBytes (n + 1 - c.utf8Size) cs else none

/-- The first `n` bytes of a text, if a character ends there. -/
def takeBytes : Nat → List Char → Option (List Char)
  | 0, _ => some []
  | _ + 1, [] => none
  | n + 1, c :: cs =>
    if c.utf8Size ≤ n + 1 then (takeBytes (n + 1 - c.utf8Size) cs).map (c :: ·) else none

/-- The text between two byte offsets, if both fall between characters and are in order. -/
def slice? (source : List Char) (start stop : Nat) : Option (List Char) :=
  if start ≤ stop then (dropBytes start source).bind (takeBytes (stop - start)) else none

end Grimoire.Source
