import Grimoire.Json.Basic
import Grimoire.Decimal.Shortest

/-!
# The text of data

`Json.compact` writes no blanks; `Json.pretty` writes one member or item a line, indented by two
blanks a level, with empty containers as `{}` and `[]`. Text outside ASCII is written as it is;
quotes, backslashes and the control characters below blank are escaped.

`compact` is `to_string` on a value, `pretty` is `to_string_pretty`, which `enrich_character` uses.
-/
namespace Grimoire.Json

/-! ## Strings -/

def hexDigit (n : Nat) : Char := (Nat.toDigits 16 n).headD '0'

/-- The written form of one character of a string. -/
def escapeChar (c : Char) : List Char :=
  if c = '"' then ['\\', '"']
  else if c = '\\' then ['\\', '\\']
  else if c = '\n' then ['\\', 'n']
  else if c = '\r' then ['\\', 'r']
  else if c = '\t' then ['\\', 't']
  else if c = '\x08' then ['\\', 'b']
  else if c = '\x0c' then ['\\', 'f']
  else if c.toNat < 32 then ['\\', 'u', '0', '0', hexDigit (c.toNat / 16), hexDigit (c.toNat % 16)]
  else [c]

/-- The text between its quotes. -/
def quote (cs : List Char) : List Char := '"' :: (cs.flatMap escapeChar ++ ['"'])

/-! ## Numbers -/

/-- A double that is no number has no numeral and is written `null`. -/
def numberText : Number → List Char
  | .whole n => Decimal.numeralInt n.val
  | .float x => if Decimal.isFinite x then Decimal.Layout.json.write x else ['n', 'u', 'l', 'l']

/-! ## Compact text -/

mutual

def compact : Json → List Char
  | .null => ['n', 'u', 'l', 'l']
  | .bool true => ['t', 'r', 'u', 'e']
  | .bool false => ['f', 'a', 'l', 's', 'e']
  | .number n => numberText n
  | .string s => quote s.toList
  | .array [] => ['[', ']']
  | .array (item :: items) => '[' :: (item.compact ++ compactItems items)
  | .object [] => ['{', '}']
  | .object ((key, value) :: members) =>
    '{' :: (quote key.toList ++ ':' :: (value.compact ++ compactMembers members))
termination_by structural j => j

/-- The items after the first, and the closing bracket. -/
def compactItems : List Json → List Char
  | [] => [']']
  | item :: items => ',' :: (item.compact ++ compactItems items)
termination_by structural items => items

/-- The members after the first, and the closing brace. -/
def compactMembers : List (String × Json) → List Char
  | [] => ['}']
  | (key, value) :: members =>
    ',' :: (quote key.toList ++ ':' :: (value.compact ++ compactMembers members))
termination_by structural members => members

end

/-- The compact text as a string. -/
def text (j : Json) : String := String.ofList j.compact

/-! ## Indented text -/

/-- A new line at the given depth. -/
def newline (depth : Nat) : List Char := '\n' :: List.replicate (2 * depth) ' '

mutual

/-- The text of a value whose first character stands at the given depth. -/
def prettyAt (depth : Nat) : Json → List Char
  | .null => ['n', 'u', 'l', 'l']
  | .bool true => ['t', 'r', 'u', 'e']
  | .bool false => ['f', 'a', 'l', 's', 'e']
  | .number n => numberText n
  | .string s => quote s.toList
  | .array [] => ['[', ']']
  | .array (item :: items) =>
    '[' :: (newline (depth + 1) ++ prettyAt (depth + 1) item ++ prettyItems depth items)
  | .object [] => ['{', '}']
  | .object ((key, value) :: members) =>
    '{' :: (newline (depth + 1) ++ quote key.toList ++ ':' :: ' ' :: prettyAt (depth + 1) value
      ++ prettyMembers depth members)
termination_by structural j => j

def prettyItems (depth : Nat) : List Json → List Char
  | [] => newline depth ++ [']']
  | item :: items => ',' :: (newline (depth + 1) ++ prettyAt (depth + 1) item ++ prettyItems depth items)
termination_by structural items => items

def prettyMembers (depth : Nat) : List (String × Json) → List Char
  | [] => newline depth ++ ['}']
  | (key, value) :: members =>
    ',' :: (newline (depth + 1) ++ quote key.toList ++ ':' :: ' ' :: prettyAt (depth + 1) value
      ++ prettyMembers depth members)
termination_by structural members => members

end

/-- The indented text as a string. -/
def pretty (j : Json) : String := String.ofList (prettyAt 0 j)

end Grimoire.Json
