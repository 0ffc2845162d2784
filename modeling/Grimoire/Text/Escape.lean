import Grimoire.Text.Category

/-!
# Text made visible

`escape` writes quotes, backslashes, line ends and all characters without a visible form of their own
as escapes. A mark that would attach to a character before it is escaped only at the front.

`escape` is `escape_debug`, which the `Display` of `ParseError` uses.
-/
namespace Grimoire.Text

/-- The code point in hexadecimal digits. -/
def escapeCode (c : Char) : List Char :=
  ['\\', 'u', '{'] ++ Nat.toDigits 16 c.toNat ++ ['}']

def escapeChar (first : Bool) (c : Char) : List Char :=
  if c = '\x00' then ['\\', '0']
  else if c = '\t' then ['\\', 't']
  else if c = '\r' then ['\\', 'r']
  else if c = '\n' then ['\\', 'n']
  else if c = '"' ∨ c = '\'' ∨ c = '\\' then ['\\', c]
  else if first && extendsCluster c then escapeCode c
  else if isPrintable c then [c]
  else escapeCode c

def escape : List Char → List Char
  | [] => []
  | c :: cs => escapeChar true c ++ cs.flatMap (escapeChar false)

end Grimoire.Text
