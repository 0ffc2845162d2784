import Grimoire.Json.Printer
import Grimoire.Text.Basic
import Grimoire.Decimal.Reading

/-!
# Data as text and as numbers

Text is written without quotes, a list by its items with commas between them and nothing for a
missing item, an object as compact data. Numbers are read from text and from truth values as well.

| here | there |
| --- | --- |
| `floatText`     | `format_number` |
| `coerceText`    | `coerce_to_string` |
| `coerceNumber?` | `coerce_to_f64` |
-/
namespace Grimoire.Json

/-- The bounds of a signed word of 64 bits. -/
def clampSigned (n : Int) : Int := max (-9223372036854775808) (min n 9223372036854775807)

/-- A double without a fraction below `10 ^ 21` is written as a whole number, held within the bounds
of a signed word; other doubles are written positionally. -/
def floatText (x : Float) : List Char :=
  match Decimal.whole? x with
  | some n =>
    if n.natAbs < Nat.pow 10 21 then Decimal.numeralInt (clampSigned n) else Decimal.Layout.plain.write x
  | none => Decimal.Layout.plain.write x

mutual

/-- The text of a value as it stands in a template. -/
def coerceChars : Json → List Char
  | .null => ['n', 'u', 'l', 'l']
  | .bool true => ['t', 'r', 'u', 'e']
  | .bool false => ['f', 'a', 'l', 's', 'e']
  | .number (.whole n) => Decimal.numeralInt n.val
  | .number (.float x) => floatText x
  | .string s => s.toList
  | .array items => coerceItems items
  | .object members => (Json.object members).compact
termination_by structural j => j

/-- Items with commas between them; a missing item leaves its place empty. -/
def coerceItems : List Json → List Char
  | [] => []
  | [.null] => []
  | [item] => item.coerceChars
  | .null :: items => ',' :: coerceItems items
  | item :: items => item.coerceChars ++ ',' :: coerceItems items
termination_by structural items => items

end

def coerceText (j : Json) : String := String.ofList j.coerceChars

/-- Numbers as they are, truth values as 1 and 0, text if it spells a number between blanks. -/
def coerceNumber? : Json → Option Float
  | .number n => some n.toFloat
  | .string s => Decimal.readDouble? (Text.trim s.toList)
  | .bool b => some (if b then 1.0 else 0.0)
  | _ => none

end Grimoire.Json
