import Grimoire.Decimal.Numeral

/-!
# Reading numbers from text

`readDouble?` reads a whole text as a double: a sign, then digits with an optional point among or
beside them and an optional power of ten, or the words `inf`, `infinity` and `nan` in any case.
`readWord?` reads an unsigned word: an optional plus sign and digits.

| here | there |
| --- | --- |
| `readDouble?` | the `parse` of `coerce_to_f64` |
| `readWord?`   | the `parse` of `lookup_path`, with 64 bits, and of `number` in schedules, with 32 |
-/
namespace Grimoire.Decimal

/-- The power of ten after the digits, if the rest of the text is one. -/
def readPower? : List Char → Option (Option (Bool × List Nat))
  | [] => some none
  | c :: cs =>
    if c = 'e' ∨ c = 'E' then
      let (negative, cs) := match cs with
        | '-' :: rest => (true, rest)
        | '+' :: rest => (false, rest)
        | _ => (false, cs)
      match takeDigits cs with
      | (d :: ds, []) => some (some (negative, d :: ds))
      | _ => none
    else none

/-- An unsigned numeral that fills the text; a digit must stand before or after the point. -/
def readNumeral? (negative : Bool) (cs : List Char) : Option Numeral :=
  let (whole, rest) := takeDigits cs
  let (fraction, rest) := match rest with
    | '.' :: rest => takeDigits rest
    | _ => ([], rest)
  if whole.isEmpty && fraction.isEmpty then none
  else (readPower? rest).map fun power => ⟨negative, whole, fraction, power⟩

def notANumber : Float := 0.0 / 0.0

/-- The words for values that have no digits. -/
def readWordValue? (cs : List Char) : Option Float :=
  let word := cs.map Char.toLower
  if word = ['i', 'n', 'f'] ∨ word = ['i', 'n', 'f', 'i', 'n', 'i', 't', 'y'] then some infinity
  else if word = ['n', 'a', 'n'] then some notANumber
  else none

/-- The double nearest to the number a text spells. -/
def readDouble? (cs : List Char) : Option Float :=
  let (negative, rest) := match cs with
    | '-' :: rest => (true, rest)
    | '+' :: rest => (false, rest)
    | _ => (false, cs)
  match readNumeral? negative rest with
  | some n => some n.nearest
  | none => (readWordValue? rest).map (signed negative)

/-- The number of digits alone, if it is a word of `bits` bits. -/
def readDigits? (bits : Nat) (cs : List Char) : Option Nat :=
  match takeDigits cs with
  | (d :: ds, []) => if ofDigits (d :: ds) < Nat.pow 2 bits then some (ofDigits (d :: ds)) else none
  | _ => none

/-- The number of an unsigned word of `bits` bits. -/
def readWord? (bits : Nat) (cs : List Char) : Option Nat :=
  match cs with
  | '+' :: rest => readDigits? bits rest
  | _ => readDigits? bits cs

end Grimoire.Decimal
