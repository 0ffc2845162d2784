import Grimoire.Json.Basic
import Grimoire.Decimal.Numeral

/-!
# Reading data

`Json.read?` reads one value with blanks around it. It refuses more than 127 containers inside each
other, numbers beyond the largest double, escapes of half a character and raw control characters
in strings. A key written twice keeps its first place and its last value. Digits that fit a word are
a whole number, except `-0`; all other numbers are doubles.

`read?` is `from_str` on a value, which `decode_structured_literal` uses; its faults are not told apart.
-/
namespace Grimoire.Json

/-- How many containers may stand inside each other. -/
def maxDepth : Nat := 127

def isBlank (c : Char) : Bool := c = ' ' || c = '\n' || c = '\t' || c = '\r'

def skipBlanks (cs : List Char) : List Char := cs.dropWhile isBlank

/-! ## Strings -/

def hexValue? (c : Char) : Option Nat :=
  if '0' ≤ c ∧ c ≤ '9' then some (c.toNat - '0'.toNat)
  else if 'a' ≤ c ∧ c ≤ 'f' then some (c.toNat - 'a'.toNat + 10)
  else if 'A' ≤ c ∧ c ≤ 'F' then some (c.toNat - 'A'.toNat + 10)
  else none

/-- The unit that four hexadecimal digits stand for. -/
def unit? (a b c d : Char) : Option Nat := do
  return ((16 * (← hexValue? a) + (← hexValue? b)) * 16 + (← hexValue? c)) * 16 + (← hexValue? d)

/-- The character a backslash and this one stand for. -/
def unescape? : Char → Option Char
  | '"' => some '"'
  | '\\' => some '\\'
  | '/' => some '/'
  | 'b' => some '\x08'
  | 'f' => some '\x0c'
  | 'n' => some '\n'
  | 'r' => some '\r'
  | 't' => some '\t'
  | _ => none

def isHighHalf (u : Nat) : Bool := 0xD800 ≤ u && u < 0xDC00

def isLowHalf (u : Nat) : Bool := 0xDC00 ≤ u && u < 0xE000

/-- The text up to the closing quote, and what follows the quote. -/
def readString : List Char → Option (List Char × List Char)
  | [] => none
  | '"' :: rest => some ([], rest)
  | '\\' :: 'u' :: a :: b :: c :: d :: rest =>
    match unit? a b c d with
    | none => none
    | some u =>
      if isHighHalf u then
        match rest with
        | '\\' :: 'u' :: e :: f :: g :: h :: rest =>
          match unit? e f g h with
          | none => none
          | some v =>
            if isLowHalf v then
              (readString rest).map fun (cs, r) =>
                (Char.ofNat (0x10000 + (u - 0xD800) * 0x400 + (v - 0xDC00)) :: cs, r)
            else none
        | _ => none
      else if isLowHalf u then none
      else (readString rest).map fun (cs, r) => (Char.ofNat u :: cs, r)
  | '\\' :: c :: rest =>
    match unescape? c with
    | none => none
    | some x => (readString rest).map fun (cs, r) => (x :: cs, r)
  | c :: rest =>
    if c.toNat < 32 || c = '\\' then none
    else (readString rest).map fun (cs, r) => (c :: cs, r)

/-! ## Numbers -/

/-- The digits before the point: a zero stands alone. -/
def readWhole : List Char → Option (List Nat × List Char)
  | '0' :: rest =>
    match Decimal.takeDigits rest with
    | ([], _) => some ([0], rest)
    | _ => none
  | cs =>
    match Decimal.takeDigits cs with
    | ([], _) => none
    | found => some found

/-- A point and at least one digit, if there is a point. -/
def readFraction : List Char → Option (Option (List Nat) × List Char)
  | '.' :: rest =>
    match Decimal.takeDigits rest with
    | ([], _) => none
    | (ds, rest) => some (some ds, rest)
  | cs => some (none, cs)

/-- A sign is optional, one digit is not. -/
def readPowerDigits (cs : List Char) : Option (Option (Bool × List Nat) × List Char) :=
  let (negative, cs) := match cs with
    | '-' :: rest => (true, rest)
    | '+' :: rest => (false, rest)
    | _ => (false, cs)
  match Decimal.takeDigits cs with
  | ([], _) => none
  | (ds, rest) => some (some (negative, ds), rest)

def readPower : List Char → Option (Option (Bool × List Nat) × List Char)
  | 'e' :: rest => readPowerDigits rest
  | 'E' :: rest => readPowerDigits rest
  | cs => some (none, cs)

/-- Digits alone are a whole number where it fits a word; `-0` and all else is a double. -/
def ofNumeral? (negative : Bool) (whole : List Nat) (fraction : Option (List Nat))
    (power : Option (Bool × List Nat)) : Option Number :=
  let n := Decimal.ofDigits whole
  let asFloat := (Decimal.Numeral.scaled ⟨negative, whole, fraction.getD [], power⟩).map Number.float
  match fraction, power with
  | none, none =>
    if negative && n == 0 then asFloat
    else match Whole.ofInt? (if negative then -n else n) with
      | some w => some (.whole w)
      | none => asFloat
  | _, _ => asFloat

def readNumber (negative : Bool) (cs : List Char) : Option (Json × List Char) := do
  let (whole, cs) ← readWhole cs
  let (fraction, cs) ← readFraction cs
  let (power, cs) ← readPower cs
  let n ← ofNumeral? negative whole fraction power
  return (.number n, cs)

/-! ## Values -/

mutual

/-- One value at the front of the text, with `depth` more containers allowed. The fuel bounds the
number of values and separators read and is never short of the length of the text. -/
def readValue (depth : Nat) : Nat → List Char → Option (Json × List Char)
  | 0, _ => none
  | fuel + 1, cs =>
    match skipBlanks cs with
    | 'n' :: 'u' :: 'l' :: 'l' :: rest => some (.null, rest)
    | 't' :: 'r' :: 'u' :: 'e' :: rest => some (.bool true, rest)
    | 'f' :: 'a' :: 'l' :: 's' :: 'e' :: rest => some (.bool false, rest)
    | '"' :: rest => (readString rest).map fun (s, rest) => (.string (String.ofList s), rest)
    | '[' :: rest =>
      match depth with
      | 0 => none
      | depth + 1 =>
        match skipBlanks rest with
        | ']' :: rest => some (.array [], rest)
        | rest => (readItems depth fuel rest).map fun (items, rest) => (.array items, rest)
    | '{' :: rest =>
      match depth with
      | 0 => none
      | depth + 1 =>
        match skipBlanks rest with
        | '}' :: rest => some (.object [], rest)
        | rest =>
          (readMembers depth fuel rest).map fun (ms, rest) => (.object (Object.ofList ms), rest)
    | '-' :: rest => readNumber true rest
    | rest => readNumber false rest
termination_by structural fuel => fuel

/-- Items separated by commas, up to the closing bracket. -/
def readItems (depth : Nat) : Nat → List Char → Option (List Json × List Char)
  | 0, _ => none
  | fuel + 1, cs =>
    match readValue depth fuel cs with
    | none => none
    | some (item, rest) =>
      match skipBlanks rest with
      | ',' :: rest => (readItems depth fuel rest).map fun (items, rest) => (item :: items, rest)
      | ']' :: rest => some ([item], rest)
      | _ => none
termination_by structural fuel => fuel

/-- Members separated by commas, up to the closing brace; keys may repeat. -/
def readMembers (depth : Nat) : Nat → List Char → Option (List (String × Json) × List Char)
  | 0, _ => none
  | fuel + 1, cs =>
    match skipBlanks cs with
    | '"' :: rest =>
      match readString rest with
      | none => none
      | some (key, rest) =>
        match skipBlanks rest with
        | ':' :: rest =>
          match readValue depth fuel rest with
          | none => none
          | some (value, rest) =>
            match skipBlanks rest with
            | ',' :: rest =>
              (readMembers depth fuel rest).map fun (ms, rest) => ((String.ofList key, value) :: ms, rest)
            | '}' :: rest => some ([(String.ofList key, value)], rest)
            | _ => none
        | _ => none
    | _ => none
termination_by structural fuel => fuel

end

/-- The value a text spells, with nothing but blanks around it. -/
def read? (cs : List Char) : Option Json :=
  match readValue maxDepth (cs.length + 1) cs with
  | some (j, rest) => if (skipBlanks rest).isEmpty then some j else none
  | none => none

def ofText? (s : String) : Option Json := read? s.toList

end Grimoire.Json
