import Grimoire.Decimal.Dyadic

/-!
# Decimal numerals and the doubles they denote

A `Numeral` is a sign, whole digits, an optional fraction and an optional power of ten. It has two
values. `Numeral.nearest` is the double nearest to the number written. `Numeral.scaled` gathers as
many leading digits as fit 64 bits and scales them once by a power of ten, which may end one place
beside the nearest double; it refuses numbers beyond the largest one.

`Numeral.nearest` is the reading of text in `coerce_to_f64`, `Numeral.scaled` that of a number in data.
-/
namespace Grimoire.Decimal

/-- The parts of a decimal numeral; digit lists hold values below ten. -/
structure Numeral where
  negative : Bool
  whole : List Nat
  fraction : List Nat := []
  /-- Is the power of ten negative, and its digits. -/
  power : Option (Bool × List Nat) := none
deriving DecidableEq, Repr

/-! ## Digits -/

def digit? (c : Char) : Option Nat :=
  if c.isDigit then some (c.toNat - '0'.toNat) else none

/-- The longest run of decimal digits at the front, and what follows it. -/
def takeDigits : List Char → List Nat × List Char
  | [] => ([], [])
  | c :: cs =>
    match digit? c with
    | some d => let (ds, rest) := takeDigits cs; (d :: ds, rest)
    | none => ([], c :: cs)

def ofDigits (ds : List Nat) : Nat := ds.foldl (fun n d => 10 * n + d) 0

/-- The power of ten as a whole number. -/
def Numeral.exponent (n : Numeral) : Int :=
  match n.power with
  | none => 0
  | some (negative, ds) => if negative then -(ofDigits ds : Int) else ofDigits ds

/-! ## The nearest double -/

def infinity : Float := 1.0 / 0.0

/-- The double nearest to `n · 10 ^ e`, and an infinity beyond the largest. Numbers far outside the
range of doubles are settled by their length, without computing the power of ten. -/
def nearest (n : Nat) (e : Int) : Float :=
  let magnitude := (n.log2 / 4 : Nat) + e
  if n = 0 then 0.0
  else if magnitude > 400 then infinity
  else if e + (n.log2 / 3 + 1 : Nat) < -400 then 0.0
  else Float.ofScientific n (e < 0) e.natAbs

def signed (negative : Bool) (x : Float) : Float := if negative then -x else x

/-- The double nearest to the number written. -/
def Numeral.nearest (n : Numeral) : Float :=
  signed n.negative
    (Decimal.nearest (ofDigits (n.whole ++ n.fraction)) (n.exponent - n.fraction.length))

/-! ## The scaled double -/

/-- Append digits to `acc` while the result stays below `2 ^ 64`; also how many digits were left. -/
def gather (acc : Nat) : List Nat → Nat × Nat
  | [] => (acc, 0)
  | d :: ds => if 10 * acc + d < Nat.pow 2 64 then gather (10 * acc + d) ds else (acc, ds.length + 1)

/-- Scale by one power of ten; a negative power beyond 308 goes in steps of `10 ^ 308`. -/
def scale (x : Float) (e : Int) : Nat → Option Float
  | 0 => some x
  | bound + 1 =>
    if e.natAbs ≤ 308 then
      let power := Float.ofScientific 1 false e.natAbs
      if 0 ≤ e then if isFinite (x * power) then some (x * power) else none
      else some (x / power)
    else if x == 0.0 then some x
    else if 0 ≤ e then none
    else scale (x / 1e308) (e + 308) bound

/-- Leading digits that fit 64 bits, converted and scaled in double arithmetic. -/
def Numeral.scaled (n : Numeral) : Option Float := do
  let (head, skipped) := gather 0 n.whole
  let (significand, left) := gather head n.fraction
  let shift : Int := skipped - (n.fraction.length - left : Nat)
  let x ← scale (Float.ofNat significand) (shift + n.exponent) 10
  return signed n.negative x

end Grimoire.Decimal
