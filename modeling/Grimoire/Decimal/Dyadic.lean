/-!
# Doubles as exact dyadic numbers

A finite double is `± mantissa · 2 ^ exponent` with natural mantissa. Everything the project says
about the decimal text of a double, or about its whole part, is said of these two numbers, so it
is exact arithmetic and never rounds.

`whole?` is the whole number that `format_number` takes a double for when it has no fraction.
-/
namespace Grimoire.Decimal

/-- The number `± mantissa · 2 ^ exponent`. -/
structure Dyadic where
  negative : Bool
  mantissa : Nat
  exponent : Int
deriving DecidableEq, Repr

/-- What the 64 bits of a double stand for. -/
inductive Shape
  | finite (value : Dyadic)
  | infinite (negative : Bool)
  | notANumber
deriving DecidableEq, Repr

/-- One sign bit, eleven exponent bits, 52 fraction bits; exponent field 0 is subnormal and 2047 is
an infinity or no number. -/
def Shape.ofBits (bits : Nat) : Shape :=
  let negative := bits / Nat.pow 2 63 % 2 == 1
  let field : Nat := bits / Nat.pow 2 52 % Nat.pow 2 11
  let fraction : Nat := bits % Nat.pow 2 52
  if field = 2047 then if fraction = 0 then .infinite negative else .notANumber
  else if field = 0 then .finite ⟨negative, fraction, -1074⟩
  else .finite ⟨negative, Nat.pow 2 52 + fraction, (field : Int) - 1075⟩

def Shape.ofFloat (x : Float) : Shape := .ofBits x.toBits.toNat

/-- Not an infinity and not the absence of a number. -/
def isFinite (x : Float) : Bool :=
  match Shape.ofFloat x with
  | .finite _ => true
  | _ => false

/-- The signed whole number a dyadic denotes, if it has no fraction. -/
def Dyadic.whole? (d : Dyadic) : Option Int :=
  let sign : Int := if d.negative then -1 else 1
  if 0 ≤ d.exponent then some (sign * (d.mantissa * Nat.pow 2 d.exponent.toNat : Nat))
  else
    let scale := Nat.pow 2 (-d.exponent).toNat
    if d.mantissa % scale = 0 then some (sign * (d.mantissa / scale : Nat)) else none

/-- The whole number a double denotes, if it denotes one. -/
def whole? (x : Float) : Option Int :=
  match Shape.ofFloat x with
  | .finite d => d.whole?
  | _ => none

/-- The double nearest to a whole number. -/
def ofInt (n : Int) : Float :=
  if n < 0 then -(Float.ofNat n.natAbs) else Float.ofNat n.natAbs

end Grimoire.Decimal
