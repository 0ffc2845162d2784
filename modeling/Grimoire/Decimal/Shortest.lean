import Grimoire.Decimal.Dyadic

/-!
# The shortest decimal text of a double

`Digits.ofDyadic` finds the fewest decimal digits that lie in the interval of numbers rounding to
the given double, and among those the ones nearest to it. `Layout` says how digits and their power
of ten become text; the two layouts of the project are plain values of it.

`Layout.json` writes the numbers of data, `Layout.plain` those of `format_number` and of `ConfigError`.
-/
namespace Grimoire.Decimal

/-- The decimal number `digits · 10 ^ exponent`. -/
structure Digits where
  digits : Nat
  exponent : Int
deriving DecidableEq, Repr

/-! ## The interval of a double -/

/-- A positive double and the ends of its rounding interval as fractions over one denominator. The
ends belong to the interval when the mantissa is even. -/
structure Interval where
  low : Nat
  value : Nat
  high : Nat
  denominator : Nat
  closed : Bool

/-- Half a unit on each side, a quarter below a power of two, where the doubles are twice as dense. -/
def Interval.ofDyadic (d : Dyadic) : Interval :=
  let gap := if d.mantissa = Nat.pow 2 52 ∧ d.exponent > -1074 then 1 else 2
  let up := Nat.pow 2 (d.exponent - 2).toNat
  { low := (4 * d.mantissa - gap) * up
    value := 4 * d.mantissa * up
    high := (4 * d.mantissa + 2) * up
    denominator := Nat.pow 2 (2 - d.exponent).toNat
    closed := d.mantissa % 2 == 0 }

/-- Does `n · unit` lie inside, where `unit` is the fraction `num / den`? -/
def Interval.contains (i : Interval) (n num den : Nat) : Bool :=
  let x := n * num * i.denominator
  if i.closed then i.low * den ≤ x && x ≤ i.high * den else i.low * den < x && x < i.high * den

/-! ## Choosing the digits -/

/-- How many decimal digits a natural number has. -/
def numeralLength (n : Nat) : Nat := (Nat.toDigits 10 n).length

/-- The least `j ≤ bound` with `num · 10 ^ j ≥ den`. -/
def leadingZeros (num den : Nat) : Nat → Nat
  | 0 => 0
  | bound + 1 => if num ≥ den then 0 else 1 + leadingZeros (num * 10) den bound

/-- The position of the decimal point: the value lies in `[10 ^ (p - 1), 10 ^ p)`. -/
def Interval.point (i : Interval) : Int :=
  if i.value ≥ i.denominator then numeralLength (i.value / i.denominator)
  else 1 - (leadingZeros i.value i.denominator 400 : Int)

/-- The neighbour of the value on the grid of `10 ^ e` that lies in the interval; of two the nearer,
of two equally near the even one. -/
def Interval.onGrid? (i : Interval) (e : Int) : Option Nat :=
  let num := Nat.pow 10 e.toNat
  let den := Nat.pow 10 (-e).toNat
  let unit := num * i.denominator
  let below := i.value * den / unit
  let rest := i.value * den % unit
  match i.contains below num den, i.contains (below + 1) num den with
  | true, true =>
    if 2 * rest < unit || (2 * rest == unit && below % 2 == 0) then some below else some (below + 1)
  | true, false => some below
  | false, true => some (below + 1)
  | false, false => none

/-- The first grid with a point in the interval, `count` digits and then more. -/
def Interval.search (i : Interval) (point : Int) : Nat → Nat → Digits
  | 0, count => ⟨i.value / i.denominator, point - count⟩
  | more + 1, count =>
    match i.onGrid? (point - count) with
    | some n => ⟨n, point - count⟩
    | none => i.search point more (count + 1)

/-- Drop the zeros at the end of the digits. -/
def Digits.trim (digits : Nat) (exponent : Int) : Nat → Digits
  | 0 => ⟨digits, exponent⟩
  | bound + 1 =>
    if digits ≠ 0 ∧ digits % 10 = 0 then Digits.trim (digits / 10) (exponent + 1) bound
    else ⟨digits, exponent⟩

/-- The shortest digits that read back as this double; seventeen always do. -/
def Digits.ofDyadic (d : Dyadic) : Digits :=
  if d.mantissa = 0 then ⟨0, 0⟩
  else
    let i := Interval.ofDyadic d
    let found := i.search i.point 18 1
    Digits.trim found.digits found.exponent 20

/-! ## Text -/

/-- How digits are written: positionally when the decimal point falls in the window, else with a
power of ten. -/
structure Layout where
  /-- Positional when `least < point ≤ most`; `none` is always positional. -/
  window : Option (Int × Int)
  /-- Written after a number that has no fraction. -/
  wholeMark : List Char

/-- `1.0`, `0.00001`, `1e-6`, `1000000000000000.0`, `1e+16`. -/
def Layout.json : Layout := ⟨some (-5, 16), ['.', '0']⟩

/-- `1`, `0.000001`, `10000000000000000000000`. -/
def Layout.plain : Layout := ⟨none, []⟩

def Layout.isPositional (l : Layout) (point : Int) : Bool :=
  match l.window with
  | none => true
  | some (least, most) => least < point && point ≤ most

/-- The decimal numeral of a natural number. -/
def numeral (n : Nat) : List Char := Nat.toDigits 10 n

/-- The decimal numeral of a whole number, `-` before a negative one. -/
def numeralInt (n : Int) : List Char :=
  if n < 0 then '-' :: numeral n.natAbs else numeral n.natAbs

/-- Digits with the decimal point `point` places after the first of them. -/
def Layout.positional (l : Layout) (ds : List Char) (point : Int) : List Char :=
  if point ≤ 0 then '0' :: '.' :: (List.replicate (-point).toNat '0' ++ ds)
  else if ds.length ≤ point.toNat then ds ++ List.replicate (point.toNat - ds.length) '0' ++ l.wholeMark
  else ds.take point.toNat ++ '.' :: ds.drop point.toNat

/-- One digit, a point and the others if there are any, and the power of ten with its sign. -/
def scientific (ds : List Char) (power : Int) : List Char :=
  let sign := if power < 0 then '-' else '+'
  let tail := 'e' :: sign :: numeral power.natAbs
  match ds with
  | [] => tail
  | [d] => d :: tail
  | d :: more => d :: '.' :: (more ++ tail)

def Layout.writeDigits (l : Layout) (d : Digits) : List Char :=
  if d.digits = 0 then '0' :: l.wholeMark
  else
    let ds := numeral d.digits
    let point : Int := ds.length + d.exponent
    if l.isPositional point then l.positional ds point else scientific ds (point - 1)

/-- The text of a double; zero keeps its sign. -/
def Layout.write (l : Layout) (x : Float) : List Char :=
  match Shape.ofFloat x with
  | .notANumber => ['N', 'a', 'N']
  | .infinite negative => (if negative then ['-'] else []) ++ ['i', 'n', 'f']
  | .finite d => (if d.negative then ['-'] else []) ++ l.writeDigits (Digits.ofDyadic d)

end Grimoire.Decimal
