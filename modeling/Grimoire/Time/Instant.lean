import Grimoire.Time.Calendar
import Grimoire.Decimal.Shortest
import Grimoire.Decimal.Numeral

/-!
# Instants

An instant is a second since 1970-01-01T00:00:00Z and nanoseconds in it; in a leap second the
nanoseconds go on beyond a thousand million. `Instant.text` writes an instant in universal time with
0, 3, 6 or 9 fractional digits, the fewest that suffice, and `Instant.ofText?` reads a date, a time
and an offset.

| here | there |
| --- | --- |
| `Instant`                   | `Timestamp` |
| `millisSince`               | `num_milliseconds` of a difference, in `elapsed_ms` and in the intervals of `Matcher` |
| `ofText?`                   | `parse_from_rfc3339`, in `last_run` |
| `hour`, `minute`, `weekday` | what `CronSchedule::matches` reads of an instant |
-/
namespace Grimoire.Time

structure Instant where
  seconds : Int
  nanos : Nat
deriving DecidableEq, Repr, Inhabited

namespace Instant

def epoch : Instant := ⟨0, 0⟩

/-! ## Parts -/

def days (t : Instant) : Int := t.seconds / 86400

def secondOfDay (t : Instant) : Nat := (t.seconds % 86400).toNat

def date (t : Instant) : Date := .ofDays t.days

def hour (t : Instant) : Nat := t.secondOfDay / 3600

def minute (t : Instant) : Nat := t.secondOfDay / 60 % 60

def second (t : Instant) : Nat := t.secondOfDay % 60

def weekday (t : Instant) : Nat := Time.weekday t.days

/-! ## Differences -/

/-- Nanoseconds from `s` to `t`. A leap second counts when the times of day lie on either side of it. -/
def nanosSince (t s : Instant) : Int :=
  let leap : Int :=
    if t.secondOfDay > s.secondOfDay then (if s.nanos ≥ 1000000000 then 1 else 0)
    else if t.secondOfDay < s.secondOfDay then (if t.nanos ≥ 1000000000 then -1 else 0)
    else 0
  (t.seconds - s.seconds + leap) * 1000000000 + ((t.nanos : Int) - s.nanos)

/-- Whole milliseconds from `s` to `t`, cut toward zero. -/
def millisSince (t s : Instant) : Int := (t.nanosSince s).tdiv 1000000

/-- Instants lie between the starts of these years. -/
def minYear : Int := -262143

def endYear : Int := 262143

/-- The instant so many milliseconds after the epoch, if its year is in range. -/
def ofMillis? (ms : Int) : Option Instant :=
  let t : Instant := ⟨ms / 1000, (ms % 1000).toNat * 1000000⟩
  if Date.toDays ⟨minYear, 1, 1⟩ ≤ t.days ∧ t.days < Date.toDays ⟨endYear, 1, 1⟩ then some t else none

/-- Later by so many milliseconds. -/
def addMillis (t : Instant) (ms : Nat) : Instant :=
  let nanos : Nat := t.nanos + ms % 1000 * 1000000
  ⟨t.seconds + (ms / 1000 + nanos / 1000000000 : Nat), nanos % 1000000000⟩

/-! ## Text -/

/-- A numeral with zeros in front up to the given width. -/
def padded (width n : Nat) : List Char :=
  let ds := Decimal.numeral n
  List.replicate (width - ds.length) '0' ++ ds

/-- Four digits; years outside 0 to 9999 have a sign. -/
def yearText (year : Int) : List Char :=
  if 0 ≤ year ∧ year ≤ 9999 then padded 4 year.toNat
  else (if year < 0 then '-' else '+') :: padded 4 year.natAbs

/-- No fraction, or thousandths, millionths or nanoseconds. -/
def fractionText (nanos : Nat) : List Char :=
  if nanos = 0 then []
  else if nanos % 1000000 = 0 then '.' :: padded 3 (nanos / 1000000)
  else if nanos % 1000 = 0 then '.' :: padded 6 (nanos / 1000)
  else '.' :: padded 9 nanos

def chars (t : Instant) : List Char :=
  let d := t.date
  yearText d.year ++ '-' :: padded 2 d.month ++ '-' :: padded 2 d.day
    ++ 'T' :: padded 2 t.hour ++ ':' :: padded 2 t.minute
    ++ ':' :: padded 2 (t.second + t.nanos / 1000000000) ++ fractionText (t.nanos % 1000000000) ++ ['Z']

def text (t : Instant) : String := String.ofList t.chars

/-! ## Reading -/

/-- Exactly `count` digits at the front, as a number. -/
def readDigits : (count : Nat) → List Char → Option (Nat × List Char)
  | 0, cs => some (0, cs)
  | count + 1, c :: cs => do
    let d ← Decimal.digit? c
    let (n, rest) ← readDigits count cs
    return (d * Nat.pow 10 count + n, rest)
  | _, [] => none

def readSign (allowed : List Char) : List Char → Option (Char × List Char)
  | c :: cs => if allowed.contains c then some (c, cs) else none
  | [] => none

/-- The nanoseconds of a fraction; digits beyond the ninth are dropped. -/
def readFraction : List Char → Option (Nat × List Char)
  | '.' :: cs =>
    match Decimal.takeDigits cs with
    | ([], _) => none
    | (ds, rest) => some (Decimal.ofDigits (ds.take 9) * Nat.pow 10 (9 - ds.length), rest)
  | cs => some (0, cs)

/-- The offset from universal time in seconds: `Z`, or a sign, hours and minutes, below a day. -/
def readOffset (cs : List Char) : Option (Int × List Char) :=
  match cs with
  | 'Z' :: rest | 'z' :: rest => some (0, rest)
  | _ => do
    let (sign, cs) ← readSign ['+', '-', '\u2212'] cs
    let (hours, cs) ← readDigits 2 cs
    let (_, cs) ← readSign [':'] cs
    let (minutes, cs) ← readDigits 2 cs
    if minutes < 60 ∧ hours * 3600 + minutes * 60 < 86400 then
      let offset : Int := hours * 3600 + minutes * 60
      return (if sign = '+' then offset else -offset, cs)
    else none

/-- A date, `T` or a blank, a time with an optional fraction, and an offset. -/
def read? (cs : List Char) : Option Instant := do
  let (year, cs) ← readDigits 4 cs
  let (_, cs) ← readSign ['-'] cs
  let (month, cs) ← readDigits 2 cs
  let (_, cs) ← readSign ['-'] cs
  let (day, cs) ← readDigits 2 cs
  let (_, cs) ← readSign ['T', 't', ' '] cs
  let (hour, cs) ← readDigits 2 cs
  let (_, cs) ← readSign [':'] cs
  let (minute, cs) ← readDigits 2 cs
  let (_, cs) ← readSign [':'] cs
  let (second, cs) ← readDigits 2 cs
  let (nanos, cs) ← readFraction cs
  let (offset, cs) ← readOffset cs
  let date : Date := ⟨year, month, day⟩
  if cs.isEmpty ∧ date.isValid ∧ hour < 24 ∧ minute < 60 ∧ second ≤ 60 then
    let leap := if second = 60 then 1 else 0
    let ofDay : Nat := hour * 3600 + minute * 60 + (second - leap)
    return ⟨date.toDays * 86400 + ofDay - offset, nanos + leap * 1000000000⟩
  else none

def ofText? (s : String) : Option Instant := read? s.toList

end Instant

end Grimoire.Time
