import Grimoire.Text.Basic
import Grimoire.Time.Instant
import Grimoire.Decimal.Reading
import Grimoire.Trigger.ValueSet

/-!
# Cron schedules

Five fields between blanks: minute, hour, day of the month, month, day of the week. A field is a list
of parts, and a part selects a set of values: `*` all of them, `n` one, `a-b` a range, `*/s` and
`a-b/s` every `s`-th value from the start of the range on, and `n/s` the multiples of `s` from `n` on.
A schedule matches an instant when each field selects the instant's value; 7 is Sunday, like 0.

A field is read into a set of bits, part by part. `parse?` has no result where a bit would lie outside of the word
or a loop would not end; there is no such expression (`ends_parse?`), and `parse` gives the schedule or the fault.

| here | there |
| --- | --- |
| `Field`                    | `FieldSpec` and its five constants |
| `readNumber?`, `readValue` | `number` |
| `readPart`, `readField`    | `parse_field` |
| `Fault`                    | the reasons given to `invalid` |
| `Cron`, `parse`            | `CronSchedule`, `CronSchedule::parse` |
| `isDue`                    | `CronSchedule::matches` |
-/
namespace Grimoire.Trigger

namespace Cron

/-! ## Fields -/

/-- A place of the expression and the values it allows. -/
inductive Field
  | minute | hour | dayOfMonth | month | dayOfWeek
deriving DecidableEq, Repr

namespace Field

def name : Field → String
  | minute => "minute"
  | hour => "hour"
  | dayOfMonth => "day-of-month"
  | month => "month"
  | dayOfWeek => "day-of-week"

def least : Field → Nat
  | minute | hour | dayOfWeek => 0
  | dayOfMonth | month => 1

def most : Field → Nat
  | minute => 59
  | hour => 23
  | dayOfMonth => 31
  | month => 12
  | dayOfWeek => 7

end Field

/-- The first fault of an expression; the day of the week is read before the other fields. -/
inductive Fault
  | fieldCount (found : Nat)
  | badStep (text : String) (field : Field)
  | zeroStep (field : Field)
  | notANumber (text : String) (field : Field)
  | outOfRange (value : Nat) (field : Field)
  | emptyRange (range : String) (field : Field)
deriving DecidableEq, Repr

def Fault.message : Fault → String
  | fieldCount found => "expected 5 fields, found " ++ toString found
  | badStep text field => "bad step '" ++ text ++ "' in " ++ field.name
  | zeroStep field => "zero step in " ++ field.name
  | notANumber text field => "'" ++ text ++ "' is not a number in " ++ field.name
  | outOfRange value field =>
    toString value ++ " out of range " ++ toString field.least ++ "-" ++ toString field.most ++ " in "
      ++ field.name
  | emptyRange range field => "empty range " ++ range ++ " in " ++ field.name

/-! ## Parts -/

/-- The numbers of an expression are words of 32 bits. -/
def readNumber? (cs : List Char) : Option Nat := Decimal.readWord? 32 cs

/-- A number within the range of the field. -/
def readValue (field : Field) (cs : List Char) : Except Fault Nat :=
  match readNumber? cs with
  | none => .error (.notANumber (String.ofList cs) field)
  | some v =>
    if v < field.least ∨ field.most < v then .error (.outOfRange v field) else .ok v

/-- `*`, a number, or two numbers in order with a hyphen between them. -/
def readRange (field : Field) (cs : List Char) : Except Fault (Nat × Nat) :=
  if cs = ['*'] then .ok (field.least, field.most)
  else match Text.splitOnce '-' cs with
    | some (a, b) => do
      let first ← readValue field a
      let last ← readValue field b
      if last < first then .error (.emptyRange (String.ofList cs) field) else .ok (first, last)
    | none => (readValue field cs).map fun v => (v, v)

/-- A step is a positive number. -/
def readStep (field : Field) (cs : List Char) : Except Fault Nat :=
  match readNumber? cs with
  | none => .error (.badStep (String.ofList cs) field)
  | some 0 => .error (.zeroStep field)
  | some step => .ok step

/-! ## Fields as sets -/

/-- A result or a fault; neither where the reading would not end well. -/
abbrev Reading (α : Type) : Type := ExceptT Fault Option α

/-- Add the values of a part. -/
def readPart (field : Field) (s : ValueSet) (cs : List Char) : Reading ValueSet := do
  match Text.splitOnce '/' cs with
  | none =>
    let (first, last) ← readRange field cs
    ValueSet.insertEvery? last 1 first s
  | some (range, step) =>
    let step ← readStep field step
    if range = ['*'] ∨ '-' ∈ range then
      let (first, last) ← readRange field range
      ValueSet.insertEvery? last step first s
    else
      let first ← readValue field range
      ValueSet.insertMultiples? first field.most step s

/-- The values of the parts between commas. -/
def readField (field : Field) (cs : List Char) : Reading ValueSet :=
  (Text.split ',' cs).foldlM (readPart field) .empty

end Cron

/-! ## Schedules -/

/-- The text of an expression and the values each field selects. -/
structure Cron where
  source : String
  minutes : ValueSet
  hours : ValueSet
  daysOfMonth : ValueSet
  months : ValueSet
  daysOfWeek : ValueSet
deriving DecidableEq, Repr

namespace Cron

def parse? (expression : String) : Reading Cron :=
  match Text.words Text.isBlank expression.toList with
  | [minute, hour, dayOfMonth, month, dayOfWeek] => do
    let daysOfWeek ← readField .dayOfWeek dayOfWeek
    return {
      source := String.ofList (Text.trim expression.toList)
      minutes := ← readField .minute minute
      hours := ← readField .hour hour
      daysOfMonth := ← readField .dayOfMonth dayOfMonth
      months := ← readField .month month
      daysOfWeek := daysOfWeek.withSunday }
  | fields => throw (.fieldCount fields.length)

/-! ## Every reading ends -/

/-- There is a result or a fault. -/
def Reading.Ends {α : Type} (x : Reading α) : Prop := ∃ r, x.run = some r

theorem Reading.Ends.bind {α β : Type} {x : Reading α} {f : α → Reading β} (hx : x.Ends)
    (hf : ∀ a, x.run = some (.ok a) → (f a).Ends) : (x >>= f).Ends := by
  obtain ⟨r | a, hr⟩ := hx
  · exact ⟨.error r, by rw [ExceptT.run_bind, hr]; rfl⟩
  · obtain ⟨b, hb⟩ := hf a hr
    exact ⟨b, by rw [ExceptT.run_bind, hr]; exact hb⟩

theorem Reading.ends_except_bind {α β : Type} {x : Except Fault α} {f : α → Reading β}
    (hf : ∀ a, x = .ok a → (f a).Ends) : ((liftM x : Reading α) >>= f).Ends :=
  Ends.bind ⟨x, rfl⟩ fun a h => hf a (Option.some.inj h)

theorem Reading.ends_option {α : Type} {x : Option α} {a : α} (h : x = some a) : Ends (liftM x : Reading α) :=
  ⟨.ok a, by rw [h]; rfl⟩

theorem Reading.ends_foldlM {α β : Type} {f : α → β → Reading α} (hf : ∀ a b, (f a b).Ends) (items : List β) :
    ∀ a, (items.foldlM f a).Ends := by
  induction items with
  | nil => exact fun a => ⟨.ok a, rfl⟩
  | cons b items ih => exact fun a => by rw [List.foldlM_cons]; exact (hf a b).bind fun a' _ => ih a'

theorem Field.most_lt (field : Field) : field.most < 64 := by cases field <;> decide

theorem bind_eq_ok {α β : Type} {x : Except Fault α} {f : α → Except Fault β} {b : β} :
    x >>= f = .ok b ↔ ∃ a, x = .ok a ∧ f a = .ok b := by
  cases x with
  | error fault => exact ⟨fun h => (by cases h), fun ⟨_, h, _⟩ => (by cases h)⟩
  | ok a => exact ⟨fun h => ⟨a, rfl, h⟩, fun ⟨_, h, hb⟩ => by cases h; exact hb⟩

theorem le_most_of_readValue {field : Field} {cs : List Char} {v : Nat} (h : readValue field cs = .ok v) :
    v ≤ field.most := by
  unfold readValue at h
  split at h
  · cases h
  · split at h
    · cases h
    · cases h
      omega

theorem le_most_of_readRange {field : Field} {cs : List Char} {first last : Nat}
    (h : readRange field cs = .ok (first, last)) : last ≤ field.most := by
  unfold readRange at h
  split at h
  · cases h
    exact Nat.le_refl _
  · split at h
    · obtain ⟨a, -, h⟩ := bind_eq_ok.1 h
      obtain ⟨b, hb, h⟩ := bind_eq_ok.1 h
      split at h
      · cases h
      · cases h
        exact le_most_of_readValue hb
    · cases hv : readValue field cs with
      | error fault =>
        rw [hv] at h
        cases h
      | ok v =>
        rw [hv] at h
        cases h
        exact le_most_of_readValue hv

theorem pos_of_readStep {field : Field} {cs : List Char} {step : Nat} (h : readStep field cs = .ok step) :
    0 < step := by
  unfold readStep at h
  split at h
  · cases h
  · cases h
  · next hne _ =>
    cases h
    exact Nat.pos_of_ne_zero fun h0 => hne h0

theorem ends_readPart (field : Field) (s : ValueSet) (cs : List Char) : (readPart field s cs).Ends := by
  have hrange (range : List Char) (step : Nat) (hstep : 0 < step) :
      Reading.Ends (do
        let (first, last) ← (liftM (readRange field range) : Reading (Nat × Nat))
        ValueSet.insertEvery? last step first s) := by
    refine Reading.ends_except_bind fun (first, last) h => ?_
    have hlast := Nat.lt_of_le_of_lt (le_most_of_readRange h) field.most_lt
    obtain ⟨s', hs', -⟩ := ValueSet.insertEvery?_adds hlast hstep first s
    exact Reading.ends_option hs'
  unfold readPart
  split
  · exact hrange cs 1 (by decide)
  · next range step _ =>
    refine Reading.ends_except_bind fun step h => ?_
    split
    · exact hrange range step (pos_of_readStep h)
    · refine Reading.ends_except_bind fun first _ => ?_
      obtain ⟨s', hs', -⟩ := ValueSet.insertMultiples?_adds field.most_lt first step s
      exact Reading.ends_option hs'

theorem ends_readField (field : Field) (cs : List Char) : (readField field cs).Ends :=
  Reading.ends_foldlM (fun s part => ends_readPart field s part) _ _

theorem ends_parse? (expression : String) : (parse? expression).Ends := by
  unfold parse?
  split
  · refine (ends_readField _ _).bind fun _ _ => ?_
    refine (ends_readField _ _).bind fun _ _ => ?_
    refine (ends_readField _ _).bind fun _ _ => ?_
    refine (ends_readField _ _).bind fun _ _ => ?_
    refine (ends_readField _ _).bind fun _ _ => ⟨_, rfl⟩
  · exact ⟨_, rfl⟩

/-! ## Reading and matching -/

def parse (expression : String) : Except Fault Cron :=
  (parse? expression).run.get (Option.isSome_iff_exists.2 (ends_parse? expression))

/-- Is the minute of this instant selected? -/
def isDue (c : Cron) (t : Time.Instant) : Bool :=
  c.minutes.contains t.minute && c.hours.contains t.hour && c.daysOfMonth.contains t.date.day
    && c.months.contains t.date.month && c.daysOfWeek.contains t.weekday

end Cron

end Grimoire.Trigger
