import Grimoire.Json.Basic

/-!
# Reading records from data

A record is read from an object, by the names of its fields, or from a list, by their places. Members
that no field asks for are ignored, items beyond the last field are not. A reader returns `none` when
the data does not have its form.

The readers of the derived stored forms: `required`, `defaulted` and `optional` are a field without a
default, one with `default`, and one of an `Option` type.
-/
namespace Grimoire

namespace Json

/-! ## Plain values -/

def asString? : Json → Option String
  | .string s => some s
  | _ => none

def asBool? : Json → Option Bool
  | .bool b => some b
  | _ => none

/-- An unsigned whole number below `bound`; a double is none, even without a fraction. -/
def asNat? (bound : Nat) : Json → Option Nat
  | .number (.whole n) => if 0 ≤ n.val ∧ n.val < bound then some n.val.toNat else none
  | _ => none

/-- A number; a whole number gives the nearest double. -/
def asFloat? : Json → Option Float
  | .number n => some n.toFloat
  | _ => none

def asObject? : Json → Option Object
  | .object members => some members
  | _ => none

def asList? {α : Type} (item? : Json → Option α) : Json → Option (List α)
  | .array items => items.mapM item?
  | _ => none

/-- `null` stands for a missing value. -/
def asOption? {α : Type} (value? : Json → Option α) : Json → Option (Option α)
  | .null => some none
  | j => (value? j).map some

/-- The name of an alternative without data: the name itself, or an object that maps it to `null`. -/
def asName? : Json → Option String
  | .string s => some s
  | .object [(name, .null)] => some name
  | _ => none

/-- An alternative with data: an object that maps the name to the data. -/
def asAlternative? : Json → Option (String × Json)
  | .object [(name, data)] => some (name, data)
  | _ => none

end Json

/-! ## Records -/

/-- Where the fields of a record are found. -/
inductive Record
  | named (members : Object)
  | listed (items : List Json)

namespace Record

/-- A record of at most `size` fields. -/
def of? (size : Nat) : Json → Option Record
  | .object members => some (named members)
  | .array items => if items.length ≤ size then some (listed items) else none
  | _ => none

/-- A record whose alternative is named by the member `tag`, or by the first item. -/
def tagged? (tag : String) : Json → Option (String × Record)
  | .object members => do
    let name ← (← Object.get? members tag).asString?
    return (name, named members)
  | .array (.string name :: items) => some (name, listed items)
  | _ => none

/-- The record as data again, for a type that is read as a whole. -/
def data : Record → Json
  | named members => .object members
  | listed items => .array items

/-- The data of the field with this place and name. -/
def find? (r : Record) (place : Nat) (name : String) : Option Json :=
  match r with
  | named members => Object.get? members name
  | listed items => items[place]?

/-- A field that must be present. -/
def required {α : Type} (r : Record) (place : Nat) (name : String) (value? : Json → Option α) :
    Option α := (r.find? place name).bind value?

/-- A field that has a default. -/
def defaulted {α : Type} (r : Record) (place : Nat) (name : String) (value? : Json → Option α)
    (default : α) : Option α :=
  match r.find? place name with
  | some j => value? j
  | none => some default

/-- A field that may be missing or `null`; a list must have an item for it. -/
def optional {α : Type} (r : Record) (place : Nat) (name : String) (value? : Json → Option α) :
    Option (Option α) :=
  match r.find? place name, r with
  | some j, _ => j.asOption? value?
  | none, named _ => some none
  | none, listed _ => none

end Record

end Grimoire
