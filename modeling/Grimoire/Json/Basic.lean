import Grimoire.Decimal.Dyadic

/-!
# Data values

All data that passes through the library (arguments, literals of the language, provider payloads,
definitions) is a `Json`. Whole numbers and doubles are different values, and an object keeps the
order in which its keys were first inserted: `Object.insert` of a key that is present replaces its
value in place, and `Object.remove` fills the gap with the last entry.

`Json` is `StructuredValue` and `Object` is `ValueMap`, a map that keeps the order of its keys. `Number.same` is
`==` on numbers.
-/
namespace Grimoire

/-- A whole number that fits a signed or an unsigned word of 64 bits. -/
structure Whole where
  val : Int
  lower : -9223372036854775808 ≤ val
  upper : val < 18446744073709551616
deriving DecidableEq

/-- A whole number as such, or a double. -/
inductive Number
  | whole (n : Whole)
  | float (x : Float)

inductive Json
  | null
  | bool (value : Bool)
  | number (value : Number)
  | string (text : String)
  | array (items : List Json)
  | object (members : List (String × Json))
deriving Inhabited

/-- The members of an object, in the order of first insertion. -/
abbrev Object := List (String × Json)

/-! ## Numbers -/

def Whole.ofInt? (n : Int) : Option Whole :=
  if h : -9223372036854775808 ≤ n ∧ n < 18446744073709551616 then some ⟨n, h.1, h.2⟩ else none

def Whole.ofUInt64 (n : UInt64) : Whole :=
  ⟨n.toNat, by omega, by have := n.toNat_lt; omega⟩

/-- The nearest number that fits the word, for counts that a word holds anyway. -/
def Whole.ofNat (n : Nat) : Whole :=
  ⟨min n 18446744073709551615, by omega, by omega⟩

namespace Number

/-- The double nearest to the number. -/
def toFloat : Number → Float
  | .whole n => Decimal.ofInt n.val
  | .float x => x

/-- Equal as values: a whole number and a double differ, and the two zeros of a double agree. -/
def same : Number → Number → Bool
  | .whole a, .whole b => a == b
  | .float a, .float b => a == b
  | _, _ => false

end Number

namespace Json

def ofNat (n : Nat) : Json := .number (.whole (.ofNat n))

def ofUInt64 (n : UInt64) : Json := .number (.whole (.ofUInt64 n))

/-- A double as data; infinities and the absence of a number have no form and become `null`. -/
def ofFloat (x : Float) : Json := if Decimal.isFinite x then .number (.float x) else .null

def strings (texts : List String) : Json := .array (texts.map .string)

/-- A missing value is `null`. -/
def ofOption (value? : Option Json) : Json := value?.getD .null

def isNull : Json → Bool
  | .null => true
  | _ => false

end Json

/-! ## Objects -/

namespace Object

def get? (o : Object) (key : String) : Option Json := (o.find? (·.1 == key)).map (·.2)

def contains (o : Object) (key : String) : Bool := o.any (·.1 == key)

def keys (o : Object) : List String := o.map (·.1)

/-- A key that is present keeps its place. -/
def insert : Object → String → Json → Object
  | [], key, value => [(key, value)]
  | (k, v) :: rest, key, value =>
    if k == key then (k, value) :: rest else (k, v) :: insert rest key value

/-- Insert the members one after another. -/
def ofList (members : List (String × Json)) : Object :=
  members.foldl (fun o m => insert o m.1 m.2) []

/-- The last entry moves into the place of the removed one. -/
def remove (o : Object) (key : String) : Object :=
  match o.findIdx? (·.1 == key), o.getLast? with
  | some i, some last => if i + 1 = o.length then o.dropLast else (o.set i last).dropLast
  | _, _ => o

end Object

/-! ## Equality as data -/

mutual

/-- Equal as data: the order of an object's members does not matter. -/
def Json.same : Json → Json → Bool
  | .null, .null => true
  | .bool a, .bool b => a == b
  | .number a, .number b => a.same b
  | .string a, .string b => a == b
  | .array as, .array bs => Json.sameItems as bs
  | .object as, .object bs => as.length == bs.length && Json.sameMembers as bs
  | _, _ => false
termination_by structural a => a

def Json.sameItems : List Json → List Json → Bool
  | [], [] => true
  | a :: as, b :: bs => a.same b && Json.sameItems as bs
  | _, _ => false
termination_by structural as => as

/-- Each member is found in the other object with the same value. -/
def Json.sameMembers : List (String × Json) → Object → Bool
  | [], _ => true
  | (key, a) :: as, bs =>
    (match Object.get? bs key with
      | some b => a.same b
      | none => false) && Json.sameMembers as bs
termination_by structural as => as

end

end Grimoire
