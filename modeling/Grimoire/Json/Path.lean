import Grimoire.Json.Basic
import Grimoire.Text.Basic
import Grimoire.Decimal.Reading

/-!
# Dotted paths into data

A path is split at its points; each part is a key of an object or an index of an array. The empty
path leads to the value itself.

`lookup?` is `lookup_path`, and `child?` the body of its loop.
-/
namespace Grimoire.Json

/-- One part of a path. -/
def child? (j : Json) (part : List Char) : Option Json :=
  match j with
  | .object members => Object.get? members (String.ofList part)
  | .array items => (Decimal.readWord? 64 part).bind fun i => items[i]?
  | _ => none

/-- The parts of a path, one after another. -/
def follow? (j : Json) : List (List Char) → Option Json
  | [] => some j
  | part :: parts => (j.child? part).bind (·.follow? parts)

def lookup? (j : Json) (path : String) : Option Json :=
  if path.isEmpty then some j else j.follow? (Text.split '.' path.toList)

end Grimoire.Json
