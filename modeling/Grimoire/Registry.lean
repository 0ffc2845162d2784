import Std.Data.TreeMap

/-!
# Registries

A registry maps names to values and lists them in the order in which the names first came. The
entries stand in an array, and an index maps each name to the place of its entry: a name that comes
again replaces its entry in place.

| here | there |
| --- | --- |
| `Registry`                | `NamedRegistry` |
| `insert`                  | `NamedRegistry::insert` |
| `get?`, `contains`        | `NamedRegistry::get`, `NamedRegistry::contains` |
| `names`, `toList`, `size` | `NamedRegistry::names`, `NamedRegistry::iter`, `NamedRegistry::len` |
-/
namespace Grimoire

structure Registry (α : Type) where
  entries : Array (String × α) := #[]
  /-- The place of the entry of each name. -/
  index : Std.TreeMap String Nat := {}

namespace Registry

variable {α : Type}

def empty : Registry α := {}

def get? (r : Registry α) (name : String) : Option α := do
  let place ← r.index[name]?
  return (← r.entries[place]?).2

def contains (r : Registry α) (name : String) : Bool := r.index.contains name

/-- Insert or replace; the value that was replaced, if there was one. -/
def insert (r : Registry α) (name : String) (value : α) : Option α × Registry α :=
  match r.index[name]? with
  | some place =>
    (r.entries[place]?.map (·.2), { r with entries := r.entries.setIfInBounds place (name, value) })
  | none =>
    (none, { entries := r.entries.push (name, value), index := r.index.insert name r.entries.size })

/-- The registry with the value inserted. -/
def put (r : Registry α) (name : String) (value : α) : Registry α := (r.insert name value).2

/-- Entries one after another. -/
def ofList (entries : List (String × α)) : Registry α :=
  entries.foldl (fun r (name, value) => r.put name value) empty

def toList (r : Registry α) : List (String × α) := r.entries.toList

/-- The names in the order of their first insertion. -/
def names (r : Registry α) : List String := r.toList.map (·.1)

def size (r : Registry α) : Nat := r.entries.size

end Registry

end Grimoire
