import Std.Data.TreeMap

/-!
# Catalogs

A catalog maps names to values, and lists them in the order in which the names first came. An index holds
the values, and the order holds the names alone: a name that comes again gets another value and keeps its
place.

| here | there |
| --- | --- |
| `Catalog` | `definitions` and `order` of `WorkflowOrchestrator` |
| `put`     | `WorkflowOrchestrator::register_workflow` |
| `get?`    | `WorkflowOrchestrator::get_workflow` |
| `values`  | `WorkflowOrchestrator::list_workflows` |
-/
namespace Grimoire

structure Catalog (α : Type) where
  /-- The value of each name. -/
  index : Std.TreeMap String α := {}
  /-- The names in the order of their first insertion. -/
  order : Array String := #[]

namespace Catalog

variable {α : Type}

def empty : Catalog α := {}

def get? (c : Catalog α) (name : String) : Option α := c.index[name]?

/-- Insert or replace; a new name comes last. -/
def put (c : Catalog α) (name : String) (value : α) : Catalog α where
  index := c.index.insert name value
  order := if c.index.contains name then c.order else c.order.push name

/-- The names in order, each with its value. -/
def toList (c : Catalog α) : List (String × α) :=
  c.order.toList.filterMap fun name => (c.get? name).map (name, ·)

/-- The values in the order of their names as texts. -/
def values (c : Catalog α) : List α := c.index.toList.map (·.2)

def size (c : Catalog α) : Nat := c.index.size

end Catalog

end Grimoire
