import Grimoire.Trigger.Error
import Grimoire.Json.Record
import Grimoire.Json.Path
import Grimoire.Json.Coercion
import Grimoire.Trigger.Regex

/-!
# Conditions on a context

A condition compares the value at a path with a fixed value, and an expression combines conditions.
An expression can be evaluated as it stands, where a pattern that is not well formed matches nothing,
or be compiled first, which refuses such a pattern and reads every pattern once.

| here | there |
| --- | --- |
| `Operator`, `Condition`                   | `ConditionOperator`, `FieldCondition` |
| `sameValue`, `compareNumbers`             | `same_value`, `compare` |
| `Condition.pattern`, `Condition.validate` | `FieldCondition::compile_regex`, `FieldCondition::validate` |
| `Condition.holdsWith`, `Condition.holds`  | `FieldCondition::evaluate_with`, `FieldCondition::evaluate` |
| `Expression`                              | `ConditionExpr`, with `validate` and `evaluate` |
| `CompiledCondition`, `CompiledExpression` | `CompiledCondition`, `CompiledExpr`, with `compile` and `evaluate` |

The engine that reads patterns is any `RegexEngine`.
-/
namespace Grimoire.Trigger

/-! ## Conditions -/

inductive Operator
  | equals | notEquals
  /-- The text of the value found contains the text of the fixed one. -/
  | contains
  /-- Comparisons of numbers, false unless both sides are numbers. -/
  | greaterThan | lessThan
  /-- Is there a value other than null? -/
  | exists
  /-- The text of the value found matches a pattern. -/
  | regex
deriving DecidableEq, Repr

/-- A comparison of the value at a path. -/
structure Condition where
  field : String
  operator : Operator
  value : Json := .null

/-- Equal values, where a whole number equals a double of the same size. -/
def sameValue (a b : Json) : Bool :=
  match a, b with
  | .number m, .number n => m.toFloat == n.toFloat
  | _, _ => a.same b

/-- A comparison of two values as numbers. -/
def compareNumbers (relation : Float → Float → Bool) (a b : Json) : Bool :=
  match a.coerceNumber?, b.coerceNumber? with
  | some x, some y => relation x y
  | _, _ => false

section
variable [RegexEngine]

namespace Condition

/-- The text of the fixed value, as a pattern. -/
def patternText (c : Condition) : String := c.value.coerceText

/-- The pattern of a condition that has one. -/
def pattern (c : Condition) : Except TriggerError (Option Regex) :=
  if c.operator = .regex then
    match RegexEngine.compile false c.patternText with
    | .ok regex => .ok (some regex)
    | .error reason => .error (.invalidPattern c.patternText reason)
  else .ok none

def validate (c : Condition) : Except TriggerError Unit := c.pattern.map fun _ => ()

/-- The comparison, given the pattern if there is one. -/
def holdsWith (c : Condition) (pattern? : Option Regex) (context : Json) : Bool :=
  let found? := (context.lookup? c.field).filter (!·.isNull)
  let found := found?.getD .null
  match c.operator with
  | .equals => sameValue found c.value
  | .notEquals => !sameValue found c.value
  | .contains => Text.occursIn c.value.coerceChars found.coerceChars
  | .greaterThan => compareNumbers (fun x y => y < x) found c.value
  | .lessThan => compareNumbers (fun x y => x < y) found c.value
  | .exists => found?.isSome
  | .regex => pattern?.any (·.isMatch found.coerceText)

/-- The comparison; a pattern that is not well formed matches nothing. -/
def holds (c : Condition) (context : Json) : Bool :=
  match c.pattern with
  | .ok pattern? => c.holdsWith pattern? context
  | .error _ => false

end Condition

/-! ## Expressions -/

inductive Expression
  | condition (c : Condition)
  /-- Every operand holds. -/
  | all (operands : List Expression)
  /-- Some operand holds, or there is none. -/
  | any (operands : List Expression)
  | not (operand : Expression)

namespace Expression

mutual

/-- The first pattern from the left that is not well formed. -/
def validate : Expression → Except TriggerError Unit
  | condition c => c.validate
  | all operands | any operands => validateAll operands
  | not operand => operand.validate
termination_by structural e => e

def validateAll : List Expression → Except TriggerError Unit
  | [] => .ok ()
  | e :: es =>
    match e.validate with
    | .ok _ => validateAll es
    | .error fault => .error fault
termination_by structural es => es

end

mutual

def holds (context : Json) : Expression → Bool
  | condition c => c.holds context
  | all operands => allHold context operands
  | any operands => operands.isEmpty || anyHolds context operands
  | not operand => !operand.holds context
termination_by structural e => e

def allHold (context : Json) : List Expression → Bool
  | [] => true
  | e :: es => e.holds context && allHold context es
termination_by structural es => es

def anyHolds (context : Json) : List Expression → Bool
  | [] => false
  | e :: es => e.holds context || anyHolds context es
termination_by structural es => es

end

end Expression

end

/-! ## Compiled expressions -/

/-- A condition with its pattern read. -/
structure CompiledCondition where
  condition : Condition
  pattern? : Option Regex

def CompiledCondition.holds (c : CompiledCondition) (context : Json) : Bool :=
  c.condition.holdsWith c.pattern? context

def Condition.compile [RegexEngine] (c : Condition) : Except TriggerError CompiledCondition :=
  c.pattern.map fun pattern? => ⟨c, pattern?⟩

inductive CompiledExpression
  | condition (c : CompiledCondition)
  | all (operands : List CompiledExpression)
  | any (operands : List CompiledExpression)
  | not (operand : CompiledExpression)

section
variable [RegexEngine]

mutual

def Expression.compile : Expression → Except TriggerError CompiledExpression
  | .condition c => c.compile.map .condition
  | .all operands => (Expression.compileAll operands).map .all
  | .any operands => (Expression.compileAll operands).map .any
  | .not operand => operand.compile.map .not
termination_by structural e => e

def Expression.compileAll : List Expression → Except TriggerError (List CompiledExpression)
  | [] => .ok []
  | e :: es =>
    match e.compile with
    | .ok compiled => (Expression.compileAll es).map (compiled :: ·)
    | .error fault => .error fault
termination_by structural es => es

end

end

namespace CompiledExpression

mutual

def holds (context : Json) : CompiledExpression → Bool
  | condition c => c.holds context
  | all operands => allHold context operands
  | any operands => operands.isEmpty || anyHolds context operands
  | not operand => !operand.holds context
termination_by structural e => e

def allHold (context : Json) : List CompiledExpression → Bool
  | [] => true
  | e :: es => e.holds context && allHold context es
termination_by structural es => es

def anyHolds (context : Json) : List CompiledExpression → Bool
  | [] => false
  | e :: es => e.holds context || anyHolds context es
termination_by structural es => es

end

end CompiledExpression

/-! ## Stored form -/

def Operator.name : Operator → String
  | equals => "equals"
  | notEquals => "not_equals"
  | contains => "contains"
  | greaterThan => "greater_than"
  | lessThan => "less_than"
  | «exists» => "exists"
  | regex => "regex"

def Operator.ofName? : String → Option Operator
  | "equals" => some equals
  | "not_equals" => some notEquals
  | "contains" => some contains
  | "greater_than" => some greaterThan
  | "less_than" => some lessThan
  | "exists" => some «exists»
  | "regex" => some regex
  | _ => none

def Condition.toJson (c : Condition) : Json :=
  .object
    [("field", .string c.field), ("operator", .string c.operator.name), ("value", c.value)]

def Condition.ofJson? (j : Json) : Option Condition := do
  let r ← Record.of? 3 j
  return {
    field := ← r.required 0 "field" Json.asString?
    operator := ← r.required 1 "operator" fun j => j.asName?.bind Operator.ofName?
    value := ← r.defaulted 2 "value" some .null }

namespace Expression

mutual

def toJson : Expression → Json
  | condition c => .object [("field", c.toJson)]
  | all operands => .object [("all", .array (toItems operands))]
  | any operands => .object [("any", .array (toItems operands))]
  | not operand => .object [("not", operand.toJson)]
termination_by structural e => e

def toItems : List Expression → List Json
  | [] => []
  | e :: es => e.toJson :: toItems es
termination_by structural es => es

end

mutual

/-- An object with one member, which names the form. -/
def ofJson? : Json → Option Expression
  | .object [("field", c)] => (Condition.ofJson? c).map condition
  | .object [("all", .array items)] => (ofItems? items).map all
  | .object [("any", .array items)] => (ofItems? items).map any
  | .object [("not", operand)] => (ofJson? operand).map not
  | _ => none
termination_by structural j => j

def ofItems? : List Json → Option (List Expression)
  | [] => some []
  | item :: items =>
    match ofJson? item with
    | some e => (ofItems? items).map (e :: ·)
    | none => none
termination_by structural items => items

end

end Expression

end Grimoire.Trigger
