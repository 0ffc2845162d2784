import Grimoire.Trigger.Condition

/-!
# Compiled expressions

To compile an expression is to validate it and to keep its patterns read. Both go through the patterns from left
to right and fail with the first one that the engine does not read, and with its reason; when there is none, the
compiled expression holds exactly where the expression itself does (`compile_agrees`). Of the engine nothing is
used but that it gives a text the same answer each time.
-/
namespace Grimoire.Trigger

/-! ## The patterns of an expression -/

/-- The text of the pattern, if the condition has one. -/
def Condition.patternTexts (c : Condition) : List String := if c.operator = .regex then [c.patternText] else []

namespace Expression

mutual

/-- The texts of all patterns, from left to right. -/
def patternTexts : Expression → List String
  | condition c => c.patternTexts
  | all operands | any operands => patternTextsAll operands
  | not operand => operand.patternTexts
termination_by structural e => e

def patternTextsAll : List Expression → List String
  | [] => []
  | e :: es => e.patternTexts ++ patternTextsAll es
termination_by structural es => es

end

end Expression

/-- The error of a text that the engine does not read as a pattern. -/
def patternFault? [RegexEngine] (text : String) : Option TriggerError :=
  match RegexEngine.compile false text with
  | .ok _ => none
  | .error reason => some (.invalidPattern text reason)

/-! ## Checked and compiled together -/

section
variable {α β : Type} {fault? : Option TriggerError} {checked : Except TriggerError Unit}
  {compiled : Except TriggerError α} {Right : α → Prop}

/-- With a fault both results are that fault; without one the check passes and what is compiled is right. -/
def Settled (fault? : Option TriggerError) (checked : Except TriggerError Unit) (compiled : Except TriggerError α)
    (Right : α → Prop) : Prop :=
  match fault? with
  | some fault => checked = .error fault ∧ compiled = .error fault
  | none => checked = .ok () ∧ ∃ c, compiled = .ok c ∧ Right c

theorem Settled.map (h : Settled fault? checked compiled Right) {Right' : β → Prop} (f : α → β)
    (hf : ∀ c, Right c → Right' (f c)) : Settled fault? checked (compiled.map f) Right' := by
  cases fault? with
  | some fault =>
    obtain ⟨hchecked, hcompiled⟩ := h
    exact ⟨hchecked, congrArg (Except.map f) hcompiled⟩
  | none =>
    obtain ⟨hchecked, c, hcompiled, hc⟩ := h
    exact ⟨hchecked, f c, congrArg (Except.map f) hcompiled, hf c hc⟩

/-- A condition has one pattern at most, and it is read in both. -/
theorem settled_condition [RegexEngine] (c : Condition) :
    Settled (c.patternTexts.findSome? patternFault?) c.validate c.compile
      fun compiled => ∀ context, compiled.holds context = c.holds context := by
  unfold Condition.validate Condition.compile Condition.holds
  by_cases hregex : c.operator = .regex
  · have hfaults : c.patternTexts.findSome? patternFault? = patternFault? c.patternText := by
      simp [Condition.patternTexts, hregex]
    rw [hfaults, Condition.pattern, if_pos hregex, patternFault?]
    cases RegexEngine.compile false c.patternText with
    | error reason => exact ⟨rfl, rfl⟩
    | ok regex => exact ⟨rfl, _, rfl, fun _ => rfl⟩
  · have hfaults : c.patternTexts.findSome? patternFault? = none := by
      simp [Condition.patternTexts, hregex]
    rw [hfaults, Condition.pattern, if_neg hregex]
    exact ⟨rfl, _, rfl, fun _ => rfl⟩

end

/-! ## Trees of conditions -/

namespace Expression

section
variable [RegexEngine]

/-- Compiled operands hold together, or one of them, where the operands do. -/
structure SameOperands (compiled : List CompiledExpression) (operands : List Expression) : Prop where
  empty : compiled.isEmpty = operands.isEmpty
  all : ∀ context, CompiledExpression.allHold context compiled = allHold context operands
  any : ∀ context, CompiledExpression.anyHolds context compiled = anyHolds context operands

theorem SameOperands.cons {c : CompiledExpression} {e : Expression} {cs : List CompiledExpression}
    {es : List Expression} (hc : ∀ context, c.holds context = e.holds context) (hcs : SameOperands cs es) :
    SameOperands (c :: cs) (e :: es) where
  empty := rfl
  all context := by rw [CompiledExpression.allHold, allHold, hc, hcs.all]
  any context := by rw [CompiledExpression.anyHolds, anyHolds, hc, hcs.any]

mutual

/-- **One expression**: a case for each form. -/
theorem settled : ∀ e : Expression, Settled (e.patternTexts.findSome? patternFault?) e.validate e.compile
    fun compiled => ∀ context, compiled.holds context = e.holds context
  | condition c => (settled_condition c).map CompiledExpression.condition fun _ hc => hc
  | all operands => (settledAll operands).map CompiledExpression.all fun _ hcs => hcs.all
  | any operands => (settledAll operands).map CompiledExpression.any fun cs hcs context => by
      change (cs.isEmpty || CompiledExpression.anyHolds context cs) =
        (operands.isEmpty || anyHolds context operands)
      rw [hcs.empty, hcs.any]
  | not operand => (settled operand).map CompiledExpression.not fun _ hc context => congrArg (!·) (hc context)
termination_by structural e => e

/-- Operands one after another: the first that fails is the last that is looked at. -/
theorem settledAll : ∀ es : List Expression,
    Settled ((patternTextsAll es).findSome? patternFault?) (validateAll es) (compileAll es)
      fun cs => SameOperands cs es
  | [] => ⟨rfl, [], rfl, rfl, fun _ => rfl, fun _ => rfl⟩
  | e :: es => by
    have hfirst : (patternTextsAll (e :: es)).findSome? patternFault? =
        (e.patternTexts.findSome? patternFault?).or ((patternTextsAll es).findSome? patternFault?) :=
      List.findSome?_append
    have he := settled e
    rw [hfirst, validateAll, compileAll]
    cases hfault : e.patternTexts.findSome? patternFault? with
    | some fault =>
      rw [hfault] at he
      rw [he.1, he.2]
      exact ⟨rfl, rfl⟩
    | none =>
      rw [hfault] at he
      obtain ⟨hchecked, c, hcompiled, hc⟩ := he
      rw [hchecked, hcompiled, Option.none_or]
      exact (settledAll es).map (c :: ·) fun _ hcs => hcs.cons hc
termination_by structural es => es

end

/-- **A compiled expression is the expression**, whatever the engine: validating and compiling both fail with the
error of the first pattern from the left that the engine does not read; without such a pattern both succeed, and
the compiled expression holds in exactly the contexts in which the expression holds. -/
theorem compile_agrees (e : Expression) :
    match e.patternTexts.findSome? patternFault? with
    | some fault => e.validate = .error fault ∧ e.compile = .error fault
    | none => e.validate = .ok () ∧ ∃ c, e.compile = .ok c ∧ ∀ context, c.holds context = e.holds context :=
  e.settled

end

/-- A pattern that is not read matches nothing, so its negation holds; to compile the negation is refused. -/
example :
    letI : RegexEngine := ⟨fun _ _ => .error "unclosed group"⟩
    let e := not (.condition { field := "text", operator := .regex, value := .string "(unclosed" })
    e.holds .null = true ∧ e.compile = .error (.invalidPattern "(unclosed" "unclosed group") := by
  constructor <;> rfl

end Expression

end Grimoire.Trigger
