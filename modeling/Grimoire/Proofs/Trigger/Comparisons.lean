import Grimoire.Pattern.Engine
import Grimoire.Trigger.Condition
import Grimoire.Proofs.Decimal.Rounding

/-!
# Comparing whole numbers

A condition compares two whole numbers as their doubles, so it compares what is left of them after rounding to 53
bits. Two different numbers that round to the same double are equal to every comparison. All others compare as they
should, because rounding keeps the order (`whole_comparison`); up to `2 ^ 53` there is nothing to round.
-/
namespace Grimoire.Trigger

open Decimal (rounded rounded_eq_self rounded_mono ofInt_denotes)

/-- The operators say of a field what holds of the number `a` in it and the number `b` to compare with. -/
structure ComparesAs (holds : Operator → Prop) (a b : Int) : Prop where
  equals : holds .equals ↔ a = b
  notEquals : holds .notEquals ↔ a ≠ b
  greaterThan : holds .greaterThan ↔ b < a
  lessThan : holds .lessThan ↔ a < b

/-- The operators of which one tells how two numbers are ordered. -/
def Operator.IsOrder (op : Operator) : Prop := op = .lessThan ∨ op = .equals ∨ op = .greaterThan

/-- The condition that compares a field with a whole number. -/
def compareWhole [RegexEngine] (context : Json) (field : String) (w : Whole) (op : Operator) : Prop :=
  Condition.holds ⟨field, op, .number (.whole w)⟩ context = true

variable {holds : Operator → Prop} {a b : Int} {context : Json} {field : String} {v w : Whole}

/-- Numbers that compare as whole numbers do are ordered in one way. -/
theorem ComparesAs.existsUnique (h : ComparesAs holds a b) : ∃! op, op.IsOrder ∧ holds op := by
  obtain ⟨hequals, -, hgreater, hless⟩ := h
  rcases Int.lt_trichotomy a b with hlt | heq | hgt
  · refine ⟨.lessThan, ⟨.inl rfl, hless.2 hlt⟩, ?_⟩
    rintro op ⟨rfl | rfl | rfl, hop⟩
    · rfl
    · exact absurd (hequals.1 hop) hlt.ne
    · exact absurd (hgreater.1 hop) hlt.asymm
  · refine ⟨.equals, ⟨.inr (.inl rfl), hequals.2 heq⟩, ?_⟩
    rintro op ⟨rfl | rfl | rfl, hop⟩
    · exact absurd heq (hless.1 hop).ne
    · rfl
    · exact absurd heq (hgreater.1 hop).ne'
  · refine ⟨.greaterThan, ⟨.inr (.inr rfl), hgreater.2 hgt⟩, ?_⟩
    rintro op ⟨rfl | rfl | rfl, hop⟩
    · exact absurd (hless.1 hop) hgt.asymm
    · exact absurd (hequals.1 hop) hgt.ne'
    · rfl

/-- Whole numbers compare as the numbers that their doubles denote. -/
theorem comparesAs_rounded [RegexEngine] (h : context.lookup? field = some (.number (.whole v))) :
    ComparesAs (compareWhole context field w) (rounded v.val) (rounded w.val) := by
  have hsize (u : Whole) : u.val.natAbs < 2 ^ 64 := by
    have hlower := u.lower
    have hupper := u.upper
    omega
  have hv := ofInt_denotes (hsize v)
  have hw := ofInt_denotes (hsize w)
  have hfound : ((context.lookup? field).filter (!·.isNull)).getD .null = .number (.whole v) := by
    rw [h]
    rfl
  have hequals : sameValue (.number (.whole v)) (.number (.whole w)) = true ↔ rounded v.val = rounded w.val := by
    refine (Decimal.beq_iff hv hw).trans ?_
    exact_mod_cast Iff.rfl
  refine ⟨?_, ?_, ?_, ?_⟩
  · show sameValue (((context.lookup? field).filter (!·.isNull)).getD .null) _ = true ↔ _
    rw [hfound, hequals]
  · show (!sameValue (((context.lookup? field).filter (!·.isNull)).getD .null) _) = true ↔ _
    rw [hfound, Bool.not_eq_true', ← Bool.not_eq_true, hequals]
  · show compareNumbers _ (((context.lookup? field).filter (!·.isNull)).getD .null) _ = true ↔ _
    rw [hfound]
    refine decide_eq_true_iff.trans ((Decimal.lt_iff hw hv).trans ?_)
    exact_mod_cast Iff.rfl
  · show compareNumbers _ (((context.lookup? field).filter (!·.isNull)).getD .null) _ = true ↔ _
    rw [hfound]
    refine decide_eq_true_iff.trans ((Decimal.lt_iff hv hw).trans ?_)
    exact_mod_cast Iff.rfl

/-- Rounding keeps the order, so it is enough that it keeps different numbers apart. -/
theorem ComparesAs.of_rounded (h : ComparesAs holds (rounded a) (rounded b))
    (hapart : rounded a = rounded b → a = b) : ComparesAs holds a b := by
  have hequals : rounded a = rounded b ↔ a = b := ⟨hapart, congrArg rounded⟩
  have hless {c d : Int} (hapart : rounded c = rounded d → c = d) : rounded c < rounded d ↔ c < d := by
    refine ⟨fun hlt => ?_, fun hlt => (rounded_mono hlt.le).lt_of_ne fun heq => hlt.ne (hapart heq)⟩
    by_contra hge
    exact hlt.not_ge (rounded_mono (Int.not_lt.1 hge))
  refine ⟨h.equals.trans hequals, h.notEquals.trans (not_congr hequals), h.greaterThan.trans (hless fun heq => ?_),
    h.lessThan.trans (hless hapart)⟩
  exact (hapart heq.symm).symm

/-- **Comparing whole numbers**: a field that holds one whole number compares with another exactly as the two do,
unless they are different and round to the same double. In every case it is smaller, equal or greater, and only one
of these. -/
theorem whole_comparison [RegexEngine] (h : context.lookup? field = some (.number (.whole v))) :
    (ComparesAs (compareWhole context field w) v.val w.val ↔ (rounded v.val = rounded w.val → v.val = w.val)) ∧
      (v.val.natAbs ≤ 2 ^ 53 → w.val.natAbs ≤ 2 ^ 53 → ComparesAs (compareWhole context field w) v.val w.val) ∧
      ComparesAs (compareWhole context field w) (rounded v.val) (rounded w.val) ∧
      ∃! op, op.IsOrder ∧ compareWhole context field w op := by
  have hrounded := comparesAs_rounded (w := w) h
  refine ⟨⟨fun hexact heq => hexact.equals.1 (hrounded.equals.2 heq), hrounded.of_rounded⟩, fun hv hw => ?_, hrounded,
    hrounded.existsUnique⟩
  refine hrounded.of_rounded fun heq => ?_
  rwa [rounded_eq_self hv, rounded_eq_self hw] at heq

/-- The numbers three and one behind `2 ^ 53` round to different doubles. -/
theorem neighbours_apart :
    (Json.object [("n", .number (.whole ⟨9007199254740995, by decide, by decide⟩))]).lookup? "n" =
        some (.number (.whole ⟨9007199254740995, by decide, by decide⟩)) ∧
      ComparesAs
        (compareWhole (.object [("n", .number (.whole ⟨9007199254740995, by decide, by decide⟩))]) "n"
          ⟨9007199254740993, by decide, by decide⟩)
        9007199254740995 9007199254740993 := by
  have hfound : (Json.object [("n", .number (.whole ⟨9007199254740995, by decide, by decide⟩))]).lookup? "n" =
      some (.number (.whole ⟨9007199254740995, by decide, by decide⟩)) := by rfl
  have hapart : rounded 9007199254740995 = rounded 9007199254740993 →
      (9007199254740995 : Int) = 9007199254740993 := by decide +kernel
  exact ⟨hfound, (whole_comparison hfound).1.2 hapart⟩

/-- The number behind `2 ^ 53` is said to be equal to it. -/
theorem neighbours_equal :
    ¬ ComparesAs
      (compareWhole (.object [("n", .number (.whole ⟨9007199254740993, by decide, by decide⟩))]) "n"
        ⟨9007199254740992, by decide, by decide⟩)
      9007199254740993 9007199254740992 := by
  intro h
  have hequal : compareWhole (.object [("n", .number (.whole ⟨9007199254740993, by decide, by decide⟩))]) "n"
      ⟨9007199254740992, by decide, by decide⟩ .equals := (comparesAs_rounded rfl).equals.2 (by decide +kernel)
  exact absurd (h.equals.1 hequal) (by decide)

end Grimoire.Trigger
