import Grimoire.Template
import Grimoire.Pattern.Engine
import Grimoire.Trigger.Condition
import Grimoire.Proofs.Decimal.Doubles
import Grimoire.Proofs.Json.Objects
import Grimoire.Proofs.Text.Lowering

/-!
# The text of whole numbers

A number without a fraction below `10 ^ 21` is written as a decimal numeral: a whole number as its own, and a double
as that of the nearest number in a signed word of 64 bits. So the numeral is the right one for every whole number,
and for a double exactly if it lies in that word (`whole_number_text`). Templates and conditions see the same text.
-/
namespace Grimoire

/-- The whole number that a number denotes, stored as such or as a double. -/
def Number.Denotes : Number → Int → Prop
  | .whole w, m => w.val = m
  | .float x, m => Decimal.Denotes x m

/-- The whole number that the text shows. -/
def Number.shown : Number → Int → Int
  | .whole _, m => m
  | .float _, m => Json.clampSigned m

/-- Everything that reads the text of the number reads the numeral of `k`. -/
structure Number.SeenAs [Trigger.RegexEngine] (n : Number) (k : Int) : Prop where
  text : (Json.number n).coerceText = toString k
  /-- As an argument of a template. -/
  filled : ∀ template arguments name, Template.fill template (Object.insert arguments name (.number n)) =
    Template.fill template (Object.insert arguments name (.string (toString k)))
  /-- As the value of a field in which a text is looked for. -/
  found : ∀ context field needle, context.lookup? field = some (.number n) →
    ((Trigger.Condition.holds ⟨field, .contains, needle⟩ context = true) ↔
      needle.coerceChars <:+: (toString k).toList)
  /-- As what is looked for. -/
  sought : ∀ context field value, context.lookup? field = some value → value.isNull = false →
    ((Trigger.Condition.holds ⟨field, .contains, .number n⟩ context = true) ↔
      (toString k).toList <:+: value.coerceChars)

variable {n : Number} {m m' k : Int}

theorem Decimal.ofList_numeralInt (k : Int) : String.ofList (numeralInt k) = toString k := by
  rw [Int.toString_eq_repr, Int.repr_eq_if, numeralInt]
  rcases Int.lt_or_le k 0 with h | h
  · have habs : (-k).toNat = k.natAbs := by omega
    rw [if_pos h, if_neg (by omega), habs, Nat.repr_eq_ofList_toDigits]
    exact @String.ofList_append ['-'] _
  · have habs : k.toNat = k.natAbs := by omega
    rw [if_neg (by omega), if_pos h, habs, Nat.repr_eq_ofList_toDigits]
    rfl

theorem Decimal.whole?_of_denotes {x : Float} (h : Denotes x m) : whole? x = some m := by
  obtain ⟨d, hx, hd⟩ := h
  rw [whole?, hx]
  exact whole?_eq_some_iff.2 hd

theorem coerceText_eq (h : n.Denotes m) (hm : m.natAbs < 10 ^ 21) :
    (Json.number n).coerceText = toString (n.shown m) := by
  rw [Json.coerceText, ← Decimal.ofList_numeralInt]
  cases n with
  | whole w =>
    obtain rfl : w.val = m := h
    rfl
  | float x =>
    have hwhole := Decimal.whole?_of_denotes h
    rw [Json.coerceChars, Json.floatText, hwhole]
    exact congrArg String.ofList (if_pos hm)

theorem seenAs_of_text [Trigger.RegexEngine] (h : (Json.number n).coerceText = toString k) : n.SeenAs k := by
  have hchars : (Json.number n).coerceChars = (toString k).toList := by
    rw [← h, Json.coerceText, String.toList_ofList]
  refine ⟨h, fun template arguments name => ?_, fun context field needle hfield => ?_,
    fun context field value hfield hnull => ?_⟩
  · have hpiece : ∀ piece : Template.Piece, piece.fill (Object.insert arguments name (.number n)) =
        piece.fill (Object.insert arguments name (.string (toString k))) := by
      intro piece
      cases piece with
      | char c => rfl
      | slot slot =>
        simp only [Template.Piece.fill, Object.get?_insert]
        by_cases hname : name = String.ofList slot
        · rw [if_pos hname, if_pos hname]
          exact hchars
        · rw [if_neg hname, if_neg hname]
    exact congrArg String.ofList (List.flatMap_congr fun piece _ => hpiece piece)
  · show Text.occursIn _ (((context.lookup? field).filter (!·.isNull)).getD .null).coerceChars = true ↔ _
    rw [Text.occursIn_iff, hfield, ← hchars]
    rfl
  · show Text.occursIn _ (((context.lookup? field).filter (!·.isNull)).getD .null).coerceChars = true ↔ _
    rw [Text.occursIn_iff, hfield, Option.filter_some, hnull, ← hchars]
    rfl

theorem toString_int_inj : toString m = toString m' ↔ m = m' := by
  rw [Int.toString_eq_repr, Int.toString_eq_repr, Int.repr_inj]

theorem shown_eq_iff : n.shown m = m ↔ ∀ x, n = .float x → -2 ^ 63 ≤ m ∧ m < 2 ^ 63 := by
  cases n with
  | whole w => simp [Number.shown]
  | float x =>
    have hclamp : Json.clampSigned m = m ↔ -2 ^ 63 ≤ m ∧ m < 2 ^ 63 := by
      unfold Json.clampSigned
      omega
    simpa [Number.shown] using hclamp

/-- **The text of a whole number** below `10 ^ 21` is its own numeral exactly if it is stored as a whole number or
lies in a signed word. In every case it is the numeral of `Number.shown`, which alone tells the texts of two such
numbers apart. -/
theorem whole_number_text [Trigger.RegexEngine] (h : n.Denotes m) (hm : m.natAbs < 10 ^ 21) :
    (n.SeenAs m ↔ ∀ x, n = .float x → -2 ^ 63 ≤ m ∧ m < 2 ^ 63) ∧ n.SeenAs (n.shown m) ∧
      ∀ n' m', n'.Denotes m' → m'.natAbs < 10 ^ 21 →
        ((Json.number n).coerceText = (Json.number n').coerceText ↔ n.shown m = n'.shown m') := by
  have htext := coerceText_eq h hm
  refine ⟨⟨fun hseen => ?_, fun hexact => seenAs_of_text ?_⟩, seenAs_of_text htext, fun n' m' h' hm' => ?_⟩
  · rw [← shown_eq_iff, ← toString_int_inj, ← htext]
    exact hseen.text
  · rw [htext, shown_eq_iff.2 hexact]
  · rw [htext, coerceText_eq h' hm', toString_int_inj]

theorem three_seen :
    Number.Denotes (.float 3.0) 3 ∧ (3 : Int).natAbs < 10 ^ 21 ∧ Number.SeenAs (.float 3.0) 3 := by
  have hthree : Number.Denotes (.float 3.0) 3 := by
    refine ⟨⟨false, 6755399441055744, -51⟩, by decide +kernel, ?_⟩
    rw [Decimal.value_positive, Decimal.Dyadic.size]
    norm_num
  have hsmall : (3 : Int).natAbs < 10 ^ 21 := by decide
  exact ⟨hthree, hsmall, (whole_number_text hthree hsmall).1.2 fun _ _ => by decide⟩

/-- The doubles `10 ^ 19` and `10 ^ 20` have the text of the largest number in a signed word. -/
theorem beyond_signed_word :
    Number.Denotes (.float 1e19) 10000000000000000000 ∧ ¬ Number.SeenAs (.float 1e19) 10000000000000000000 ∧
      (Json.number (.float 1e19)).coerceText = (Json.number (.float 1e20)).coerceText := by
  have htext : (Json.number (.float 1e19)).coerceText = "9223372036854775807" := by decide +kernel
  have htext' : (Json.number (.float 1e20)).coerceText = "9223372036854775807" := by decide +kernel
  refine ⟨⟨⟨false, 4882812500000000, 11⟩, by decide +kernel, ?_⟩, fun hseen => ?_, htext.trans htext'.symm⟩
  · rw [Decimal.value_positive, Decimal.Dyadic.size]
    norm_num
  · have hnumeral : "9223372036854775807" ≠ toString (10000000000000000000 : Int) := by decide +kernel
    exact hnumeral (htext.symm.trans hseen.text)

end Grimoire
