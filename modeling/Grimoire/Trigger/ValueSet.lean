/-!
# Sets of small numbers

A set of numbers below 64 is the bits of one word. `insertEvery?` and `insertMultiples?` are the two loops that
fill such a set. They have no result where a bit would lie outside of the word, nor where the loop would not
end; up to a number below 64 and with a positive step they have one, and it holds what was asked for
(`insertEvery?_adds`, `insertMultiples?_adds`).

| here | there |
| --- | --- |
| `ValueSet`                         | `FieldSet` |
| `contains`                         | `FieldSet::contains` |
| `insertEvery?`, `insertMultiples?` | the two loops of `parse_field` |
| `withSunday`                       | the day 7 in `CronSchedule::parse` |
-/
namespace Grimoire.Trigger

structure ValueSet where
  bits : BitVec 64
deriving DecidableEq, Repr

namespace ValueSet

def empty : ValueSet := ⟨0#64⟩

/-- The bit of a value. -/
def bit (value : Nat) : BitVec 64 := 1#64 <<< value

def contains (s : ValueSet) (value : Nat) : Bool := decide (value < 64) && s.bits &&& bit value != 0#64

def insert? (s : ValueSet) (value : Nat) : Option ValueSet :=
  if value < 64 then some ⟨s.bits ||| bit value⟩ else none

/-- Add `value` and every `step`-th value behind it, up to `last`, as far as the values are words of 32 bits;
with a step of zero the loop does not end. -/
def insertEvery? (last step value : Nat) (s : ValueSet) : Option ValueSet :=
  if value ≤ last then
    match s.insert? value with
    | none => none
    | some s =>
      if step = 0 then none
      else if value + step < 4294967296 then insertEvery? last step (value + step) s
      else some s
  else some s
termination_by last + 1 - value

/-- Add the multiples of `step` from `first` to `last`. -/
def insertMultiples? (first last step : Nat) (s : ValueSet) : Option ValueSet :=
  (List.range' first (last + 1 - first)).foldlM
    (fun s value => if value % step = 0 then s.insert? value else return s) s

/-- Days of the week with Sunday as 0 only, where 7 stands for it too. -/
def withSunday (s : ValueSet) : ValueSet :=
  if s.contains 7 then ⟨(s.bits &&& ~~~(bit 7)) ||| 1#64⟩ else s

/-! ## Members -/

theorem bit_ne_zero {value : Nat} (h : value < 64) : BitVec.twoPow 64 value ≠ 0#64 := by
  intro hzero
  have hbit := congrArg (fun w => w.getLsbD value) hzero
  simp [h] at hbit

theorem contains_eq (s : ValueSet) (value : Nat) : s.contains value = s.bits.getLsbD value := by
  by_cases h : value < 64
  · rw [contains, decide_eq_true h, Bool.true_and, bit, ← BitVec.twoPow_eq, BitVec.and_twoPow]
    cases s.bits.getLsbD value <;> simp [bit_ne_zero h]
  · rw [contains, decide_eq_false h, Bool.false_and, BitVec.getLsbD_of_ge s.bits value (by omega)]

@[simp] theorem contains_empty (value : Nat) : empty.contains value = false := by
  rw [contains_eq]
  exact BitVec.getLsbD_zero

/-- The second set holds the values of the first one, and those with a property. -/
def Adds (s s' : ValueSet) (P : Nat → Prop) : Prop := ∀ v, s'.contains v = true ↔ s.contains v = true ∨ P v

theorem Adds.refl {s : ValueSet} {P : Nat → Prop} (h : ∀ v, ¬ P v) : s.Adds s P := fun v => by simp [h v]

theorem Adds.trans {s₁ s₂ s₃ : ValueSet} {P Q R : Nat → Prop} (h : s₁.Adds s₂ P) (h' : s₂.Adds s₃ Q)
    (hR : ∀ v, R v ↔ P v ∨ Q v) : s₁.Adds s₃ R := fun v => by rw [h' v, h v, hR v, or_assoc]

theorem Adds.congr {s s' : ValueSet} {P Q : Nat → Prop} (h : s.Adds s' P) (hQ : ∀ v, P v ↔ Q v) : s.Adds s' Q :=
  fun v => by rw [h v, hQ v]

theorem insert?_adds (s : ValueSet) (value : Nat) (h : value < 64) :
    ∃ s', s.insert? value = some s' ∧ s.Adds s' (· = value) := by
  refine ⟨⟨s.bits ||| bit value⟩, by rw [insert?, if_pos h], fun v => ?_⟩
  rw [contains_eq, contains_eq, BitVec.getLsbD_or, bit, ← BitVec.twoPow_eq, BitVec.getLsbD_twoPow]
  simp only [Bool.or_eq_true, Bool.and_eq_true, decide_eq_true_eq, h, true_and, eq_comm (a := v)]

/-- A value is met in the first place or behind a step. -/
theorem exists_steps_iff {v value step : Nat} :
    (∃ k, v = value + k * step) ↔ v = value ∨ ∃ k, v = value + step + k * step := by
  constructor
  · rintro ⟨k, rfl⟩
    cases k with
    | zero => exact .inl (by simp)
    | succ k => exact .inr ⟨k, by rw [Nat.succ_mul]; omega⟩
  · rintro (rfl | ⟨k, rfl⟩)
    · exact ⟨0, by simp⟩
    · exact ⟨k + 1, by rw [Nat.succ_mul]; omega⟩

/-- Every `step`-th value is added, and the loop ends, whether or not the next value still is a word. -/
theorem insertEvery?_adds {last step : Nat} (hlast : last < 64) (hstep : 0 < step) (value : Nat) (s : ValueSet) :
    ∃ s', insertEvery? last step value s = some s' ∧
      s.Adds s' fun v => v ≤ last ∧ ∃ k, v = value + k * step := by
  induction hleft : last + 1 - value using Nat.strongRecOn generalizing value s with
  | ind left ih =>
    rw [insertEvery?]
    by_cases hvalue : value ≤ last
    · obtain ⟨s₁, hs₁, hadds⟩ := insert?_adds s value (by omega)
      rw [if_pos hvalue, hs₁]
      simp only [if_neg (Nat.ne_of_gt hstep)]
      by_cases hword : value + step < 4294967296
      · obtain ⟨s₂, hs₂, hmore⟩ := ih _ (by omega) (value + step) s₁ rfl
        refine ⟨s₂, by rw [if_pos hword, hs₂], hadds.trans hmore fun v => ?_⟩
        rw [exists_steps_iff, and_or_left, and_iff_right_of_imp (a := v ≤ last) (b := v = value) (by omega)]
      · -- the step is longer than the word, and only the value itself is met
        refine ⟨s₁, by rw [if_neg hword], hadds.congr fun v => ?_⟩
        rw [exists_steps_iff]
        constructor
        · exact fun h => ⟨by omega, .inl h⟩
        · rintro ⟨hv, h | ⟨k, hk⟩⟩
          · exact h
          · omega
    · rw [if_neg hvalue]
      exact ⟨s, rfl, Adds.refl fun v ⟨hv, k, hk⟩ => by omega⟩

/-- The multiples are added. -/
theorem insertMultiples?_adds {last : Nat} (hlast : last < 64) (first step : Nat) (s : ValueSet) :
    ∃ s', insertMultiples? first last step s = some s' ∧
      s.Adds s' fun v => (first ≤ v ∧ v ≤ last) ∧ v % step = 0 := by
  -- the loop from any value on
  have hloop (count : Nat) : ∀ (first : Nat) (s : ValueSet), (0 < count → first + count ≤ 64) →
      ∃ s', (List.range' first count).foldlM
          (fun s value => if value % step = 0 then s.insert? value else return s) s = some s' ∧
        s.Adds s' fun v => (first ≤ v ∧ v < first + count) ∧ v % step = 0 := by
    induction count with
    | zero => exact fun first s _ => ⟨s, rfl, Adds.refl fun v h => by omega⟩
    | succ count ih =>
      intro first s hcount
      have hrange (v : Nat) :
          first ≤ v ∧ v < first + (count + 1) ↔ v = first ∨ first + 1 ≤ v ∧ v < first + 1 + count := by omega
      rw [List.range'_succ, List.foldlM_cons]
      by_cases hmultiple : first % step = 0
      · obtain ⟨s₁, hs₁, hadds⟩ := insert?_adds s first (by omega)
        obtain ⟨s₂, hs₂, hmore⟩ := ih (first + 1) s₁ (by omega)
        rw [if_pos hmultiple, hs₁]
        refine ⟨s₂, hs₂, hadds.trans hmore fun v => ?_⟩
        rw [hrange, or_and_right, and_iff_left_of_imp fun h : v = first => h ▸ hmultiple]
      · obtain ⟨s₂, hs₂, hmore⟩ := ih (first + 1) s (by omega)
        rw [if_neg hmultiple]
        refine ⟨s₂, hs₂, hmore.congr fun v => ?_⟩
        have hfirst : ¬ (v = first ∧ v % step = 0) := fun h => hmultiple (h.1 ▸ h.2)
        rw [hrange, or_and_right, or_iff_right hfirst]
  obtain ⟨s', hs', hadds⟩ := hloop (last + 1 - first) first s (by omega)
  have hends (v : Nat) : first ≤ v ∧ v < first + (last + 1 - first) ↔ first ≤ v ∧ v ≤ last := by omega
  exact ⟨s', hs', hadds.congr fun v => and_congr_left' (hends v)⟩

/-- Sunday is 0, and the other days are as before. -/
theorem contains_withSunday (s : ValueSet) {day : Nat} (h : day < 7) :
    s.withSunday.contains day = true ↔ s.contains day = true ∨ day = 0 ∧ s.contains 7 = true := by
  rw [withSunday]
  cases h7 : s.contains 7
  · simp
  · have hkept : (~~~(BitVec.twoPow 64 7)).getLsbD day = true := by
      rw [BitVec.getLsbD_not, BitVec.getLsbD_twoPow]
      simp
      omega
    rw [if_pos rfl, contains_eq, contains_eq, BitVec.getLsbD_or, BitVec.getLsbD_and, bit, ← BitVec.twoPow_eq,
      hkept, BitVec.getLsbD_one]
    simp

end ValueSet

end Grimoire.Trigger
