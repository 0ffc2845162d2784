import Grimoire.Decimal.Reading
import Grimoire.Decimal.Shortest
import Mathlib.Data.List.Basic

/-!
# Digits and words

Digits are read up to the first character that is none (`takeDigits_append`), and a numeral reads as its number
(`ofDigits_numeral`). An unsigned word is read exactly from the texts that spell it (`Spells`, `readWord?_eq_some`).
-/
namespace Grimoire.Decimal

/-! ## Digits -/

/-- No digit stands at the front. -/
def EndsDigits (rest : List Char) : Prop := ∀ c, rest.head? = some c → c.isDigit = false

theorem takeDigits_of_endsDigits {rest : List Char} (h : EndsDigits rest) : takeDigits rest = ([], rest) := by
  cases rest with
  | nil => rfl
  | cons c cs => simp [takeDigits, digit?, h c rfl]

theorem takeDigits_append {cs rest : List Char} (hcs : ∀ c ∈ cs, c.isDigit = true) (h : EndsDigits rest) :
    takeDigits (cs ++ rest) = (cs.map fun c => c.toNat - '0'.toNat, rest) := by
  induction cs with
  | nil => simpa using takeDigits_of_endsDigits h
  | cons c cs ih =>
    have hc : c.isDigit = true := hcs c (by simp)
    have htail := ih fun d hd => hcs d (by simp [hd])
    simp [takeDigits, digit?, hc, htail]

theorem isDigit_numeral (n : Nat) : ∀ c ∈ numeral n, c.isDigit = true := by
  intro c hc
  exact Nat.isDigit_of_mem_toDigits (by decide) (by decide) hc

theorem ofDigits_map (cs : List Char) : ofDigits (cs.map fun c => c.toNat - '0'.toNat) = Nat.ofDigitChars 10 cs 0 := by
  rw [ofDigits, List.foldl_map]
  rfl

theorem ofDigits_numeral (n : Nat) : ofDigits ((numeral n).map fun c => c.toNat - '0'.toNat) = n :=
  (ofDigits_map (numeral n)).trans Nat.ofDigitChars_ten_toDigits

/-- Only the numeral of zero begins with a zero. -/
theorem head_numeral {n : Nat} (hn : n ≠ 0) : (numeral n).head? ≠ some '0' := by
  induction n using Nat.strongRecOn with
  | ind n ih =>
    unfold numeral at ih ⊢
    rw [Nat.toDigits_eq_if (by decide)]
    split
    · next hlt =>
      have hdigit : ∀ d < 10, d ≠ 0 → Nat.digitChar d ≠ '0' := by decide
      simpa using hdigit n hlt hn
    · next hge =>
      rw [List.head?_append_of_ne_nil _ Nat.toDigits_ne_nil]
      exact ih (n / 10) (by omega) (by omega)

/-! ## Words -/

/-- The text of a word of `bits` bits: digits, maybe behind a plus sign. -/
def Spells (bits : Nat) (cs : List Char) (n : Nat) : Prop :=
  ∃ digits, (cs = digits ∨ cs = '+' :: digits) ∧ digits ≠ [] ∧ (∀ c ∈ digits, c.isDigit = true) ∧
    n = Nat.ofDigitChars 10 digits 0 ∧ n < Nat.pow 2 bits

theorem isDigit_of_takeDigits {cs : List Char} {ds : List Nat} (h : takeDigits cs = (ds, [])) :
    ∀ c ∈ cs, c.isDigit = true := by
  induction cs generalizing ds with
  | nil => simp
  | cons c cs ih =>
    by_cases hc : c.isDigit = true
    · simp only [takeDigits, digit?, hc, if_true, Prod.mk.injEq] at h
      have hcs := ih (Prod.ext rfl h.2)
      intro d hd
      rcases List.mem_cons.1 hd with rfl | hd
      · exact hc
      · exact hcs d hd
    · simp [takeDigits, digit?, hc] at h

theorem readDigits?_eq_some {bits : Nat} {cs : List Char} {n : Nat} :
    readDigits? bits cs = some n ↔
      cs ≠ [] ∧ (∀ c ∈ cs, c.isDigit = true) ∧ n = Nat.ofDigitChars 10 cs 0 ∧ n < Nat.pow 2 bits := by
  by_cases hdigits : ∀ c ∈ cs, c.isDigit = true
  · have hread : takeDigits (cs ++ []) = (cs.map fun c => c.toNat - '0'.toNat, []) :=
      takeDigits_append hdigits fun _ h => by cases h
    rw [List.append_nil] at hread
    cases cs with
    | nil => simp [readDigits?, hread]
    | cons c cs =>
      have hvalue := ofDigits_map (c :: cs)
      rw [List.map_cons] at hvalue
      simp only [readDigits?, hread, List.map_cons]
      rw [hvalue]
      by_cases h : Nat.ofDigitChars 10 (c :: cs) 0 < Nat.pow 2 bits
      · rw [if_pos h, Option.some.injEq]
        exact ⟨fun hn => ⟨List.cons_ne_nil c cs, hdigits, hn.symm, hn ▸ h⟩, fun hn => hn.2.2.1.symm⟩
      · rw [if_neg h]
        exact iff_of_false (by simp) fun hn => h (hn.2.2.1 ▸ hn.2.2.2)
  · refine ⟨fun h => absurd ?_ hdigits, fun h => absurd h.2.1 hdigits⟩
    rw [readDigits?.eq_def] at h
    split at h
    · next htake => exact isDigit_of_takeDigits htake
    · cases h

/-- **An unsigned word** is read from the texts that spell it. -/
theorem readWord?_eq_some {bits : Nat} {cs : List Char} {n : Nat} :
    readWord? bits cs = some n ↔ Spells bits cs n := by
  rw [readWord?.eq_def]
  split
  · next rest =>
    refine readDigits?_eq_some.trans ⟨fun h => ⟨rest, .inr rfl, h⟩, ?_⟩
    rintro ⟨digits, rfl | hcs, h⟩
    · exact absurd (h.2.1 '+' List.mem_cons_self) (by decide)
    · cases hcs
      exact h
  · next hplus =>
    refine readDigits?_eq_some.trans ⟨fun h => ⟨cs, .inl rfl, h⟩, ?_⟩
    rintro ⟨digits, rfl | rfl, h⟩
    · exact h
    · exact absurd rfl (hplus digits)

end Grimoire.Decimal
