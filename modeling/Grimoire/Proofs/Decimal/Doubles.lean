import Grimoire.Proofs.Decimal.Magnitude
import Mathlib

/-!
# The number that a double denotes

The number of a dyadic is `Dyadic.value`. It is whole exactly if `Dyadic.whole?` finds it (`whole?_eq_some_iff`), and
two doubles compare as their numbers do (`lt_iff`, `beq_iff`), because of two doubles the one with the larger
exponent is the larger one.
-/
namespace Grimoire.Decimal

open Float.Model (UnpackedFloat)
open Float.Model.UnpackedFloat (Sign)

/-! ## The value of a dyadic -/

def Dyadic.sign (d : Dyadic) : Int := if d.negative then -1 else 1

/-- The number `± mantissa · 2 ^ exponent`. -/
def Dyadic.value (d : Dyadic) : Rat := d.sign * (d.mantissa * 2 ^ d.exponent)

variable {d d' : Dyadic} {x y : Float}

theorem Dyadic.sign_cases (d : Dyadic) : d.sign = -1 ∨ d.sign = 1 := by
  unfold sign
  split
  · exact .inl rfl
  · exact .inr rfl

/-- The whole number of a dyadic without a fraction is its value. -/
theorem whole?_eq_some_iff {n : Int} : d.whole? = some n ↔ d.value = n := by
  have hsign : (if d.negative then -1 else 1 : Int) = d.sign := rfl
  simp only [Dyadic.whole?, Dyadic.value, hsign]
  rcases Int.lt_or_le d.exponent 0 with he | he
  · obtain ⟨k, hk⟩ : ∃ k : Nat, d.exponent = -k := ⟨(-d.exponent).toNat, by omega⟩
    have hnat : (-d.exponent).toNat = k := by omega
    have hpos : (0 : Rat) < 2 ^ k := by positivity
    rw [if_neg (by omega), hnat, hk, zpow_neg, zpow_natCast, Nat.pow_eq]
    by_cases hrest : d.mantissa % 2 ^ k = 0
    · obtain ⟨q, hq⟩ := Nat.dvd_of_mod_eq_zero hrest
      have hvalue : (d.mantissa : Rat) * (2 ^ k)⁻¹ = q := by
        rw [hq]
        push_cast
        field_simp
      rw [if_pos hrest, hvalue, hq, Nat.mul_div_cancel_left _ (Nat.two_pow_pos k), Option.some.injEq]
      exact_mod_cast Iff.rfl
    · rw [if_neg hrest]
      refine iff_of_false (by simp) fun hvalue => hrest ?_
      have hscaled : (d.sign * d.mantissa : Rat) = n * 2 ^ k := by
        rw [← hvalue]
        field_simp
      have hint : d.sign * d.mantissa = n * 2 ^ k := by exact_mod_cast hscaled
      have hdvd : ((2 ^ k : Nat) : Int) ∣ d.mantissa := by
        refine ⟨d.sign * n, ?_⟩
        push_cast
        rcases d.sign_cases with hs | hs <;> rw [hs] at hint ⊢ <;> linarith
      exact Nat.mod_eq_zero_of_dvd (Int.natCast_dvd_natCast.1 hdvd)
  · obtain ⟨k, hk⟩ : ∃ k : Nat, d.exponent = k := ⟨d.exponent.toNat, by omega⟩
    rw [if_pos he, hk, Int.toNat_natCast, zpow_natCast, Nat.pow_eq, Option.some.injEq]
    exact_mod_cast Iff.rfl

/-! ## The bits of a double -/

def isNegative : Sign → Bool
  | .negative => true
  | .positive => false

/-- What an unpacked double stands for. -/
def Shape.ofUnpacked : UnpackedFloat → Shape
  | .notANumber => .notANumber
  | .infinity s => .infinite (isNegative s)
  | .zero s => .finite ⟨isNegative s, 0, -1074⟩
  | .finite s m e _ => .finite ⟨isNegative s, m, e⟩

/-- The bit in front of a fraction, which is not stored. -/
theorem toNat_leading (m : BitVec 52) : (1#1 ++ m).toNat = 2 ^ 52 + m.toNat := by
  rw [BitVec.toNat_append, ← Nat.shiftLeft_add_eq_or_of_lt m.isLt]
  rfl

section

variable (b : BitVec 64)

theorem toNat_unpackMantissa : (@UnpackedFloat.unpackMantissa .binary64 b).toNat = b.toNat % 2 ^ 52 := rfl

theorem toNat_unpackExponent : (@UnpackedFloat.unpackExponent .binary64 b).toNat = b.toNat / 2 ^ 52 % 2 ^ 11 := by
  rw [← Nat.shiftRight_eq_div_pow]
  rfl

theorem isNegative_unpackSign :
    isNegative (.ofBitVec (@UnpackedFloat.unpackSign .binary64 b)) = (b.toNat / 2 ^ 63 % 2 == 1) := by
  have hbit : (@UnpackedFloat.unpackSign .binary64 b).toNat = b.toNat / 2 ^ 63 % 2 := by
    rw [← Nat.shiftRight_eq_div_pow]
    rfl
  rw [← hbit]
  generalize @UnpackedFloat.unpackSign .binary64 b = v
  revert v
  decide

/-- The fields of the word are read the same way. -/
theorem ofBits_toNat : Shape.ofBits b.toNat = .ofUnpacked (.unpack .binary64 b) := by
  have hlast : @UnpackedFloat.unpackExponent .binary64 b = -1#11 ↔ b.toNat / 2 ^ 52 % 2 ^ 11 = 2047 := by
    rw [← BitVec.toNat_inj, toNat_unpackExponent]
    rfl
  have hfirst : @UnpackedFloat.unpackExponent .binary64 b = 0#11 ↔ b.toNat / 2 ^ 52 % 2 ^ 11 = 0 := by
    rw [← BitVec.toNat_inj, toNat_unpackExponent]
    rfl
  have hzero : @UnpackedFloat.unpackMantissa .binary64 b = 0#52 ↔ b.toNat % 2 ^ 52 = 0 := by
    rw [← BitVec.toNat_inj, toNat_unpackMantissa]
    rfl
  simp only [Shape.ofBits, Nat.pow_eq, ← isNegative_unpackSign, UnpackedFloat.unpack]
  by_cases h2047 : b.toNat / 2 ^ 52 % 2 ^ 11 = 2047
  · rw [if_pos h2047, if_pos (hlast.2 h2047)]
    by_cases hm : b.toNat % 2 ^ 52 = 0
    · rw [if_pos hm, if_pos (hzero.2 hm)]
      rfl
    · rw [if_neg hm, if_neg (mt hzero.1 hm)]
      rfl
  · rw [if_neg h2047, if_neg (mt hlast.1 h2047)]
    by_cases h0 : b.toNat / 2 ^ 52 % 2 ^ 11 = 0
    · rw [if_pos h0, if_pos (hfirst.2 h0)]
      by_cases hm : b.toNat % 2 ^ 52 = 0
      · rw [dif_pos (hzero.2 hm), hm]
        rfl
      · rw [dif_neg (mt hzero.1 hm), Shape.ofUnpacked, toNat_unpackExponent, h0]
        rfl
    · rw [if_neg h0, if_neg (mt hfirst.1 h0), Shape.ofUnpacked, toNat_leading, toNat_unpackExponent]
      rfl

end

theorem ofFloat_eq (x : Float) : Shape.ofFloat x = .ofUnpacked x.toModel.unpack :=
  ofBits_toNat x.toModel.toBits.toBitVec

/-- The form in which the bits give a double. -/
structure Dyadic.IsCanonical (d : Dyadic) : Prop extends d.IsDouble where
  low : -1074 ≤ d.exponent

theorem isCanonical_ofBits {bits : Nat} (h : Shape.ofBits bits = .finite d) : d.IsCanonical := by
  refine ⟨isDouble_ofBits h, ?_⟩
  unfold Shape.ofBits at h
  dsimp only at h
  split at h
  · split at h <;> cases h
  · split at h
    · obtain rfl := Shape.finite.inj h
      exact Int.le_refl _
    · obtain rfl := Shape.finite.inj h
      show -1074 ≤ ((bits / Nat.pow 2 52 % Nat.pow 2 11 : Nat) : Int) - 1075
      omega

/-! ## The order of doubles -/

/-- The number without its sign. -/
def Dyadic.size (d : Dyadic) : Rat := d.mantissa * 2 ^ d.exponent

/-- Of two doubles the one with the larger exponent is larger: its mantissa fills its bits. -/
theorem size_lt (hd : d.IsCanonical) (hd' : d'.IsDouble) (h : d.exponent < d'.exponent) : d.size < d'.size := by
  have hlow := hd.low
  have hnormal : 2 ^ 52 ≤ d'.mantissa := hd'.normal.resolve_right (by omega)
  have hpow : (0 : Rat) < 2 ^ d.exponent := by positivity
  calc d.size < 2 ^ 53 * 2 ^ d.exponent := by
        refine mul_lt_mul_of_pos_right ?_ hpow
        exact_mod_cast hd.small
    _ = 2 ^ 52 * 2 ^ (d.exponent + 1) := by
        rw [zpow_add₀ two_ne_zero, zpow_one]
        ring
    _ ≤ 2 ^ 52 * 2 ^ d'.exponent := by
        refine mul_le_mul_of_nonneg_left (zpow_le_zpow_right₀ one_le_two h) (by positivity)
    _ ≤ d'.size := by
        refine mul_le_mul_of_nonneg_right ?_ (by positivity)
        exact_mod_cast hnormal

/-- Comparing exponents first and mantissas next compares the numbers. -/
theorem compare_size (hd : d.IsCanonical) (hd' : d'.IsCanonical) :
    (compare d.exponent d'.exponent).then (compare d.mantissa d'.mantissa) = cmp d.size d'.size := by
  rcases lt_trichotomy d.exponent d'.exponent with h | h | h
  · rw [compare_lt_iff_lt.2 h, (cmp_eq_lt_iff _ _).2 (size_lt hd hd'.toIsDouble h)]
    rfl
  · have hpow : (0 : Rat) < 2 ^ d'.exponent := by positivity
    rw [compare_eq_iff_eq.2 h, Ordering.eq_then, Dyadic.size, Dyadic.size, h, cmp_mul_pos_right hpow,
      Nat.strictMono_cast.cmp_map_eq, cmp_eq_compare]
  · rw [compare_gt_iff_gt.2 h, (cmp_eq_gt_iff _ _).2 (size_lt hd' hd.toIsDouble h)]
    rfl

theorem value_positive (m : Nat) (e : Int) : Dyadic.value ⟨false, m, e⟩ = Dyadic.size ⟨false, m, e⟩ := by
  simp [Dyadic.value, Dyadic.sign, Dyadic.size]

theorem value_negative (m : Nat) (e : Int) : Dyadic.value ⟨true, m, e⟩ = -Dyadic.size ⟨true, m, e⟩ := by
  simp [Dyadic.value, Dyadic.sign, Dyadic.size]

theorem value_zero (negative : Bool) (e : Int) : Dyadic.value ⟨negative, 0, e⟩ = 0 := by
  simp [Dyadic.value]

theorem size_pos (h : 0 < d.mantissa) : 0 < d.size := by
  unfold Dyadic.size
  positivity

/-- Doubles compare as the numbers that they denote. -/
theorem compare_unpacked {u u' : UnpackedFloat} (hu : Shape.ofUnpacked u = .finite d)
    (hu' : Shape.ofUnpacked u' = .finite d') (hd : d.IsCanonical) (hd' : d'.IsCanonical) :
    u.compare u' = some (cmp d.value d'.value) := by
  have hcompare := compare_size hd hd'
  have hpos {m : Nat} {e : Int} (hm : 0 < m) : 0 < Dyadic.value ⟨false, m, e⟩ := by
    rw [value_positive]
    exact size_pos hm
  have hneg {m : Nat} {e : Int} (hm : 0 < m) : Dyadic.value ⟨true, m, e⟩ < 0 := by
    rw [value_negative]
    exact neg_neg_of_pos (size_pos hm)
  have hanti : StrictAnti (fun r : Rat => -r) := fun _ _ => neg_lt_neg
  cases u with
  | notANumber => cases hu
  | infinity => cases hu
  | zero s =>
    obtain rfl := Shape.finite.inj hu
    rw [value_zero]
    cases u' with
    | notANumber => cases hu'
    | infinity => cases hu'
    | zero s' =>
      obtain rfl := Shape.finite.inj hu'
      rw [value_zero, cmp_self_eq_eq]
      rfl
    | finite s' m' e' hm' =>
      obtain rfl := Shape.finite.inj hu'
      cases s' with
      | positive =>
        rw [isNegative, (cmp_eq_lt_iff _ _).2 (hpos hm')]
        rfl
      | negative =>
        rw [isNegative, (cmp_eq_gt_iff _ _).2 (hneg hm')]
        rfl
  | finite s m e hm =>
    obtain rfl := Shape.finite.inj hu
    cases u' with
    | notANumber => cases hu'
    | infinity => cases hu'
    | zero s' =>
      obtain rfl := Shape.finite.inj hu'
      rw [value_zero]
      cases s with
      | positive =>
        rw [isNegative, (cmp_eq_gt_iff _ _).2 (hpos hm)]
        rfl
      | negative =>
        rw [isNegative, (cmp_eq_lt_iff _ _).2 (hneg hm)]
        rfl
    | finite s' m' e' hm' =>
      obtain rfl := Shape.finite.inj hu'
      cases s with
      | positive =>
        cases s' with
        | positive =>
          rw [isNegative, value_positive, value_positive]
          exact congrArg some hcompare
        | negative =>
          rw [isNegative, isNegative, (cmp_eq_gt_iff _ _).2 ((hneg hm').trans (hpos hm))]
          rfl
      | negative =>
        cases s' with
        | positive =>
          rw [isNegative, isNegative, (cmp_eq_lt_iff _ _).2 ((hneg hm).trans (hpos hm'))]
          rfl
        | negative =>
          rw [isNegative, value_negative, value_negative, hanti.cmp_map_eq, ← cmp_swap]
          exact congrArg (some ·.swap) hcompare

/-- The double is finite and denotes this number. -/
def Denotes (x : Float) (q : Rat) : Prop := ∃ d, Shape.ofFloat x = .finite d ∧ d.value = q

variable {p q : Rat}

theorem compare_floats (hx : Denotes x p) (hy : Denotes y q) :
    x.toModel.unpack.compare y.toModel.unpack = some (cmp p q) := by
  obtain ⟨d, hd, rfl⟩ := hx
  obtain ⟨d', hd', rfl⟩ := hy
  have hcanonical := isCanonical_ofBits hd
  have hcanonical' := isCanonical_ofBits hd'
  rw [ofFloat_eq] at hd hd'
  exact compare_unpacked hd hd' hcanonical hcanonical'

theorem lt_iff (hx : Denotes x p) (hy : Denotes y q) : x < y ↔ p < q := by
  have hcompare := compare_floats hx hy
  have hlt : x < y ↔ x.toModel.unpack.compare y.toModel.unpack = some .lt := by
    show Float.lt x y = true ↔ _
    simp only [Float.lt, decide_eq_true_eq]
    exact beq_iff_eq
  rw [hlt, hcompare, Option.some.injEq, cmp_eq_lt_iff]

theorem beq_iff (hx : Denotes x p) (hy : Denotes y q) : (x == y) = true ↔ p = q := by
  have hcompare := compare_floats hx hy
  have hbeq : (x == y) = true ↔ x.toModel.unpack.compare y.toModel.unpack = some .eq := by
    show (x.toModel.unpack.compare y.toModel.unpack == some .eq) = true ↔ _
    exact beq_iff_eq
  rw [hbeq, hcompare, Option.some.injEq, cmp_eq_eq_iff]

end Grimoire.Decimal
