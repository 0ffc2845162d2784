import Grimoire.Proofs.Decimal.Doubles

/-!
# The double nearest to a whole number

`roundShift` divides by a power of two and rounds to the nearer whole number, and to the even one halfway. Up to
64 bits the double of a whole number denotes that number with all but its 53 leading bits rounded off so
(`ofInt_denotes`). The rounded number is never out of order (`nearest_mono`), and up to `2 ^ 53` it is the number
itself (`nearest_eq_self`).
-/
namespace Grimoire.Decimal

open Float.Model (UnpackedFloat)
open Float.Model.UnpackedFloat (Sign ExtendedMantissa)

/-! ## Rounding off bits -/

/-- `n / 2 ^ k`, rounded to the nearer whole number, and to the even one halfway. -/
def roundShift (n k : Nat) : Nat :=
  if 2 ^ k < 2 * (n % 2 ^ k) ∨ 2 * (n % 2 ^ k) = 2 ^ k ∧ n / 2 ^ k % 2 = 1 then n / 2 ^ k + 1 else n / 2 ^ k

variable {n n' k : Nat}

theorem roundShift_zero (n : Nat) : roundShift n 0 = n := by simp [roundShift, Nat.mod_one]

theorem le_roundShift (n k : Nat) : n / 2 ^ k ≤ roundShift n k := by
  unfold roundShift
  split
  · exact Nat.le_succ _
  · exact Nat.le_refl _

theorem roundShift_le (n k : Nat) : roundShift n k ≤ n / 2 ^ k + 1 := by
  unfold roundShift
  split
  · exact Nat.le_refl _
  · exact Nat.le_succ _

theorem roundShift_mono (k : Nat) (h : n ≤ n') : roundShift n k ≤ roundShift n' k := by
  rcases Nat.eq_or_lt_of_le (Nat.div_le_div_right (c := 2 ^ k) h) with hq | hq
  · have hrest : n % 2 ^ k ≤ n' % 2 ^ k := by
      have hn := Nat.div_add_mod n (2 ^ k)
      have hn' := Nat.div_add_mod n' (2 ^ k)
      rw [hq] at hn
      omega
    unfold roundShift
    rw [hq]
    split
    · next hup =>
      rw [if_pos (by omega)]
    · split <;> omega
  · calc roundShift n k ≤ n / 2 ^ k + 1 := roundShift_le n k
      _ ≤ n' / 2 ^ k := hq
      _ ≤ roundShift n' k := le_roundShift n' k

theorem roundShift_scaled (n k j : Nat) : roundShift (n * 2 ^ j) (k + j) = roundShift n k := by
  have hpos := Nat.two_pow_pos j
  have hdiv : n * 2 ^ j / 2 ^ (k + j) = n / 2 ^ k := by rw [pow_add, Nat.mul_div_mul_right _ _ hpos]
  have hmod : n * 2 ^ j % 2 ^ (k + j) = n % 2 ^ k * 2 ^ j := by rw [pow_add, Nat.mul_mod_mul_right]
  have hlt : 2 ^ (k + j) < 2 * (n % 2 ^ k * 2 ^ j) ↔ 2 ^ k < 2 * (n % 2 ^ k) := by
    rw [pow_add, ← Nat.mul_assoc, Nat.mul_lt_mul_right hpos]
  have heq : 2 * (n % 2 ^ k * 2 ^ j) = 2 ^ (k + j) ↔ 2 * (n % 2 ^ k) = 2 ^ k := by
    rw [pow_add, ← Nat.mul_assoc, Nat.mul_left_inj hpos.ne']
  simp only [roundShift, hdiv, hmod, hlt, heq]

/-! ## Rounding by residual bits -/

/-- The two bits tell on which side of the halfway point the bits shifted out of `n` lie. -/
structure Remembers (em : ExtendedMantissa) (n k : Nat) : Prop where
  mantissa : em.mantissa = n / 2 ^ k
  roundBit : em.roundBit = true ↔ 2 ^ k ≤ 2 * (n % 2 ^ k)
  stickyBit : em.stickyBit = true ↔ 2 * (n % 2 ^ k) ≠ 0 ∧ 2 * (n % 2 ^ k) ≠ 2 ^ k

variable {em : ExtendedMantissa}

theorem Remembers.shiftRightOne (h : Remembers em n k) : Remembers em.shiftRightOne n (k + 1) := by
  obtain ⟨hm, hround, hsticky⟩ := h
  have hlt := Nat.mod_lt n (Nat.two_pow_pos k)
  have hrest : n % 2 ^ (k + 1) = n % 2 ^ k + 2 ^ k * (n / 2 ^ k % 2) := Nat.mod_pow_succ
  have hpow : 2 ^ (k + 1) = 2 * 2 ^ k := by rw [pow_succ, Nat.mul_comm]
  refine ⟨?_, ?_, ?_⟩
  · rw [ExtendedMantissa.shiftRightOne, hm, Nat.div_div_eq_div_mul, pow_succ]
  · rw [hrest, hpow, ExtendedMantissa.shiftRightOne, bne_iff_ne, hm]
    rcases Nat.mod_two_eq_zero_or_one (n / 2 ^ k) with hbit | hbit <;> rw [hbit] <;> omega
  · rw [hrest, hpow, ExtendedMantissa.shiftRightOne, Bool.or_eq_true, hround, hsticky]
    rcases Nat.mod_two_eq_zero_or_one (n / 2 ^ k) with hbit | hbit <;> rw [hbit] <;> omega

theorem remembers_shift (n k : Nat) : Remembers ((⟨n, false, false⟩ : ExtendedMantissa) >>> k) n k := by
  show Remembers (k.repeat ExtendedMantissa.shiftRightOne ⟨n, false, false⟩) n k
  induction k with
  | zero => refine ⟨?_, ?_, ?_⟩ <;> simp [Nat.repeat, Nat.mod_one]
  | succ k ih => exact ih.shiftRightOne

theorem Remembers.rounded (h : Remembers em n k) : em.roundedMantissa = roundShift n k := by
  obtain ⟨hm, hround, hsticky⟩ := h
  have hpos := Nat.two_pow_pos k
  obtain ⟨m, round, sticky⟩ := em
  obtain rfl : m = n / 2 ^ k := hm
  have hround : round = true ↔ 2 ^ k ≤ 2 * (n % 2 ^ k) := hround
  have hsticky : sticky = true ↔ 2 * (n % 2 ^ k) ≠ 0 ∧ 2 * (n % 2 ^ k) ≠ 2 ^ k := hsticky
  unfold roundShift
  cases round with
  | false =>
    have hbelow : 2 * (n % 2 ^ k) < 2 ^ k := by simpa using hround
    rw [if_neg (by omega)]
    cases sticky <;> rfl
  | true =>
    have habove : 2 ^ k ≤ 2 * (n % 2 ^ k) := hround.1 rfl
    cases sticky with
    | false =>
      have hhalf : 2 * (n % 2 ^ k) = 2 ^ k := by
        by_contra hne
        exact Bool.false_ne_true (hsticky.2 ⟨by omega, hne⟩)
      show n / 2 ^ k + n / 2 ^ k % 2 = _
      split <;> omega
    | true =>
      obtain ⟨-, hne⟩ := hsticky.1 rfl
      rw [if_pos (by omega)]
      rfl

/-! ## Doubles that fill their bits -/

/-- A mantissa of 53 bits at an exponent that a double can have. -/
structure FillsBits (m : Nat) (e : Int) : Prop where
  large : 2 ^ 52 ≤ m
  small : m < 2 ^ 53
  low : -1074 ≤ e
  high : e ≤ 971

/-- The number of an unpacked double that fills its bits. -/
def IsNormal (u : UnpackedFloat) (q : Rat) : Prop :=
  ∃ s m e h, u = .finite s m e h ∧ FillsBits m e ∧ Dyadic.value ⟨isNegative s, m, e⟩ = q

variable {u : UnpackedFloat} {q : Rat}

/-- Packing a double that fills its bits loses nothing. -/
theorem unpack_pack (h : IsNormal u q) : (Float.Model.pack u).unpack = u := by
  obtain ⟨s, m, e, hm, rfl, ⟨hlarge, hsmall, hlow, hhigh⟩, -⟩ := h
  obtain ⟨field, hbiased⟩ : ∃ field : Nat, e + 1075 = field := ⟨(e + 1075).toNat, by omega⟩
  have hfield : (BitVec.ofNat 11 field).toNat = field := by
    rw [BitVec.toNat_ofNat]
    exact Nat.mod_eq_of_lt (by omega)
  have hpacked : UnpackedFloat.pack .binary64 (.finite s m e hm) =
      UnpackedFloat.packComponents .binary64 s (BitVec.ofNat 11 field) (BitVec.ofNat 52 m) := by
    have hexponent : (e + (Float.Model.Format.binary64.exponentBias : Nat) + (52 : Nat)).toNat = field := by
      show (e + (1023 : Nat) + (52 : Nat)).toNat = field
      omega
    have hlog : m.log2 = 52 := (Nat.log2_eq_iff hm.ne').2 ⟨hlarge, hsmall⟩
    have hfinite : ¬ 2 ^ 11 ≤ field + 1 := by omega
    rw [UnpackedFloat.pack, hexponent, hlog, if_neg hfinite]
    rfl
  have hlast : BitVec.ofNat 11 field ≠ -1#11 := by
    rw [Ne, ← BitVec.toNat_inj, hfield]
    show field ≠ 2047
    omega
  have hfirst : BitVec.ofNat 11 field ≠ 0#11 := by
    rw [Ne, ← BitVec.toNat_inj, hfield]
    show field ≠ 0
    omega
  have hmantissa : (1#1 ++ BitVec.ofNat 52 m).toNat = m := by
    rw [toNat_leading, BitVec.toNat_ofNat]
    omega
  have hexponent : (field : Int) - (Float.Model.Format.binary64.exponentBias + (52 : Nat)) = e := by
    show (field : Int) - ((1023 : Nat) + (52 : Nat)) = e
    omega
  show UnpackedFloat.unpack .binary64 (UnpackedFloat.pack .binary64 (.finite s m e hm)) = _
  rw [hpacked]
  simp only [UnpackedFloat.unpack, UnpackedFloat.unpackExponent_packComponents,
    UnpackedFloat.unpackMantissa_packComponents, UnpackedFloat.unpackSign_packComponents, Sign.ofBitVec_toBitVec,
    if_neg hlast, if_neg hfirst, hmantissa, hfield, hexponent]

theorem denotes_of_isNormal {x : Float} (h : IsNormal x.toModel.unpack q) : Denotes x q := by
  obtain ⟨s, m, e, hm, hx, -, hq⟩ := h
  exact ⟨⟨isNegative s, m, e⟩, by rw [ofFloat_eq, hx]; rfl, hq⟩

/-! ## Rounding to 53 bits -/

variable {M : Nat} {E : Int}

theorem shiftToTargetExponent_eq (hM : M.log2 = 52 + k) (hlow : -1074 ≤ E + k) :
    UnpackedFloat.shiftToTargetExponent .binary64 M E .exact =
      ((⟨M, false, false⟩ : ExtendedMantissa) >>> k, E + k) := by
  have htarget : Float.Model.Format.binary64.targetExponent (Float.Model.totalExponent M E) = E + k := by
    show max (M.log2 + 1 + E - (53 : Nat)) (-1074) = E + k
    omega
  have hshift : (E + k - E).toNat = k := by omega
  rw [UnpackedFloat.shiftToTargetExponent, htarget, UnpackedFloat.shiftToExponent, hshift]
  rfl

/-- A mantissa of 53 bits is not rounded. -/
theorem round_of_log2_eq (s : Sign) (hpos : 0 < M) (hM : M.log2 = 52) (hlow : -1074 ≤ E) :
    UnpackedFloat.roundWithAccuracy .binary64 s M E .exact = .finite s M E hpos := by
  have hshift : UnpackedFloat.shiftToTargetExponent .binary64 M E .exact = (⟨M, false, false⟩, E) := by
    rw [shiftToTargetExponent_eq (k := 0) hM (by omega), Int.natCast_zero, Int.add_zero]
    rfl
  have hrounded : (⟨M, false, false⟩ : ExtendedMantissa).roundedMantissa = M := rfl
  rw [UnpackedFloat.roundWithAccuracy, hshift]
  dsimp only
  rw [hrounded, hshift]
  exact dif_neg hpos.ne'

/-- What is left has 53 bits, or is the first number of 54. -/
theorem roundShift_bounds (hM : M.log2 = 52 + k) : 2 ^ 52 ≤ roundShift M k ∧ roundShift M k ≤ 2 ^ 53 := by
  have hne : M ≠ 0 := by
    rintro rfl
    simp at hM
    omega
  obtain ⟨hlarge, hsmall⟩ := (Nat.log2_eq_iff hne).1 hM
  constructor
  · refine le_trans ((Nat.le_div_iff_mul_le (Nat.two_pow_pos k)).2 ?_) (le_roundShift M k)
    rwa [← pow_add]
  · refine (roundShift_le M k).trans (Nat.div_lt_of_lt_mul ?_)
    rw [← pow_add]
    exact hsmall.trans_le (Nat.pow_le_pow_right (by decide) (by omega))

/-- The second shift puts right a mantissa that rounding has made too long. -/
theorem isNormal_round (hM : M.log2 = 52 + k) (hlow : -1074 ≤ E + k) (hhigh : E + k ≤ 970) :
    IsNormal (.roundWithAccuracy .binary64 .positive M E .exact) (roundShift M k * 2 ^ (E + k)) := by
  obtain ⟨hlarge, hsmall⟩ := roundShift_bounds hM
  have hround : ((⟨M, false, false⟩ : ExtendedMantissa) >>> k).roundedMantissa = roundShift M k :=
    (remembers_shift M k).rounded
  rw [UnpackedFloat.roundWithAccuracy, shiftToTargetExponent_eq hM hlow]
  dsimp only
  rw [hround]
  rcases Nat.eq_or_lt_of_le hsmall with hcarry | hsmall
  · have hlog : (roundShift M k).log2 = 52 + 1 := by
      rw [hcarry]
      exact Nat.log2_two_pow
    rw [shiftToTargetExponent_eq hlog (by omega), hcarry]
    dsimp only
    refine ⟨.positive, 2 ^ 52, E + k + 1, by decide, rfl, ⟨Nat.le_refl _, by decide, by omega, by omega⟩, ?_⟩
    rw [isNegative, value_positive, Dyadic.size]
    push_cast
    rw [zpow_add₀ two_ne_zero, zpow_one]
    ring
  · have hlog : (roundShift M k).log2 = 52 + 0 := (Nat.log2_eq_iff (by omega)).2 ⟨hlarge, hsmall⟩
    have hpos : 0 < roundShift M k := by omega
    rw [shiftToTargetExponent_eq hlog (by omega), Int.natCast_zero, Int.add_zero]
    refine ⟨.positive, roundShift M k, E + k, hpos, dif_neg hpos.ne', ⟨hlarge, hsmall, hlow, by omega⟩, ?_⟩
    rw [isNegative, value_positive, Dyadic.size]

/-! ## The double of a natural number -/

/-- The number with all but its 53 leading bits rounded off. -/
def roundedNat (n : Nat) : Nat := roundShift n (n.log2 - 52) * 2 ^ (n.log2 - 52)

theorem roundedNat_of_lt (h : n < 2 ^ 53) : roundedNat n = n := by
  have hlog : n.log2 - 52 = 0 := by
    rcases Nat.eq_zero_or_pos n with rfl | hpos
    · rfl
    · have := (Nat.log2_lt hpos.ne').2 h
      omega
  rw [roundedNat, hlog, roundShift_zero, pow_zero, Nat.mul_one]

theorem log2_mul_two_pow (hpos : 0 < n) (j : Nat) : (n * 2 ^ j).log2 = n.log2 + j := by
  have hscale := Nat.two_pow_pos j
  refine (Nat.log2_eq_iff (Nat.mul_pos hpos hscale).ne').2 ⟨?_, ?_⟩
  · rw [pow_add]
    exact Nat.mul_le_mul_right _ (Nat.log2_self_le hpos.ne')
  · rw [Nat.add_right_comm, pow_add]
    exact Nat.mul_lt_mul_of_pos_right Nat.lt_log2_self hscale

/-- Below `2 ^ 53` the zeros that fill the mantissa come first, and nothing is rounded. -/
theorem unpack_toFloat {j : Nat} (hpos : 0 < n * 2 ^ j) (hj : n.log2 + j = 52) :
    n.toUInt64.toFloat.toModel.unpack = .finite .positive (n * 2 ^ j) (-j) hpos := by
  have hn : 0 < n := Nat.pos_of_mul_pos_right hpos
  have hlog : (n * 2 ^ j).log2 = 52 + 0 := by rw [log2_mul_two_pow hn, hj]
  have hsmall : n < 2 ^ 53 := (Nat.log2_lt hn.ne').1 (by omega)
  have htoNat : n.toUInt64.toNat = n := Nat.mod_eq_of_lt (by omega)
  have htarget : Float.Model.Format.binary64.targetExponent (Float.Model.totalExponent n 0) = -j := by
    show max ((n.log2 : Int) + 1 + 0 - (53 : Nat)) (-1074) = -j
    omega
  have hround : UnpackedFloat.ofNat .binary64 n = .roundWithAccuracy .binary64 .positive (n * 2 ^ j) (-j) .exact := by
    have hcompare : compare (n : Int) 0 = .gt := compare_gt_iff_gt.2 (by omega)
    have hshift : (0 - -(j : Int)).toNat = j := by omega
    rw [UnpackedFloat.ofNat, UnpackedFloat.ofInt, UnpackedFloat.normalize, hcompare]
    dsimp only
    rw [UnpackedFloat.round, Int.toNat_natCast, htarget, UnpackedFloat.decreaseExponent, hshift, Nat.shiftLeft_eq,
      Int.zero_sub]
  have hfills : FillsBits (n * 2 ^ j) (-j) := by
    obtain ⟨hlarge, hsmall⟩ := (Nat.log2_eq_iff hpos.ne').1 hlog
    exact ⟨hlarge, hsmall, by omega, by omega⟩
  show (Float.Model.pack (UnpackedFloat.ofNat .binary64 n.toUInt64.toNat)).unpack = _
  rw [htoNat, hround, round_of_log2_eq .positive hpos hlog (by omega)]
  exact unpack_pack ⟨.positive, n * 2 ^ j, -j, hpos, rfl, hfills, rfl⟩

/-- Zeros behind the number, and the point in front of them, change nothing. -/
theorem isNormal_scaled {j : Nat} (k : Nat) (hpos : 0 < n) (h : n < 2 ^ 64) (hj : n.log2 + j = 52 + k) :
    IsNormal (.roundWithAccuracy .binary64 .positive (n * 2 ^ j) (-j) .exact) (roundedNat n) := by
  have hlog64 : n.log2 < 64 := (Nat.log2_lt hpos.ne').2 h
  have hlog : (n * 2 ^ j).log2 = 52 + k := by rw [log2_mul_two_pow hpos, hj]
  have hnearest : (roundShift (n * 2 ^ j) k : Rat) * 2 ^ (-(j : Int) + k) = roundedNat n := by
    rcases Nat.le_total 52 n.log2 with hlarge | hsmall
    · obtain ⟨i, hi⟩ : ∃ i, n.log2 = 52 + i := ⟨n.log2 - 52, by omega⟩
      obtain rfl : k = i + j := by omega
      have hexponent : -(j : Int) + (i + j : Nat) = i := by omega
      rw [roundShift_scaled, hexponent, roundedNat, hi, Nat.add_sub_cancel_left]
      push_cast
      rfl
    · obtain ⟨i, hi⟩ : ∃ i, n.log2 + i = 52 := ⟨52 - n.log2, by omega⟩
      obtain rfl : j = i + k := by omega
      have hexponent : -((i + k : Nat) : Int) + k = -i := by omega
      have hwhole : roundShift (n * 2 ^ (i + k)) k = n * 2 ^ i := by
        rw [pow_add, ← Nat.mul_assoc]
        simpa [roundShift_zero] using roundShift_scaled (n * 2 ^ i) 0 k
      have hsame : roundedNat n = n := roundedNat_of_lt ((Nat.log2_lt hpos.ne').1 (by omega))
      rw [hwhole, hexponent, hsame, zpow_neg, zpow_natCast]
      push_cast
      field_simp
  rw [← hnearest]
  exact isNormal_round hlog (by omega) (by omega)

theorem isNormal_pack (h : IsNormal u q) : IsNormal (Float.Model.pack u).unpack q := by
  rwa [unpack_pack h]

theorem ofNat_of_lt (hpos : 0 < n) (h : n < 2 ^ 53) : ∃ j, n.log2 + j = 104 ∧
    (Float.ofNat n).toModel = .pack (.roundWithAccuracy .binary64 .positive (n * 2 ^ j) (-j) .exact) := by
  have hlog : n.log2 < 53 := (Nat.log2_lt hpos.ne').2 h
  obtain ⟨j, hj⟩ : ∃ j, n.log2 + j = 52 := ⟨52 - n.log2, by omega⟩
  have hfilled : 0 < n * 2 ^ j := Nat.mul_pos hpos (Nat.two_pow_pos j)
  have hproduct : Float.ofNat n = n.toUInt64.toFloat * Float.ofBits 0x3FF0000000000000 := dif_pos ⟨h, by decide⟩
  have hone : (Float.ofBits 0x3FF0000000000000).toModel.unpack = .finite .positive (2 ^ 52) (-52) (by decide) := rfl
  refine ⟨j + 52, by omega, ?_⟩
  rw [hproduct]
  show Float.Model.pack (.mul .binary64 n.toUInt64.toFloat.toModel.unpack _) = _
  rw [unpack_toFloat hfilled hj, hone, pow_add, ← Nat.mul_assoc, Nat.cast_add, Int.neg_add]
  rfl

theorem ofNat_of_le (h : 2 ^ 53 ≤ n) :
    (Float.ofNat n).toModel = .pack (.roundWithAccuracy .binary64 .positive (n * 2 ^ 53) (-(53 : Nat)) .exact) := by
  have hpos : 0 < n := by omega
  have hlow : ¬ (0 : Int) < -((2 : Int) ^ 11 + n.log2) := by omega
  have hhigh : ¬ (0 : Int) > 2 ^ 11 := by decide
  have hscientific : Float.ofNat n = .ofModel (.ofScientific n 0) := dif_neg fun hn => by omega
  rw [hscientific]
  show Float.Model.pack (UnpackedFloat.ofScientific .binary64 n 0) = _
  unfold UnpackedFloat.ofScientific
  rw [dif_neg hpos.ne', if_neg hhigh, if_neg hlow, if_pos (Int.le_refl 0), ← Nat.shiftLeft_eq,
    ← Nat.mul_one (n <<< 53)]
  rfl

/-- Up to 64 bits the double denotes the number rounded to 53 bits. -/
theorem isNormal_ofNat (hpos : 0 < n) (h : n < 2 ^ 64) : IsNormal (Float.ofNat n).toModel.unpack (roundedNat n) := by
  by_cases hsmall : n < 2 ^ 53
  · obtain ⟨j, hj, hproduct⟩ := ofNat_of_lt hpos hsmall
    rw [hproduct]
    exact isNormal_pack (isNormal_scaled 52 hpos h hj)
  · have hlog : 53 ≤ n.log2 := (Nat.le_log2 hpos.ne').2 (by omega)
    rw [ofNat_of_le (by omega)]
    exact isNormal_pack (isNormal_scaled (n.log2 + 1) hpos h (by omega))

/-! ## The double of a whole number -/

/-- The number with all but its 53 leading bits rounded off. -/
def rounded (n : Int) : Int := n.sign * roundedNat n.natAbs

theorem isNormal_neg {x : Float} (h : IsNormal x.toModel.unpack q) : IsNormal (-x).toModel.unpack (-q) := by
  obtain ⟨s, m, e, hm, hx, hfills, hq⟩ := h
  show IsNormal (Float.Model.pack x.toModel.unpack.neg).unpack (-q)
  rw [hx]
  refine isNormal_pack ⟨-s, m, e, hm, rfl, hfills, ?_⟩
  rw [← hq]
  cases s with
  | positive => exact (value_negative m e).trans (congrArg Neg.neg (value_positive m e).symm)
  | negative =>
    show Dyadic.value ⟨false, m, e⟩ = -Dyadic.value ⟨true, m, e⟩
    rw [value_negative, neg_neg, value_positive]
    rfl

/-- **The double of a whole number** denotes that number rounded to 53 bits. -/
theorem ofInt_denotes {n : Int} (h : n.natAbs < 2 ^ 64) : Denotes (ofInt n) (rounded n) := by
  rcases lt_trichotomy n 0 with hneg | rfl | hpos
  · have hnormal := isNormal_neg (isNormal_ofNat (Int.natAbs_pos.2 hneg.ne) h)
    have hdouble : ofInt n = -(Float.ofNat n.natAbs) := if_pos hneg
    rw [hdouble, rounded, Int.sign_eq_neg_one_of_neg hneg]
    push_cast
    rw [neg_one_mul]
    exact denotes_of_isNormal hnormal
  · have hzero : Shape.ofFloat (ofInt 0) = .finite ⟨false, 0, -1074⟩ := by decide +kernel
    exact ⟨_, hzero, value_zero false (-1074)⟩
  · have hnormal := isNormal_ofNat (Int.natAbs_pos.2 hpos.ne') h
    have hdouble : ofInt n = Float.ofNat n.natAbs := if_neg (by omega)
    rw [hdouble, rounded, Int.sign_eq_one_of_pos hpos]
    push_cast
    rw [one_mul]
    exact denotes_of_isNormal hnormal

example : rounded 9007199254740993 = 9007199254740992 := by decide +kernel

/-- Up to `2 ^ 53` nothing is rounded off. -/
theorem rounded_eq_self {n : Int} (h : n.natAbs ≤ 2 ^ 53) : rounded n = n := by
  have hsame : roundedNat n.natAbs = n.natAbs := by
    rcases Nat.eq_or_lt_of_le h with hlast | hsmall
    · rw [hlast]
      decide +kernel
    · exact roundedNat_of_lt hsmall
  rw [rounded, hsame, Int.sign_mul_natAbs]

/-- Rounding stays between the powers of two around the number. -/
theorem roundedNat_bounds (hpos : 0 < n) : 2 ^ n.log2 ≤ roundedNat n ∧ roundedNat n ≤ 2 ^ (n.log2 + 1) := by
  rcases Nat.lt_or_ge n.log2 53 with hsmall | hlarge
  · rw [roundedNat_of_lt ((Nat.log2_lt hpos.ne').1 hsmall)]
    exact ⟨Nat.log2_self_le hpos.ne', Nat.lt_log2_self.le⟩
  · obtain ⟨k, hk⟩ : ∃ k, n.log2 = 52 + k := ⟨n.log2 - 52, by omega⟩
    obtain ⟨hlow, hhigh⟩ := roundShift_bounds hk
    rw [roundedNat, hk, Nat.add_sub_cancel_left, Nat.add_right_comm, pow_add, pow_add]
    exact ⟨Nat.mul_le_mul_right _ hlow, Nat.mul_le_mul_right _ hhigh⟩

theorem roundedNat_mono (h : n ≤ n') : roundedNat n ≤ roundedNat n' := by
  rcases Nat.eq_zero_or_pos n with rfl | hpos
  · exact Nat.zero_le _
  have hlog : n.log2 ≤ n'.log2 := (Nat.le_log2 (by omega)).2 ((Nat.log2_self_le hpos.ne').trans h)
  rcases Nat.eq_or_lt_of_le hlog with heq | hlt
  · rw [roundedNat, roundedNat, heq]
    exact Nat.mul_le_mul_right _ (roundShift_mono _ h)
  · calc roundedNat n ≤ 2 ^ (n.log2 + 1) := (roundedNat_bounds hpos).2
      _ ≤ 2 ^ n'.log2 := Nat.pow_le_pow_right (by decide) hlt
      _ ≤ roundedNat n' := (roundedNat_bounds (hpos.trans_le h)).1

/-- Rounding never changes the order. -/
theorem rounded_mono {a b : Int} (h : a ≤ b) : rounded a ≤ rounded b := by
  have hsign {c : Int} (hc : 0 ≤ c) : rounded c = roundedNat c.natAbs := by
    rcases hc.eq_or_lt with rfl | hpos
    · rfl
    · rw [rounded, Int.sign_eq_one_of_pos hpos, one_mul]
  have hneg {c : Int} (hc : c < 0) : rounded c = -roundedNat c.natAbs := by
    rw [rounded, Int.sign_eq_neg_one_of_neg hc, neg_one_mul]
  rcases Int.lt_or_le b 0 with hb | hb
  · have hsizes : roundedNat b.natAbs ≤ roundedNat a.natAbs := roundedNat_mono (by omega)
    rw [hneg hb, hneg (h.trans_lt hb)]
    omega
  · rcases Int.lt_or_le a 0 with ha | ha
    · rw [hneg ha, hsign hb]
      omega
    · have hsizes : roundedNat a.natAbs ≤ roundedNat b.natAbs := roundedNat_mono (by omega)
      rw [hsign ha, hsign hb]
      omega

end Grimoire.Decimal
