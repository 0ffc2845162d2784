import Grimoire.Decimal.Shortest
import Mathlib.Data.Nat.Digits.Defs
import Mathlib.Tactic.Ring

/-!
# How large the shortest digits are

The shortest digits of a double lie in its rounding interval, so they have their decimal point behind the
sixteenth place exactly if the double is at least `10 ^ 16` (`isRaised_ofDyadic`): the interval of a smaller one
ends below that number, and the interval of a larger one begins above it. The number itself is a double, and
its digits are a single one.
-/
namespace Grimoire.Decimal

/-! ## Digits -/

/-- Where the decimal point stands, counted from the first digit. -/
def Digits.point (d : Digits) : Int := numeralLength d.digits + d.exponent

/-- The point stands behind the sixteenth place. -/
def Digits.IsRaised (d : Digits) : Prop := d.digits ≠ 0 ∧ 16 < d.point

variable {n m num den : Nat} {e p : Int}

theorem numeralLength_le_iff {k : Nat} (hk : 0 < k) : numeralLength n ≤ k ↔ n < 10 ^ k :=
  Nat.length_toDigits_le_iff (by decide) hk

theorem numeralLength_pos (n : Nat) : 0 < numeralLength n :=
  List.length_pos_iff.2 Nat.toDigits_ne_nil

/-- Digits are raised exactly if the number they denote is at least `10 ^ 16`. -/
theorem isRaised_iff : Digits.IsRaised ⟨n, e⟩ ↔ 10 ^ 16 * 10 ^ (-e).toNat ≤ n * 10 ^ e.toNat := by
  have hpos := numeralLength_pos n
  simp only [Digits.IsRaised, Digits.point]
  by_cases hn : n = 0
  · subst hn
    simp
  rcases Int.lt_or_le 15 e with he | he
  · -- Any digit at all is enough.
    obtain ⟨k, rfl⟩ : ∃ k : Nat, e = 16 + k := ⟨(e - 16).toNat, by omega⟩
    have hleft : (-(16 + (k : Int))).toNat = 0 := by omega
    have hright : (16 + (k : Int)).toNat = 16 + k := by omega
    rw [hleft, hright, pow_add]
    have hpow : 1 ≤ 10 ^ k := Nat.one_le_pow _ _ (by decide)
    have hone : 1 ≤ n * 10 ^ k := Nat.mul_pos (Nat.pos_of_ne_zero hn) hpow
    refine ⟨fun _ => ?_, fun _ => ⟨hn, by omega⟩⟩
    calc 10 ^ 16 * 10 ^ 0 ≤ 10 ^ 16 * (n * 10 ^ k) := by rw [pow_zero]; exact Nat.mul_le_mul_left _ hone
      _ = n * (10 ^ 16 * 10 ^ k) := by ring
  · have hplaces : (16 : Int) < numeralLength n + e ↔ 10 ^ (16 - e).toNat ≤ n := by
      have hlength := numeralLength_le_iff (n := n) (k := (16 - e).toNat) (by omega)
      rw [← Nat.not_lt, ← hlength]
      omega
    rw [hplaces]
    rcases Int.lt_or_le e 0 with hneg | hnonneg
    · have hsum : (16 - e).toNat = 16 + (-e).toNat := by omega
      have hzero : e.toNat = 0 := by omega
      rw [hsum, hzero, pow_add, pow_zero, Nat.mul_one]
      exact and_iff_right hn
    · have hsum : 16 = (16 - e).toNat + e.toNat := by omega
      have hzero : (-e).toNat = 0 := by omega
      have hsplit : 10 ^ 16 * 10 ^ (-e).toNat = 10 ^ (16 - e).toNat * 10 ^ e.toNat := by
        rw [hzero, pow_zero, Nat.mul_one, ← pow_add, ← hsum]
      rw [hsplit, Nat.mul_le_mul_right_iff (Nat.pow_pos (by decide))]
      exact and_iff_right hn

theorem numeralLength_of_trailing (hn : n ≠ 0) (hzero : n % 10 = 0) :
    numeralLength n = numeralLength (n / 10) + 1 := by
  have hge : ¬ n < 10 := by omega
  rw [numeralLength, Nat.toDigits_eq_if (by decide), if_neg hge, List.length_append]
  rfl

/-- Dropping zeros keeps the point where it is. -/
theorem isRaised_trim (bound : Nat) : (Digits.trim n e bound).IsRaised ↔ Digits.IsRaised ⟨n, e⟩ := by
  induction bound generalizing n e with
  | zero => rfl
  | succ bound ih =>
    rw [Digits.trim]
    split
    · next h =>
      obtain ⟨hn, hzero⟩ := h
      have hlength := numeralLength_of_trailing hn hzero
      rw [ih]
      simp only [Digits.IsRaised, Digits.point]
      omega
    · rfl

/-! ## The search -/

variable {i : Interval}

/-- What is found on a grid lies between the ends. -/
theorem onGrid?_within (h : i.onGrid? e = some n) :
    i.low * 10 ^ (-e).toNat ≤ n * 10 ^ e.toNat * i.denominator ∧
      n * 10 ^ e.toNat * i.denominator ≤ i.high * 10 ^ (-e).toNat := by
  have within {n num den : Nat} (h : i.contains n num den = true) :
      i.low * den ≤ n * num * i.denominator ∧ n * num * i.denominator ≤ i.high * den := by
    unfold Interval.contains at h
    split at h
    · simpa using h
    · have hstrict : i.low * den < n * num * i.denominator ∧ n * num * i.denominator < i.high * den := by simpa using h
      exact ⟨hstrict.1.le, hstrict.2.le⟩
  unfold Interval.onGrid? at h
  dsimp only at h
  split at h
  · next hbelow habove =>
    split at h
    · obtain rfl := Option.some.inj h
      exact within hbelow
    · obtain rfl := Option.some.inj h
      exact within habove
  · next hbelow _ =>
    obtain rfl := Option.some.inj h
    exact within hbelow
  · next _ habove =>
    obtain rfl := Option.some.inj h
    exact within habove
  · simp at h

/-- The search ends on a grid with a point in the interval, or no grid of those looked at has one. -/
theorem search_cases (point : Int) (more count : Nat) :
    (∃ e n, i.onGrid? e = some n ∧ i.search point more count = ⟨n, e⟩) ∨
      (∀ c, count ≤ c → c < count + more → i.onGrid? (point - c) = none) ∧
        i.search point more count = ⟨i.value / i.denominator, point - (count + more : Nat)⟩ := by
  induction more generalizing count with
  | zero => exact .inr ⟨fun c h h' => by omega, rfl⟩
  | succ more ih =>
    rw [Interval.search]
    cases hgrid : i.onGrid? (point - count) with
    | some n => exact .inl ⟨_, n, hgrid, rfl⟩
    | none =>
      rcases ih (count + 1) with hfound | ⟨hnone, hlast⟩
      · exact .inl hfound
      · refine .inr ⟨fun c hc hlt => ?_, ?_⟩
        · rcases Nat.eq_or_lt_of_le hc with rfl | hc
          · exact hgrid
          · exact hnone c hc (by omega)
        · rw [show count + (more + 1) = count + 1 + more by omega]
          exact hlast

/-! ## The interval of a double -/

/-- The mantissa fills its 53 bits, or the double is one of the smallest. -/
structure Dyadic.IsDouble (d : Dyadic) : Prop where
  small : d.mantissa < 2 ^ 53
  normal : 2 ^ 52 ≤ d.mantissa ∨ d.exponent = -1074

/-- Is the number at least `n`, its sign apart? -/
def Dyadic.atLeast (n : Nat) (d : Dyadic) : Bool :=
  n * 2 ^ (-d.exponent).toNat ≤ d.mantissa * 2 ^ d.exponent.toNat

theorem isDouble_ofBits {bits : Nat} {d : Dyadic} (h : Shape.ofBits bits = .finite d) : d.IsDouble := by
  have hfraction : bits % Nat.pow 2 52 < 2 ^ 52 := Nat.mod_lt _ (by decide)
  unfold Shape.ofBits at h
  dsimp only at h
  split at h
  · split at h <;> cases h
  · split at h
    · obtain rfl := Shape.finite.inj h
      exact ⟨hfraction.trans (by decide), .inr rfl⟩
    · obtain rfl := Shape.finite.inj h
      refine ⟨?_, .inl (Nat.le_add_right _ _)⟩
      show 2 ^ 52 + bits % Nat.pow 2 52 < 2 ^ 53
      omega

variable {d : Dyadic}

/-- The scale of an interval: a denominator up to the exponent 1, and a factor behind it. Up to the exponent 0
every double is below `10 ^ 16`, and behind the exponent 1 every double is beyond it. -/
theorem scale_cases (e : Int) :
    (∃ k : Nat, e = -k ∧ 2 ^ (e - 2).toNat = 1 ∧ 2 ^ (2 - e).toNat = 4 * 2 ^ k) ∨
      (e = 1 ∧ 2 ^ (e - 2).toNat = 1 ∧ 2 ^ (2 - e).toNat = 2) ∨
      ∃ k : Nat, e = k + 2 ∧ 2 ^ (e - 2).toNat = 2 ^ k ∧ 2 ^ (2 - e).toNat = 1 := by
  rcases Int.lt_or_le 0 e with h | h
  · rcases Int.lt_or_le 1 e with h' | h'
    · refine .inr (.inr ⟨(e - 2).toNat, by omega, rfl, ?_⟩)
      rw [show (2 - e).toNat = 0 by omega, pow_zero]
    · obtain rfl : e = 1 := by omega
      exact .inr (.inl ⟨rfl, rfl, rfl⟩)
  · refine .inl ⟨(-e).toNat, by omega, ?_, ?_⟩
    · rw [show (e - 2).toNat = 0 by omega, pow_zero]
    · rw [show (2 - e).toNat = 2 + (-e).toNat by omega, pow_add]
      rfl

/-- The interval over its scale: the low end is half a unit below the value, or nearer. -/
theorem interval_eq (d : Dyadic) :
    (Interval.ofDyadic d).value = 4 * d.mantissa * 2 ^ (d.exponent - 2).toNat ∧
      (Interval.ofDyadic d).high = (4 * d.mantissa + 2) * 2 ^ (d.exponent - 2).toNat ∧
      (Interval.ofDyadic d).denominator = 2 ^ (2 - d.exponent).toNat ∧
      ∃ gap, 1 ≤ gap ∧ gap ≤ 2 ∧ (Interval.ofDyadic d).low = (4 * d.mantissa - gap) * 2 ^ (d.exponent - 2).toNat := by
  refine ⟨rfl, rfl, rfl, if d.mantissa = Nat.pow 2 52 ∧ d.exponent > -1074 then 1 else 2, ?_, ?_, rfl⟩
  · split <;> omega
  · split <;> omega

/-- The value of the interval is the number. -/
theorem atLeast_iff (d : Dyadic) : d.atLeast (10 ^ 16) = true ↔
    10 ^ 16 * (Interval.ofDyadic d).denominator ≤ (Interval.ofDyadic d).value := by
  obtain ⟨hvalue, -, hdenominator, -⟩ := interval_eq d
  rw [hvalue, hdenominator, Dyadic.atLeast, decide_eq_true_eq]
  rcases scale_cases d.exponent with ⟨k, he, hup, hdown⟩ | ⟨he, hup, hdown⟩ | ⟨k, he, hup, hdown⟩
  · rw [hup, hdown, show (-d.exponent).toNat = k by omega, show d.exponent.toNat = 0 by omega]
    omega
  · rw [hup, hdown, show (-d.exponent).toNat = 0 by omega, show d.exponent.toNat = 1 by omega]
    omega
  · rw [hup, hdown, show (-d.exponent).toNat = 0 by omega, show d.exponent.toNat = k + 2 by omega, pow_add]
    have hfactor : d.mantissa * (2 ^ k * 2 ^ 2) = 4 * d.mantissa * 2 ^ k := by ring
    omega

/-- The interval of a double below `10 ^ 16` ends below it. -/
theorem high_lt (hd : d.IsDouble) (h : d.atLeast (10 ^ 16) = false) :
    (Interval.ofDyadic d).high < 10 ^ 16 * (Interval.ofDyadic d).denominator := by
  have hbelow : ¬ 10 ^ 16 * (Interval.ofDyadic d).denominator ≤ (Interval.ofDyadic d).value := by
    rw [← atLeast_iff, h]
    decide
  obtain ⟨hvalue, hhigh, hdenominator, -⟩ := interval_eq d
  obtain ⟨hsmall, hnormal⟩ := hd
  rw [hvalue, hdenominator] at hbelow
  rw [hhigh, hdenominator]
  rcases scale_cases d.exponent with ⟨k, he, hup, hdown⟩ | ⟨he, hup, hdown⟩ | ⟨k, he, hup, hdown⟩
  · have hpow : 1 ≤ 2 ^ k := Nat.one_le_pow _ _ (by decide)
    rw [hup, hdown]
    omega
  · rw [hup, hdown] at hbelow ⊢
    omega
  · have hpow : 4 * d.mantissa ≤ 4 * d.mantissa * 2 ^ k := Nat.le_mul_of_pos_right _ (Nat.pow_pos (by decide))
    rw [hup, hdown] at hbelow
    omega

/-- The interval of a double beyond `10 ^ 16` begins beyond it; the interval of that number itself does not. -/
theorem le_low (hd : d.IsDouble) (h : d.atLeast (10 ^ 16) = true)
    (hne : ¬ (d.mantissa = 5000000000000000 ∧ d.exponent = 1)) :
    10 ^ 16 * (Interval.ofDyadic d).denominator ≤ (Interval.ofDyadic d).low := by
  rw [atLeast_iff] at h
  obtain ⟨hvalue, -, hdenominator, gap, -, hgap, hlow⟩ := interval_eq d
  obtain ⟨hsmall, hnormal⟩ := hd
  rw [hvalue, hdenominator] at h
  rw [hlow, hdenominator]
  rcases scale_cases d.exponent with ⟨k, he, hup, hdown⟩ | ⟨he, hup, hdown⟩ | ⟨k, he, hup, hdown⟩
  · have hpow : 1 ≤ 2 ^ k := Nat.one_le_pow _ _ (by decide)
    rw [hup, hdown] at h
    omega
  · rw [hup, hdown] at h ⊢
    omega
  · have hpow : 4 * d.mantissa - gap ≤ (4 * d.mantissa - gap) * 2 ^ k :=
      Nat.le_mul_of_pos_right _ (Nat.pow_pos (by decide))
    rw [hup, hdown]
    omega

/-- A whole number is found where the grid is that of the whole numbers. -/
theorem onGrid?_whole (hd : d.IsDouble) (h : d.atLeast (10 ^ 16) = true) :
    (Interval.ofDyadic d).onGrid? 0 ≠ none := by
  rw [atLeast_iff] at h
  obtain ⟨hvalue, hhigh, hdenominator, gap, hpos, -, hlow⟩ := interval_eq d
  obtain ⟨hsmall, -⟩ := hd
  have hup : 0 < 2 ^ (d.exponent - 2).toNat := Nat.pow_pos (by decide)
  have hwhole : (Interval.ofDyadic d).value / (Interval.ofDyadic d).denominator * (Interval.ofDyadic d).denominator =
      (Interval.ofDyadic d).value := by
    refine Nat.div_mul_cancel ?_
    rw [hvalue, hdenominator] at h ⊢
    rcases scale_cases d.exponent with ⟨k, he, hup, hdown⟩ | ⟨he, hup, hdown⟩ | ⟨k, he, hup, hdown⟩
    · have hpow : 1 ≤ 2 ^ k := Nat.one_le_pow _ _ (by decide)
      rw [hup, hdown] at h
      omega
    · rw [hup, hdown]
      omega
    · rw [hdown]
      exact one_dvd _
  have hm : 0 < d.mantissa := by
    refine Nat.pos_of_ne_zero fun hm => ?_
    have hdown : 0 < 2 ^ (2 - d.exponent).toNat := Nat.pow_pos (by decide)
    rw [hvalue, hdenominator, hm] at h
    omega
  have hbelow : (Interval.ofDyadic d).low < (Interval.ofDyadic d).value := by
    rw [hlow, hvalue]
    exact Nat.mul_lt_mul_of_pos_right (by omega) hup
  have habove : (Interval.ofDyadic d).value < (Interval.ofDyadic d).high := by
    rw [hhigh, hvalue]
    exact Nat.mul_lt_mul_of_pos_right (by omega) hup
  have hcontains : (Interval.ofDyadic d).contains
      ((Interval.ofDyadic d).value / (Interval.ofDyadic d).denominator) 1 1 = true := by
    unfold Interval.contains
    simp only [Nat.mul_one, hwhole]
    split
    · simp [hbelow.le, habove.le]
    · simp [hbelow, habove]
  unfold Interval.onGrid?
  simp only [Int.toNat_zero, Int.neg_zero, Nat.pow_eq, pow_zero, Nat.one_mul, Nat.mul_one, hcontains]
  split
  · split <;> simp
  · simp
  · simp
  · next hnone _ => exact absurd hnone (by simp)

/-! ## The digits of a double -/

theorem denominator_pos (d : Dyadic) : 0 < (Interval.ofDyadic d).denominator := Nat.pow_pos (by decide)

/-- Digits found on a grid are on the side of `10 ^ 16` where the double is. -/
theorem isRaised_found (hd : d.IsDouble) (hne : ¬ (d.mantissa = 5000000000000000 ∧ d.exponent = 1))
    (h : (Interval.ofDyadic d).onGrid? e = some n) : Digits.IsRaised ⟨n, e⟩ ↔ d.atLeast (10 ^ 16) = true := by
  obtain ⟨hlow, hhigh⟩ := onGrid?_within h
  have hdenominator := denominator_pos d
  have hscale : 0 < 10 ^ (-e).toNat := Nat.pow_pos (by decide)
  rw [isRaised_iff]
  cases hlarge : d.atLeast (10 ^ 16) with
  | true =>
    refine iff_of_true (Nat.le_of_mul_le_mul_right ?_ hdenominator) rfl
    calc 10 ^ 16 * 10 ^ (-e).toNat * (Interval.ofDyadic d).denominator
        = 10 ^ 16 * (Interval.ofDyadic d).denominator * 10 ^ (-e).toNat := Nat.mul_right_comm _ _ _
      _ ≤ (Interval.ofDyadic d).low * 10 ^ (-e).toNat := Nat.mul_le_mul_right _ (le_low hd hlarge hne)
      _ ≤ n * 10 ^ e.toNat * (Interval.ofDyadic d).denominator := hlow
  | false =>
    refine iff_of_false (Nat.not_le.2 (Nat.lt_of_mul_lt_mul_right (a := (Interval.ofDyadic d).denominator) ?_)) (by decide)
    calc n * 10 ^ e.toNat * (Interval.ofDyadic d).denominator
        ≤ (Interval.ofDyadic d).high * 10 ^ (-e).toNat := hhigh
      _ < 10 ^ 16 * (Interval.ofDyadic d).denominator * 10 ^ (-e).toNat :=
          Nat.mul_lt_mul_of_pos_right (high_lt hd hlarge) hscale
      _ = 10 ^ 16 * 10 ^ (-e).toNat * (Interval.ofDyadic d).denominator := Nat.mul_right_comm _ _ _

/-- Digits that no grid gave are those of the whole part with the point at twice their number. The grid of the
whole numbers is among those looked at where this would be wrong: a whole part of seventeen digits. -/
theorem isRaised_whole (hd : d.IsDouble)
    (hnone : ∀ c : Nat, 1 ≤ c → c < 19 → (Interval.ofDyadic d).onGrid? ((Interval.ofDyadic d).point - c) = none) :
    Digits.IsRaised ⟨(Interval.ofDyadic d).value / (Interval.ofDyadic d).denominator,
      (Interval.ofDyadic d).point - 19⟩ ↔ d.atLeast (10 ^ 16) = true := by
  have hdenominator := denominator_pos d
  have hwhole : d.atLeast (10 ^ 16) = true ↔
      10 ^ 16 ≤ (Interval.ofDyadic d).value / (Interval.ofDyadic d).denominator := by
    rw [atLeast_iff, Nat.le_div_iff_mul_le hdenominator]
  have hlength := numeralLength_le_iff (n := (Interval.ofDyadic d).value / (Interval.ofDyadic d).denominator)
    (k := 16) (by decide)
  simp only [Digits.IsRaised, Digits.point]
  by_cases hvalue : (Interval.ofDyadic d).value ≥ (Interval.ofDyadic d).denominator
  · have hpoint : (Interval.ofDyadic d).point =
        numeralLength ((Interval.ofDyadic d).value / (Interval.ofDyadic d).denominator) := if_pos hvalue
    have hpositive : 0 < (Interval.ofDyadic d).value / (Interval.ofDyadic d).denominator :=
      Nat.div_pos hvalue hdenominator
    have hseventeen :
        numeralLength ((Interval.ofDyadic d).value / (Interval.ofDyadic d).denominator) ≠ 17 := by
      intro h
      have hgrid := hnone 17 (by decide) (by decide)
      rw [hpoint, h] at hgrid
      exact onGrid?_whole hd (hwhole.2 (by omega)) hgrid
    rw [hwhole, hpoint]
    omega
  · have hzero : (Interval.ofDyadic d).value / (Interval.ofDyadic d).denominator = 0 :=
      Nat.div_eq_of_lt (Nat.not_le.1 hvalue)
    rw [hwhole, hzero]
    simp

/-- **Which doubles have raised digits**: the shortest digits of a double have their point behind the sixteenth
place exactly if the double is at least `10 ^ 16`. -/
theorem isRaised_ofDyadic (hd : d.IsDouble) : (Digits.ofDyadic d).IsRaised ↔ d.atLeast (10 ^ 16) = true := by
  by_cases hexact : d.mantissa = 5000000000000000 ∧ d.exponent = 1
  · obtain ⟨negative, m, e⟩ := d
    obtain ⟨rfl, rfl⟩ := hexact
    have hdigits : ∀ negative, Digits.ofDyadic ⟨negative, 5000000000000000, 1⟩ = ⟨1, 16⟩ := by decide +kernel
    have hlarge : ∀ negative, Dyadic.atLeast (10 ^ 16) ⟨negative, 5000000000000000, 1⟩ = true := by decide +kernel
    rw [hdigits]
    exact iff_of_true ⟨by decide, by decide⟩ (hlarge negative)
  · unfold Digits.ofDyadic
    split
    · next hm =>
      rw [Dyadic.atLeast, hm]
      simp [Digits.IsRaised]
    · dsimp only
      rw [isRaised_trim]
      rcases search_cases (i := Interval.ofDyadic d) (Interval.ofDyadic d).point 18 1 with
        ⟨e, n, hgrid, hsearch⟩ | ⟨hnone, hsearch⟩
      · rw [hsearch]
        exact isRaised_found hd hexact hgrid
      · rw [hsearch]
        exact isRaised_whole hd hnone

end Grimoire.Decimal
