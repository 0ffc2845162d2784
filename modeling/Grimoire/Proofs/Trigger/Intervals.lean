import Grimoire.Pattern.Engine
import Grimoire.Trigger.Strategy

/-!
# Interval schedules

A trigger on an interval compares the time since the last run with a word of 64 bits that it reads as a signed
one. Below `2 ^ 63` the reading changes nothing, and the trigger measures the elapsed time exactly: the
milliseconds of the instant less those of the last run. From there on the interval is read as a negative
number, so that the trigger matches from the last run on, and even before it (`interval_laws`).
-/
namespace Grimoire

/-! ## Elapsed time -/

namespace Time.Instant

/-- Nanoseconds since the epoch. -/
def unixNanos (t : Instant) : Int := t.seconds * 1000000000 + t.nanos

/-- Whole milliseconds since the epoch; those of a leap second go on beyond its second. -/
def unixMillis (t : Instant) : Int := t.unixNanos / 1000000

/-- The days between the ends of the calendar, and nanoseconds up to the end of a leap second. -/
structure Representable (t : Instant) : Prop where
  low : Date.toDays ⟨minYear, 1, 1⟩ ≤ t.days
  high : t.days < Date.toDays ⟨endYear, 1, 1⟩
  nanos : t.nanos < 2000000000

/-- Milliseconds since `last`, which is in milliseconds since the epoch, cut toward zero. A leap second does
not count when the time of day of `last` is behind it. -/
def elapsed (t : Instant) (last : Int) : Int :=
  let uncounted : Int :=
    if 1000000000 ≤ t.nanos ∧ (t.secondOfDay : Int) < last / 1000 % 86400 then 1000000000 else 0
  (t.unixNanos - last * 1000000 - uncounted).tdiv 1000000

theorem ofMillis?_eq_some {last : Int} (h : (ofMillis? last).isSome) :
    ofMillis? last = some ⟨last / 1000, (last % 1000).toNat * 1000000⟩ ∧
      Representable ⟨last / 1000, (last % 1000).toNat * 1000000⟩ := by
  by_cases hdays : Date.toDays ⟨minYear, 1, 1⟩ ≤ days ⟨last / 1000, (last % 1000).toNat * 1000000⟩ ∧
      days ⟨last / 1000, (last % 1000).toNat * 1000000⟩ < Date.toDays ⟨endYear, 1, 1⟩
  · refine ⟨by simp only [ofMillis?, if_pos hdays], hdays.1, hdays.2, ?_⟩
    show (last % 1000).toNat * 1000000 < 2000000000
    omega
  · simp [ofMillis?, if_neg hdays] at h

theorem Representable.seconds_bounds {t : Instant} (h : t.Representable) :
    -9000000000000 < t.seconds ∧ t.seconds < 9000000000000 := by
  have hlow : (-96465292 : Int) ≤ t.seconds / 86400 := h.low
  have hhigh : t.seconds / 86400 < 95026237 := h.high
  omega

/-- The difference from a last run told in milliseconds is the elapsed time. -/
theorem millisSince_ofMillis (t : Instant) (last : Int) :
    t.millisSince ⟨last / 1000, (last % 1000).toNat * 1000000⟩ = t.elapsed last := by
  have hnanos : ¬ (last % 1000).toNat * 1000000 ≥ 1000000000 := by omega
  have hlast : last / 1000 * 1000000000 + ((last % 1000).toNat * 1000000 : Nat) = last * 1000000 := by omega
  have hday : (secondOfDay ⟨last / 1000, (last % 1000).toNat * 1000000⟩ : Int) = last / 1000 % 86400 := by
    simp only [secondOfDay]
    omega
  simp only [millisSince, nanosSince, elapsed, unixNanos, ← hday, Int.ofNat_lt, if_neg hnanos]
  congr 1
  by_cases hafter : secondOfDay ⟨last / 1000, (last % 1000).toNat * 1000000⟩ < t.secondOfDay
  · rw [if_pos hafter, if_neg (by omega)]
    omega
  · rw [if_neg hafter]
    by_cases hbefore : t.secondOfDay < secondOfDay ⟨last / 1000, (last % 1000).toNat * 1000000⟩
    · by_cases hleap : 1000000000 ≤ t.nanos
      · rw [if_pos hbefore, if_pos hleap, if_pos ⟨hleap, hbefore⟩]
        omega
      · rw [if_pos hbefore, if_neg hleap, if_neg (hleap ·.1)]
        omega
    · rw [if_neg hbefore, if_neg (hbefore ·.2)]
      omega

/-- Outside leap seconds the elapsed time is a difference of milliseconds. -/
theorem elapsed_eq {t : Instant} {last : Int} (hnanos : t.nanos < 1000000000)
    (hlast : last * 1000000 ≤ t.unixNanos) : t.elapsed last = t.unixMillis - last := by
  simp only [elapsed, unixMillis]
  rw [if_neg (by omega), Int.tdiv_eq_ediv_of_nonneg (by omega)]
  omega

/-- To cut toward zero is to round the size down. -/
theorem tdiv_of_neg {n : Int} (hn : n < 0) : n.tdiv 1000000 = -(-n / 1000000) := by
  rw [← Int.tdiv_eq_ediv_of_nonneg (by omega), Int.neg_tdiv, Int.neg_neg]

/-- In a leap second the elapsed time is at most that difference. -/
theorem elapsed_le {t : Instant} {last : Int} (hlast : last * 1000000 ≤ t.unixNanos) :
    t.elapsed last ≤ t.unixMillis - last := by
  have hcut (n m : Int) (hm : 0 ≤ m) (hle : n ≤ m) : n.tdiv 1000000 ≤ m / 1000000 := by
    by_cases hneg : n < 0
    · rw [tdiv_of_neg hneg]
      omega
    · rw [Int.tdiv_eq_ediv_of_nonneg (by omega)]
      omega
  have hmillis : t.unixMillis - last = (t.unixNanos - last * 1000000) / 1000000 := by
    rw [unixMillis]
    omega
  rw [hmillis]
  refine hcut _ _ (by omega) ?_
  split <;> omega

theorem elapsed_neg {t : Instant} {last : Int} (hlast : t.unixNanos + 1000000 ≤ last * 1000000) :
    t.elapsed last < 0 := by
  simp only [elapsed]
  split
  · rw [tdiv_of_neg (by omega)]
    omega
  · rw [tdiv_of_neg (by omega)]
    omega

/-- Times between instants of the calendar fit signed words. -/
theorem Representable.elapsed_bounds {t : Instant} (h : t.Representable) {last : Int}
    (hlast : (ofMillis? last).isSome) :
    -9223372036854775808 < t.elapsed last ∧ t.elapsed last < 9223372036854775808 ∧
      t.unixMillis - last < 9223372036854775808 := by
  have hbounds (n : Int) (hn : -100000000000000000000000 < n ∧ n < 100000000000000000000000) :
      -9223372036854775808 < n.tdiv 1000000 ∧ n.tdiv 1000000 < 9223372036854775808 := by
    by_cases hneg : n < 0
    · rw [tdiv_of_neg hneg]
      omega
    · rw [Int.tdiv_eq_ediv_of_nonneg (by omega)]
      omega
  have hseconds := h.seconds_bounds
  have hnanos := h.nanos
  have hlast := (ofMillis?_eq_some hlast).2.seconds_bounds
  simp only at hlast
  have hcut : -9223372036854775808 < t.elapsed last ∧ t.elapsed last < 9223372036854775808 := by
    refine hbounds _ ?_
    simp only [unixNanos]
    split <;> omega
  refine ⟨hcut.1, hcut.2, ?_⟩
  rw [unixMillis, unixNanos]
  omega

end Time.Instant

namespace Trigger

open Time (Instant)

variable {α : Type} [Degree α]

/-! ## Matching -/

/-- The context tells its last run as a whole number of milliseconds since the epoch. -/
def TellsLastRun (context : Json) (last : Int) : Prop :=
  ∃ members n, context = .object members ∧
    Object.get? members "lastRun" = some (.number (.whole n)) ∧ n.val = last

/-- Does a trigger on this interval match? -/
def MatchesInterval [RegexEngine] (millis : Nat) (context : Json) (base : α) (t : Instant) : Prop :=
  ∃ m, (Strategy.scheduled (.interval millis)).compile = .ok m ∧ (m.outcome? context base t).isSome

theorem TellsLastRun.lastRun_eq {context : Json} {last : Int} (h : TellsLastRun context last)
    (hlast : (Instant.ofMillis? last).isSome) :
    lastRun context = ⟨last / 1000, (last % 1000).toNat * 1000000⟩ := by
  obtain ⟨members, n, rfl, hget, rfl⟩ := h
  obtain ⟨hsome, hbounds⟩ := Instant.ofMillis?_eq_some hlast
  have hword : n.val < 9223372036854775808 := by
    have := hbounds.seconds_bounds
    simp only at this
    omega
  simp [lastRun, Json.asObject?, hget, if_pos hword, hsome]

/-- A trigger matches if the word read as a signed one is at most the elapsed time. -/
theorem matchesInterval_iff [RegexEngine] {millis : Nat} {context : Json} {base : α} {t : Instant} {last : Int}
    (hcontext : TellsLastRun context last) (hlast : (Instant.ofMillis? last).isSome) :
    MatchesInterval millis context base t ↔ signedWord millis ≤ t.elapsed last := by
  simp only [MatchesInterval, Strategy.compile, Except.ok.injEq, exists_eq_left', Matcher.outcome?,
    hcontext.lastRun_eq hlast, Instant.millisSince_ofMillis]
  split <;> simp_all

theorem signedWord_eq (n : Nat) : signedWord n = (n : Int).bmod 18446744073709551616 :=
  congrArg (Int.bmod n) (by decide)

theorem signedWord_of_lt {n : Nat} (h : n < 9223372036854775808) : signedWord n = n := by
  rw [signedWord_eq]
  exact Int.bmod_eq_of_le (by omega) (by omega)

theorem signedWord_of_le {n : Nat} (h : 9223372036854775808 ≤ n) (hword : n < 18446744073709551616) :
    signedWord n = n - 18446744073709551616 := by
  rw [signedWord_eq, Int.bmod_def]
  rw [if_neg (by omega)]
  omega

theorem matchesInterval_of_lt [RegexEngine] {millis : Nat} {context : Json} {base : α} {t : Instant} {last : Int}
    (hcontext : TellsLastRun context last) (hlast : (Instant.ofMillis? last).isSome)
    (h : millis < 9223372036854775808) :
    MatchesInterval millis context base t ↔ (millis : Int) ≤ t.elapsed last := by
  rw [matchesInterval_iff hcontext hlast, signedWord_of_lt h]

theorem matchesInterval_of_le [RegexEngine] {millis : Nat} {context : Json} {base : α} {t : Instant} {last : Int}
    (hcontext : TellsLastRun context last) (hlast : (Instant.ofMillis? last).isSome)
    (h : 9223372036854775808 ≤ millis) (hword : millis < 18446744073709551616) :
    MatchesInterval millis context base t ↔ (millis : Int) - 18446744073709551616 ≤ t.elapsed last := by
  rw [matchesInterval_iff hcontext hlast, signedWord_of_le h hword]

/-- **The laws of intervals** for an instant and a last run, with an interval of one word. -/
structure IntervalLaws [RegexEngine] (context : Json) (base : α) (t : Instant) (last : Int) (millis : Nat) : Prop where
  /-- From the last run on the trigger matches when the interval has gone by: exactly if the interval is below
  `2 ^ 63`. -/
  since : last * 1000000 ≤ t.unixNanos → t.nanos < 1000000000 →
    ((MatchesInterval millis context base t ↔ (millis : Int) ≤ t.unixMillis - last) ↔
      millis < 9223372036854775808)
  /-- In a leap second it does so, unless the second that does not count makes the difference. -/
  sinceLeap : last * 1000000 ≤ t.unixNanos → 1000000000 ≤ t.nanos →
    ((MatchesInterval millis context base t ↔ (millis : Int) ≤ t.unixMillis - last) ↔
      if millis < 9223372036854775808 then ¬ (t.elapsed last < millis ∧ (millis : Int) ≤ t.unixMillis - last)
      else t.elapsed last < (millis : Int) - 18446744073709551616)
  /-- A millisecond or more before the last run it does not match: exactly if the interval is below `2 ^ 63`, or
  the last run is farther ahead than the interval is below `2 ^ 64`. -/
  before : t.unixNanos + 1000000 ≤ last * 1000000 →
    (¬ MatchesInterval millis context base t ↔
      millis < 9223372036854775808 ∨ t.elapsed last < (millis : Int) - 18446744073709551616)
  /-- Where a longer interval matches, a shorter one does: unless only the longer one is `2 ^ 63` or more. -/
  longer : ∀ longer : Nat, millis ≤ longer → longer < 18446744073709551616 →
    ((MatchesInterval longer context base t → MatchesInterval millis context base t) ↔
      longer < 9223372036854775808 ∨ 9223372036854775808 ≤ millis ∨ (millis : Int) ≤ t.elapsed last ∨
        t.elapsed last < (longer : Int) - 18446744073709551616)

/-- **Intervals keep their laws below `2 ^ 63`**, leap seconds apart, and break them from there on, but for last
runs that are farther ahead than the interval is below `2 ^ 64`. -/
theorem interval_laws [RegexEngine] {context : Json} {t : Instant} {last : Int} {millis : Nat} (base : α)
    (hcontext : TellsLastRun context last) (hlast : (Instant.ofMillis? last).isSome) (ht : t.Representable)
    (hword : millis < 18446744073709551616) : IntervalLaws context base t last millis := by
  have hbounds := ht.elapsed_bounds hlast
  have hlow {n : Nat} (h : n < 9223372036854775808) :
      MatchesInterval n context base t ↔ (n : Int) ≤ t.elapsed last := matchesInterval_of_lt hcontext hlast h
  have hhigh {n : Nat} (h : 9223372036854775808 ≤ n) (hw : n < 18446744073709551616) :
      MatchesInterval n context base t ↔ (n : Int) - 18446744073709551616 ≤ t.elapsed last :=
    matchesInterval_of_le hcontext hlast h hw
  constructor
  case since =>
    intro hsince hnanos
    have helapsed := Instant.elapsed_eq hnanos hsince
    by_cases h : millis < 9223372036854775808
    · rw [hlow h, helapsed]
      exact iff_of_true Iff.rfl h
    · rw [hhigh (by omega) hword]
      have hgone : 0 ≤ t.unixMillis - last := by
        rw [Instant.unixMillis]
        omega
      omega
  case sinceLeap =>
    intro hsince _
    have helapsed := Instant.elapsed_le hsince
    by_cases h : millis < 9223372036854775808
    · rw [hlow h, if_pos h]
      omega
    · rw [hhigh (by omega) hword, if_neg h]
      omega
  case before =>
    intro hbefore
    have helapsed := Instant.elapsed_neg hbefore
    by_cases h : millis < 9223372036854775808
    · rw [hlow h]
      omega
    · rw [hhigh (by omega) hword]
      omega
  case longer =>
    intro longer hle hlonger
    by_cases h : longer < 9223372036854775808
    · rw [hlow h, hlow (by omega)]
      omega
    · rw [hhigh (by omega) hlonger]
      by_cases hshort : millis < 9223372036854775808
      · rw [hlow hshort]
        omega
      · rw [hhigh (by omega) hword]
        omega

/-- An interval of a minute, a minute after the last run. -/
theorem interval_laws_minute :
    IntervalLaws (.object [("lastRun", .number (.whole ⟨1714555740000, by decide, by decide⟩))]) (1 : Rat)
      ⟨1714555800, 0⟩ 1714555740000 60000 :=
  interval_laws 1 ⟨_, _, rfl, rfl, rfl⟩ rfl ⟨by decide, by decide, by decide⟩ (by decide)

/-- The longest interval matches when no time has gone by, where an interval of a millisecond does not. -/
theorem longest_interval_matches :
    let now : Json := .object [("lastRun", .number (.whole ⟨1714555800000, by decide, by decide⟩))]
    let t : Instant := ⟨1714555800, 0⟩
    MatchesInterval 18446744073709551615 now (1 : Rat) t ∧ t.unixMillis - 1714555800000 = 0 ∧
      ¬ MatchesInterval 1 now (1 : Rat) t := by
  intro now t
  have hnow : TellsLastRun now 1714555800000 := ⟨_, _, rfl, rfl, rfl⟩
  have hlast : (Instant.ofMillis? 1714555800000).isSome := rfl
  have helapsed : t.elapsed 1714555800000 = 0 := by decide
  refine ⟨?_, by decide, ?_⟩
  · rw [matchesInterval_of_le hnow hlast (by decide) (by decide), helapsed]
    decide
  · rw [matchesInterval_of_lt hnow hlast (by decide), helapsed]
    decide

end Trigger

end Grimoire
