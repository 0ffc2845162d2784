import Grimoire.Proofs.Source.Numerals

/-!
# Text of data inside a source

The text that the reader of data takes from the front of a longer one (`DataText`): it is read as the same
value before any other text that does not make its last numeral longer, and in the lenient mode it is level.
So the lexer and the reader of data agree on where each string and each block ends, whatever the escapes,
the numerals and the blanks in it are. One lemma for each form of a value, and `dataText_of_readValue` by the
recursion of the reader.
-/
namespace Grimoire.Source

open Json (readWhole readFraction readPower readString readValue readItems readMembers skipBlanks
  EndsValue)

variable {b x y z rest cs : List Char} {j : Json} {d fuel : Nat}

/-! ## Blanks -/

def AllBlank (b : List Char) : Prop := ∀ c ∈ b, Json.isBlank c = true

theorem not_blank {c : Char} (h : Json.isBlank c = true) {d : Char} (hd : Json.isBlank d = false) : c ≠ d := by
  rintro rfl
  simp [hd] at h

theorem eq_of_isBlank {c : Char} (h : Json.isBlank c = true) : c = '\n' ∨ isSeparator c = true := by
  simp only [Json.isBlank, Bool.or_eq_true, decide_eq_true_eq] at h
  rcases h with ((rfl | rfl) | rfl) | rfl <;> simp [isSeparator]

theorem endsWord_of_isBlank {c : Char} (h : Json.isBlank c = true) : continuesWord c = false ∧ c ≠ '.' := by
  simp only [Json.isBlank, Bool.or_eq_true, decide_eq_true_eq] at h
  rcases h with ((rfl | rfl) | rfl) | rfl <;> decide

theorem endsValue_of_isBlank {c : Char} (h : Json.isBlank c = true) :
    c.isDigit = false ∧ c ≠ '.' ∧ c ≠ 'e' ∧ c ≠ 'E' := by
  simp only [Json.isBlank, Bool.or_eq_true, decide_eq_true_eq] at h
  rcases h with ((rfl | rfl) | rfl) | rfl <;> decide

namespace AllBlank

theorem nil : AllBlank [] := fun c hc => by simp at hc

theorem endsWord (hb : AllBlank b) (hy : EndsWord y) : EndsWord (b ++ y) := by
  cases b with
  | nil => exact hy
  | cons c b => exact .cons (endsWord_of_isBlank (hb c (by simp))) _

theorem endsValue (hb : AllBlank b) (hy : EndsValue y) : EndsValue (b ++ y) := by
  cases b with
  | nil => exact hy
  | cons c b =>
    intro d hd
    obtain rfl : c = d := by simpa using hd
    exact endsValue_of_isBlank (hb c (by simp))

theorem skipBlanks (hb : AllBlank b) (y : List Char) : Json.skipBlanks (b ++ y) = Json.skipBlanks y :=
  List.dropWhile_append_of_pos hb

/-- Newlines among the blanks are tokens, which no block counts. -/
theorem level {mode : LexMode} (hb : AllBlank b) (hx : Level mode x) : Level mode (b ++ x) := by
  induction b with
  | nil => exact hx
  | cons c b ih =>
    have hrest := ih fun d hd => hb d (by simp [hd])
    intro p
    rcases eq_of_isBlank (hb c (by simp)) with rfl | hc
    · obtain ⟨ts, hts, hbalanced⟩ := hrest (p.advance '\n')
      exact ⟨_, .sign (by decide) (fun _ => rfl) hts, .cons rfl hbalanced⟩
    · obtain ⟨ts, hts, hbalanced⟩ := hrest (p.advance c)
      exact ⟨ts, .blank hc hts, hbalanced⟩

theorem alone {mode : LexMode} (hb : AllBlank b) : Level mode b := by
  have h : Level mode (b ++ []) := hb.level .nil
  rwa [List.append_nil] at h

end AllBlank

/-- Every text is blanks and what comes behind them. -/
theorem blanks_skipBlanks (cs : List Char) : ∃ b, cs = b ++ skipBlanks cs ∧ AllBlank b :=
  ⟨cs.takeWhile Json.isBlank, List.takeWhile_append_dropWhile.symm, fun _ hc => List.mem_takeWhile_imp hc⟩

theorem head_skipBlanks {c : Char} (h : skipBlanks cs = c :: rest) : Json.isBlank c = false := by
  have hhead := List.head?_dropWhile_not Json.isBlank cs
  rw [show cs.dropWhile Json.isBlank = c :: rest from h] at hhead
  simpa using hhead

/-! ## Numbers -/

theorem takeDigits_split {ds : List Nat} (h : Decimal.takeDigits cs = (ds, rest)) :
    ∃ w, cs = w ++ rest ∧ w.all isAsciiDigit = true ∧ (ds = [] → w = []) ∧ (ds ≠ [] → AllDigits w) ∧
      ∀ y, Decimal.EndsDigits y → Decimal.takeDigits (w ++ y) = (ds, y) := by
  induction cs generalizing ds rest with
  | nil =>
    obtain ⟨rfl, rfl⟩ := Prod.mk.inj h
    exact ⟨[], rfl, rfl, fun _ => rfl, fun hne => absurd rfl hne, fun y hy => Decimal.takeDigits_of_endsDigits hy⟩
  | cons c cs ih =>
    by_cases hc : c.isDigit = true
    · cases hcs : Decimal.takeDigits cs with
      | mk ds' rest' =>
        obtain ⟨w, rfl, hall, -, -, hread⟩ := ih hcs
        simp only [Decimal.takeDigits, Decimal.digit?, hc, if_true, hcs, Prod.mk.injEq] at h
        obtain ⟨rfl, rfl⟩ := h
        have hdigits : (c :: w).all isAsciiDigit = true := by
          rw [List.all_cons, hall, isAsciiDigit_eq, hc]
          rfl
        refine ⟨c :: w, rfl, hdigits, by simp, fun _ => ⟨by simp, hdigits⟩, fun y hy => ?_⟩
        simp [Decimal.takeDigits, Decimal.digit?, hc, hread y hy]
    · simp only [Decimal.takeDigits, Decimal.digit?, hc] at h
      obtain ⟨rfl, rfl⟩ := Prod.mk.inj h
      exact ⟨[], rfl, rfl, fun _ => rfl, fun hne => absurd rfl hne, fun y hy => Decimal.takeDigits_of_endsDigits hy⟩

theorem readWhole_unpadded {ds : List Nat} (hfirst : ∀ more, cs ≠ '0' :: more) :
    readWhole cs = some (ds, rest) ↔ ds ≠ [] ∧ Decimal.takeDigits cs = (ds, rest) := by
  unfold readWhole
  split
  · exact absurd rfl (hfirst _)
  · cases Decimal.takeDigits cs with
    | mk ds' rest' =>
      cases ds' with
      | nil => simp +contextual
      | cons n ds' =>
        constructor
        · intro h
          obtain ⟨rfl, rfl⟩ := Prod.mk.inj (Option.some.inj h)
          exact ⟨by simp, rfl⟩
        · rintro ⟨-, h⟩
          exact congrArg some h

theorem readWhole_split {ds : List Nat} (h : readWhole cs = some (ds, rest)) :
    ∃ w, cs = w ++ rest ∧ AllDigits w ∧ ∀ y, Decimal.EndsDigits y → readWhole (w ++ y) = some (ds, y) := by
  by_cases hzero : ∃ more, cs = '0' :: more
  · obtain ⟨more, rfl⟩ := hzero
    rw [readWhole] at h
    split at h
    · obtain ⟨rfl, rfl⟩ := Prod.mk.inj (Option.some.inj h)
      refine ⟨['0'], rfl, ⟨by simp, rfl⟩, fun y hy => ?_⟩
      rw [List.singleton_append, readWhole, Decimal.takeDigits_of_endsDigits hy]
    · simp at h
  · have hfirst : ∀ more, cs ≠ '0' :: more := fun more heq => hzero ⟨more, heq⟩
    obtain ⟨hne, htake⟩ := (readWhole_unpadded hfirst).1 h
    obtain ⟨w, rfl, -, -, hdigits, hread⟩ := takeDigits_split htake
    refine ⟨w, rfl, hdigits hne, fun y hy => (readWhole_unpadded ?_).2 ⟨hne, hread y hy⟩⟩
    obtain ⟨c, cs, rfl, -, -⟩ := (hdigits hne).cons
    rintro more heq
    obtain ⟨rfl, -⟩ := List.cons.inj heq
    exact hfirst _ rfl

theorem readFraction_split {f : Option (List Nat)} (h : readFraction cs = some (f, rest)) :
    ∃ w, cs = w ++ rest ∧ FractionText w ∧
      ∀ y, Decimal.EndsDigits y → y.head? ≠ some '.' → readFraction (w ++ y) = some (f, y) := by
  unfold readFraction at h
  split at h
  · next more =>
    cases htake : Decimal.takeDigits more with
    | mk ds rest' =>
      rw [htake] at h
      obtain ⟨w, rfl, -, -, hdigits, hread⟩ := takeDigits_split htake
      cases ds with
      | nil => simp at h
      | cons n ds =>
        obtain ⟨rfl, rfl⟩ := Prod.mk.inj (Option.some.inj h)
        refine ⟨'.' :: w, rfl, .point (hdigits (by simp)), fun y hy _ => ?_⟩
        rw [List.cons_append, readFraction, hread y hy]
  · obtain ⟨rfl, rfl⟩ := Prod.mk.inj (Option.some.inj h)
    refine ⟨[], rfl, .none, fun y _ hpoint => ?_⟩
    rw [List.nil_append]
    unfold readFraction
    split
    · exact absurd rfl hpoint
    · rfl

/-- The digits of a power of ten behind its sign. -/
def signedDigits (negative : Bool) (cs : List Char) : Option (Option (Bool × List Nat) × List Char) :=
  match Decimal.takeDigits cs with
  | ([], _) => none
  | (ds, rest) => some (some (negative, ds), rest)

theorem signedDigits_split {power : Option (Bool × List Nat)} {negative : Bool}
    (h : signedDigits negative cs = some (power, rest)) :
    ∃ w, cs = w ++ rest ∧ AllDigits w ∧ ∀ y, EndsValue y → signedDigits negative (w ++ y) = some (power, y) := by
  unfold signedDigits at h
  cases htake : Decimal.takeDigits cs with
  | mk ds rest' =>
    rw [htake] at h
    obtain ⟨w, rfl, -, -, hdigits, hread⟩ := takeDigits_split htake
    cases ds with
    | nil => simp at h
    | cons n ds =>
      obtain ⟨rfl, rfl⟩ := Prod.mk.inj (Option.some.inj h)
      refine ⟨w, rfl, hdigits (by simp), fun y hy => ?_⟩
      rw [signedDigits, hread y hy.digits]

theorem readPowerDigits_unsigned (hminus : cs.head? ≠ some '-') (hplus : cs.head? ≠ some '+') :
    Json.readPowerDigits cs = signedDigits false cs := by
  unfold Json.readPowerDigits
  split
  next negative cs' heq =>
    split at heq
    · exact absurd rfl hminus
    · exact absurd rfl hplus
    · obtain ⟨rfl, rfl⟩ := Prod.mk.inj heq
      rfl

theorem readPowerDigits_split {power : Option (Bool × List Nat)} {e : Char} (he : e = 'e' ∨ e = 'E')
    (h : Json.readPowerDigits cs = some (power, rest)) :
    ∃ w plus, cs = w ++ rest ∧ PowerText plus (e :: w) ∧
      ∀ y, EndsValue y → Json.readPowerDigits (w ++ y) = some (power, y) := by
  by_cases hminus : cs.head? = some '-'
  · obtain ⟨more, rfl⟩ := List.head?_eq_some_iff.1 hminus
    obtain ⟨w, rfl, hdigits, hread⟩ := signedDigits_split h
    exact ⟨'-' :: w, false, rfl, .minus he hdigits, hread⟩
  · by_cases hplus : cs.head? = some '+'
    · obtain ⟨more, rfl⟩ := List.head?_eq_some_iff.1 hplus
      obtain ⟨w, rfl, hdigits, hread⟩ := signedDigits_split h
      exact ⟨'+' :: w, true, rfl, .plus he hdigits, hread⟩
    · rw [readPowerDigits_unsigned hminus hplus] at h
      obtain ⟨w, rfl, hdigits, hread⟩ := signedDigits_split h
      refine ⟨w, false, rfl, .bare he hdigits, fun y hy => ?_⟩
      obtain ⟨c, cs, rfl, -, -⟩ := hdigits.cons
      have hhead : (c :: cs ++ y).head? = (c :: cs ++ rest).head? := rfl
      rw [← hhead] at hminus hplus
      rw [readPowerDigits_unsigned hminus hplus]
      exact hread y hy

theorem readPower_split {power : Option (Bool × List Nat)} (h : readPower cs = some (power, rest)) :
    ∃ w plus, cs = w ++ rest ∧ PowerText plus w ∧ ∀ y, EndsValue y → readPower (w ++ y) = some (power, y) := by
  unfold readPower at h
  split at h
  · obtain ⟨w, plus, rfl, hpower, hread⟩ := readPowerDigits_split (.inl rfl) h
    exact ⟨'e' :: w, plus, rfl, hpower, hread⟩
  · obtain ⟨w, plus, rfl, hpower, hread⟩ := readPowerDigits_split (.inr rfl) h
    exact ⟨'E' :: w, plus, rfl, hpower, hread⟩
  · obtain ⟨rfl, rfl⟩ := Prod.mk.inj (Option.some.inj h)
    exact ⟨[], false, rfl, .none, fun y hy => Json.readPower_of_endsValue hy⟩

/-- A numeral is read again before what does not make it longer. -/
theorem readNumber_split {negative : Bool} (h : Json.readNumber negative cs = some (j, rest)) :
    ∃ w plus n, cs = w ++ rest ∧ NumeralText plus w ∧ j = .number n ∧
      ∀ y, EndsValue y → Json.readNumber negative (w ++ y) = some (.number n, y) := by
  simp only [Json.readNumber, Option.bind_eq_bind, Option.bind_eq_some_iff, Option.pure_def] at h
  obtain ⟨⟨whole, cs₁⟩, hwhole, ⟨fraction, cs₂⟩, hfraction, ⟨power, cs₃⟩, hpower, n, hn, hlast⟩ := h
  obtain ⟨rfl, rfl⟩ := Prod.mk.inj (Option.some.inj hlast)
  obtain ⟨w, rfl, hdigits, hreadWhole⟩ := readWhole_split hwhole
  obtain ⟨f, rfl, hpoint, hreadFraction⟩ := readFraction_split hfraction
  obtain ⟨e, plus, rfl, hraised, hreadPower⟩ := readPower_split hpower
  refine ⟨w ++ (f ++ e), plus, n, by simp, .mk hdigits hpoint hraised, rfl, fun y hy => ?_⟩
  -- Behind each part stands one that begins with no digit.
  have hbehind : Decimal.EndsDigits (e ++ y) ∧ (e ++ y).head? ≠ some '.' := by
    cases hraised with
    | none => exact ⟨hy.digits, fun hd => (hy '.' hd).2.1 rfl⟩
    | bare he | minus he | plus he =>
      rcases he with rfl | rfl <;> exact ⟨fun c hc => by obtain rfl := Option.some.inj hc; decide, by simp⟩
  have hends : Decimal.EndsDigits (f ++ (e ++ y)) := by
    cases hpoint with
    | none => exact hbehind.1
    | point =>
      intro c hc
      obtain rfl := Option.some.inj hc
      decide
  simp only [List.append_assoc, Json.readNumber, Option.bind_eq_bind, Option.bind_some, hreadWhole _ hends,
    hreadFraction _ hbehind.1 hbehind.2, hreadPower y hy, hn]
  rfl

/-! ## Strings -/

/-- A string behind its opening quote: both readers end it at the same quote. -/
structure StringText (x value : List Char) : Prop where
  read : ∀ y, readString (x ++ y) = some (value, y)
  quoted : ∃ shown, ∀ y, readQuoted (x ++ y) = some ⟨shown, x, y⟩

/-- Characters that both readers take as one step of a string. -/
structure StringStep (x : List Char) (c : Char) : Prop where
  read : ∀ y, readString (x ++ y) = (readString y).map fun (cs, r) => (c :: cs, r)
  quoted : ∃ shown, ∀ y, readQuoted (x ++ y) = (readQuoted y).map (Quoted.after shown x)

theorem StringText.quote : StringText ['"'] [] := ⟨fun _ => rfl, [], fun _ => rfl⟩

theorem StringText.step {c : Char} {value : List Char} (hx : StringStep x c) (hy : StringText y value) :
    StringText (x ++ y) (c :: value) := by
  obtain ⟨shown, hshown⟩ := hx.quoted
  obtain ⟨more, hmore⟩ := hy.quoted
  refine ⟨fun z => ?_, shown ++ more, fun z => ?_⟩
  · rw [List.append_assoc, hx.read, hy.read]
    rfl
  · rw [List.append_assoc, hshown, hmore]
    rfl

theorem StringStep.plain {c : Char} (hquote : c ≠ '"') (hslash : c ≠ '\\') (hcontrol : ¬ c.toNat < 32) :
    StringStep [c] c := by
  refine ⟨fun y => ?_, [c], fun y => readQuoted_plain y hquote hslash⟩
  rw [List.singleton_append, Json.readString.eq_def]
  split
  · next heq => simp at heq
  · next heq => exact absurd (List.cons.inj heq).1 hquote
  · next heq => exact absurd (List.cons.inj heq).1 hslash
  · next heq => exact absurd (List.cons.inj heq).1 hslash
  · next heq =>
    obtain ⟨rfl, rfl⟩ := List.cons.inj heq
    rw [if_neg]
    simp [hcontrol, hslash]

theorem StringStep.escape {c e : Char} (h : Json.unescape? e = some c) : StringStep ['\\', e] c := by
  have kept (hn : unescape? e = none) (he : e ≠ '"' ∧ e ≠ '\\') :
      ∃ shown, ∀ y, readQuoted (['\\', e] ++ y) = (readQuoted y).map (Quoted.after shown ['\\', e]) :=
    ⟨_, fun y => readQuoted_kept y hn (by simpa using he)⟩
  unfold Json.unescape? at h
  split at h
  all_goals
    try obtain rfl := Option.some.inj h
  · exact ⟨fun y => rfl, ['"'], fun y => rfl⟩
  · exact ⟨fun y => rfl, ['\\'], fun y => rfl⟩
  · exact ⟨fun y => rfl, kept rfl (by decide)⟩
  · exact ⟨fun y => rfl, kept rfl (by decide)⟩
  · exact ⟨fun y => rfl, kept rfl (by decide)⟩
  · exact ⟨fun y => rfl, ['\n'], fun y => rfl⟩
  · exact ⟨fun y => rfl, ['\r'], fun y => rfl⟩
  · exact ⟨fun y => rfl, ['\t'], fun y => rfl⟩
  · simp at h

theorem hexValue_plain {c : Char} {n : Nat} (h : Json.hexValue? c = some n) : c ≠ '"' ∧ c ≠ '\\' := by
  refine ⟨?_, ?_⟩ <;> (rintro rfl; simp [Json.hexValue?] at h)

/-- The four digits behind `\u`. -/
theorem unit_plain {a b c d : Char} {u : Nat} (h : Json.unit? a b c d = some u) :
    ∀ e ∈ ['u', a, b, c, d], e ≠ '"' ∧ e ≠ '\\' := by
  simp only [Json.unit?, Option.bind_eq_bind, Option.bind_eq_some_iff] at h
  obtain ⟨_, ha, _, hb, _, hc, _, hd, _⟩ := h
  simp only [List.forall_mem_cons]
  exact ⟨by decide, hexValue_plain ha, hexValue_plain hb, hexValue_plain hc, hexValue_plain hd, by simp⟩

theorem readQuoted_unit {a b c d : Char} {u : Nat} (h : Json.unit? a b c d = some u) (y : List Char) :
    readQuoted (['\\', 'u', a, b, c, d] ++ y) =
      (readQuoted y).map (Quoted.after ['\\', 'u', a, b, c, d] ['\\', 'u', a, b, c, d]) :=
  readQuoted_kept y rfl (unit_plain h)

theorem StringStep.unit {a b c d : Char} {u : Nat} (h : Json.unit? a b c d = some u)
    (hhigh : Json.isHighHalf u = false) (hlow : Json.isLowHalf u = false) :
    StringStep ['\\', 'u', a, b, c, d] (Char.ofNat u) := by
  refine ⟨fun y => ?_, _, readQuoted_unit h⟩
  simp only [List.cons_append, List.nil_append, readString, h, hhigh, hlow, Bool.false_eq_true, if_false]

/-- Two halves that stand for one character. -/
theorem StringStep.pair {a b c d e f g h : Char} {u v : Nat} (hu : Json.unit? a b c d = some u)
    (hhigh : Json.isHighHalf u = true) (hv : Json.unit? e f g h = some v) (hlow : Json.isLowHalf v = true) :
    StringStep (['\\', 'u', a, b, c, d] ++ ['\\', 'u', e, f, g, h])
      (Char.ofNat (0x10000 + (u - 0xD800) * 0x400 + (v - 0xDC00))) := by
  refine ⟨fun y => ?_, ['\\', 'u', a, b, c, d] ++ ['\\', 'u', e, f, g, h], fun y => ?_⟩
  · simp only [List.cons_append, List.nil_append, readString, hu, hhigh, hv, hlow, if_true]
  · rw [List.append_assoc, readQuoted_unit hu, readQuoted_unit hv, Option.map_map]
    rfl

/-- One step and the rest of the string. -/
theorem StringText.split {step value : List Char} {c : Char} (hstep : StringStep step c)
    (h : ((readString cs).map fun (cs, r) => (c :: cs, r)) = some (value, rest))
    (ih : ∀ {rest value}, readString cs = some (value, rest) → ∃ x, cs = x ++ rest ∧ StringText x value) :
    ∃ x, step ++ cs = x ++ rest ∧ StringText x value := by
  obtain ⟨⟨tail, last⟩, hr, heq⟩ := Option.map_eq_some_iff.1 h
  obtain ⟨rfl, rfl⟩ := Prod.mk.inj heq
  obtain ⟨x, rfl, hx⟩ := ih hr
  exact ⟨step ++ x, (List.append_assoc _ _ _).symm, .step hstep hx⟩

/-- **A string of data is a string of the source.** -/
theorem stringText_of_readString {value : List Char} (h : readString cs = some (value, rest)) :
    ∃ x, cs = x ++ rest ∧ StringText x value := by
  fun_induction readString cs generalizing value rest with
  | case1 | case3 | case4 | case6 | case7 | case8 | case10 | case12 => simp at h
  | case2 tail =>
    obtain ⟨rfl, rfl⟩ := Prod.mk.inj (Option.some.inj h)
    exact ⟨['"'], rfl, .quote⟩
  | case5 a b c d u hu hhigh e f g h' more v hv hlow ih => exact StringText.split (.pair hu hhigh hv hlow) h ih
  | case9 a b c d more u hu hhigh hlow ih =>
    exact StringText.split (.unit hu (by simpa using hhigh) (by simpa using hlow)) h ih
  | case11 c more _ x hx ih => exact StringText.split (.escape hx) h ih
  | case13 c more hquote _ _ hplain ih =>
    simp only [Bool.or_eq_true, decide_eq_true_eq, not_or] at hplain
    exact StringText.split (.plain hquote hplain.2 hplain.1) h ih

theorem StringText.level {mode : LexMode} {value : List Char} (h : StringText x value) : Level mode ('"' :: x) := by
  obtain ⟨shown, hread⟩ := h.quoted
  intro p
  refine ⟨[Token.at p (.string shown) ('"' :: x)], .one (by decide) fun y _ => ?_, .cons rfl .nil⟩
  simp only [readToken, hread]

/-! ## Values -/

/-- Is the value what a block of this shape holds? -/
def BlockShape.holds : BlockShape → Json → Bool
  | map, .object _ => true
  | sequence, .array _ => true
  | _, _ => false

/-- A block between its signs: its value is that of the text between them, which the lexer keeps level. -/
structure BlockText (d : Nat) (shape : BlockShape) (inner : List Char) (j : Json) : Prop where
  read : ∀ fuel y, inner.length < fuel →
    readValue d (fuel + 1) (shape.opening :: (inner ++ shape.closing :: y)) = some (j, y)
  level : Level .lenient inner

/-- The text is read as the value, whatever stands behind it, and the lexer keeps the count of its blocks. -/
structure DataText (d : Nat) (x : List Char) (j : Json) : Prop where
  read : ∀ fuel y, x.length ≤ fuel → EndsValue y → readValue d fuel (x ++ y) = some (j, y)
  level : Level .lenient x
  front : ∃ c cs, x = c :: cs ∧ c ≠ ':'
  block : ∀ shape : BlockShape, shape.holds j = true →
    ∃ b inner, x = b ++ shape.opening :: (inner ++ [shape.closing]) ∧ AllBlank b ∧ BlockText d shape inner j

/-- The items of a list before its closing bracket. -/
structure ItemsText (d : Nat) (x : List Char) (items : List Json) : Prop where
  read : ∀ fuel y, x.length < fuel → readItems d fuel (x ++ ']' :: y) = some (items, y)
  level : Level .lenient x

/-- The members of an object before its closing brace. -/
structure MembersText (d : Nat) (x : List Char) (members : List (String × Json)) : Prop where
  read : ∀ fuel y, x.length < fuel → readMembers d fuel (x ++ '\x7d' :: y) = some (members, y)
  level : Level .lenient x

theorem readValue_blanks (hb : AllBlank b) (y : List Char) : readValue d fuel (b ++ y) = readValue d fuel y := by
  cases fuel with
  | zero => rfl
  | succ fuel => rw [readValue, readValue, hb.skipBlanks]

theorem DataText.blanks (hb : AllBlank b) (h : DataText d x j) : DataText d (b ++ x) j where
  read fuel y hfuel hy := by
    rw [List.length_append] at hfuel
    rw [List.append_assoc, readValue_blanks hb]
    exact h.read fuel y (by omega) hy
  level := hb.level h.level
  front := by
    cases b with
    | nil => exact h.front
    | cons c b => exact ⟨c, b ++ x, rfl, not_blank (hb c (by simp)) (by decide)⟩
  block shape hj := by
    obtain ⟨b', inner, rfl, hb', hblock⟩ := h.block shape hj
    refine ⟨b ++ b', inner, (List.append_assoc _ _ _).symm, fun c hc => ?_, hblock⟩
    rcases List.mem_append.1 hc with hc | hc
    · exact hb c hc
    · exact hb' c hc

/-- A reading that holds with any fuel holds with the fuel that the length asks for. -/
theorem read_of_succ {r : List Char → Option (Json × List Char)} (hne : x ≠ [])
    (h : ∀ fuel y, x.length ≤ fuel + 1 → EndsValue y → readValue d (fuel + 1) (x ++ y) = r y) :
    ∀ fuel y, x.length ≤ fuel → EndsValue y → readValue d fuel (x ++ y) = r y := by
  intro fuel y hfuel hy
  cases fuel with
  | zero => exact absurd (List.length_eq_zero_iff.1 (Nat.le_zero.1 hfuel)) hne
  | succ fuel => exact h fuel y hfuel hy

theorem DataText.word (hx : isWord x = true) (hj : ∀ shape : BlockShape, shape.holds j = false)
    (hread : ∀ fuel y, readValue d (fuel + 1) (x ++ y) = some (j, y)) : DataText d x j := by
  have hfront : ∃ c cs, x = c :: cs ∧ c ≠ ':' := by
    cases x with
    | nil => simp [isWord] at hx
    | cons c cs => exact ⟨c, cs, rfl, startsWord_ne (Bool.and_eq_true_iff.1 hx).1 (by decide)⟩
  have hne : x ≠ [] := by
    obtain ⟨c, cs, rfl, -⟩ := hfront
    simp
  exact ⟨read_of_succ hne fun fuel y _ _ => hread fuel y, .word hx, hfront, fun shape h => by simp [hj] at h⟩

theorem DataText.string {value : List Char} (h : StringText x value) :
    DataText d ('"' :: x) (.string (String.ofList value)) where
  read := by
    refine read_of_succ (by simp) fun fuel y _ _ => ?_
    show (readString (x ++ y)).map _ = _
    rw [h.read]
    rfl
  level := h.level
  front := ⟨'"', x, rfl, by decide⟩
  block shape hj := by cases shape <;> cases hj

theorem DataText.number {n : Number} {plus : Bool} (sign : List Char) (hs : SignText sign) (hx : NumeralText plus x)
    (hread : ∀ y, EndsValue y → Json.readNumber (!sign.isEmpty) (x ++ y) = some (.number n, y)) :
    DataText d (sign ++ x) (.number n) := by
  have hfirst : ∃ c cs, x = c :: cs ∧ c.isDigit = true := by
    obtain ⟨hdigits, -, -⟩ := hx
    obtain ⟨c, cs, rfl, hc, -⟩ := hdigits.cons
    exact ⟨c, _, rfl, hc⟩
  obtain ⟨c, cs, rfl, hc⟩ := hfirst
  have hcolon : c ≠ ':' := by
    rintro rfl
    exact absurd hc (by decide)
  refine ⟨read_of_succ (by simp) fun fuel y _ hy => ?_, hx.level hs fun _ => rfl, ?_, fun shape hj => ?_⟩
  · rcases hs with rfl | rfl
    · exact (Json.readValue_digit d fuel (cs ++ y) hc).trans (hread y hy)
    · exact hread y hy
  · rcases hs with rfl | rfl
    · exact ⟨c, cs, rfl, hcolon⟩
    · exact ⟨'-', c :: cs, rfl, by decide⟩
  · cases shape <;> cases hj

/-! ### Lists -/

theorem endsValue_of_sign {c : Char} (hc : c = ',' ∨ c = ']' ∨ c = '\x7d') (y : List Char) : EndsValue (c :: y) := by
  intro d hd
  obtain rfl : c = d := by simpa using hd
  rcases hc with rfl | rfl | rfl <;> decide

/-- The first item of a list, and what stands behind it. -/
theorem readItems_item (hx : DataText d x j) (hb : AllBlank b) {c : Char} (hc : c = ',' ∨ c = ']')
    (hfuel : x.length ≤ fuel) : readItems d (fuel + 1) (x ++ (b ++ c :: y)) =
      if c = ',' then (readItems d fuel y).map fun (items, rest) => (j :: items, rest) else some ([j], y) := by
  have hends : EndsValue (b ++ c :: y) := hb.endsValue (endsValue_of_sign (by tauto) y)
  simp only [readItems, hx.read fuel _ hfuel hends, hb.skipBlanks]
  rcases hc with rfl | rfl <;> rfl

/-- Blanks behind the text. -/
theorem Level.trailing {mode : LexMode} (hx : Level mode x) (hb : AllBlank b) : Level mode (x ++ b) := by
  have hends : EndsWord (b ++ []) := hb.endsWord .nil
  rw [List.append_nil] at hends
  exact hx.append hb.alone hends

theorem ItemsText.last (hx : DataText d x j) (hb : AllBlank b) : ItemsText d (x ++ b) [j] where
  read fuel y hfuel := by
    rw [List.length_append] at hfuel
    obtain ⟨fuel, rfl⟩ : ∃ n, fuel = n + 1 := ⟨fuel - 1, by omega⟩
    rw [List.append_assoc, readItems_item hx hb (.inr rfl) (by omega), if_neg (by decide)]
  level := hx.level.trailing hb

theorem ItemsText.more {items : List Json} (hx : DataText d x j) (hb : AllBlank b) (hy : ItemsText d y items) :
    ItemsText d (x ++ (b ++ ',' :: y)) (j :: items) where
  read fuel z hfuel := by
    simp only [List.length_append, List.length_cons] at hfuel
    obtain ⟨fuel, rfl⟩ : ∃ n, fuel = n + 1 := ⟨fuel - 1, by omega⟩
    rw [List.append_assoc, List.append_assoc, List.cons_append, readItems_item hx hb (.inl rfl) (by omega),
      if_pos rfl, hy.read fuel z (by omega)]
    rfl
  level := hx.level.append (hb.level hy.level.comma) (hb.endsWord (.cons (by decide) _))

/-! ### Objects -/

/-- A member of an object, and how the reader goes on behind it. -/
structure MemberText (d : Nat) (x : List Char) (m : String × Json) : Prop where
  read : ∀ {b y : List Char} {c : Char} {fuel : Nat}, AllBlank b → c = ',' ∨ c = '\x7d' → x.length ≤ fuel →
    readMembers d (fuel + 1) (x ++ (b ++ c :: y)) =
      if c = ',' then (readMembers d fuel y).map fun (ms, rest) => (m :: ms, rest) else some ([m], y)
  level : Level .lenient x

theorem MemberText.of {s key v b₀ b₁ : List Char} (hb₀ : AllBlank b₀) (hs : StringText s key) (hb₁ : AllBlank b₁)
    (hv : DataText d v j) : MemberText d (b₀ ++ '"' :: (s ++ (b₁ ++ ':' :: v))) (String.ofList key, j) where
  read {b y c fuel} hb hc hfuel := by
    simp only [List.length_append, List.length_cons] at hfuel
    have hends : EndsValue (b ++ c :: y) := hb.endsValue (endsValue_of_sign (by tauto) y)
    have hvalue := hv.read fuel _ (by omega) hends
    have hquote (z : List Char) : skipBlanks ('"' :: z) = '"' :: z := rfl
    have hcolon (z : List Char) : skipBlanks (':' :: z) = ':' :: z := rfl
    simp only [List.append_assoc, List.cons_append, readMembers, hb₀.skipBlanks, hquote, hs.read, hb₁.skipBlanks,
      hcolon, hvalue, hb.skipBlanks]
    rcases hc with rfl | rfl <;> rfl
  level := by
    obtain ⟨c, cs, rfl, hc⟩ := hv.front
    exact hb₀.level (hs.level.append (hb₁.level (.colon hc hv.level)) (hb₁.endsWord (.cons (by decide) _)))

theorem MembersText.last {m : String × Json} (hx : MemberText d x m) (hb : AllBlank b) : MembersText d (x ++ b) [m] where
  read fuel y hfuel := by
    rw [List.length_append] at hfuel
    obtain ⟨fuel, rfl⟩ : ∃ n, fuel = n + 1 := ⟨fuel - 1, by omega⟩
    rw [List.append_assoc, hx.read hb (.inr rfl) (by omega), if_neg (by decide)]
  level := hx.level.trailing hb

theorem MembersText.more {m : String × Json} {ms : List (String × Json)} (hx : MemberText d x m) (hb : AllBlank b)
    (hy : MembersText d y ms) : MembersText d (x ++ (b ++ ',' :: y)) (m :: ms) where
  read fuel z hfuel := by
    simp only [List.length_append, List.length_cons] at hfuel
    obtain ⟨fuel, rfl⟩ : ∃ n, fuel = n + 1 := ⟨fuel - 1, by omega⟩
    rw [List.append_assoc, List.append_assoc, List.cons_append, hx.read hb (.inl rfl) (by omega), if_pos rfl,
      hy.read fuel z (by omega)]
    rfl
  level := hx.level.append (hb.level hy.level.comma) (hb.endsWord (.cons (by decide) _))

/-! ### Containers -/

theorem DataText.container {inner : List Char} (shape : BlockShape) (h : BlockText d shape inner j)
    (hj : ∀ shape' : BlockShape, shape'.holds j = true → shape' = shape) :
    DataText d (shape.opening :: (inner ++ [shape.closing])) j where
  read := by
    refine read_of_succ (by simp) fun fuel y hfuel _ => ?_
    simp only [List.length_cons, List.length_append, List.length_nil] at hfuel
    simpa using h.read fuel y (by omega)
  level := .block shape h.level
  front := ⟨shape.opening, _, rfl, by cases shape <;> decide⟩
  block shape' hshape := by
    obtain rfl := hj shape' hshape
    exact ⟨[], inner, rfl, .nil, h⟩

/-- Blanks behind the opening sign. -/
theorem readValue_opening (shape : BlockShape) (hb : AllBlank b) (y : List Char) :
    readValue (d + 1) (fuel + 1) (shape.opening :: (b ++ y)) = readValue (d + 1) (fuel + 1) (shape.opening :: y) := by
  have hsolid : Json.isBlank shape.opening = false := by cases shape <;> decide
  rw [readValue, readValue, Json.skipBlanks_solid _ hsolid, Json.skipBlanks_solid _ hsolid]
  cases shape <;> simp only [BlockShape.opening, hb.skipBlanks]

theorem DataText.emptyArray (hb : AllBlank b) : DataText (d + 1) ('[' :: (b ++ [']'])) (.array []) := by
  refine .container .sequence ⟨fun fuel y _ => ?_, hb.alone⟩ fun shape h => by
    cases shape <;> first | rfl | cases h
  exact readValue_opening .sequence hb (']' :: y)

theorem DataText.emptyObject (hb : AllBlank b) : DataText (d + 1) ('\x7b' :: (b ++ ['\x7d'])) (.object []) := by
  refine .container .map ⟨fun fuel y _ => ?_, hb.alone⟩ fun shape h => by
    cases shape <;> first | rfl | cases h
  exact readValue_opening .map hb ('\x7d' :: y)

theorem DataText.array {c : Char} {items : List Json} (hb : AllBlank b) (hc : Json.isBlank c = false) (hclose : c ≠ ']')
    (hx : ItemsText d (c :: x) items) : DataText (d + 1) ('[' :: (b ++ c :: x ++ [']'])) (.array items) := by
  refine .container .sequence ⟨fun fuel y hfuel => ?_, hb.level hx.level⟩ fun shape h => by
    cases shape <;> first | rfl | cases h
  simp only [List.length_append] at hfuel
  have hitems := hx.read fuel y (by omega)
  rw [List.cons_append] at hitems
  have hvalue := Json.readValue_items d fuel (x ++ ']' :: y) hc hclose
  rw [hitems] at hvalue
  rw [List.append_assoc]
  exact (readValue_opening .sequence hb _).trans hvalue

theorem DataText.object {c : Char} {ms : List (String × Json)} (hb : AllBlank b) (hc : Json.isBlank c = false)
    (hclose : c ≠ '\x7d') (hx : MembersText d (c :: x) ms) :
    DataText (d + 1) ('\x7b' :: (b ++ c :: x ++ ['\x7d'])) (.object (Object.ofList ms)) := by
  refine .container .map ⟨fun fuel y hfuel => ?_, hb.level hx.level⟩ fun shape h => by
    cases shape <;> first | rfl | cases h
  simp only [List.length_append] at hfuel
  have hmembers := hx.read fuel y (by omega)
  rw [List.cons_append] at hmembers
  have hvalue := Json.readValue_members d fuel (x ++ '\x7d' :: y) hc hclose
  rw [hmembers] at hvalue
  rw [List.append_assoc]
  exact (readValue_opening .map hb _).trans hvalue

/-! ## What the reader takes -/

mutual

/-- **The reader of data and the lexer agree on every text of data**: what the reader takes from the front is
read as the same value before any other text, and is level. -/
theorem dataText_of_readValue : ∀ (d fuel : Nat) {cs rest : List Char} {j : Json},
    readValue d fuel cs = some (j, rest) → ∃ x, cs = x ++ rest ∧ DataText d x j
  | d, 0, cs, rest, j, h => by simp [readValue] at h
  | d, fuel + 1, cs, rest, j, h => by
    obtain ⟨b, hcs, hb⟩ := blanks_skipBlanks cs
    suffices hsolid : ∃ x, skipBlanks cs = x ++ rest ∧ DataText d x j by
      obtain ⟨x, hx, hdata⟩ := hsolid
      exact ⟨b ++ x, by rw [List.append_assoc, ← hx, ← hcs], hdata.blanks hb⟩
    rw [readValue] at h
    split at h
    · next more heq =>
      obtain ⟨rfl, rfl⟩ := Prod.mk.inj (Option.some.inj h)
      exact ⟨_, heq, .word (x := ['n', 'u', 'l', 'l']) (by decide) (fun shape => by cases shape <;> rfl) fun _ _ => rfl⟩
    · next more heq =>
      obtain ⟨rfl, rfl⟩ := Prod.mk.inj (Option.some.inj h)
      exact ⟨_, heq, .word (x := ['t', 'r', 'u', 'e']) (by decide) (fun shape => by cases shape <;> rfl) fun _ _ => rfl⟩
    · next more heq =>
      obtain ⟨rfl, rfl⟩ := Prod.mk.inj (Option.some.inj h)
      exact ⟨_, heq, .word (x := ['f', 'a', 'l', 's', 'e']) (by decide) (fun shape => by cases shape <;> rfl)
        fun _ _ => rfl⟩
    · next more heq =>
      obtain ⟨⟨value, last⟩, hread, hlast⟩ := Option.map_eq_some_iff.1 h
      obtain ⟨rfl, rfl⟩ := Prod.mk.inj hlast
      obtain ⟨x, rfl, hx⟩ := stringText_of_readString hread
      exact ⟨'"' :: x, heq, .string hx⟩
    · next more heq =>
      rw [heq]
      cases d with
      | zero => simp at h
      | succ d =>
        obtain ⟨b', hmore, hb'⟩ := blanks_skipBlanks more
        dsimp only at h
        split at h
        · next tail htail =>
          obtain ⟨rfl, rfl⟩ := Prod.mk.inj (Option.some.inj h)
          exact ⟨_, by rw [hmore, htail]; simp, .emptyArray hb'⟩
        · next hclose =>
          obtain ⟨⟨items, last⟩, hitems, hlast⟩ := Option.map_eq_some_iff.1 h
          obtain ⟨rfl, rfl⟩ := Prod.mk.inj hlast
          obtain ⟨x, hx, hdata⟩ := itemsText_of_readItems d fuel hitems
          obtain ⟨c, cs, rfl⟩ : ∃ c cs, x = c :: cs := by
            cases x with
            | nil => exact absurd hx (hclose _)
            | cons c cs => exact ⟨c, cs, rfl⟩
          refine ⟨_, by rw [hmore, hx]; simp, .array hb' (head_skipBlanks hx) ?_ hdata⟩
          rintro rfl
          exact hclose _ hx
    · next more heq =>
      rw [heq]
      cases d with
      | zero => simp at h
      | succ d =>
        obtain ⟨b', hmore, hb'⟩ := blanks_skipBlanks more
        dsimp only at h
        split at h
        · next tail htail =>
          obtain ⟨rfl, rfl⟩ := Prod.mk.inj (Option.some.inj h)
          exact ⟨_, by rw [hmore, htail]; simp, .emptyObject hb'⟩
        · next hclose =>
          obtain ⟨⟨ms, last⟩, hmembers, hlast⟩ := Option.map_eq_some_iff.1 h
          obtain ⟨rfl, rfl⟩ := Prod.mk.inj hlast
          obtain ⟨x, hx, hdata⟩ := membersText_of_readMembers d fuel hmembers
          obtain ⟨c, cs, rfl⟩ : ∃ c cs, x = c :: cs := by
            cases x with
            | nil => exact absurd hx (hclose _)
            | cons c cs => exact ⟨c, cs, rfl⟩
          refine ⟨_, by rw [hmore, hx]; simp, .object hb' (head_skipBlanks hx) ?_ hdata⟩
          rintro rfl
          exact hclose _ hx
    · next more heq =>
      obtain ⟨w, plus, n, rfl, hw, rfl, hread⟩ := readNumber_split h
      exact ⟨'-' :: w, heq, .number ['-'] (.inr rfl) hw hread⟩
    · obtain ⟨w, plus, n, heq, hw, rfl, hread⟩ := readNumber_split h
      exact ⟨w, heq, .number [] (.inl rfl) hw hread⟩
termination_by structural _ fuel => fuel

theorem itemsText_of_readItems : ∀ (d fuel : Nat) {cs rest : List Char} {items : List Json},
    readItems d fuel cs = some (items, rest) → ∃ x, cs = x ++ ']' :: rest ∧ ItemsText d x items
  | d, 0, cs, rest, items, h => by simp [readItems] at h
  | d, fuel + 1, cs, rest, items, h => by
    rw [readItems] at h
    split at h
    · simp at h
    next item after hitem =>
    obtain ⟨x, rfl, hx⟩ := dataText_of_readValue d fuel hitem
    obtain ⟨b, hafter, hb⟩ := blanks_skipBlanks after
    split at h
    · next more heq =>
      obtain ⟨⟨items', last⟩, hmore, hlast⟩ := Option.map_eq_some_iff.1 h
      obtain ⟨rfl, rfl⟩ := Prod.mk.inj hlast
      obtain ⟨y, rfl, hy⟩ := itemsText_of_readItems d fuel hmore
      refine ⟨_, ?_, .more hx hb hy⟩
      rw [hafter, heq]
      simp
    · next more heq =>
      obtain ⟨rfl, rfl⟩ := Prod.mk.inj (Option.some.inj h)
      refine ⟨_, ?_, .last hx hb⟩
      rw [hafter, heq]
      simp
    · simp at h
termination_by structural _ fuel => fuel

theorem membersText_of_readMembers : ∀ (d fuel : Nat) {cs rest : List Char} {ms : List (String × Json)},
    readMembers d fuel cs = some (ms, rest) → ∃ x, cs = x ++ '\x7d' :: rest ∧ MembersText d x ms
  | d, 0, cs, rest, ms, h => by simp [readMembers] at h
  | d, fuel + 1, cs, rest, ms, h => by
    obtain ⟨b₀, hcs, hb₀⟩ := blanks_skipBlanks cs
    rw [readMembers] at h
    split at h
    case h_2 => simp at h
    next more heq =>
    split at h
    · simp at h
    next key after hkey =>
    obtain ⟨s, rfl, hs⟩ := stringText_of_readString hkey
    obtain ⟨b₁, hafter, hb₁⟩ := blanks_skipBlanks after
    split at h
    case h_2 => simp at h
    next tail hcolon =>
    split at h
    · simp at h
    next value last hvalue =>
    obtain ⟨v, rfl, hv⟩ := dataText_of_readValue d fuel hvalue
    obtain ⟨b, hlast, hb⟩ := blanks_skipBlanks last
    have hmember := MemberText.of hb₀ hs hb₁ hv
    rw [hcs, heq, hafter, hcolon, hlast]
    split at h
    · next more' hsep =>
      obtain ⟨⟨ms', end'⟩, hmore, hend⟩ := Option.map_eq_some_iff.1 h
      obtain ⟨rfl, rfl⟩ := Prod.mk.inj hend
      obtain ⟨y, rfl, hy⟩ := membersText_of_readMembers d fuel hmore
      exact ⟨_, by rw [hsep]; simp, .more hmember hb hy⟩
    · next more' hsep =>
      obtain ⟨rfl, rfl⟩ := Prod.mk.inj (Option.some.inj h)
      exact ⟨_, by rw [hsep]; simp, .last hmember hb⟩
    · simp at h
termination_by structural _ fuel => fuel

end

end Grimoire.Source
