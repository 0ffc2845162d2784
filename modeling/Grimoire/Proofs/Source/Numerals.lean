import Grimoire.Proofs.Source.Fragments

/-!
# Tokens of numerals and of exact data

A numeral of data has digits, perhaps a fraction, and perhaps a power of ten (`NumeralText`). In a source it
is a number, and the power of ten is a word behind it, or a word and one more number. Only a plus sign in the
power starts no token: the lenient mode goes over it (`NumeralText.level`), and to the strict mode the text
ends before it (`NumeralText.broken`). The numeral of a whole number has neither, so the compact text of exact
data is level in both modes (`level_compact`).
-/
namespace Grimoire.Source

/-! ## The parts of a numeral -/

def AllDigits (ds : List Char) : Prop := ds ≠ [] ∧ ds.all isAsciiDigit = true

/-- Nothing, or a point and digits. -/
inductive FractionText : List Char → Prop
  | none : FractionText []
  | point {ds : List Char} (digits : AllDigits ds) : FractionText ('.' :: ds)

/-- Nothing, or a power of ten; whether it has a plus sign. -/
inductive PowerText : Bool → List Char → Prop
  | none : PowerText false []
  | bare {e : Char} {ds : List Char} (letter : e = 'e' ∨ e = 'E') (digits : AllDigits ds) : PowerText false (e :: ds)
  | minus {e : Char} {ds : List Char} (letter : e = 'e' ∨ e = 'E') (digits : AllDigits ds) :
    PowerText false (e :: '-' :: ds)
  | plus {e : Char} {ds : List Char} (letter : e = 'e' ∨ e = 'E') (digits : AllDigits ds) :
    PowerText true (e :: '+' :: ds)

/-- A numeral without its sign; whether it has a plus sign. -/
inductive NumeralText (plus : Bool) : List Char → Prop
  | mk {whole fraction power : List Char} (digits : AllDigits whole) (point : FractionText fraction)
    (raised : PowerText plus power) : NumeralText plus (whole ++ (fraction ++ power))

/-- A numeral has a sign or none. -/
def SignText (sign : List Char) : Prop := sign = [] ∨ sign = ['-']

variable {mode : LexMode} {sign whole fraction word x y ds : List Char} {e : Char}

theorem AllDigits.cons (h : AllDigits x) : ∃ c cs, x = c :: cs ∧ isAsciiDigit c = true ∧ cs.all isAsciiDigit = true := by
  obtain ⟨hne, hall⟩ := h
  obtain ⟨c, cs, rfl⟩ := List.exists_cons_of_ne_nil hne
  obtain ⟨hc, hcs⟩ := Bool.and_eq_true_iff.1 hall
  exact ⟨c, cs, rfl, hc, hcs⟩

theorem isSeparator_of_digit {c : Char} (h : isAsciiDigit c = true) : isSeparator c = false := by
  rw [isAsciiDigit_eq] at h
  have hblank := Json.isBlank_of_isDigit h
  simp only [Json.isBlank, Bool.or_eq_false_iff] at hblank
  simp [isSeparator, hblank]

/-! ## The number -/

/-- What may follow a number: no digit and no point. -/
def EndsNumeral (y : List Char) : Prop := ∀ c, y.head? = some c → isAsciiDigit c = false ∧ c ≠ '.'

theorem EndsWord.noDigit (h : EndsWord y) : ∀ c, y.head? = some c → isAsciiDigit c = false := by
  intro c hc
  have hword := (h c hc).1
  rw [continuesWord, Bool.or_eq_false_iff] at hword
  exact hword.2

theorem EndsWord.endsNumeral (h : EndsWord y) : EndsNumeral y :=
  fun c hc => ⟨h.noDigit c hc, (h c hc).2⟩

/-- A number ends where no digit follows, and without a fraction no point with a digit behind it. -/
theorem splitNumber_exact (hw : AllDigits whole) (hf : FractionText fraction)
    (hdigit : ∀ c, y.head? = some c → isAsciiDigit c = false)
    (hpoint : fraction = [] → ∀ d r, y = '.' :: d :: r → isAsciiDigit d = false) :
    splitNumber (whole ++ (fraction ++ y)) = (whole, fraction.tail, y) := by
  cases hf with
  | none =>
    obtain ⟨ht, hd⟩ := takeWhile_dropWhile_eq hw.2 hdigit
    rw [List.nil_append, splitNumber, ht, hd]
    split
    · next d r => rw [hpoint rfl d r rfl]; rfl
    · rfl
  | @point ds digits =>
    obtain ⟨c, cs, rfl, hc, hcs⟩ := digits.cons
    have hstop : ∀ d, ('.' :: (c :: cs ++ y)).head? = some d → isAsciiDigit d = false := by
      intro d hd
      obtain rfl : '.' = d := by simpa using hd
      decide
    obtain ⟨ht, hd⟩ := takeWhile_dropWhile_eq hw.2 hstop
    obtain ⟨ht', hd'⟩ := takeWhile_dropWhile_eq digits.2 hdigit
    rw [List.cons_append] at ht' hd'
    simp only [List.cons_append] at ht hd ⊢
    rw [splitNumber, ht, hd]
    simp only [hc, if_true, ht', hd', List.tail_cons]

theorem splitNumber_parts (hw : AllDigits whole) (hf : FractionText fraction) (hy : EndsNumeral y) :
    splitNumber (whole ++ (fraction ++ y)) = (whole, fraction.tail, y) := by
  refine splitNumber_exact hw hf (fun c hc => (hy c hc).1) fun _ d r hr => ?_
  exact absurd rfl (hy '.' (by rw [hr]; rfl)).2

/-- Whatever follows the number, its token has the same value. -/
theorem readNumber_parts (sign : List Char) (hw : AllDigits whole) (hf : FractionText fraction) :
    ∃ value, ∀ y, EndsNumeral y →
      readNumber sign (whole ++ (fraction ++ y)) = .token (.number value) (sign ++ (whole ++ fraction)) y := by
  have hfraction : (if fraction.tail.isEmpty then [] else ['.']) ++ fraction.tail = fraction := by
    cases hf with
    | none => rfl
    | point digits =>
      obtain ⟨c, cs, rfl, -, -⟩ := digits.cons
      rfl
  let value := Decimal.Numeral.nearest
    ⟨!sign.isEmpty, (Decimal.takeDigits whole).1, (Decimal.takeDigits fraction.tail).1, none⟩
  refine ⟨value, fun y hy => ?_⟩
  rw [readNumber, splitNumber_parts hw hf hy]
  show Reading.token (.number value) _ y = _
  rw [List.append_assoc, List.append_assoc, hfraction]

/-- A number of a source, before what does not make it longer. -/
theorem lexes_number (mode : LexMode) (hs : SignText sign) (hw : AllDigits whole) (hf : FractionText fraction) :
    ∃ value, ∀ p y us, EndsNumeral y → Lexes mode (p.advanceAll (sign ++ (whole ++ fraction))) y us →
      Lexes mode p (sign ++ (whole ++ (fraction ++ y)))
        (Token.at p (.number value) (sign ++ (whole ++ fraction)) :: us) := by
  obtain ⟨value, hread⟩ := readNumber_parts sign hw hf
  obtain ⟨c, cs, rfl, hc, -⟩ := hw.cons
  refine ⟨value, fun p y us hy hus => ?_⟩
  have hnumber := hread y hy
  rcases hs with rfl | rfl
  · refine .token (isSeparator_of_digit hc) ?_ hus
    rw [readToken_digit _ hc]
    exact hnumber
  · refine .token (by decide) ?_ hus
    have hminus : readToken '-' (c :: (cs ++ (fraction ++ y))) = readNumber ['-'] (c :: (cs ++ (fraction ++ y))) :=
      if_pos hc
    exact hminus.trans hnumber

/-! ## The number and the power of ten -/

/-- A number and a word right behind it. -/
theorem level_numberWord (hs : SignText sign) (hw : AllDigits whole) (hf : FractionText fraction)
    (hword : word = [] ∨ isWord word = true) : Level mode (sign ++ (whole ++ (fraction ++ word))) := by
  obtain ⟨value, hlexes⟩ := lexes_number mode hs hw hf
  intro p
  obtain ⟨ts, hts, hbalanced⟩ : ∃ ts, Fragment mode (p.advanceAll (sign ++ (whole ++ fraction))) word ts ∧
      Balanced ts := by
    rcases hword with rfl | hword
    · exact Level.nil _
    · exact Level.word hword _
  have hends {y : List Char} (hy : EndsWord y) : EndsNumeral (word ++ y) := by
    rcases hword with rfl | hword
    · exact hy.endsNumeral
    · cases word with
      | nil => simp [isWord] at hword
      | cons c cs =>
        intro d hd
        obtain rfl : c = d := by simpa using hd
        have hc := (Bool.and_eq_true_iff.1 hword).1
        exact ⟨isAsciiDigit_of_startsWord hc, startsWord_ne hc (by decide)⟩
  refine ⟨Token.at p (.number value) (sign ++ (whole ++ fraction)) :: ts, fun y us hy hus => ?_, .cons rfl hbalanced⟩
  have hplace : p.advanceAll (sign ++ (whole ++ (fraction ++ word))) =
      (p.advanceAll (sign ++ (whole ++ fraction))).advanceAll word := by
    simp only [Position.advanceAll_append]
  rw [hplace] at hus
  have hall := hlexes p (word ++ y) (ts ++ us) (hends hy) (hts y us hy hus)
  simpa only [List.append_assoc, List.cons_append] using hall

theorem level_number (hs : SignText sign) (hw : AllDigits whole) : Level mode (sign ++ whole) := by
  have h : Level mode (sign ++ (whole ++ ([] ++ []))) := level_numberWord hs hw .none (.inl rfl)
  rwa [List.append_nil, List.append_nil] at h

theorem isWord_letter (he : e = 'e' ∨ e = 'E') (hds : ds.all isAsciiDigit = true) : isWord (e :: ds) = true := by
  have hstart : startsWord e = true := by rcases he with rfl | rfl <;> decide
  have hall : ds.all continuesWord = true := by
    refine List.all_eq_true.2 fun c hc => ?_
    rw [continuesWord, List.all_eq_true.1 hds c hc, Bool.or_true]
  rw [isWord, hstart, hall]
  rfl

/-- The lenient mode goes over a plus sign. -/
theorem Level.plus (hx : Level .lenient x) : Level .lenient ('+' :: x) := by
  intro p
  obtain ⟨ts, hts, hbalanced⟩ := hx (p.advance '+')
  exact ⟨ts, fun y us hy hus => .skip (by decide) rfl rfl (hts y us hy hus), hbalanced⟩

/-- The tokens of a numeral, if no plus sign is in its way. -/
theorem NumeralText.level {plus : Bool} (h : NumeralText plus x) (hs : SignText sign)
    (hplus : plus = true → mode = .lenient) : Level mode (sign ++ x) := by
  obtain ⟨hw, hf, hp⟩ := h
  have hletter {e : Char} (he : e = 'e' ∨ e = 'E') : isWord [e] = true := isWord_letter he rfl
  have split (e : Char) (ds : List Char) (whole fraction : List Char) :
      sign ++ (whole ++ (fraction ++ e :: ds)) = sign ++ (whole ++ (fraction ++ [e])) ++ ds := by simp
  cases hp with
  | none => exact level_numberWord hs hw hf (.inl rfl)
  | bare he hds => exact level_numberWord hs hw hf (.inr (isWord_letter he hds.2))
  | minus he hds =>
    rw [split]
    refine (level_numberWord hs hw hf (.inr (hletter he))).append ?_ (.cons (by decide) _)
    exact level_number (.inr rfl) hds
  | plus he hds =>
    obtain rfl := hplus rfl
    rw [split]
    refine (level_numberWord hs hw hf (.inr (hletter he))).append ?_ (.cons (by decide) _)
    exact .plus (level_number (.inl rfl) hds)

/-- Before its plus sign a numeral has tokens. -/
theorem NumeralText.broken (h : NumeralText true x) (hs : SignText sign) :
    ∃ front back, sign ++ x = front ++ '+' :: back ∧ front ≠ [] ∧ Level mode front := by
  obtain ⟨hw, hf, hp⟩ := h
  cases hp with
  | @plus e ds he hds =>
    have hletter : isWord [e] = true := isWord_letter he rfl
    exact ⟨_, ds, by simp, by simp, level_numberWord hs hw hf (.inr hletter)⟩

/-! ## Whole numbers -/

theorem allDigits_numeral (n : Nat) : AllDigits (Decimal.numeral n) :=
  ⟨Nat.toDigits_ne_nil, List.all_eq_true.2 (Decimal.isDigit_numeral n)⟩

theorem Level.numeralInt (n : Int) : Level mode (Decimal.numeralInt n) := by
  unfold Decimal.numeralInt
  split
  · exact level_number (.inr rfl) (allDigits_numeral _)
  · exact level_number (.inl rfl) (allDigits_numeral _)

/-! ## Exact data -/

theorem endsWord_commaed {α : Type} (text : α → List Char) (as : List α) : EndsWord (Json.commaed text as) := by
  cases as with
  | nil => exact .nil
  | cons a as => exact .cons (by decide) _

theorem level_memberText (mode : LexMode) (key : String) {value : Json} (h : value.isExact = true)
    (hvalue : Level mode value.compact) : Level mode (Json.memberText (key, value)) := by
  obtain ⟨c, cs, hcs, hc⟩ := Json.compact_cons h
  rw [hcs] at hvalue
  rw [Json.memberText, hcs]
  exact (Level.quoted key.toList).append (.colon hc.noColon hvalue) (.cons (by decide) _)

mutual

/-- The compact text of exact data is level. -/
theorem level_compact (mode : LexMode) : ∀ j : Json, j.isExact = true → Level mode j.compact
  | .null, _ => .word (by decide)
  | .bool true, _ => .word (by decide)
  | .bool false, _ => .word (by decide)
  | .number (.whole w), _ => .numeralInt w.val
  | .string s, _ => .quoted s.toList
  | .array items, h => by
    have hinner := level_itemsText mode items h
    rw [Json.compact_array]
    exact .block .sequence hinner
  | .object members, h => by
    have hinner := level_membersText mode members (Json.isExact_object.1 h).1
    rw [Json.compact_object]
    exact .block .map hinner

theorem level_itemsText (mode : LexMode) : ∀ items : List Json, Json.isExactItems items = true →
    Level mode (Json.itemsText items)
  | [], _ => .nil
  | item :: items, h => by
    obtain ⟨hitem, hitems⟩ := Json.isExactItems_cons.1 h
    exact (level_compact mode item hitem).append (level_items mode items hitems) (endsWord_commaed _ _)

theorem level_items (mode : LexMode) : ∀ items : List Json, Json.isExactItems items = true →
    Level mode (Json.commaed Json.compact items)
  | [], _ => .nil
  | item :: items, h => by
    obtain ⟨hitem, hitems⟩ := Json.isExactItems_cons.1 h
    exact (level_compact mode item hitem).comma.append (level_items mode items hitems) (endsWord_commaed _ _)

theorem level_membersText (mode : LexMode) : ∀ members : List (String × Json),
    Json.isExactMembers members = true → Level mode (Json.membersText members)
  | [], _ => .nil
  | (key, value) :: members, h => by
    obtain ⟨hvalue, hmembers⟩ := Json.isExactMembers_cons.1 h
    have hfirst := level_memberText mode key hvalue (level_compact mode value hvalue)
    exact hfirst.append (level_members mode members hmembers) (endsWord_commaed _ _)

theorem level_members (mode : LexMode) : ∀ members : List (String × Json), Json.isExactMembers members = true →
    Level mode (Json.commaed Json.memberText members)
  | [], _ => .nil
  | (key, value) :: members, h => by
    obtain ⟨hvalue, hmembers⟩ := Json.isExactMembers_cons.1 h
    have hfirst := level_memberText mode key hvalue (level_compact mode value hvalue)
    exact hfirst.comma.append (level_members mode members hmembers) (endsWord_commaed _ _)

end

end Grimoire.Source
