import Grimoire.Proofs.Source.Joining
import Grimoire.Proofs.Source.Places

/-!
# Skipped characters

The two modes of the lexer differ in one thing: a character that starts no token ends the strict mode and is
skipped by the lenient one. `marked` tells the skipped characters of a text from the others, and `blanked` puts
a blank in the place of each. The strict mode fails at the first of them or does what the lenient mode does
(`tokensFrom_strict`), and blanks in their places change no token (`Lexes.blanked`).
-/
namespace Grimoire.Source

/-! ## Skipped characters and blanks for them -/

/-- The characters of a text, each with whether it is skipped. A string without its end is the last thing that
is read. -/
def marked : List Char → List (Char × Bool)
  | [] => []
  | c :: cs =>
    if isSeparator c then (c, false) :: marked cs
    else
      match h : readToken c cs with
      | .token _ lexeme rest =>
        have := length_rest_readToken h
        lexeme.map (·, false) ++ marked rest
      | .unterminated => (c :: cs).map (·, false)
      | .unexpected => (c, true) :: marked cs
termination_by cs => cs.length
decreasing_by
  all_goals
    simp only [List.length_cons] at *
    omega

/-- The text with a blank in the place of each skipped character. -/
def blanked (x : List Char) : List Char := (marked x).map fun m => if m.2 then ' ' else m.1

/-- What is left of a token without its bytes. -/
def Token.face (t : Token) : Kind × List Char × Nat × Nat := (t.kind, t.lexeme, t.span.line, t.span.column)

/-- The bytes of the token reach over this byte. -/
def Token.Covers (t : Token) (byte : Nat) : Prop := t.span.start ≤ byte ∧ byte < t.span.stop

variable {mode : LexMode} {p q : Position} {c : Char} {cs lexeme rest x y : List Char} {kind : Kind} {ts : List Token}

@[simp] theorem marked_nil : marked [] = [] := by rw [marked]

theorem marked_separator (hc : isSeparator c = true) : marked (c :: cs) = (c, false) :: marked cs := by
  rw [marked]
  simp only [hc, if_true]

theorem marked_token (hc : isSeparator c = false) (hr : readToken c cs = .token kind lexeme rest) :
    marked (c :: cs) = lexeme.map (·, false) ++ marked rest := by
  rw [marked]
  simp only [hc, Bool.false_eq_true, if_false]
  split
  · next heq =>
    rw [hr] at heq
    obtain ⟨rfl, rfl, rfl⟩ := Reading.token.inj heq
    rfl
  · next heq => simp [hr] at heq
  · next heq => simp [hr] at heq

theorem marked_unexpected (hc : isSeparator c = false) (hr : readToken c cs = .unexpected) :
    marked (c :: cs) = (c, true) :: marked cs := by
  rw [marked]
  simp only [hc, Bool.false_eq_true, if_false]
  split
  · next heq => simp [hr] at heq
  · next heq => simp [hr] at heq
  · rfl

theorem marked_unterminated (hc : isSeparator c = false) (hr : readToken c cs = .unterminated) :
    marked (c :: cs) = (c :: cs).map (·, false) := by
  rw [marked]
  simp only [hc, Bool.false_eq_true, if_false]
  split
  · next heq => simp [hr] at heq
  · rfl
  · next heq => simp [hr] at heq

/-- The marks leave the text as it is. -/
theorem map_fst_marked (x : List Char) : (marked x).map Prod.fst = x := by
  fun_induction marked x with
  | case1 => rfl
  | case2 c cs _ ih => simp [ih]
  | case3 c cs _ kind lexeme rest hr _ ih => simp [ih, append_of_readToken hr, Function.comp_def]
  | case4 c cs => simp [Function.comp_def]
  | case5 c cs _ _ ih => simp [ih]

/-! ## The strict mode fails at the first skipped character -/

/-- The lenient mode fails at strings only. -/
theorem tokensFrom_lenient_ne (p : Position) (x : List Char) (c : Char) (line column : Nat) :
    tokensFrom .lenient p x ≠ .error (.unexpectedCharacter c line column) := by
  fun_induction tokensFrom .lenient p x with
  | case1 => simp
  | case2 p c cs _ ih => exact ih
  | case3 => simp
  | case4 p c cs _ kind lexeme rest hr _ e he ih =>
    rw [he] at ih
    exact ih
  | case5 => simp
  | case6 => simp_all
  | case7 p c cs _ _ _ ih => exact ih

/-- A character that is skipped, with none skipped before it. -/
def FirstSkipped (x before : List Char) (c : Char) : Prop :=
  ∃ after, marked x = before.map (·, false) ++ (c, true) :: after

theorem FirstSkipped.cons (front : List Char) {before : List Char} {d : Char} (h : FirstSkipped rest before d)
    (hx : marked x = front.map (·, false) ++ marked rest) : FirstSkipped x (front ++ before) d := by
  obtain ⟨after, hafter⟩ := h
  exact ⟨after, by rw [hx, hafter, List.map_append, List.append_assoc]⟩

theorem FirstSkipped.unique {before before' : List Char} {c d : Char} (h : FirstSkipped x before c)
    (h' : FirstSkipped x before' d) : before = before' ∧ c = d := by
  obtain ⟨after, hafter⟩ := h
  obtain ⟨after', hafter'⟩ := h'
  rw [hafter] at hafter'
  clear hafter
  induction before generalizing before' with
  | nil => cases before' <;> simp_all
  | cons e before ih =>
    cases before' with
    | nil => simp at hafter'
    | cons e' before' =>
      obtain ⟨heq, hrest⟩ := List.cons.inj hafter'
      obtain ⟨rfl, rfl⟩ := ih hrest
      exact ⟨by rw [(Prod.mk.inj heq).1], rfl⟩

/-- Where nothing is skipped the modes agree; else the strict one fails at the first skipped character. -/
theorem tokensFrom_strict (p : Position) (x : List Char) :
    (tokensFrom .strict p x = tokensFrom .lenient p x ∧ ∀ m ∈ marked x, m.2 = false) ∨
    ∃ before c, FirstSkipped x before c ∧ tokensFrom .strict p x =
      .error (.unexpectedCharacter c (p.advanceAll before).line (p.advanceAll before).column) := by
  induction hn : x.length using Nat.strongRecOn generalizing p x with
  | ind n ih =>
    subst hn
    cases x with
    | nil => exact .inl ⟨by rw [tokensFrom.eq_def, tokensFrom.eq_def], by simp⟩
    | cons c cs =>
      by_cases hc : isSeparator c = true
      · have hm : marked (c :: cs) = (c, false) :: marked cs := marked_separator hc
        rw [tokensFrom_separator hc, tokensFrom_separator hc, hm]
        rcases ih cs.length (by simp) (p.advance c) cs rfl with ⟨heq, hnone⟩ | ⟨before, d, hfirst, herror⟩
        · exact .inl ⟨heq, List.forall_mem_cons.2 ⟨rfl, hnone⟩⟩
        · exact .inr ⟨c :: before, d, hfirst.cons [c] hm, herror⟩
      · have hc : isSeparator c = false := by simpa using hc
        cases hr : readToken c cs with
        | token kind lexeme rest =>
          have hm := marked_token hc hr
          rw [tokensFrom_token hc hr, tokensFrom_token hc hr, hm]
          rcases ih rest.length (length_rest_readToken hr) (p.advanceAll lexeme) rest rfl with
            ⟨heq, hnone⟩ | ⟨before, d, hfirst, herror⟩
          · refine .inl ⟨by rw [heq], fun m hm => ?_⟩
            rcases List.mem_append.1 hm with hm | hm
            · obtain ⟨d, -, rfl⟩ := List.mem_map.1 hm
              rfl
            · exact hnone m hm
          · refine .inr ⟨lexeme ++ before, d, hfirst.cons lexeme hm, ?_⟩
            rw [herror, Position.advanceAll_append]
            rfl
        | unterminated =>
          left
          rw [tokensFrom_unterminated hc hr, tokensFrom_unterminated hc hr, marked_unterminated hc hr]
          simp
        | unexpected =>
          right
          refine ⟨[], c, ⟨marked cs, marked_unexpected hc hr⟩, ?_⟩
          rw [tokensFrom_unexpected hc hr]
          rfl

/-! ## A token before another text -/

/-- The part of a string that was read begins as the text does. -/
theorem lexeme_of_readQuoted {q : Quoted} (h : readQuoted (c :: cs) = some q) : ∃ tail, q.lexeme = c :: tail := by
  have hlast := getLast?_readQuoted h
  cases hq : q.lexeme with
  | nil => simp [hq] at hlast
  | cons d tail =>
    have hall := append_of_readQuoted h
    rw [hq] at hall
    exact ⟨tail, by rw [(List.cons.inj hall).1]⟩

theorem readQuoted_lexeme {q : Quoted} (h : readQuoted cs = some q) (y : List Char) :
    readQuoted (q.lexeme ++ y) = some { q with rest := y } := by
  fun_induction readQuoted cs generalizing q with
  | case1 => simp at h
  | case2 rest =>
    obtain rfl := Option.some.inj h
    rfl
  | case3 c rest d hd ih =>
    obtain ⟨q', hq, rfl⟩ := Option.map_eq_some_iff.1 h
    simp [readQuoted, hd, ih hq]
  | case4 c rest hd ih =>
    obtain ⟨q', hq, rfl⟩ := Option.map_eq_some_iff.1 h
    obtain ⟨tail, htail⟩ := lexeme_of_readQuoted hq
    have hread := ih hq
    rw [htail, List.cons_append] at hread
    simp [htail, readQuoted, hd, hread]
  | case5 c rest h1 h2 ih =>
    obtain ⟨q', hq, rfl⟩ := Option.map_eq_some_iff.1 h
    have hslash : c ≠ '\\' := by
      rintro rfl
      cases rest with
      | nil => simp [readQuoted] at hq
      | cons d rest => exact h2 d rest rfl rfl
    rw [List.cons_append, readQuoted_plain _ h1 hslash, ih hq]
    rfl

/-- The parts of a number whose first character is a digit, and what cannot follow them. -/
theorem splitNumber_digits (cs : List Char) (hc : isAsciiDigit c = true) :
    AllDigits (splitNumber (c :: cs)).1 ∧
    FractionText (if (splitNumber (c :: cs)).2.1.isEmpty then [] else '.' :: (splitNumber (c :: cs)).2.1) ∧
    (∀ d, (splitNumber (c :: cs)).2.2.head? = some d → isAsciiDigit d = false) ∧
    ((splitNumber (c :: cs)).2.1.isEmpty = true →
      ∀ d r, (splitNumber (c :: cs)).2.2 = '.' :: d :: r → isAsciiDigit d = false) := by
  have hstop (x : List Char) : ∀ d, (x.dropWhile isAsciiDigit).head? = some d → isAsciiDigit d = false := by
    intro d hd
    have := List.head?_dropWhile_not isAsciiDigit x
    simpa [hd] using this
  have hdigits (d : Char) (ds : List Char) (hd : isAsciiDigit d = true) :
      AllDigits ((d :: ds).takeWhile isAsciiDigit) := ⟨by simp [hd], List.all_takeWhile⟩
  have hwhole := hdigits c cs hc
  have hrest := hstop (c :: cs)
  unfold splitNumber
  dsimp only
  split
  · next d rest hr =>
    split
    · next hd =>
      refine ⟨hwhole, ?_, hstop _, by simp [hd]⟩
      have hfraction := hdigits d rest hd
      rw [if_neg (by simp [hd])]
      exact .point hfraction
    · next hd =>
      refine ⟨hwhole, .none, by simp [isAsciiDigit], fun _ e r he => ?_⟩
      obtain ⟨rfl, -⟩ := List.cons.inj (List.cons.inj he).2
      simpa using hd
  · next hpoint => exact ⟨hwhole, .none, hrest, fun _ d r hr => absurd hr (hpoint d r)⟩

/-- The text begins as the rest of a token does, or with a blank; it begins with no point. -/
def Resumes (rest y : List Char) : Prop := ∀ d, y.head? = some d → d = ' ' ∨ rest.head? = some d ∧ d ≠ '.'

/-- The text begins as the rest of a token does, or with a blank; a point in front of it has the same character behind
it as in that rest. -/
structure Succeeds (rest y : List Char) : Prop where
  front : ∀ d, y.head? = some d → d = ' ' ∨ rest.head? = some d
  point : ∀ d r, y = '.' :: d :: r → ∃ r', rest = '.' :: d :: r'

theorem Resumes.succeeds (h : Resumes rest y) : Succeeds rest y where
  front d hd := (h d hd).imp_right And.left
  point d r hy := by
    rcases h '.' (by rw [hy]; rfl) with hblank | ⟨-, hpoint⟩
    · exact absurd hblank (by decide)
    · exact absurd rfl hpoint

theorem Succeeds.of_append {more : List Char} (h : rest = y ++ more) : Succeeds rest y := by
  subst h
  constructor
  · intro d hd
    exact .inr (by rw [List.head?_append, hd]; rfl)
  · rintro d r rfl
    exact ⟨r ++ more, rfl⟩

theorem Succeeds.head {p : Char → Bool} (h : Succeeds rest y) (hblank : p ' ' = false)
    (hrest : ∀ d, rest.head? = some d → p d = false) : ∀ d, y.head? = some d → p d = false := by
  intro d hd
  rcases h.front d hd with rfl | hd
  · exact hblank
  · exact hrest d hd

/-- A number is read again before a text that begins as its rest did. -/
theorem readNumber_again {sign : List Char} (hc : isAsciiDigit c = true)
    (hr : readNumber sign (c :: cs) = .token kind lexeme rest) (hy : Succeeds rest y) :
    ∃ tail, lexeme = sign ++ c :: tail ∧ readNumber sign (c :: tail ++ y) = .token kind lexeme y := by
  obtain ⟨hwhole, hfraction, hstop, hpoint⟩ := splitNumber_digits cs hc
  have hall := append_of_splitNumber (c :: cs)
  simp only [readNumber, Reading.token.injEq] at hr
  obtain ⟨hkind, hlexeme, hrest⟩ := hr
  generalize splitNumber (c :: cs) = parts at hwhole hfraction hstop hpoint hall hkind hlexeme hrest
  obtain ⟨whole, fraction, after⟩ := parts
  dsimp only at hwhole hfraction hstop hpoint hall hkind hlexeme hrest
  subst hrest
  obtain ⟨tail, rfl⟩ : ∃ tail, whole = c :: tail := by
    obtain ⟨d, tail, rfl, -, -⟩ := hwhole.cons
    exact ⟨tail, by rw [(List.cons.inj hall).1]⟩
  have hsplit := splitNumber_exact hwhole hfraction (hy.head (by decide) hstop) fun hnone d r hyr => by
    obtain ⟨r', hr'⟩ := hy.point d r hyr
    exact hpoint (by cases fraction <;> simp_all) d r' hr'
  refine ⟨tail ++ if fraction.isEmpty then [] else '.' :: fraction, ?_, ?_⟩
  · rw [← hlexeme]
    cases fraction <;> simp
  · rw [readNumber, List.cons_append, List.append_assoc, ← List.cons_append, hsplit]
    rw [← hkind, ← hlexeme]
    cases fraction <;> simp

/-- A token is read again before every text that begins as its rest did, or with a blank. -/
theorem readToken_again (hr : readToken c cs = .token kind lexeme rest) (hy : Succeeds rest y) :
    ∃ tail, lexeme = c :: tail ∧ readToken c (tail ++ y) = .token kind lexeme y := by
  unfold readToken at hr
  split at hr
  all_goals try
    simp only [Reading.token.injEq] at hr
    obtain ⟨rfl, rfl, rfl⟩ := hr
    exact ⟨[], rfl, rfl⟩
  · split at hr
    · simp only [Reading.token.injEq] at hr
      obtain ⟨rfl, rfl, rfl⟩ := hr
      exact ⟨[':'], rfl, rfl⟩
    · next hcolon =>
      simp only [Reading.token.injEq] at hr
      obtain ⟨rfl, rfl, rfl⟩ := hr
      refine ⟨[], rfl, ?_⟩
      have hhead : ∀ d, y.head? = some d → (d == ':') = false := by
        refine hy.head (by decide) fun d hd => ?_
        cases cs with
        | nil => simp at hd
        | cons e cs =>
          obtain rfl : e = d := by simpa using hd
          simpa using fun h => hcolon cs (by rw [h])
      cases y with
      | nil => rfl
      | cons d y =>
        have hd := hhead d rfl
        simp only [beq_eq_false_iff_ne] at hd
        simp [readToken, hd]
  · split at hr
    · next q hq =>
      simp only [Reading.token.injEq] at hr
      obtain ⟨rfl, rfl, rfl⟩ := hr
      refine ⟨q.lexeme, rfl, ?_⟩
      simp [readToken, readQuoted_lexeme hq]
    · simp at hr
  · split at hr
    · next d cs =>
      split at hr
      · next hd =>
        obtain ⟨tail, rfl, hread⟩ := readNumber_again hd hr hy
        refine ⟨d :: tail, rfl, ?_⟩
        simpa [readToken, hd] using hread
      · simp at hr
    · simp at hr
  · split at hr
    · next hd =>
      obtain ⟨tail, rfl, hread⟩ := readNumber_again hd hr hy
      exact ⟨tail, rfl, (readToken_digit _ hd).trans hread⟩
    · split at hr
      · next hd =>
        simp only [readWord, Reading.token.injEq] at hr
        obtain ⟨rfl, rfl, rfl⟩ := hr
        have hword : (c :: cs).takeWhile continuesWord = c :: cs.takeWhile continuesWord := by
          simp [continuesWord, hd]
        refine ⟨cs.takeWhile continuesWord, hword, ?_⟩
        have hstop : ∀ d, y.head? = some d → continuesWord d = false := by
          refine hy.head (by decide) fun d hd => ?_
          have hnot := List.head?_dropWhile_not continuesWord (c :: cs)
          simpa [hd] using hnot
        obtain ⟨ht, hr⟩ := takeWhile_dropWhile_eq (List.all_takeWhile (l := c :: cs)) hstop
        rw [readToken_word _ hd, readWord, ← List.cons_append, ← hword, ht, hr]
      · simp at hr

theorem readToken_resumes (hr : readToken c cs = .token kind lexeme rest) (hy : Resumes rest y) :
    ∃ tail, lexeme = c :: tail ∧ readToken c (tail ++ y) = .token kind lexeme y :=
  readToken_again hr hy.succeeds

/-! ## Blanks change no token -/

theorem blanked_separator (hc : isSeparator c = true) : blanked (c :: cs) = c :: blanked cs := by
  rw [blanked, marked_separator hc]
  rfl

theorem blanked_token (hc : isSeparator c = false) (hr : readToken c cs = .token kind lexeme rest) :
    blanked (c :: cs) = lexeme ++ blanked rest := by
  simp [blanked, marked_token hc hr, Function.comp_def]

theorem blanked_unexpected (hc : isSeparator c = false) (hr : readToken c cs = .unexpected) :
    blanked (c :: cs) = ' ' :: blanked cs := by
  rw [blanked, marked_unexpected hc hr]
  rfl

/-- The blanked text begins as the text does, or with a blank. -/
theorem resumes_blanked (x : List Char) : Resumes x (blanked x) := by
  cases x with
  | nil => simp [Resumes, blanked]
  | cons c cs =>
    by_cases hc : isSeparator c = true
    · rw [blanked_separator hc]
      intro d hd
      obtain rfl : c = d := by simpa using hd
      exact .inr ⟨rfl, by rintro rfl; exact absurd hc (by decide)⟩
    · have hc : isSeparator c = false := by simpa using hc
      have hpoint (hr : readToken c cs ≠ .unexpected) : c ≠ '.' := by
        rintro rfl
        exact hr rfl
      intro d hd
      cases hr : readToken c cs with
      | token kind lexeme rest =>
        obtain ⟨tail, rfl, -⟩ := readToken_resumes (y := []) hr (by simp [Resumes])
        rw [blanked_token hc hr] at hd
        obtain rfl : c = d := by simpa using hd
        exact .inr ⟨rfl, hpoint (by simp [hr])⟩
      | unterminated =>
        rw [blanked, marked_unterminated hc hr] at hd
        obtain rfl : c = d := by simpa using hd
        exact .inr ⟨rfl, hpoint (by simp [hr])⟩
      | unexpected =>
        rw [blanked_unexpected hc hr] at hd
        exact .inl (by simpa using hd.symm)

/-- Two places with one line and one column. -/
def Position.Beside (p q : Position) : Prop := p.line = q.line ∧ p.column = q.column

theorem Position.Beside.advance (h : p.Beside q) {d e : Char} (hd : d = '\n' ↔ e = '\n') :
    (p.advance d).Beside (q.advance e) := by
  obtain ⟨hline, hcolumn⟩ := h
  unfold Position.advance
  by_cases he : e = '\n'
  · simp [Position.Beside, hd.2 he, he, hline]
  · have hne : d ≠ '\n' := fun h => he (hd.1 h)
    simp [Position.Beside, hne, he, hline, hcolumn]

theorem Position.Beside.advanceAll (h : p.Beside q) (x : List Char) : (p.advanceAll x).Beside (q.advanceAll x) := by
  induction x generalizing p q with
  | nil => exact h
  | cons c cs ih => exact ih (h.advance Iff.rfl)

/-- **Blanks for skipped characters change no token**: the strict mode reads the same ones and ends at the same
line and column. -/
theorem Lexes.blanked (h : Lexes .lenient p x ts) (hq : p.Beside q) :
    ∃ us, Lexes .strict q (Source.blanked x) us ∧ us.map Token.face = ts.map Token.face ∧
      (p.advanceAll x).Beside (q.advanceAll (Source.blanked x)) := by
  induction h generalizing q with
  | done =>
    rw [Source.blanked, marked_nil]
    exact ⟨[], .done, rfl, hq⟩
  | @separator p c cs ts hc _ ih =>
    obtain ⟨us, hus, hface, hend⟩ := ih (hq.advance Iff.rfl)
    rw [blanked_separator hc]
    exact ⟨us, .separator hc hus, hface, hend⟩
  | @token p c cs lexeme rest kind ts hc hr _ ih =>
    obtain ⟨us, hus, hface, hend⟩ := ih (hq.advanceAll lexeme)
    obtain ⟨tail, rfl, hread⟩ := readToken_resumes hr (resumes_blanked rest)
    rw [blanked_token hc hr, Position.advanceAll_append, advanceAll_readToken hr]
    refine ⟨Token.at q kind (c :: tail) :: us, .token hc hread hus, ?_, hend⟩
    simp [hface, Token.face, Token.at, hq.1, hq.2]
  | @skip p c cs ts hc hr _ _ ih =>
    have hline : c ≠ '\n' := by
      rintro rfl
      simp [readToken] at hr
    obtain ⟨us, hus, hface, hend⟩ := ih (hq.advance (e := ' ') (by simp [hline]))
    rw [blanked_unexpected hc hr]
    exact ⟨us, .separator (by decide) hus, hface, hend⟩

/-! ## What is skipped -/

theorem Position.byte_advance (p : Position) (c : Char) : (p.advance c).byte = p.byte + c.utf8Size := by
  unfold Position.advance
  split <;> rfl

/-- All tokens stand behind the place where they are read from. -/
theorem Lexes.behind (h : Lexes mode p x ts) : ∀ t ∈ ts, p.byte ≤ t.span.start := by
  induction h with
  | done => simp
  | @separator p c cs ts _ _ ih =>
    intro t ht
    have := ih t ht
    rw [Position.byte_advance] at this
    omega
  | @token p c cs lexeme rest kind ts _ _ _ ih =>
    intro t ht
    rcases List.mem_cons.1 ht with rfl | ht
    · exact Nat.le_refl _
    · have := ih t ht
      rw [Position.byte_advanceAll] at this
      omega
  | @skip p c cs ts _ _ _ _ ih =>
    intro t ht
    have := ih t ht
    rw [Position.byte_advance] at this
    omega

/-- A character is skipped if it is no separator and no token covers it. -/
theorem Lexes.skipped_iff (h : Lexes .lenient p x ts) {before after : List (Char × Bool)} {c : Char} {s : Bool}
    (hm : marked x = before ++ (c, s) :: after) :
    s = true ↔ isSeparator c = false ∧
      ∀ t ∈ ts, ¬ t.Covers (p.byte + Text.byteLength (before.map Prod.fst)) := by
  induction h generalizing before with
  | done => simp at hm
  | @separator p d cs ts hd _ ih =>
    rw [marked_separator hd] at hm
    cases before with
    | nil =>
      obtain ⟨⟨rfl, rfl⟩, -⟩ : ((d = c) ∧ false = s) ∧ _ := by simpa using hm
      simp [hd]
    | cons m before =>
      obtain ⟨rfl, hrest⟩ := List.cons.inj hm
      have hrec := ih hrest
      rw [Position.byte_advance] at hrec
      rw [List.map_cons, byteLength_cons, ← Nat.add_assoc]
      exact hrec
  | @token p d cs lexeme rest kind ts hd hr next ih =>
    rw [marked_token hd hr] at hm
    have outside (behind : List (Char × Bool)) (hbefore : before = lexeme.map (·, false) ++ behind)
        (hrest : marked rest = behind ++ (c, s) :: after) : s = true ↔ isSeparator c = false ∧
          ∀ t ∈ Token.at p kind lexeme :: ts, ¬ t.Covers (p.byte + Text.byteLength (before.map Prod.fst)) := by
      have hbyte : p.byte + Text.byteLength (before.map Prod.fst) =
          (p.advanceAll lexeme).byte + Text.byteLength (behind.map Prod.fst) := by
        simp [hbefore, Position.byte_advanceAll, byteLength_append, Function.comp_def, Nat.add_assoc]
      have hover : ¬ (Token.at p kind lexeme).Covers
          ((p.advanceAll lexeme).byte + Text.byteLength (behind.map Prod.fst)) := by
        simp [Token.Covers, Token.at]
      rw [hbyte, List.forall_mem_cons, ih hrest]
      simp [hover]
    -- The character stands in the lexeme of the token or behind it.
    rcases List.append_eq_append_iff.1 hm with ⟨behind, hbefore, hrest⟩ | ⟨inside, hlexeme, hrest⟩
    · exact outside behind hbefore hrest
    · cases inside with
      | nil => exact outside [] (by simpa using hlexeme.symm) hrest.symm
      | cons m inside =>
        obtain ⟨rfl, -⟩ := List.cons.inj hrest
        have hchars : lexeme = before.map Prod.fst ++ c :: inside.map Prod.fst := by
          have := congrArg (List.map Prod.fst) hlexeme
          simpa [Function.comp_def] using this
        have hs : s = false := by
          have hmem : (c, s) ∈ lexeme.map (·, false) := by
            rw [hlexeme]
            simp
          obtain ⟨d, -, hd⟩ := List.mem_map.1 hmem
          exact (Prod.mk.inj hd).2.symm
        have hcovers : (Token.at p kind lexeme).Covers (p.byte + Text.byteLength (before.map Prod.fst)) := by
          have hsize := c.utf8Size_pos
          simp only [Token.Covers, Token.at, Position.byte_advanceAll, hchars, byteLength_append, byteLength_cons]
          omega
        refine iff_of_false (by simp [hs]) fun h => h.2 _ (by simp) hcovers
  | @skip p d cs ts hd hr _ next ih =>
    rw [marked_unexpected hd hr] at hm
    cases before with
    | nil =>
      obtain ⟨⟨rfl, rfl⟩, -⟩ : ((d = c) ∧ true = s) ∧ _ := by simpa using hm
      refine iff_of_true rfl ⟨hd, fun t ht hcovers => ?_⟩
      have hbehind := next.behind t ht
      have hsize := d.utf8Size_pos
      rw [Position.byte_advance] at hbehind
      simp [Token.Covers, Text.byteLength] at hcovers
      omega
    | cons m before =>
      obtain ⟨rfl, hrest⟩ := List.cons.inj hm
      have hrec := ih hrest
      rw [Position.byte_advance] at hrec
      rw [List.map_cons, byteLength_cons, ← Nat.add_assoc]
      exact hrec

/-- **The modes differ by skipped characters only.** If the strict mode gives tokens, so does the lenient one; if
it fails at a string, the lenient one fails there too, and that never fails at a character. The strict mode fails
at a character exactly if that is the first one skipped, at its line and column. If the lenient mode gives tokens,
the skipped characters are those that no token covers and that are no separators, and with blanks in their places
the strict mode gives the same tokens, bytes apart. -/
theorem modes_differ_by_skips (source : List Char) :
    (∀ ts, tokens .strict source = .ok ts → tokens .lenient source = .ok ts) ∧
    (∀ line column, tokens .strict source = .error (.unterminatedString line column) →
      tokens .lenient source = .error (.unterminatedString line column)) ∧
    (∀ c line column, tokens .lenient source ≠ .error (.unexpectedCharacter c line column)) ∧
    (∀ c line column, tokens .strict source = .error (.unexpectedCharacter c line column) ↔
      ∃ before, FirstSkipped source before c ∧ line = (Position.start.advanceAll before).line ∧
        column = (Position.start.advanceAll before).column) ∧
    (marked source).map Prod.fst = source ∧
    ∀ ts, tokens .lenient source = .ok ts →
      (∀ before c s after, marked source = before ++ (c, s) :: after → (s = true ↔ isSeparator c = false ∧
        ∀ t ∈ ts, ¬ t.Covers (Text.byteLength (before.map Prod.fst)))) ∧
      ∃ us, tokens .strict (blanked source) = .ok us ∧ us.map Token.face = ts.map Token.face := by
  have hlenient := tokensFrom_lenient_ne .start source
  have hstrict := tokensFrom_strict .start source
  refine ⟨fun ts h => ?_, fun line column h => ?_, hlenient, fun c line column => ⟨fun h => ?_, ?_⟩,
    map_fst_marked source, fun ts h => ⟨?_, ?_⟩⟩
  · rcases hstrict with ⟨heq, -⟩ | ⟨before, d, -, herror⟩
    · exact heq.symm.trans h
    · exact absurd (herror.symm.trans h) (by simp)
  · rcases hstrict with ⟨heq, -⟩ | ⟨before, d, -, herror⟩
    · exact heq.symm.trans h
    · exact absurd (herror.symm.trans h) (by simp)
  · rcases hstrict with ⟨heq, -⟩ | ⟨before, d, hfirst, herror⟩
    · exact absurd (heq.symm.trans h) (hlenient c line column)
    · obtain ⟨rfl, rfl, rfl⟩ := LexError.unexpectedCharacter.inj (Except.error.inj (herror.symm.trans h))
      exact ⟨before, hfirst, rfl, rfl⟩
  · rintro ⟨before, hfirst, rfl, rfl⟩
    rcases hstrict with ⟨-, hnone⟩ | ⟨before', d, hfirst', herror⟩
    · obtain ⟨after, hafter⟩ := hfirst
      exact absurd (hnone (c, true) (by simp [hafter])) (by simp)
    · obtain ⟨rfl, rfl⟩ := hfirst.unique hfirst'
      exact herror
  · obtain ⟨front, rfl, hlexes⟩ := tokens_eq_ok.1 h
    intro before c s after hm
    have hend (byte : Nat) : ¬ (endOf source).Covers byte := by
      simp [Token.Covers, endOf, Token.at, Position.byte_advanceAll, Text.byteLength]
    have hskipped := hlexes.skipped_iff hm
    rw [show Position.start.byte = 0 from rfl, Nat.zero_add] at hskipped
    simpa [or_imp, forall_and, hend] using hskipped
  · obtain ⟨front, rfl, hlexes⟩ := tokens_eq_ok.1 h
    obtain ⟨us, hus, hface, hline, hcolumn⟩ := hlexes.blanked (q := .start) ⟨rfl, rfl⟩
    refine ⟨us ++ [endOf (blanked source)], tokens_eq_ok.2 ⟨us, rfl, hus⟩, ?_⟩
    simp [hface, Token.face, endOf, Token.at, hline, hcolumn]

-- A point and a minus sign that belong to no number are skipped, and so is a letter beyond ASCII outside a string.
example : blanked "@a -1.é \"é\" -x".toList = "@a -1   \"é\"  x".toList := by decide +kernel

end Grimoire.Source
