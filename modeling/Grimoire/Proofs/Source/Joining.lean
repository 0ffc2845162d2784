import Grimoire.Proofs.Source.Numerals

/-!
# One text before another

Text that would make no token before it longer (`EndsToken`) leaves the tokens before it as they are, so a
text that has tokens of its own has the same ones in front of it, and what is wrong behind them is wrong
where they end (`Lexes.tokensFrom_append`). The kinds of the tokens do not depend on where the text stands
(`Lexes.elsewhere`), and their places are counted on from there (`tokensFrom_offsetBy`).
-/
namespace Grimoire.Source

/-! ## One step of the lexer -/

section
variable {mode : LexMode} {p : Position} {c : Char} {cs : List Char}

theorem tokensFrom_separator (hc : isSeparator c = true) :
    tokensFrom mode p (c :: cs) = tokensFrom mode (p.advance c) cs := by
  rw [tokensFrom.eq_def]
  simp only [hc, if_true]

theorem tokensFrom_token {lexeme rest : List Char} {kind : Kind} (hc : isSeparator c = false)
    (hr : readToken c cs = .token kind lexeme rest) :
    tokensFrom mode p (c :: cs) =
      (tokensFrom mode (p.advanceAll lexeme) rest).map fun ts => Token.at p kind lexeme :: ts := by
  rw [tokensFrom.eq_def]
  simp only [hc, Bool.false_eq_true, if_false]
  split
  · next heq =>
    rw [hr] at heq
    obtain ⟨rfl, rfl, rfl⟩ := Reading.token.inj heq
    cases tokensFrom mode (p.advanceAll lexeme) rest <;> rfl
  · next heq => simp [hr] at heq
  · next heq => simp [hr] at heq

theorem tokensFrom_unexpected (hc : isSeparator c = false) (hr : readToken c cs = .unexpected) :
    tokensFrom mode p (c :: cs) = match mode with
      | .strict => .error (.unexpectedCharacter c p.line p.column)
      | .lenient => tokensFrom .lenient (p.advance c) cs := by
  rw [tokensFrom.eq_def]
  simp only [hc, Bool.false_eq_true, if_false]
  split
  · next heq => simp [hr] at heq
  · next heq => simp [hr] at heq
  · cases mode <;> rfl

theorem tokensFrom_unterminated (hc : isSeparator c = false) (hr : readToken c cs = .unterminated) :
    tokensFrom mode p (c :: cs) = .error (.unterminatedString p.line p.column) := by
  rw [tokensFrom.eq_def]
  simp only [hc, Bool.false_eq_true, if_false]
  split
  · next heq => simp [hr] at heq
  · rfl
  · next heq => simp [hr] at heq

end

/-! ## What ends every token -/

/-- What may follow any token: nothing that would make it longer. -/
def EndsToken (y : List Char) : Prop := ∀ c, y.head? = some c → continuesWord c = false ∧ c ≠ '.' ∧ c ≠ ':'

theorem EndsToken.endsWord {y : List Char} (h : EndsToken y) : EndsWord y :=
  fun c hc => ⟨(h c hc).1, (h c hc).2.1⟩

theorem EndsToken.cons {c : Char} (hc : continuesWord c = false ∧ c ≠ '.' ∧ c ≠ ':') (y : List Char) :
    EndsToken (c :: y) := by
  intro d hd
  obtain rfl : c = d := by simpa using hd
  exact hc

section
variable {y : List Char} (h : EndsWord y)
include h

theorem splitNumber_stop (x : List Char) :
    splitNumber (x ++ y) = ((splitNumber x).1, (splitNumber x).2.1, (splitNumber x).2.2 ++ y) := by
  obtain ⟨htake, hdrop⟩ := takeWhile_dropWhile_stop h.noDigit x
  simp only [splitNumber, htake, hdrop]
  -- What is left of the digits: nothing, one character, or a point that digits may follow.
  generalize x.dropWhile isAsciiDigit = left
  cases left with
  | nil =>
    cases y with
    | nil => rfl
    | cons c y =>
      have hc := (h c rfl).2
      simp only [List.nil_append]
      split
      · next heq => exact absurd (List.cons.inj heq).1 hc
      · rfl
  | cons c left =>
    cases left with
    | nil =>
      by_cases hc : c = '.'
      · subst hc
        cases y with
        | nil => rfl
        | cons d y => simp [h.noDigit d rfl]
      · simp only [List.cons_append, List.nil_append]
        split
        · next heq => exact absurd (List.cons.inj heq).1 hc
        · rfl
    | cons d x =>
      obtain ⟨htake, hdrop⟩ := takeWhile_dropWhile_stop h.noDigit (d :: x)
      rw [List.cons_append] at htake hdrop
      by_cases hc : c = '.'
      · subst hc
        by_cases hd : isAsciiDigit d = true
        · simp only [List.cons_append, hd, if_true, htake, hdrop]
        · simp only [List.cons_append, hd, Bool.false_eq_true, if_false]
      · simp only [List.cons_append]
        split
        · next heq => exact absurd (List.cons.inj heq).1 hc
        · split
          · next heq => exact absurd (List.cons.inj heq).1 hc
          · rfl

theorem readNumber_stop (sign x : List Char) : readNumber sign (x ++ y) = (readNumber sign x).followedBy y := by
  simp only [readNumber, splitNumber_stop h x]
  rfl

theorem readWord_stop (x : List Char) : readWord (x ++ y) = (readWord x).followedBy y := by
  obtain ⟨htake, hdrop⟩ := takeWhile_dropWhile_stop (fun c hc => (h c hc).1) x
  simp only [readWord, htake, hdrop]
  rfl

end

/-- No token goes on into a text that ends every token. -/
theorem readToken_stop {c : Char} {cs y : List Char} {r : Reading} (h : EndsToken y) (hr : readToken c cs = r)
    (hne : r ≠ .unterminated) : readToken c (cs ++ y) = r.followedBy y := by
  subst hr
  have hw := h.endsWord
  unfold readToken at hne ⊢
  split at hne
  all_goals try rfl
  · cases cs with
    | nil =>
      cases y with
      | nil => rfl
      | cons d y =>
        have hd := (h d rfl).2.2
        simp [Reading.followedBy, hd]
    | cons d cs =>
      by_cases hd : d = ':'
      · subst hd
        rfl
      · simp [hd, Reading.followedBy]
  · split at hne
    · next q hread => simp [readQuoted_append y hread, Reading.followedBy]
    · exact absurd rfl hne
  · cases cs with
    | nil =>
      cases y with
      | nil => rfl
      | cons d y => simp [hw.noDigit d rfl, Reading.followedBy]
    | cons d cs =>
      by_cases hd : isAsciiDigit d = true
      · simpa [hd] using readNumber_stop hw ['-'] (d :: cs)
      · simp [hd, Reading.followedBy]
  · by_cases hd : isAsciiDigit c = true
    · have hnumber := readNumber_stop hw [] (c :: cs)
      rw [List.cons_append] at hnumber
      simpa only [hd, if_true] using hnumber
    · by_cases hs : startsWord c = true
      · have hword := readWord_stop hw (c :: cs)
        rw [List.cons_append] at hword
        simpa only [hd, hs, if_true, Bool.false_eq_true, if_false] using hword
      · simp [hd, hs, Reading.followedBy]

namespace Lexes

variable {mode : LexMode} {p : Position} {x y : List Char} {ts us : List Token}

/-- **Tokens end where the next text begins**, whatever becomes of that text. -/
theorem tokensFrom_append (h : Lexes mode p x ts) (hy : EndsToken y) :
    tokensFrom mode p (x ++ y) = (tokensFrom mode (p.advanceAll x) y).map fun us => ts ++ us := by
  have map_id (r : Except LexError (List Token)) : r = r.map fun us => [] ++ us := by cases r <;> rfl
  have map_cons (t : Token) (ts : List Token) (r : Except LexError (List Token)) :
      (r.map fun us => ts ++ us).map (fun us => t :: us) = r.map fun us => t :: ts ++ us := by cases r <;> rfl
  induction h with
  | done => exact map_id _
  | separator hc _ ih => rw [List.cons_append, tokensFrom_separator hc, ih, Position.advanceAll_cons]
  | token hc hr _ ih =>
    have hstop := readToken_stop hy hr (by simp)
    rw [List.cons_append, tokensFrom_token hc hstop, ih, advanceAll_readToken hr, map_cons]
  | skip hc hr hm _ ih =>
    subst hm
    have hstop := readToken_stop hy hr (by simp)
    rw [List.cons_append, tokensFrom_unexpected hc hstop, ih, Position.advanceAll_cons]

theorem before (h : Lexes mode p x ts) (hy : EndsToken y) (hus : Lexes mode (p.advanceAll x) y us) :
    Lexes mode p (x ++ y) (ts ++ us) := by
  have hall := h.tokensFrom_append hy
  rw [tokensFrom_eq_ok.2 ⟨us, rfl, hus⟩, ← Position.advanceAll_append] at hall
  obtain ⟨vs, hvs, hlexes⟩ := tokensFrom_eq_ok.1 hall
  have hsame : ts ++ us = vs := by
    refine List.append_cancel_right (Eq.trans ?_ hvs)
    exact List.append_assoc ts us _
  rwa [hsame]

/-- At another place the text has tokens of the same kinds. -/
theorem elsewhere (h : Lexes mode p x ts) (q : Position) :
    ∃ us, Lexes mode q x us ∧ us.map Token.kind = ts.map Token.kind := by
  induction h generalizing q with
  | done => exact ⟨[], .done, rfl⟩
  | @separator p c cs ts hc _ ih =>
    obtain ⟨us, hus, hkinds⟩ := ih (q.advance c)
    exact ⟨us, .separator hc hus, hkinds⟩
  | @token p c cs lexeme rest kind ts hc hr _ ih =>
    obtain ⟨us, hus, hkinds⟩ := ih (q.advanceAll lexeme)
    refine ⟨Token.at q kind lexeme :: us, .token hc hr hus, ?_⟩
    rw [List.map_cons, List.map_cons, hkinds]
    rfl
  | @skip p c cs ts hc hr hm _ ih =>
    obtain ⟨us, hus, hkinds⟩ := ih (q.advance c)
    exact ⟨us, .skip hc hr hm hus, hkinds⟩

end Lexes

/-! ## A text at another place -/

section
variable {mode : LexMode} {p : Position}

/-- A place in a text, where the text stands at `q`: its line is counted from that of `q`, and on the first line its
column from that of `q`. -/
def Position.offsetBy (p q : Position) : Position where
  byte := q.byte + p.byte
  line := q.line + (p.line - 1)
  column := if p.line = 1 then q.column + (p.column - 1) else p.column

def Token.offsetBy (t : Token) (q : Position) : Token :=
  let place := Position.offsetBy ⟨t.span.start, t.span.line, t.span.column⟩ q
  { t with span := ⟨place.byte, q.byte + t.span.stop, place.line, place.column⟩ }

def LexError.offsetBy (e : LexError) (q : Position) : LexError :=
  match e with
  | .unexpectedCharacter c line column =>
    let place := Position.offsetBy ⟨0, line, column⟩ q
    .unexpectedCharacter c place.line place.column
  | .unterminatedString line column =>
    let place := Position.offsetBy ⟨0, line, column⟩ q
    .unterminatedString place.line place.column

/-- What is made of a text, where the text stands at `q`. -/
def lexedAt (q : Position) : Except LexError (List Token) → Except LexError (List Token)
  | .ok ts => .ok (ts.map (·.offsetBy q))
  | .error e => .error (e.offsetBy q)

/-- Lines and columns count from one. -/
structure Position.Counts (p : Position) : Prop where
  line : 1 ≤ p.line
  column : 1 ≤ p.column

theorem Position.Counts.advance (h : p.Counts) (c : Char) : (p.advance c).Counts := by
  obtain ⟨hline, hcolumn⟩ := h
  unfold Position.advance
  split
  · exact ⟨Nat.le_add_left 1 p.line, Nat.le_refl 1⟩
  · exact ⟨hline, Nat.le_add_left 1 p.column⟩

theorem Position.Counts.advanceAll (h : p.Counts) (x : List Char) : (p.advanceAll x).Counts := by
  induction x generalizing p with
  | nil => exact h
  | cons c cs ih => exact ih (h.advance c)

theorem Position.advance_offsetBy (h : p.Counts) (q : Position) (c : Char) :
    (p.offsetBy q).advance c = (p.advance c).offsetBy q := by
  obtain ⟨hline, hcolumn⟩ := h
  unfold Position.advance
  split
  · simp only [Position.offsetBy, Position.mk.injEq]
    refine ⟨Nat.add_assoc .., by omega, ?_⟩
    rw [if_neg (by omega)]
  · simp only [Position.offsetBy, Position.mk.injEq]
    refine ⟨Nat.add_assoc .., trivial, ?_⟩
    split <;> omega

theorem Position.advanceAll_offsetBy (h : p.Counts) (q : Position) (x : List Char) :
    (p.offsetBy q).advanceAll x = (p.advanceAll x).offsetBy q := by
  induction x generalizing p with
  | nil => rfl
  | cons c cs ih => rw [advanceAll_cons, advanceAll_cons, advance_offsetBy h, ih (h.advance c)]

theorem Token.at_offsetBy (h : p.Counts) (q : Position) (kind : Kind) (lexeme : List Char) :
    Token.at (p.offsetBy q) kind lexeme = (Token.at p kind lexeme).offsetBy q := by
  simp only [Token.at, Token.offsetBy, Position.advanceAll_offsetBy h]
  rfl

/-- **Tokens and faults depend on the place of a text by their own places only.** -/
theorem tokensFrom_offsetBy (h : p.Counts) (q : Position) (x : List Char) :
    tokensFrom mode (p.offsetBy q) x = lexedAt q (tokensFrom mode p x) := by
  induction hn : x.length using Nat.strongRecOn generalizing p x with
  | ind n ih =>
    subst hn
    cases x with
    | nil =>
      rw [tokensFrom.eq_def, tokensFrom.eq_def mode p]
      simp only [lexedAt, List.map_cons, List.map_nil, Token.at_offsetBy h]
    | cons c cs =>
      have next := ih cs.length (by simp) (h.advance c) cs rfl
      by_cases hc : isSeparator c = true
      · rw [tokensFrom_separator hc, tokensFrom_separator hc, Position.advance_offsetBy h, next]
      · have hc : isSeparator c = false := by simpa using hc
        cases hr : readToken c cs with
        | token kind lexeme rest =>
          have hrest := ih rest.length (length_rest_readToken hr) (h.advanceAll lexeme) rest rfl
          rw [tokensFrom_token hc hr, tokensFrom_token hc hr, Position.advanceAll_offsetBy h, hrest,
            Token.at_offsetBy h]
          cases tokensFrom mode (p.advanceAll lexeme) rest <;> rfl
        | unterminated =>
          rw [tokensFrom_unterminated hc hr, tokensFrom_unterminated hc hr]
          rfl
        | unexpected =>
          rw [tokensFrom_unexpected hc hr, tokensFrom_unexpected hc hr]
          cases mode with
          | strict => rfl
          | lenient => rw [Position.advance_offsetBy h, next]

theorem tokensFrom_eq_lexedAt (q : Position) (x : List Char) : tokensFrom mode q x = lexedAt q (tokens mode x) :=
  tokensFrom_offsetBy (p := .start) ⟨Nat.le_refl 1, Nat.le_refl 1⟩ q x

end

end Grimoire.Source
