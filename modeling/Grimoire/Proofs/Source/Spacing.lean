import Grimoire.Proofs.Source.Skipping

/-!
# Tokens without their surroundings

A token is the same one whatever stands before and behind it, so the lexemes of a source with single blanks between
them are a source of the same tokens in the strict mode (`Lexes.spaced`). A character outside all tokens ends those
before it: the text before it has its tokens and the text behind it the others, each read alone (`Lexes.parted`).
-/
namespace Grimoire.Source

variable {mode : LexMode} {p : Position} {c : Char} {cs lexeme rest x before after : List Char} {kind : Kind}
  {ts : List Token}

/-! ## Single blanks between tokens -/

/-- The lexemes of the tokens with single blanks between them, the end of input left out. -/
def spaced (ts : List Token) : List Char := Text.join [' '] ((ts.filter fun t => !t.isEnd).map Token.lexeme)

theorem spaced_eq {front : List Token} {last : Token} (hfront : ∀ t ∈ front, t.isEnd = false)
    (hlast : last.isEnd = true) : spaced (front ++ [last]) = Text.join [' '] (front.map Token.lexeme) := by
  have hkept : front.filter (fun t => !t.isEnd) = front := List.filter_eq_self.2 fun t ht => by simp [hfront t ht]
  simp [spaced, hkept, hlast]

/-- **Lexemes read again**: with single blanks between them they are the same tokens, from any place. -/
theorem Lexes.spaced (h : Lexes mode p x ts) (q : Position) :
    ∃ us, Lexes .strict q (Text.join [' '] (ts.map Token.lexeme)) us ∧ us.map Token.kind = ts.map Token.kind ∧
      us.map Token.lexeme = ts.map Token.lexeme := by
  induction h generalizing q with
  | done => exact ⟨[], .done, rfl, rfl⟩
  | separator _ _ ih => exact ih q
  | skip _ _ _ _ ih => exact ih q
  | @token p c cs lexeme rest kind ts hc hr _ ih =>
    cases ts with
    | nil =>
      obtain ⟨tail, rfl, hread⟩ := readToken_again hr (Succeeds.of_append (List.nil_append rest).symm)
      rw [List.append_nil] at hread
      exact ⟨_, .token hc hread .done, rfl, rfl⟩
    | cons t ts =>
      obtain ⟨us, hus, hkinds, hlexemes⟩ := ih ((q.advanceAll lexeme).advance ' ')
      have hblank : Succeeds rest (' ' :: Text.join [' '] ((t :: ts).map Token.lexeme)) := by
        constructor
        · intro d hd
          exact .inl (by simpa using hd.symm)
        · intro d r hy
          cases hy
      obtain ⟨tail, rfl, hread⟩ := readToken_again hr hblank
      have hjoin : Text.join [' '] ((Token.at p kind (c :: tail) :: t :: ts).map Token.lexeme) =
          c :: (tail ++ ' ' :: Text.join [' '] ((t :: ts).map Token.lexeme)) := by
        simp [Text.join, Token.at]
      rw [hjoin]
      refine ⟨Token.at q kind (c :: tail) :: us, .token hc hread (.separator (by decide) hus), ?_, ?_⟩
      · rw [List.map_cons, hkinds]
        rfl
      · rw [List.map_cons, hlexemes]
        rfl

/-! ## Characters outside all tokens -/

/-- A character that starts no token does not start one when less follows it. -/
theorem readToken_unexpected_front (hr : readToken c cs = .unexpected) (hx : x <+: cs) :
    readToken c x = .unexpected := by
  unfold readToken at hr ⊢
  split at hr
  all_goals try cases hr
  · split at hr <;> cases hr
  · split at hr <;> cases hr
  · cases x with
    | nil => rfl
    | cons d x =>
      obtain ⟨more, rfl⟩ := hx
      dsimp only [List.cons_append] at hr
      split at hr
      · cases hr
      · next hdigit => exact if_neg hdigit
  · split at hr
    · cases hr
    · split at hr
      · cases hr
      · next hdigit hword => simp [hdigit, hword]

/-- **Tokens do not reach over a character outside them.** The text before it has the tokens before it, and the text
behind it has the tokens behind it. -/
theorem Lexes.parted (h : Lexes mode p x ts) (hx : x = before ++ c :: after)
    (hfree : ∀ t ∈ ts, ¬ t.Covers (p.byte + Text.byteLength before)) :
    ∃ us vs, ts = us ++ vs ∧ Lexes mode p before us ∧ Lexes mode (p.advanceAll (before ++ [c])) after vs := by
  induction h generalizing before with
  | done => simp at hx
  | @separator p d cs ts hd next ih =>
    cases before with
    | nil =>
      obtain ⟨rfl, rfl⟩ := List.cons.inj hx
      exact ⟨[], ts, rfl, .done, next⟩
    | cons e before =>
      obtain ⟨rfl, hcs⟩ := List.cons.inj hx
      rw [byteLength_cons, ← Nat.add_assoc, ← Position.byte_advance] at hfree
      obtain ⟨us, vs, rfl, hus, hvs⟩ := ih hcs hfree
      exact ⟨us, vs, rfl, .separator hd hus, hvs⟩
  | @skip p d cs ts hd hr hm next ih =>
    cases before with
    | nil =>
      obtain ⟨rfl, rfl⟩ := List.cons.inj hx
      exact ⟨[], ts, rfl, .done, next⟩
    | cons e before =>
      obtain ⟨rfl, hcs⟩ := List.cons.inj hx
      rw [byteLength_cons, ← Nat.add_assoc, ← Position.byte_advance] at hfree
      obtain ⟨us, vs, rfl, hus, hvs⟩ := ih hcs hfree
      have hread := readToken_unexpected_front hr ⟨c :: after, hcs.symm⟩
      exact ⟨us, vs, rfl, .skip hd hread hm hus, hvs⟩
  | @token p d cs lexeme rest kind ts hd hr next ih =>
    obtain ⟨htoken, hlater⟩ := List.forall_mem_cons.1 hfree
    -- The character does not stand in the lexeme, so it stands in the rest.
    obtain ⟨behind, rfl, hrest⟩ : ∃ behind, before = lexeme ++ behind ∧ rest = behind ++ c :: after := by
      have hsplit := (append_of_readToken hr).trans hx
      rcases List.append_eq_append_iff.1 hsplit with ⟨behind, hbefore, hrest⟩ | ⟨inside, hlexeme, hrest⟩
      · exact ⟨behind, hbefore, hrest⟩
      · cases inside with
        | nil => exact ⟨[], by simpa using hlexeme.symm, hrest.symm⟩
        | cons e inside =>
          refine absurd ?_ htoken
          have hsize := e.utf8Size_pos
          simp only [Token.Covers, Token.at, Position.byte_advanceAll, hlexeme, byteLength_append, byteLength_cons]
          omega
    obtain ⟨tail, rfl, hread⟩ := readToken_again hr (Succeeds.of_append hrest)
    rw [byteLength_append, ← Nat.add_assoc, ← Position.byte_advanceAll] at hlater
    obtain ⟨us, vs, rfl, hus, hvs⟩ := ih hrest hlater
    refine ⟨Token.at p kind (d :: tail) :: us, vs, rfl, .token hd hread hus, ?_⟩
    rwa [List.append_assoc, Position.advanceAll_append]

/-- **Tokens are free of their context.** The lexemes of the tokens of a source, with single blanks between them, have
tokens in the strict mode: the same kinds, with their values, from the same lexemes, so that joining these gives the
same text again. And each character that no token covers, a skipped one too, parts the source: its tokens are those
that the text before the character has alone, and those that the text behind it has alone, at their places. -/
theorem tokens_spaced {source : List Char} (h : tokens mode source = .ok ts) :
    (∃ us, tokens .strict (spaced ts) = .ok us ∧ us.map Token.kind = ts.map Token.kind ∧
      us.map Token.lexeme = ts.map Token.lexeme ∧ spaced us = spaced ts) ∧
    ∀ before c after, source = before ++ c :: after → (∀ t ∈ ts, ¬ t.Covers (Text.byteLength before)) →
      ∃ us last vs, tokens mode before = .ok (us ++ [last]) ∧ last.isEnd = true ∧ tokens mode after = .ok vs ∧
        ts = us ++ vs.map (·.offsetBy (Position.start.advanceAll (before ++ [c]))) := by
  obtain ⟨front, rfl, hlexes⟩ := tokens_eq_ok.1 h
  have hspaced : spaced (front ++ [endOf source]) = Text.join [' '] (front.map Token.lexeme) :=
    spaced_eq hlexes.no_end rfl
  constructor
  · obtain ⟨us, hus, hkinds, hlexemes⟩ := hlexes.spaced .start
    refine ⟨us ++ [endOf (spaced (front ++ [endOf source]))], ?_, ?_, ?_, ?_⟩
    · rw [hspaced]
      exact tokens_eq_ok.2 ⟨us, rfl, hus⟩
    · rw [List.map_append, List.map_append, hkinds]
      rfl
    · rw [List.map_append, List.map_append, hlexemes]
      rfl
    · rw [hspaced, spaced_eq hus.no_end rfl, hlexemes]
  · intro before c after hsource hfree
    let place := Position.start.advanceAll (before ++ [c])
    have hfront : ∀ t ∈ front, ¬ t.Covers (Position.start.byte + Text.byteLength before) := by
      intro t ht
      rw [show Position.start.byte = 0 from rfl, Nat.zero_add]
      exact hfree t (List.mem_append_left _ ht)
    obtain ⟨us, vs, rfl, hus, hvs⟩ := hlexes.parted hsource hfront
    have hplaced : tokensFrom mode place after = lexedAt place (tokens mode after) := tokensFrom_eq_lexedAt place after
    rw [tokensFrom_eq_ok.2 ⟨vs, rfl, hvs⟩] at hplaced
    cases hafter : tokens mode after with
    | error e =>
      rw [hafter] at hplaced
      cases hplaced
    | ok ws =>
      rw [hafter] at hplaced
      refine ⟨us, endOf before, ws, tokens_eq_ok.2 ⟨us, rfl, hus⟩, rfl, rfl, ?_⟩
      rw [← Except.ok.inj hplaced, List.append_assoc, ← Position.advanceAll_append, endOf, hsource]
      simp

/-- Points between digits and a letter beyond ASCII between colons, all skipped; a string over two lines. -/
def tightSource : String := "1..2:é:::-x\"a\\q\nb\"true_"

theorem tightSource_spaced : ∃ ts, tokens .lenient tightSource.toList = .ok ts ∧
    spaced ts = "1 2 : :: : x \"a\\q\nb\" true_".toList ∧
    (∃ us, tokens .strict (spaced ts) = .ok us ∧ us.map Token.kind = ts.map Token.kind ∧
      us.map Token.lexeme = ts.map Token.lexeme ∧ spaced us = spaced ts) ∧
    ∀ before c after, tightSource.toList = before ++ c :: after →
      (∀ t ∈ ts, ¬ t.Covers (Text.byteLength before)) →
      ∃ us last vs, tokens .lenient before = .ok (us ++ [last]) ∧ last.isEnd = true ∧ tokens .lenient after = .ok vs ∧
        ts = us ++ vs.map (·.offsetBy (Position.start.advanceAll (before ++ [c]))) := by
  obtain ⟨ts, hts, htext⟩ : ∃ ts, tokens .lenient tightSource.toList = .ok ts ∧
      (spaced ts == "1 2 : :: : x \"a\\q\nb\" true_".toList) = true := exists_ok (by decide +kernel)
  exact ⟨ts, hts, by simpa using htext, tokens_spaced hts⟩

end Grimoire.Source
