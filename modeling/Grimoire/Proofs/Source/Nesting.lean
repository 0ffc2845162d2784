import Grimoire.Proofs.Source.Placement

/-!
# Nested braces and brackets

Tokens without comments whose braces and brackets are properly nested never leave a reader with an
open block or list at their end: `errors_not_atEnd` finds every fault at a token before the end. The
readers keep the closing signs that are still due (`Tame`), each by one lemma.
-/
namespace Grimoire.Source

/-! ## Closing signs that are due -/

def Token.isDelimiter (t : Token) : Bool :=
  t.isSymbol .openBrace || t.isSymbol .closeBrace || t.isSymbol .openBracket || t.isSymbol .closeBracket

/-- Braces and brackets are properly nested and balanced, with these closing signs due, the innermost
first. -/
def nested : List Symbol → List Token → Bool
  | due, [] => due.isEmpty
  | due, t :: ts =>
    if t.isSymbol .openBrace then nested (.closeBrace :: due) ts
    else if t.isSymbol .openBracket then nested (.closeBracket :: due) ts
    else if t.isSymbol .closeBrace || t.isSymbol .closeBracket then
      match due with
      | [] => false
      | s :: due => t.isSymbol s && nested due ts
    else nested due ts

section
variable {due : List Symbol} {t : Token} {ts rest : List Token}

theorem nested_plain (h : t.isDelimiter = false) : nested due (t :: ts) = nested due ts := by
  simp only [Token.isDelimiter, Bool.or_eq_false_iff] at h
  simp [nested, h]

theorem nested_open (shape : BlockShape) (h : t.isSymbol (Context.openSymbol shape) = true) :
    nested due (t :: ts) = nested (Context.closeSymbol shape :: due) ts := by
  rw [Token.isSymbol, beq_iff_eq] at h
  cases shape <;> simp [nested, Token.isSymbol, h, Context.openSymbol, Context.closeSymbol]

theorem nested_close (shape : BlockShape) (h : t.isSymbol (Context.closeSymbol shape) = true) {s : Symbol}
    (hn : nested (s :: due) (t :: ts) = true) : s = Context.closeSymbol shape ∧ nested due ts = true := by
  rw [Token.isSymbol, beq_iff_eq] at h
  cases shape <;>
    simp [nested, Token.isSymbol, h, Context.closeSymbol] at hn ⊢ <;> exact ⟨hn.1.symm, hn.2⟩

/-- With other signs due, the tokens behind the first are nested too. -/
theorem nested_tail (h : nested due (t :: ts) = true) : ∃ due', nested due' ts = true := by
  simp only [nested] at h
  split at h
  · exact ⟨_, h⟩
  · split at h
    · exact ⟨_, h⟩
    · split at h
      · cases due with
        | nil => simp at h
        | cons s due => exact ⟨due, (Bool.and_eq_true_iff.1 h).2⟩
      · exact ⟨_, h⟩

/-- The other kind of block. -/
def other : BlockShape → BlockShape
  | .map => .sequence
  | .sequence => .map

theorem closeSymbol_other (shape : BlockShape) : Context.closeSymbol (other shape) ≠ Context.closeSymbol shape := by
  cases shape <;> decide

/-- **An open block is closed**: between its tokens the other signs come in pairs. -/
theorem blockEnd_of_nested (shape : BlockShape) (pre : List Symbol)
    (h : nested (pre ++ Context.closeSymbol shape :: due) ts = true) :
    ∃ t rest, Context.blockEnd (Context.openSymbol shape) (Context.closeSymbol shape)
      (pre.count (Context.closeSymbol shape)) ts = some (t, rest) ∧ nested due rest = true := by
  induction ts generalizing pre with
  | nil => cases pre <;> simp [nested] at h
  | cons t ts ih =>
    have hne := closeSymbol_other shape
    simp only [Context.blockEnd]
    by_cases ho : t.isSymbol (Context.openSymbol shape) = true
    · rw [nested_open shape ho] at h
      have hrec := ih (Context.closeSymbol shape :: pre) h
      rw [List.count_cons_self] at hrec
      simpa only [ho, if_true] using hrec
    · by_cases hc : t.isSymbol (Context.closeSymbol shape) = true
      · cases pre with
        | nil =>
          obtain ⟨_, hn⟩ := nested_close shape hc h
          exact ⟨t, ts, by simp [ho, hc], hn⟩
        | cons s pre =>
          obtain ⟨rfl, hn⟩ := nested_close shape hc h
          rw [List.count_cons_self]
          simpa only [ho, hc, if_true, Bool.false_eq_true, if_false] using ih pre hn
      · simp only [ho, hc, Bool.false_eq_true, if_false]
        by_cases ho' : t.isSymbol (Context.openSymbol (other shape)) = true
        · rw [nested_open _ ho'] at h
          have hrec := ih (Context.closeSymbol (other shape) :: pre) h
          rwa [List.count_cons_of_ne hne] at hrec
        · by_cases hc' : t.isSymbol (Context.closeSymbol (other shape)) = true
          · cases pre with
            | nil => exact absurd (nested_close _ hc' h).1.symm hne
            | cons s pre =>
              obtain ⟨rfl, hn⟩ := nested_close _ hc' h
              rw [List.count_cons_of_ne hne]
              exact ih pre hn
          · have hp : t.isDelimiter = false := by
              cases shape <;>
                simp_all [Token.isDelimiter, other, Context.openSymbol, Context.closeSymbol]
            rw [nested_plain hp] at h
            exact ih pre h

/-! ## Tame tokens -/

/-- Nested tokens, with no comment and no end of input among them, the last a newline. -/
structure Tame (due : List Symbol) (ts : List Token) : Prop where
  nested : nested due ts = true
  plain : ∀ t ∈ ts, t.isSymbol .hash = false ∧ t.kind ≠ .endOfInput
  lines : EndsIn Token.isNewline ts

/-- Tame for some signs due. -/
def TameTail (ts : List Token) : Prop := ∃ due, Tame due ts

theorem Tame.tail (h : Tame due (t :: ts)) (ht : t.isDelimiter = false) : Tame due ts :=
  ⟨(nested_plain ht).symm.trans h.nested, fun t ht => h.plain t (by simp [ht]), h.lines.tail⟩

theorem Tame.suffix (pre : List Token) (h : Tame due (pre ++ ts)) {due' : List Symbol}
    (hn : Source.nested due' ts = true) : Tame due' ts :=
  ⟨hn, fun t ht => h.plain t (by simp [ht]), h.lines.append_right⟩

theorem TameTail.tail (h : TameTail (t :: ts)) : TameTail ts := by
  obtain ⟨due, h⟩ := h
  obtain ⟨due', hn⟩ := nested_tail h.nested
  exact ⟨due', Tame.suffix [t] h hn⟩

theorem Tame.ne_nil {s : Symbol} (h : Tame (s :: due) ts) : ts ≠ [] := by
  rintro rfl
  simpa [Source.nested] using h.nested

theorem Tame.closed (shape : BlockShape) (h : Tame (Context.closeSymbol shape :: due) (t :: ts))
    (ht : t.isSymbol (Context.closeSymbol shape) = true) : Tame due ts :=
  Tame.suffix [t] h (nested_close shape ht h.nested).2

theorem Tame.opened (shape : BlockShape) (h : Tame due (t :: ts))
    (ht : t.isSymbol (Context.openSymbol shape) = true) : Tame (Context.closeSymbol shape :: due) ts :=
  Tame.suffix [t] h ((nested_open shape ht).symm.trans h.nested)

theorem isDelimiter_of_symbol {s : Symbol} (h : t.isSymbol s = true)
    (hs : s ∉ [Symbol.openBrace, .closeBrace, .openBracket, .closeBracket]) : t.isDelimiter = false := by
  rw [Token.isSymbol, beq_iff_eq] at h
  simp only [Token.isDelimiter, Token.isSymbol, h]
  cases s <;> simp at hs ⊢

theorem isDelimiter_of_word {w : List Char} (h : t.word? = some w) :
    t.isDelimiter = false ∧ t.isNewline = false := by
  unfold Token.word? at h
  simp only [Token.isDelimiter, Token.isSymbol, Token.isNewline]
  cases hk : t.kind <;> simp [hk] at h ⊢

theorem isDelimiter_of_stringOrWord {w : List Char} (h : t.stringOrWord? = some w) :
    t.isDelimiter = false ∧ t.isNewline = false := by
  unfold Token.stringOrWord? at h
  split at h
  · next v hk => simp [Token.isDelimiter, Token.isSymbol, Token.isNewline, hk]
  · exact isDelimiter_of_word h

end

/-! ## What readers keep -/

/-- The tokens left after a value satisfy `P`; a fault was found before the end and leaves tame ones. -/
def Outcome.Keeps {α : Type} (P : List Token → Prop) : Outcome α → Prop
  | .ok _ rest => P rest
  | .fail e rest => ¬ e.AtEnd ∧ TameTail rest

section
variable {α β : Type} {P Q : List Token → Prop} {ctx : Context} {due : List Symbol} {t : Token}
  {ts : List Token}

theorem Outcome.Keeps.mono {o : Outcome α} (h : o.Keeps P) (hpq : ∀ ts, P ts → Q ts) : o.Keeps Q := by
  cases o with
  | ok a rest => exact hpq rest h
  | fail e rest => exact h

theorem Outcome.Keeps.bind {o : Outcome α} {k : α → List Token → Outcome β} (h : o.Keeps P)
    (hk : ∀ a rest, o = .ok a rest → P rest → (k a rest).Keeps Q) : (o.bind k).Keeps Q := by
  cases o with
  | ok a rest => exact hk a rest rfl h
  | fail e rest => exact h

/-- A fault at a token that is there is no fault at the end. -/
theorem keeps_fault (f : Fault) (hf : f ≠ .unterminatedBlock) (h : Tame due (t :: ts)) :
    (ctx.fault f (t :: ts) : Outcome α).Keeps P := by
  refine ⟨fun hx => ?_, due, h⟩
  rcases hx with hx | hx
  · exact (h.plain t (by simp)).2 hx
  · exact hf hx

theorem Tame.skipTrivia (h : Tame due ts) : Tame due (Context.skipTrivia false ts) := by
  induction ts with
  | nil => exact h
  | cons t ts ih =>
    rw [Context.skipTrivia]
    have hh := (h.plain t (by simp)).1
    by_cases hn : t.isNewline = true
    · simp only [hn, if_true]
      refine ih (h.tail ?_)
      rw [Token.isNewline, beq_iff_eq] at hn
      simp [Token.isDelimiter, Token.isSymbol, hn]
    · simpa [hn, hh] using h

/-- A token that a test accepts; something is left unless the token is a newline. -/
theorem keeps_expectToken {test : Token → Option α} (what : String)
    (ht : ∀ t a, test t = some a → t.isDelimiter = false ∧ t.isNewline = false) (h : Tame due ts) (hne : ts ≠ []) :
    (ctx.expectToken test what ts).Keeps fun rest => Tame due rest ∧ rest ≠ [] := by
  obtain ⟨t, ts, rfl⟩ := List.exists_cons_of_ne_nil hne
  simp only [Context.expectToken]
  cases hv : test t with
  | some a =>
    obtain ⟨hd, hn⟩ := ht t a hv
    exact And.intro (h.tail hd) (h.lines.ne_nil hn)
  | none => exact keeps_fault (.expected what) (by simp) h

theorem keeps_expectIdentifier (what : String) (h : Tame due ts) (hne : ts ≠ []) :
    (ctx.expectIdentifier what ts).Keeps fun rest => Tame due rest ∧ rest ≠ [] := by
  refine keeps_expectToken what (fun t a hv => ?_) h hne
  cases hk : t.kind <;> simp [hk] at hv
  simp [Token.isDelimiter, Token.isSymbol, Token.isNewline, hk]

theorem keeps_expectString (what : String) (h : Tame due ts) (hne : ts ≠ []) :
    (ctx.expectString what ts).Keeps fun rest => Tame due rest ∧ rest ≠ [] := by
  refine keeps_expectToken what (fun t a hv => ?_) h hne
  cases hk : t.kind <;> simp [hk] at hv
  simp [Token.isDelimiter, Token.isSymbol, Token.isNewline, hk]

theorem keeps_expectStringOrWord (what : String) (h : Tame due ts) (hne : ts ≠ []) :
    (ctx.expectStringOrWord what ts).Keeps fun rest => Tame due rest ∧ rest ≠ [] := by
  refine keeps_expectToken what (fun t a hv => ?_) h hne
  obtain ⟨w, hw, _⟩ := Option.map_eq_some_iff.1 hv
  exact isDelimiter_of_stringOrWord hw

theorem keeps_doubleColon (what : String) (h : Tame due ts) (hne : ts ≠ []) :
    (ctx.expectSymbol .doubleColon what ts).Keeps fun rest => Tame due rest ∧ rest ≠ [] := by
  refine keeps_expectToken what (fun t a hv => ?_) h hne
  split at hv
  · next hs =>
    refine ⟨isDelimiter_of_symbol hs (by simp), ?_⟩
    rw [Token.isSymbol, beq_iff_eq] at hs
    simp [Token.isNewline, hs]
  · simp at hv

/-- An opening bracket makes its closing one due. -/
theorem keeps_openBracket (what : String) (h : Tame due ts) (hne : ts ≠ []) :
    (ctx.expectSymbol .openBracket what ts).Keeps (Tame (.closeBracket :: due)) := by
  obtain ⟨t, ts, rfl⟩ := List.exists_cons_of_ne_nil hne
  unfold Context.expectSymbol Context.expectToken
  by_cases hs : t.isSymbol .openBracket = true
  · simp only [hs, if_true]
    exact h.opened .sequence hs
  · simp only [hs, Bool.false_eq_true, if_false]
    exact keeps_fault _ (by simp) h

/-! ## Lists and blocks -/

theorem keeps_wordItems (h : Tame (.closeBracket :: due) ts) : (ctx.wordItems ts).Keeps (Tame due) := by
  induction hn : ts.length using Nat.strongRecOn generalizing ts with
  | ind n ih =>
    subst hn
    have hlen := Context.length_skipTrivia false ts
    have hsk := h.skipTrivia
    rw [Context.wordItems_eq]
    obtain ⟨t, rest, hts⟩ := List.exists_cons_of_ne_nil hsk.ne_nil
    rw [hts] at hsk hlen ⊢
    by_cases hc : t.isSymbol .closeBracket = true
    · simp only [hc, if_true]
      exact hsk.closed .sequence hc
    · simp only [hc, Bool.false_eq_true, if_false]
      refine (keeps_expectStringOrWord "list item" hsk (by simp)).bind fun item after hi ⟨ha, _⟩ => ?_
      have hlen' := Context.length_lt_of_expectToken _ hi
      have hlen'' := Context.length_skipTrivia false after
      have hsk' := ha.skipTrivia
      rw [Context.wordsAfter]
      obtain ⟨u, tail, hafter⟩ := List.exists_cons_of_ne_nil hsk'.ne_nil
      rw [hafter] at hsk' hlen'' ⊢
      by_cases hu : u.isSymbol .comma = true
      · simp only [hu, if_true]
        have htail : tail.length < ts.length := by
          simp only [List.length_cons] at hlen hlen' hlen''
          omega
        have hrec := ih _ htail (hsk'.tail (isDelimiter_of_symbol hu (by simp))) rfl
        exact hrec.bind fun items rest _ hr => hr
      · by_cases hu' : u.isSymbol .closeBracket = true
        · simp only [hu, hu', if_true, Bool.false_eq_true, if_false]
          exact hsk'.closed .sequence hu'
        · simp only [hu, hu', Bool.false_eq_true, if_false]
          exact keeps_fault _ (by simp) hsk'

theorem keeps_wordList (h : Tame due ts) (hne : ts ≠ []) : (ctx.wordList ts).Keeps (Tame due) := by
  rw [Context.wordList_eq]
  exact (keeps_openBracket _ h hne).bind fun _ rest _ hr => keeps_wordItems hr

theorem keeps_blockText (shape : BlockShape) (h : Tame (Context.closeSymbol shape :: due) ts) :
    (ctx.blockText shape t ts).Keeps (Tame due) := by
  obtain ⟨last, rest, hend, hn⟩ := blockEnd_of_nested shape [] h.nested
  rw [List.count_nil] at hend
  unfold Context.blockText
  rw [hend]
  obtain ⟨pre, rfl⟩ := Placement.blockEnd_split hend
  exact Tame.suffix (pre ++ [last]) (by simpa using h) hn

theorem keeps_block (shape : BlockShape) (clause : String) (h : Tame due ts) (hne : ts ≠ []) :
    (ctx.block shape clause ts).Keeps (Tame due) := by
  obtain ⟨t, ts, rfl⟩ := List.exists_cons_of_ne_nil hne
  unfold Context.block
  by_cases ho : t.isSymbol (Context.openSymbol shape) = true
  · simp only [ho, if_true]
    exact keeps_blockText shape (h.opened shape ho)
  · simp only [ho, Bool.false_eq_true, if_false]
    exact keeps_fault _ (by simp) h

/-! ## Clauses -/

/-- Every clause, read behind its word, keeps what is due. -/
def Context.Clauses.Keep {σ : Type} (allowed : Context.Clauses σ) : Prop :=
  ∀ c ∈ allowed, ∀ (s : σ) (due : List Symbol) (ts : List Token), Tame due ts → ts ≠ [] →
    (c.2.read s ts).Keeps (Tame due)

theorem keeps_clause {σ : Type} {read : List Token → Outcome α} (within : ∀ ts, (read ts).Within ts)
    {put : σ → α → σ} (hr : (read ts).Keeps (Tame due)) (s : σ) :
    ((Context.Clause.of read within put).read s ts).Keeps (Tame due) := by
  rw [Context.Clause.of_read]
  exact hr.bind fun _ rest _ hrest => hrest

theorem nextClause_mem {σ : Type} {allowed : Context.Clauses σ} {c : Context.Clause σ} {rest : List Token}
    (h : Context.nextClause allowed ts = some (c, rest)) :
    ∃ name t w, (name, c) ∈ allowed ∧ ts = t :: w :: rest ∧ t.isSymbol .at = true ∧ w.word?.isSome = true := by
  unfold Context.nextClause at h
  split at h
  · next t w rest' =>
    split at h
    · next hat =>
      obtain ⟨c', hc, heq⟩ := Option.map_eq_some_iff.1 h
      obtain ⟨rfl, rfl⟩ := Prod.mk.inj heq
      obtain ⟨word, hw, hf⟩ := Option.bind_eq_some_iff.1 hc
      obtain ⟨⟨name, c''⟩, hm, rfl⟩ := Option.map_eq_some_iff.1 hf
      refine ⟨name, t, w, List.mem_of_find?_eq_some hm, rfl, (Bool.and_eq_true_iff.1 hat).1, by simp [hw]⟩
    · simp at h
  · simp at h

theorem keeps_readClauses {σ : Type} {allowed : Context.Clauses σ} (hk : allowed.Keep) (s : σ)
    (h : Tame due ts) : (Context.readClauses allowed s ts).Keeps (Tame due) := by
  induction hn : ts.length using Nat.strongRecOn generalizing ts s with
  | ind n ih =>
    subst hn
    have hlen := Context.length_skipTrivia false ts
    have hsk := h.skipTrivia
    rw [Context.readClauses_eq]
    cases hc : Context.nextClause allowed (Context.skipTrivia false ts) with
    | none => exact hsk
    | some found =>
      obtain ⟨c, rest⟩ := found
      obtain ⟨name, t, w, hm, hts, hat, hw⟩ := nextClause_mem hc
      have hlen' := Context.length_nextClause hc
      rw [hts] at hsk
      obtain ⟨word, hw⟩ := Option.isSome_iff_exists.1 hw
      obtain ⟨hd, hnl⟩ := isDelimiter_of_word hw
      have hafter := hsk.tail (isDelimiter_of_symbol hat (by simp))
      have hrest := hafter.tail hd
      refine (hk _ hm s due rest hrest (hafter.lines.ne_nil hnl)).bind ?_
      intro s' after hok ha
      have hwithin := c.within s rest
      rw [hok] at hwithin
      simp only [Outcome.Within, Outcome.rest] at hwithin
      exact ih after.length (by omega) s' ha rfl

/-! ## Declarations -/

theorem keep_spellClauses (ctx : Context) : ctx.spellClauses.Keep := by
  intro c hc s due ts h hne
  have text (what : String) : (ctx.expectString what ts).Keeps (Tame due) :=
    (keeps_expectString what h hne).mono fun _ hr => hr.1
  simp only [Context.spellClauses, List.mem_cons, List.not_mem_nil, or_false] at hc
  rcases hc with rfl | rfl | rfl | rfl | rfl | rfl
  · exact keeps_clause (ctx.within_expectToken _ _) (text _) s
  · exact keeps_clause ctx.within_wordList (keeps_wordList h hne) s
  · exact keeps_clause ctx.within_wordList (keeps_wordList h hne) s
  · exact keeps_clause (ctx.within_block _ _) (keeps_block _ _ h hne) s
  · exact keeps_clause (ctx.within_expectToken _ _) (text _) s
  · exact keeps_clause (ctx.within_expectToken _ _) (text _) s

theorem keeps_spell (h : Tame due ts) (hne : ts ≠ []) : (ctx.spell ts).Keeps (Tame due) := by
  obtain ⟨t, us, rfl⟩ := List.exists_cons_of_ne_nil hne
  rw [Context.spell_eq]
  refine (keeps_expectIdentifier _ h hne).bind fun name rest _ ⟨hr, _⟩ => ?_
  refine (keeps_readClauses (keep_spellClauses ctx) _ hr).bind ?_
  intro draft after _ ha
  unfold Context.finishSpell
  split
  · exact ha
  · refine ⟨fun hx => ?_, due, ha⟩
    rcases hx with hx | hx
    · exact (h.plain t (by simp)).2 hx
    · simp at hx

theorem keeps_spellItems (h : Tame (.closeBracket :: due) ts) : (ctx.spellItems ts).Keeps (Tame due) := by
  induction hn : ts.length using Nat.strongRecOn generalizing ts with
  | ind n ih =>
    subst hn
    have hlen := Context.length_skipTrivia false ts
    have hsk := h.skipTrivia
    rw [Context.spellItems_eq]
    obtain ⟨t, rest, hts⟩ := List.exists_cons_of_ne_nil hsk.ne_nil
    rw [hts] at hsk hlen ⊢
    simp only [List.length_cons] at hlen
    dsimp only
    unfold Context.spellsFrom
    by_cases hcomma : t.isSymbol .comma = true
    · simp only [hcomma, if_true]
      exact ih rest.length (by omega) (hsk.tail (isDelimiter_of_symbol hcomma (by simp))) rfl
    · by_cases hclose : t.isSymbol .closeBracket = true
      · simp only [hcomma, hclose, if_true, Bool.false_eq_true, if_false]
        exact hsk.closed .sequence hclose
      · simp only [hcomma, hclose, Bool.false_eq_true, if_false]
        by_cases hspell : (t.isSymbol .at && rest.head?.any (·.kind == .keyword .spell)) = true
        · simp only [hspell, if_true]
          obtain ⟨hat, hw⟩ := Bool.and_eq_true_iff.1 hspell
          obtain ⟨w, us, rfl⟩ : ∃ w us, rest = w :: us := by
            cases rest with
            | nil => simp at hw
            | cons w us => exact ⟨w, us, rfl⟩
          have hw' : w.kind = .keyword .spell := by simpa using hw
          have hword : w.word? = some w.lexeme := by simp [Token.word?, hw']
          obtain ⟨hd, hnl⟩ := isDelimiter_of_word hword
          have hafter := hsk.tail (isDelimiter_of_symbol hat (by simp))
          refine (keeps_spell (hafter.tail hd) (hafter.lines.ne_nil hnl)).bind ?_
          intro s after hok ha
          have hwithin := ctx.within_spell us
          rw [hok] at hwithin
          simp only [Outcome.Within, Outcome.rest] at hwithin
          simp only [List.length_cons] at hlen
          exact (ih after.length (by omega) ha rfl).bind fun more last _ hl => hl
        · simp only [hspell, Bool.false_eq_true, if_false]
          exact keeps_fault _ (by simp) hsk

theorem keeps_spellList (h : Tame due ts) (hne : ts ≠ []) : (ctx.spellList ts).Keeps (Tame due) := by
  rw [Context.spellList_eq]
  exact (keeps_openBracket _ h hne).bind fun _ rest _ hr => keeps_spellItems hr

theorem keep_characterClauses (ctx : Context) : ctx.characterClauses.Keep := by
  intro c hc s due ts h hne
  simp only [Context.characterClauses, List.mem_cons, List.not_mem_nil, or_false] at hc
  rcases hc with rfl | rfl | rfl | rfl | rfl | rfl | rfl
  · exact keeps_clause (ctx.within_expectToken _ _) ((keeps_expectStringOrWord _ h hne).mono fun _ hr => hr.1) s
  · exact keeps_clause ctx.within_wordList (keeps_wordList h hne) s
  · exact keeps_clause ctx.within_wordList (keeps_wordList h hne) s
  · exact keeps_clause (ctx.within_block _ _) (keeps_block _ _ h hne) s
  · exact keeps_clause (ctx.within_expectToken _ _) ((keeps_expectString _ h hne).mono fun _ hr => hr.1) s
  · exact keeps_clause (ctx.within_block _ _) (keeps_block _ _ h hne) s
  · exact keeps_clause ctx.within_spellList (keeps_spellList h hne) s

theorem keep_worldClauses (ctx : Context) : ctx.worldClauses.Keep := by
  intro c hc s due ts h hne
  simp only [Context.worldClauses, List.mem_cons, List.not_mem_nil, or_false] at hc
  rcases hc with rfl | rfl | rfl | rfl
  all_goals exact keeps_clause (ctx.within_block _ _) (keeps_block _ _ h hne) s

theorem keeps_character (h : Tame due ts) (hne : ts ≠ []) : (ctx.character ts).Keeps (Tame due) := by
  rw [Context.character, Context.declared_eq]
  refine (keeps_expectIdentifier _ h hne).bind fun name rest _ ⟨hr, _⟩ => ?_
  exact keeps_readClauses (keep_characterClauses ctx) _ hr

theorem keeps_world (h : Tame due ts) (hne : ts ≠ []) : (ctx.world ts).Keeps (Tame due) := by
  rw [Context.world, Context.declared_eq]
  refine (keeps_expectIdentifier _ h hne).bind fun name rest _ ⟨hr, _⟩ => ?_
  exact keeps_readClauses (keep_worldClauses ctx) _ hr

theorem keeps_archetype (h : Tame due ts) (hne : ts ≠ []) : (ctx.archetype ts).Keeps (Tame due) := by
  rw [Context.archetype_eq]
  refine (keeps_expectIdentifier _ h hne).bind fun name rest _ ⟨hr, hr'⟩ => ?_
  refine (keeps_doubleColon _ hr hr').bind fun _ after _ ⟨ha, ha'⟩ => ?_
  exact (keeps_expectString _ ha ha').bind fun _ last _ hl => hl.1

/-! ## Top level -/

theorem keeps_skipValue (h : Tame due ts) : (ctx.skipValue ts).Keeps TameTail := by
  cases ts with
  | nil => exact ⟨due, h⟩
  | cons t ts =>
    rw [Context.skipValue_cons]
    unfold Context.dropValue
    by_cases ho : t.isSymbol .openBrace = true
    · simp only [ho, if_true]
      exact (keeps_blockText .map (h.opened .map ho)).bind fun _ rest _ hr => ⟨due, hr⟩
    · by_cases hb : t.isSymbol .openBracket = true
      · simp only [ho, hb, if_true, Bool.false_eq_true, if_false]
        exact (keeps_blockText .sequence (h.opened .sequence hb)).bind fun _ rest _ hr => ⟨due, hr⟩
      · simp only [ho, hb, Bool.false_eq_true, if_false]
        split
        · exact ⟨due, h⟩
        · exact TameTail.tail ⟨due, h⟩

theorem keeps_leftOver (h : Tame due (t :: ts)) : (ctx.leftOver t ts).Keeps TameTail := by
  unfold Context.leftOver
  cases hw : t.word? with
  | none => exact keeps_fault _ (by simp) h
  | some word =>
    dsimp only
    split
    · exact keeps_skipValue (h.tail (isDelimiter_of_word hw).1)
    · exact keeps_fault _ (by simp) h

theorem keeps_declare {o : Outcome α} {make : α → Declaration} (ho : o.Keeps (Tame due)) :
    (Context.Outcome.declare o make).Keeps TameTail := by
  rw [Context.declare_eq]
  exact ho.bind fun a rest _ hr => ⟨due, hr⟩

theorem keeps_declaration (h : Tame due ts) (hne : ts ≠ []) : (ctx.declaration ts).Keeps TameTail := by
  obtain ⟨t, ts, rfl⟩ := List.exists_cons_of_ne_nil hne
  have hleft : (ctx.leftOver t ts).Keeps TameTail := keeps_leftOver h
  -- Behind a reserved word the tokens are tame, and some are left.
  have word {k : Keyword} (hk : t.kind = .keyword k) : Tame due ts ∧ ts ≠ [] := by
    have hw : t.word? = some t.lexeme := by simp [Token.word?, hk]
    obtain ⟨hd, hnl⟩ := isDelimiter_of_word hw
    exact ⟨h.tail hd, h.lines.ne_nil hnl⟩
  rw [Context.declaration_cons]
  split
  · next hk => exact keeps_declare (keeps_spell (word hk).1 (word hk).2)
  · next hk => exact keeps_declare (keeps_character (word hk).1 (word hk).2)
  · next hk => exact keeps_declare (keeps_world (word hk).1 (word hk).2)
  · next hk =>
    split
    · exact keeps_declare (keeps_archetype (word hk).1 (word hk).2)
    · exact hleft
  all_goals first | exact keeps_fault _ (by simp) h | exact hleft

theorem TameTail.resume (h : TameTail ts) : TameTail (Context.resume ts) := by
  induction ts with
  | nil => exact h
  | cons t ts ih =>
    rw [Context.resume]
    split
    · exact h
    · split
      · exact h.tail
      · exact ih h.tail

/-- **No fault at the end**: in tame tokens every fault is found at a token before the end. -/
theorem errors_not_atEnd (h : TameTail ts) : ∀ e ∈ (Program.ofTokens ctx false ts).errors, ¬ e.AtEnd := by
  induction hn : ts.length using Nat.strongRecOn generalizing ts with
  | ind n ih =>
    subst hn
    cases ts with
    | nil => simp [Program.ofTokens_nil]
    | cons t ts =>
      have hlt : ts.length < (t :: ts).length := Nat.lt_succ_self _
      obtain ⟨due, ht⟩ := h
      have hh := (ht.plain t (by simp)).1
      rw [Program.ofTokens_cons]
      by_cases hnl : t.isNewline = true
      · simp only [hnl, if_true]
        exact ih _ hlt (TameTail.tail ⟨due, ht⟩) rfl
      · simp only [hnl, hh, Bool.or_self, Bool.false_eq_true, if_false]
        by_cases hat : t.isSymbol .at = true
        · simp only [hat, if_true]
          have hts := ht.tail (isDelimiter_of_symbol hat (by simp))
          have hdecl : (ctx.declaration ts).Keeps TameTail :=
            keeps_declaration hts (ht.lines.ne_nil (by simpa using hnl))
          have hw := ctx.within_declaration ts
          cases hd : ctx.declaration ts with
          | ok d? rest =>
            rw [hd] at hdecl hw
            exact ih rest.length (Nat.lt_succ_of_le hw) hdecl rfl
          | fail e rest =>
            rw [hd] at hdecl hw
            have hlen : (Context.resume rest).length < (t :: ts).length :=
              Nat.lt_succ_of_le (Nat.le_trans (Context.length_resume rest) hw)
            have hrec := ih _ hlen hdecl.2.resume rfl
            intro e' he'
            rcases List.mem_append.1 he' with he' | he'
            · obtain rfl := List.mem_singleton.1 he'
              exact hdecl.1
            · exact hrec e' he'
        · simp only [hat, Bool.false_eq_true, if_false]
          exact ih _ hlt (TameTail.tail ⟨due, ht⟩) rfl

end

end Grimoire.Source
