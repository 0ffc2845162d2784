import Grimoire.Source.Parser
import Mathlib.Data.List.Forall2

/-!
# Readers as equations

Each reader of the language as one equation: what it makes of its tokens is one reader after another
(`Outcome.bind`), with the bookkeeping of the tokens left out. Proofs about readers rewrite with these.
-/
namespace Grimoire.Source

/-- What a reader made, given to another one with the tokens left. -/
def Outcome.bind {α β : Type} (o : Outcome α) (k : α → List Token → Outcome β) : Outcome β :=
  match o with
  | .ok a rest => k a rest
  | .fail e rest => .fail e rest

@[simp] theorem Outcome.bind_ok {α β : Type} (a : α) (rest : List Token) (k : α → List Token → Outcome β) :
    (Outcome.ok a rest).bind k = k a rest := rfl

@[simp] theorem Outcome.bind_fail {α β : Type} (e : ParseError) (rest : List Token)
    (k : α → List Token → Outcome β) : (Outcome.fail e rest : Outcome α).bind k = .fail e rest := rfl

theorem Outcome.Within.bind {α β : Type} {o : Outcome α} {k : α → List Token → Outcome β} {ts : List Token}
    (h : o.Within ts) (hk : ∀ a rest, (k a rest).Within rest) : (o.bind k).Within ts := by
  cases o with
  | ok a rest => exact Nat.le_trans (hk a rest) h
  | fail e rest => exact h

/-! ## Tokens of one kind only -/

theorem Token.not_symbol_of_symbol {t : Token} {s s' : Symbol} (ht : t.isSymbol s = true) (hs : s ≠ s') :
    t.isSymbol s' = false := by
  rw [Token.isSymbol, beq_iff_eq] at ht
  simp [Token.isSymbol, ht, hs]

theorem Token.not_symbol_of_newline {t : Token} (ht : t.isNewline = true) (s : Symbol) : t.isSymbol s = false := by
  rw [Token.isNewline, beq_iff_eq] at ht
  simp [Token.isSymbol, ht]

theorem Token.not_newline_of_symbol {t : Token} {s : Symbol} (ht : t.isSymbol s = true) : t.isNewline = false := by
  rw [Token.isSymbol, beq_iff_eq] at ht
  simp [Token.isNewline, ht]

theorem Token.not_newline_of_word {t : Token} {word : List Char} (ht : t.word? = some word) : t.isNewline = false := by
  cases hk : t.kind <;> simp_all [Token.word?, Token.isNewline]

namespace Context

variable (ctx : Context)

/-! ## Trivia -/

theorem skipTrivia_skipTrivia (b : Bool) (ts : List Token) :
    skipTrivia false (skipTrivia b ts) = skipTrivia b ts := by
  induction ts generalizing b with
  | nil => rfl
  | cons t ts ih =>
    rw [skipTrivia]
    split
    · exact ih false
    · split
      · exact ih true
      · next hnewline htrivia =>
        simp only [Bool.or_eq_true, not_or] at htrivia
        simp [skipTrivia, hnewline, htrivia.2]

/-! ## Lists -/

/-- What follows an item of a list of words. -/
def wordsAfter (item : String) (after : List Token) : Outcome (List String) :=
  match skipTrivia false after with
  | u :: tail =>
    if u.isSymbol .comma then (ctx.wordItems tail).bind fun items rest => .ok (item :: items) rest
    else if u.isSymbol .closeBracket then .ok [item] tail
    else ctx.fault .expectedListEnd (u :: tail)
  | [] => ctx.fault .expectedListEnd []

theorem wordItems_eq (ts : List Token) :
    ctx.wordItems ts = match skipTrivia false ts with
      | [] => ctx.fault .unterminatedList []
      | t :: rest =>
        if t.isSymbol .closeBracket then .ok [] rest
        else (ctx.expectStringOrWord "list item" (t :: rest)).bind ctx.wordsAfter := by
  rw [wordItems]
  split
  · next hs => rw [hs]
  · next t rest hs =>
    rw [hs]
    dsimp only
    split
    · rfl
    · split
      · next hi => rw [hi]; rfl
      · next item after hi =>
        rw [hi]
        simp only [Outcome.bind, wordsAfter]
        split
        · next u tail hc =>
          rw [hc]
          dsimp only
          cases ctx.wordItems tail <;> rfl
        · next hc => rw [hc]

theorem wordList_eq (ts : List Token) :
    ctx.wordList ts = (ctx.expectSymbol .openBracket "'[' to open list" ts).bind fun _ => ctx.wordItems := by
  rw [wordList]
  cases ctx.expectSymbol .openBracket "'[' to open list" ts <;> rfl

/-- The spells of a list whose first token is `t`. -/
def spellsFrom (t : Token) (rest : List Token) : Outcome (List Spell) :=
  if t.isSymbol .comma then ctx.spellItems rest
  else if t.isSymbol .closeBracket then .ok [] rest
  else if t.isSymbol .at && rest.head?.any (·.kind == .keyword .spell) then
    (ctx.spell rest.tail).bind fun s after => (ctx.spellItems after).bind fun more after => .ok (s :: more) after
  else ctx.fault .expectedSpell (t :: rest)

theorem spellItems_eq (ts : List Token) :
    ctx.spellItems ts = match skipTrivia false ts with
      | [] => ctx.fault .expectedSpell []
      | t :: rest => ctx.spellsFrom t rest := by
  rw [spellItems]
  split
  · next hs => rw [hs]
  · next t rest hs =>
    rw [hs]
    dsimp only [spellsFrom]
    split
    · rfl
    · split
      · rfl
      · split
        · split
          · next hp => rw [hp]; rfl
          · next s after hp =>
            rw [hp]
            dsimp only [Outcome.bind]
            cases ctx.spellItems after <;> rfl
        · rfl

/-- Only the tokens behind newlines and comments matter. -/
theorem spellItems_congr {ts : List Token} (us : List Token) (h : skipTrivia false ts = skipTrivia false us) :
    ctx.spellItems ts = ctx.spellItems us := by
  rw [spellItems_eq, h, ← spellItems_eq]

theorem spellList_eq (ts : List Token) :
    ctx.spellList ts =
      (ctx.expectSymbol .openBracket "'[' after @arc_spells" ts).bind fun _ => ctx.spellItems := by
  rw [spellList]
  cases ctx.expectSymbol .openBracket "'[' after @arc_spells" ts <;> rfl

/-! ## Clauses -/

theorem Clause.of_read {σ α : Type} (read : List Token → Outcome α) (within : ∀ ts, (read ts).Within ts)
    (put : σ → α → σ) (s : σ) (ts : List Token) :
    (Clause.of read within put).read s ts = (read ts).bind fun a rest => .ok (put s a) rest := by
  dsimp only [Clause.of]
  cases read ts <;> rfl

/-- Clauses under the same words, in the same order: each word finds related ones. -/
theorem Clauses.find?_of_forall₂ {σ τ : Type} {R : Clause σ → Clause τ → Prop} {cs : Clauses σ} {cs' : Clauses τ}
    (h : List.Forall₂ (fun c c' => c.1 = c'.1 ∧ R c.2 c'.2) cs cs') (word : List Char) :
    match cs.find? word with
    | none => cs'.find? word = none
    | some c => ∃ c', cs'.find? word = some c' ∧ R c c' := by
  induction h with
  | nil => rfl
  | @cons c c' cs cs' hcc _ ih =>
    obtain ⟨w, c⟩ := c
    obtain ⟨w', c'⟩ := c'
    obtain ⟨rfl, hr⟩ := hcc
    unfold Clauses.find? at ih ⊢
    by_cases hw : (w.toList == word) = true
    · simp only [List.find?_cons, hw, Option.map_some]
      exact ⟨c', rfl, hr⟩
    · simp only [List.find?_cons, hw]
      exact ih

theorem readClauses_eq {σ : Type} (allowed : Clauses σ) (s : σ) (ts : List Token) :
    readClauses allowed s ts = match nextClause allowed (skipTrivia false ts) with
      | none => .ok s (skipTrivia false ts)
      | some (clause, rest) => (clause.read s rest).bind (readClauses allowed) := by
  rw [readClauses]
  split
  · next h => rw [h]
  · next clause rest h =>
    rw [h]
    dsimp only
    split
    · next hr => rw [hr]; rfl
    · next hr => rw [hr]; rfl

/-! ## Declarations -/

theorem declared_eq {α : Type} (what : String) (body : String → Token → List Token → Outcome α)
    (ts : List Token) :
    ctx.declared what body ts =
      (ctx.expectIdentifier what ts).bind fun name rest => body name (ctx.current ts) rest := by
  rw [declared]
  cases ctx.expectIdentifier what ts <;> rfl

/-- A spell needs its implementation. -/
def finishSpell (name : String) (t : Token) (draft : SpellDraft) (rest : List Token) : Outcome Spell :=
  match draft.implementation? with
  | some implementation => .ok { draft.spell with implementation } rest
  | none => .fail ⟨.missingImplementation name, t⟩ rest

theorem spell_eq (ts : List Token) :
    ctx.spell ts = (ctx.expectIdentifier "spell name after @spell" ts).bind fun name rest =>
      (readClauses ctx.spellClauses { spell := { name, line := (ctx.current ts).span.line } } rest).bind
        (finishSpell name (ctx.current ts)) := by
  rw [spell, declared_eq]
  congr 1
  funext name rest
  cases readClauses ctx.spellClauses { spell := { name, line := (ctx.current ts).span.line } } rest with
  | fail e rest => rfl
  | ok draft rest =>
    obtain ⟨spell, implementation?⟩ := draft
    cases implementation? <;> rfl

theorem archetype_eq (ts : List Token) :
    ctx.archetype ts = (ctx.expectIdentifier "archetype name after @archetype" ts).bind fun name rest =>
      (ctx.expectSymbol .doubleColon "'::' after archetype name" rest).bind fun _ after =>
        (ctx.expectString "archetype description after '::'" after).bind fun description last =>
          .ok { name, description, line := (ctx.current ts).span.line } last := by
  rw [archetype, declared_eq]
  congr 1
  funext name rest
  cases ctx.expectSymbol .doubleColon "'::' after archetype name" rest with
  | fail e rest => rfl
  | ok _ after =>
    dsimp only [Outcome.bind]
    cases ctx.expectString "archetype description after '::'" after <;> rfl

theorem declare_eq {α : Type} (o : Outcome α) (make : α → Declaration) :
    Outcome.declare o make = o.bind fun a rest => .ok (some (make a)) rest := by
  cases o <;> rfl

/-- What stands after the word of a clause that belongs to no declaration. -/
def dropValue (t : Token) (rest : List Token) : Outcome (Option Declaration) :=
  if t.isSymbol .openBrace then (ctx.blockText .map t rest).bind fun _ rest => .ok none rest
  else if t.isSymbol .openBracket then (ctx.blockText .sequence t rest).bind fun _ rest => .ok none rest
  else if t.isSymbol .at || t.isNewline then .ok none (t :: rest)
  else .ok none rest

theorem skipValue_cons (t : Token) (rest : List Token) : ctx.skipValue (t :: rest) = ctx.dropValue t rest := by
  unfold skipValue dropValue
  dsimp only
  split
  · cases ctx.blockText .map t rest <;> rfl
  · split
    · cases ctx.blockText .sequence t rest <;> rfl
    · rfl

/-- What follows an `@` whose word `t` begins no declaration. -/
def leftOver (t : Token) (rest : List Token) : Outcome (Option Declaration) :=
  match t.word? with
  | some word =>
    if isClauseWord word then ctx.skipValue rest
    else ctx.fault (.unknownDeclaration (String.ofList word)) (t :: rest)
  | none => ctx.fault .expectedKeyword (t :: rest)

theorem declaration_cons (t : Token) (rest : List Token) :
    ctx.declaration (t :: rest) = match t.kind with
      | .keyword .spell => Outcome.declare (ctx.spell rest) .spell
      | .keyword .character => Outcome.declare (ctx.character rest) .character
      | .keyword .world => Outcome.declare (ctx.world rest) .world
      | .keyword .archetype =>
        if rest.head?.any Token.isIdentifier then Outcome.declare (ctx.archetype rest) .archetype
        else ctx.leftOver t rest
      | .keyword .primordial | .keyword .modifier | .keyword .direction | .keyword .pattern =>
        ctx.fault (.unsupported (String.ofList t.lexeme)) (t :: rest)
      | _ => ctx.leftOver t rest := by
  rw [declaration]
  rfl

end Context

/-! ## Programs -/

namespace Program

/-- What two programs have together, in this order. -/
def append (p q : Program) : Program := ⟨p.declarations ++ q.declarations, p.errors ++ q.errors⟩

/-- A declaration, if there is one, before a program. -/
def declare (d? : Option Declaration) (p : Program) : Program :=
  { p with declarations := d?.toList ++ p.declarations }

/-- Go on after what followed an `@`. -/
def after (ctx : Context) : Outcome (Option Declaration) → Program
  | .ok d? rest => declare d? (ofTokens ctx false rest)
  | .fail e rest => append ⟨[], [e]⟩ (ofTokens ctx false (Context.resume rest))

theorem ofTokens_nil (ctx : Context) (b : Bool) : ofTokens ctx b [] = ⟨[], []⟩ := by
  rw [ofTokens]

theorem ofTokens_cons (ctx : Context) (b : Bool) (t : Token) (rest : List Token) :
    ofTokens ctx b (t :: rest) =
      if t.isNewline then ofTokens ctx false rest
      else if b || t.isSymbol .hash then ofTokens ctx true rest
      else if t.isSymbol .at then after ctx (ctx.declaration rest)
      else ofTokens ctx false rest := by
  rw [ofTokens]
  split
  · rfl
  · split
    · rfl
    · split
      · split
        · next h => rw [h]; rfl
        · next h => rw [h]; rfl
        · next h => rw [h]; rfl
      · rfl

theorem ofTokens_skipTrivia (ctx : Context) (b : Bool) (ts : List Token) :
    ofTokens ctx b ts = ofTokens ctx false (Context.skipTrivia b ts) := by
  induction ts generalizing b with
  | nil => rw [ofTokens_nil, Context.skipTrivia, ofTokens_nil]
  | cons t ts ih =>
    rw [ofTokens_cons, Context.skipTrivia]
    split
    · exact ih false
    · next hnewline =>
      split
      · exact ih true
      · next htrivia =>
        simp only [Bool.or_eq_true, not_or] at htrivia
        simp [ofTokens_cons, hnewline, htrivia.2]

end Program

end Grimoire.Source
