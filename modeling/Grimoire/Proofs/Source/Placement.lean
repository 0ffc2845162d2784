import Grimoire.Proofs.Source.Lexing
import Grimoire.Proofs.Source.Readers

/-!
# Readers in a longer source

A `Placement` puts the tokens of one source, moved by bytes and lines, before other tokens of a longer
source, with newlines and comments between them. A reader whose fault is not found at the end of its tokens
does there what it does alone (`Placement.Reads`): what it makes is moved, and it leaves the same tokens. Each
reader of the language has its lemma; `ofTokens_place` is the one for all declarations of a source.
-/
namespace Grimoire.Source

/-! ## What is moved -/

section
variable (b l : Nat) (t : Token)

@[simp] theorem Token.moved_kind : (t.moved b l).kind = t.kind := rfl
@[simp] theorem Token.moved_lexeme : (t.moved b l).lexeme = t.lexeme := rfl
@[simp] theorem Token.moved_isSymbol (s : Symbol) : (t.moved b l).isSymbol s = t.isSymbol s := rfl
@[simp] theorem Token.moved_isNewline : (t.moved b l).isNewline = t.isNewline := rfl
@[simp] theorem Token.moved_isIdentifier : (t.moved b l).isIdentifier = t.isIdentifier := rfl
@[simp] theorem Token.moved_word? : (t.moved b l).word? = t.word? := rfl
@[simp] theorem Token.moved_start : (t.moved b l).span.start = t.span.start + b := rfl
@[simp] theorem Token.moved_stop : (t.moved b l).span.stop = t.span.stop + b := rfl

end

def ParseError.moved (bytes lines : Nat) (e : ParseError) : ParseError :=
  { e with token := e.token.moved bytes lines }

/-- The same declaration some lines further on. -/
def Spell.moved (lines : Nat) (s : Spell) : Spell := { s with line := s.line + lines }

def Character.moved (lines : Nat) (c : Character) : Character :=
  { c with line := c.line + lines, spells := c.spells.map (Spell.moved lines) }

def World.moved (lines : Nat) (w : World) : World := { w with line := w.line + lines }

def Archetype.moved (lines : Nat) (a : Archetype) : Archetype := { a with line := a.line + lines }

def Declaration.moved (lines : Nat) : Declaration → Declaration
  | spell s => spell (s.moved lines)
  | character c => character (c.moved lines)
  | world w => world (w.moved lines)
  | archetype a => archetype (a.moved lines)

namespace Program

def moved (bytes lines : Nat) (p : Program) : Program where
  declarations := p.declarations.map (Declaration.moved lines)
  errors := p.errors.map (ParseError.moved bytes lines)

end Program

/-! ## Placements -/

/-- The tokens begin with `@` and the word of a declaration. -/
def startsDeclaration : List Token → Bool
  | sign :: word :: rest =>
    sign.isSymbol .at && (word.kind == .keyword .spell || word.kind == .keyword .character
      || word.kind == .keyword .world || Context.beginsArchetype word rest)
  | _ => false

theorem skipTrivia_of_startsDeclaration {ts : List Token} (h : startsDeclaration ts = true) :
    Context.skipTrivia false ts = ts := by
  match ts with
  | [] => rfl
  | [sign] => simp [startsDeclaration] at h
  | sign :: word :: rest =>
    have hsign : sign.kind = .symbol .at := by
      simp only [startsDeclaration, Token.isSymbol, Bool.and_eq_true, beq_iff_eq] at h
      exact h.1
    simp [Context.skipTrivia, Token.isNewline, Token.isSymbol, hsign]

theorem startsDeclaration_append {ts : List Token} (us : List Token) (h : startsDeclaration ts = true) :
    startsDeclaration (ts ++ us) = true := by
  match ts with
  | [] => simp [startsDeclaration] at h
  | [sign] => simp [startsDeclaration] at h
  | [sign, word] =>
    simp only [startsDeclaration, Context.beginsArchetype, Bool.and_false, Bool.or_false, Bool.and_eq_true] at h
    simp [startsDeclaration, h]
  | [sign, word, name] =>
    simp only [startsDeclaration, Context.beginsArchetype, Bool.and_false, Bool.or_false, Bool.and_eq_true] at h
    simp [startsDeclaration, h]
  | sign :: word :: name :: colons :: rest => exact h

/-- The fault was found where the tokens end, or is a block without end. -/
def ParseError.AtEnd (e : ParseError) : Prop := e.token.kind = .endOfInput ∨ e.fault = .unterminatedBlock

/-- Newlines and comments only, the last one ended. -/
def Trivial (gap : List Token) : Prop :=
  ∀ us, Context.skipTrivia false (gap ++ us) = Context.skipTrivia false us

/-- The source of `near` some bytes and lines into the source of `far`, before the tokens of the gap and `more`. -/
structure Placement where
  near : Context
  far : Context
  bytes : Nat
  lines : Nat
  gap : List Token
  more : List Token

namespace Placement

/-- What readers may rely on: the parts of the source are the same, and what follows begins a declaration. -/
structure Fits (pl : Placement) : Prop where
  slices : ∀ i j, i ≤ Text.byteLength pl.near.source → j ≤ Text.byteLength pl.near.source →
    slice? pl.far.source (i + pl.bytes) (j + pl.bytes) = slice? pl.near.source i j
  ends : pl.near.finish.kind = .endOfInput
  follows : (pl.more = [] ∧ pl.gap = [] ∧ pl.far.finish = pl.near.finish.moved pl.bytes pl.lines) ∨
    (startsDeclaration pl.more = true ∧ ∀ t ∈ pl.more, Faithful t.kind t.lexeme)
  between : Trivial pl.gap

/-- Tokens of the source, the last a newline if something follows. -/
structure Holds (pl : Placement) (ts : List Token) : Prop where
  within : ∀ t ∈ ts, t.span.start ≤ Text.byteLength pl.near.source ∧
    t.span.stop ≤ Text.byteLength pl.near.source
  lines : pl.more = [] ∨ EndsIn Token.isNewline ts

/-- The tokens with everything that follows. -/
def behind (pl : Placement) (ts : List Token) : List Token :=
  ts.map (Token.moved pl.bytes pl.lines) ++ (pl.gap ++ pl.more)

/-- The tokens with what follows; where none are left, the gap is passed too. -/
def place (pl : Placement) : List Token → List Token
  | [] => pl.more
  | t :: ts => t.moved pl.bytes pl.lines :: pl.behind ts

/-- What becomes of an outcome. -/
def outcome {α β : Type} (pl : Placement) (φ : α → β) : Outcome α → Outcome β
  | .ok a rest => .ok (φ a) (pl.place rest)
  | .fail e rest => .fail (e.moved pl.bytes pl.lines) (pl.place rest)

/-- Nothing follows, or no fault was found at the end. -/
def Settles {α : Type} (pl : Placement) (o : Outcome α) : Prop :=
  pl.more = [] ∨ ∀ e rest, o = .fail e rest → ¬ e.AtEnd

/-- The outcome `o'` in the longer source is what becomes of `o`. -/
def Agrees {α β : Type} (pl : Placement) (φ : α → β) (o : Outcome α) (o' : Outcome β) : Prop :=
  pl.Settles o → o' = pl.outcome φ o ∧ pl.Holds o.rest

/-- The reader `r'` of the longer source does what `r` does alone. -/
def Reads {α β : Type} (pl : Placement) (φ : α → β) (r : List Token → Outcome α)
    (r' : List Token → Outcome β) : Prop :=
  ∀ ts, pl.Holds ts → pl.Agrees φ (r ts) (r' (pl.place ts))

variable {pl : Placement} {t : Token} {ts : List Token}

@[simp] theorem place_nil : pl.place [] = pl.more := rfl

@[simp] theorem place_cons : pl.place (t :: ts) = t.moved pl.bytes pl.lines :: pl.behind ts := rfl

@[simp] theorem behind_cons : pl.behind (t :: ts) = t.moved pl.bytes pl.lines :: pl.behind ts := rfl

theorem place_of_gapless (h : pl.gap = []) : pl.place ts = ts.map (Token.moved pl.bytes pl.lines) ++ pl.more := by
  cases ts with
  | nil => rfl
  | cons t ts => simp [behind, h]

theorem Holds.append_right (pre : List Token) (h : pl.Holds (pre ++ ts)) : pl.Holds ts :=
  ⟨fun t ht => h.within t (List.mem_append_right pre ht), h.lines.imp_right EndsIn.append_right⟩

theorem Holds.tail (h : pl.Holds (t :: ts)) : pl.Holds ts := Holds.append_right [t] h

/-- After a token that ends no line, something is left. -/
theorem Holds.ne_nil (h : pl.Holds (t :: ts)) (ht : t.isNewline = false) : pl.more = [] ∨ ts ≠ [] :=
  h.lines.imp_right fun hl => hl.ne_nil ht

/-- What follows is nothing or `@`, a word of a declaration and more. -/
theorem Fits.more_cases (hp : pl.Fits) : pl.more = [] ∨ ∃ sign word rest,
    pl.more = sign :: word :: rest ∧ sign.kind = .symbol .at ∧ startsDeclaration (sign :: word :: rest) = true ∧
    Faithful word.kind word.lexeme := by
  rcases hp.follows with ⟨h, _, _⟩ | ⟨h, hf⟩
  · exact .inl h
  · right
    cases hm : pl.more with
    | nil => simp [hm, startsDeclaration] at h
    | cons sign rest =>
      cases rest with
      | nil => simp [hm, startsDeclaration] at h
      | cons word rest =>
        rw [hm] at h hf
        refine ⟨sign, word, rest, rfl, ?_, h, hf word (by simp)⟩
        simp only [startsDeclaration, Token.isSymbol, Bool.and_eq_true, beq_iff_eq] at h
        exact h.1

theorem Fits.gapless (hp : pl.Fits) (h : pl.more = []) : pl.gap = [] := by
  rcases hp.follows with ⟨_, hgap, _⟩ | ⟨hs, _⟩
  · exact hgap
  · simp [h, startsDeclaration] at hs

/-- Behind a token that ends no line the gap does not begin. -/
theorem Holds.behind (h : pl.Holds (t :: ts)) (hp : pl.Fits) (ht : t.isNewline = false) :
    pl.behind ts = pl.place ts := by
  cases ts with
  | cons t ts => rfl
  | nil =>
    have hm : pl.more = [] := by simpa using h.ne_nil ht
    simp [Placement.behind, hm, hp.gapless hm]

theorem Fits.skipTrivia_behind (hp : pl.Fits) (ts : List Token) :
    Context.skipTrivia false (pl.behind ts) = Context.skipTrivia false (pl.place ts) := by
  cases ts with
  | cons t ts => rfl
  | nil => exact hp.between pl.more

theorem Fits.ofTokens_behind (hp : pl.Fits) (ctx : Context) (ts : List Token) :
    Program.ofTokens ctx false (pl.behind ts) = Program.ofTokens ctx false (pl.place ts) := by
  rw [Program.ofTokens_skipTrivia, hp.skipTrivia_behind, ← Program.ofTokens_skipTrivia]

/-! ## Single tokens -/

variable (hp : pl.Fits)
include hp

theorem skipTrivia_place {b : Bool} (h : pl.Holds ts) (hb : ts = [] → pl.more = [] ∨ b = false) :
    Context.skipTrivia b (pl.place ts) = pl.place (Context.skipTrivia b ts) ∧
      pl.Holds (Context.skipTrivia b ts) := by
  induction ts generalizing b with
  | nil =>
    refine ⟨?_, h⟩
    rcases hp.more_cases with hm | ⟨sign, word, rest, hm, hat, _⟩
    · simp [hm, Context.skipTrivia]
    · have hb' : b = false := by
        rcases hb rfl with hb | hb
        · simp [hm] at hb
        · exact hb
      subst hb'
      simp [hm, Context.skipTrivia, Token.isNewline, Token.isSymbol, hat]
  | cons t ts ih =>
    simp only [place_cons, Context.skipTrivia, Token.moved_isNewline, Token.moved_isSymbol]
    by_cases hn : t.isNewline = true
    · simp only [hn, if_true, hp.skipTrivia_behind]
      exact ih h.tail fun _ => .inr rfl
    · have hne := h.ne_nil (by simpa using hn)
      by_cases hc : (b || t.isSymbol .hash) = true
      · simp only [hn, hc, if_true, Bool.false_eq_true, if_false, h.behind hp (by simpa using hn)]
        exact ih h.tail fun hts => hne.imp_right fun hx => absurd hts hx
      · simp only [hn, hc, Bool.false_eq_true, if_false]
        exact ⟨rfl, h⟩

theorem current_place (h : pl.more = [] ∨ ts ≠ []) :
    pl.far.current (pl.place ts) = (pl.near.current ts).moved pl.bytes pl.lines := by
  cases ts with
  | cons t ts => rfl
  | nil =>
    obtain hm : pl.more = [] := by simpa using h
    rcases hp.follows with ⟨_, _, hf⟩ | ⟨hs, _⟩
    · simpa [Context.current, hm] using hf
    · simp [hm, startsDeclaration] at hs

omit hp in
theorem agrees_ok {α β : Type} {φ : α → β} (a : α) (h : pl.Holds ts) :
    pl.Agrees φ (.ok a ts) (.ok (φ a) (pl.place ts)) := fun _ => ⟨rfl, h⟩

/-- A fault at the current token is found at the end if no token is left. -/
theorem agrees_fault {α β : Type} {φ : α → β} (f : Fault) (h : pl.Holds ts) :
    pl.Agrees φ (pl.near.fault f ts) (pl.far.fault f (pl.place ts)) := by
  intro hs
  have hne : pl.more = [] ∨ ts ≠ [] := by
    refine hs.imp_right fun hs hts => hs _ _ rfl (.inl ?_)
    subst hts
    exact hp.ends
  refine ⟨?_, h⟩
  simp only [Context.fault, outcome, current_place hp hne, ParseError.moved]

/-- With no token left, only the end of the longer source matters. -/
theorem agrees_end {α β : Type} {φ : α → β} {f : Fault} {o : Outcome β} (h : pl.Holds [])
    (ho : pl.more = [] → o = pl.far.fault f []) : pl.Agrees φ (pl.near.fault f []) o := by
  intro hs
  have hm : pl.more = [] := hs.resolve_right fun hs => hs _ _ rfl (.inl hp.ends)
  have hf := agrees_fault hp (φ := φ) f h hs
  rw [place_nil, hm] at hf
  rw [ho hm]
  exact hf

omit hp in
/-- One reader after another. -/
theorem Agrees.bind {α β γ δ : Type} {φ : α → β} {ψ : γ → δ} {o : Outcome α} {o' : Outcome β}
    {k : α → List Token → Outcome γ} {k' : β → List Token → Outcome δ} (ho : pl.Agrees φ o o')
    (hk : ∀ a rest, o = .ok a rest → pl.Holds rest → pl.Agrees ψ (k a rest) (k' (φ a) (pl.place rest))) :
    pl.Agrees ψ (o.bind k) (o'.bind k') := by
  intro hs
  have hset : pl.Settles o := by
    refine hs.imp_right fun hs e rest he => hs e rest ?_
    simp only [he, Outcome.bind]
  obtain ⟨rfl, hrest⟩ := ho hset
  cases o with
  | ok a rest => exact hk a rest rfl hrest hs
  | fail e rest => exact ⟨rfl, hrest⟩

theorem reads_expectToken {α : Type} {test : Token → Option α} (what : String)
    (ht : ∀ t : Token, test (t.moved pl.bytes pl.lines) = test t)
    (hline : ∀ t : Token, t.isNewline = true → test t = none) :
    pl.Reads id (pl.near.expectToken test what) (pl.far.expectToken test what) := by
  intro ts h
  cases ts with
  | nil => exact agrees_end hp h fun hm => by simp [hm, Context.expectToken]
  | cons t ts =>
    simp only [place_cons, Context.expectToken, ht]
    cases htest : test t with
    | some a =>
      have hn : t.isNewline = false := by
        cases hn : t.isNewline with
        | false => rfl
        | true => simp [hline t hn] at htest
      dsimp only
      rw [h.behind hp hn]
      exact agrees_ok a h.tail
    | none => exact agrees_fault hp _ h

theorem reads_expectSymbol (s : Symbol) (what : String) :
    pl.Reads id (pl.near.expectSymbol s what) (pl.far.expectSymbol s what) :=
  reads_expectToken hp what (fun _ => rfl) fun t ht => by
    rw [Token.isNewline, beq_iff_eq] at ht
    simp [Token.isSymbol, ht]

theorem reads_expectIdentifier (what : String) :
    pl.Reads id (pl.near.expectIdentifier what) (pl.far.expectIdentifier what) :=
  reads_expectToken hp what (fun _ => rfl) fun t ht => by
    rw [Token.isNewline, beq_iff_eq] at ht
    simp [ht]

theorem reads_expectString (what : String) :
    pl.Reads id (pl.near.expectString what) (pl.far.expectString what) :=
  reads_expectToken hp what (fun _ => rfl) fun t ht => by
    rw [Token.isNewline, beq_iff_eq] at ht
    simp [ht]

theorem reads_expectStringOrWord (what : String) :
    pl.Reads id (pl.near.expectStringOrWord what) (pl.far.expectStringOrWord what) :=
  reads_expectToken hp what (fun _ => rfl) fun t ht => by
    rw [Token.isNewline, beq_iff_eq] at ht
    simp [Token.stringOrWord?, Token.word?, ht]

/-! ## Lists of words -/

theorem reads_wordItems : pl.Reads id pl.near.wordItems pl.far.wordItems := by
  intro ts
  induction hn : ts.length using Nat.strongRecOn generalizing ts with
  | ind n ih =>
    subst hn
    intro h
    have hlen := Context.length_skipTrivia false ts
    obtain ⟨hsk, hh⟩ := skipTrivia_place (b := false) hp h fun _ => .inr rfl
    rw [Context.wordItems_eq, Context.wordItems_eq, hsk]
    cases hts : Context.skipTrivia false ts with
    | nil => exact agrees_end hp (hts ▸ hh) fun hm => by simp [hm]
    | cons t rest =>
      rw [hts] at hh hlen
      simp only [place_cons, Token.moved_isSymbol]
      by_cases hc : t.isSymbol .closeBracket = true
      · simp only [hc, if_true, hh.behind hp (Token.not_newline_of_symbol hc)]
        exact agrees_ok [] hh.tail
      · simp only [hc, Bool.false_eq_true, if_false]
        refine (reads_expectStringOrWord hp "list item" (t :: rest) hh).bind ?_
        intro item after hi ha
        have hlen' := Context.length_lt_of_expectToken _ hi
        have hlen'' := Context.length_skipTrivia false after
        obtain ⟨hsk', hh'⟩ := skipTrivia_place (b := false) hp ha fun _ => .inr rfl
        rw [Context.wordsAfter, Context.wordsAfter, hsk']
        cases hafter : Context.skipTrivia false after with
        | nil => exact agrees_end hp (hafter ▸ hh') fun hm => by simp [hm]
        | cons u tail =>
          rw [hafter] at hh' hlen''
          simp only [place_cons, Token.moved_isSymbol]
          by_cases hu : u.isSymbol .comma = true
          · simp only [hu, if_true, hh'.behind hp (Token.not_newline_of_symbol hu)]
            have htail : tail.length < ts.length := by
              simp only [List.length_cons] at hlen hlen' hlen''
              omega
            exact (ih _ htail tail rfl hh'.tail).bind fun items rest _ hr => agrees_ok (item :: items) hr
          · by_cases hu' : u.isSymbol .closeBracket = true
            · simp only [hu, hu', if_true, Bool.false_eq_true, if_false,
                hh'.behind hp (Token.not_newline_of_symbol hu')]
              exact agrees_ok [item] hh'.tail
            · simp only [hu, hu', Bool.false_eq_true, if_false]
              exact agrees_fault hp _ hh'

theorem reads_wordList : pl.Reads id pl.near.wordList pl.far.wordList := by
  intro ts h
  rw [Context.wordList_eq, Context.wordList_eq]
  exact (reads_expectSymbol hp .openBracket _ ts h).bind fun _ rest _ hr => reads_wordItems hp rest hr

/-! ## Blocks -/

omit hp in
theorem blockEnd_split {o c : Symbol} {n : Nat} {rest : List Token} (h : Context.blockEnd o c n ts = some (t, rest)) :
    ∃ pre, ts = pre ++ t :: rest := by
  induction ts generalizing n with
  | nil => simp [Context.blockEnd] at h
  | cons u us ih =>
    have again {m : Nat} (h : Context.blockEnd o c m us = some (t, rest)) : ∃ pre, u :: us = pre ++ t :: rest := by
      obtain ⟨pre, rfl⟩ := ih h
      exact ⟨u :: pre, rfl⟩
    simp only [Context.blockEnd] at h
    split at h
    · exact again h
    · split at h
      · split at h
        · obtain ⟨rfl, rfl⟩ := Prod.mk.inj (Option.some.inj h)
          exact ⟨[], rfl⟩
        · exact again h
      · exact again h

/-- The end of a block is found before what follows, and not later without it. -/
theorem blockEnd_place {o c : Symbol} (n : Nat) (h : pl.Holds ts) :
    match Context.blockEnd o c n ts with
    | some (t, rest) => Context.blockEnd o c n (pl.place ts) = some (t.moved pl.bytes pl.lines, pl.place rest)
    | none => pl.more = [] → Context.blockEnd o c n (pl.place ts) = none := by
  induction ts generalizing n with
  | nil =>
    simp only [Context.blockEnd]
    intro hm
    rw [place_nil, hm, Context.blockEnd]
  | cons t ts ih =>
    -- Where a newline ends the tokens, no block ends before what follows.
    have hbehind (m : Nat) : match Context.blockEnd o c m ts with
        | some (t, rest) => Context.blockEnd o c m (pl.behind ts) = some (t.moved pl.bytes pl.lines, pl.place rest)
        | none => pl.more = [] → Context.blockEnd o c m (pl.behind ts) = none := by
      cases ts with
      | nil =>
        simp only [Context.blockEnd]
        intro hm
        simp [behind, hm, hp.gapless hm, Context.blockEnd]
      | cons u us => exact ih m h.tail
    simp only [place_cons, Context.blockEnd, Token.moved_isSymbol]
    by_cases ho : t.isSymbol o = true
    · simp only [ho, if_true]
      exact hbehind (n + 1)
    · by_cases hc : t.isSymbol c = true
      · cases n with
        | zero => simp [ho, hc, h.behind hp (Token.not_newline_of_symbol hc)]
        | succ n =>
          simp only [ho, hc, if_true, Bool.false_eq_true, if_false]
          exact hbehind n
      · simp only [ho, hc, Bool.false_eq_true, if_false]
        exact hbehind n

theorem agrees_blockText (shape : BlockShape) (h : pl.Holds (t :: ts)) :
    pl.Agrees id (pl.near.blockText shape t ts)
      (pl.far.blockText shape (t.moved pl.bytes pl.lines) (pl.place ts)) := by
  have hb := @blockEnd_place pl ts hp (Context.openSymbol shape) (Context.closeSymbol shape) 0 h.tail
  unfold Context.blockText
  cases hend : Context.blockEnd (Context.openSymbol shape) (Context.closeSymbol shape) 0 ts with
  | none =>
    simp only [hend] at hb
    intro hs
    have hm : pl.more = [] := hs.resolve_right fun hs => hs _ _ rfl (.inr rfl)
    rw [hb hm]
    refine ⟨?_, ⟨by simp [Outcome.rest], .inl hm⟩⟩
    simp [outcome, ParseError.moved, hm]
  | some last =>
    obtain ⟨last, rest⟩ := last
    simp only [hend] at hb
    obtain ⟨pre, rfl⟩ := blockEnd_split hend
    rw [hb]
    have ht := (h.within t (by simp)).2
    have hl := (h.within last (by simp)).1
    have hsl := hp.slices t.span.stop last.span.start ht hl
    simp only [Token.moved_start, Token.moved_stop, hsl]
    exact agrees_ok _ (h.tail.append_right pre).tail

theorem reads_block (shape : BlockShape) (clause : String) :
    pl.Reads id (pl.near.block shape clause) (pl.far.block shape clause) := by
  intro ts h
  cases ts with
  | nil => exact agrees_end hp h fun hm => by simp [hm, Context.block]
  | cons t ts =>
    simp only [place_cons, Context.block, Token.moved_isSymbol]
    by_cases ho : t.isSymbol (Context.openSymbol shape) = true
    · simp only [ho, if_true, h.behind hp (Token.not_newline_of_symbol ho)]
      exact agrees_blockText hp shape h
    · simp only [ho, Bool.false_eq_true, if_false]
      exact agrees_fault hp _ h

/-! ## Clauses -/

section
variable {σ : Type} {φ : σ → σ} {near far : Context.Clauses σ}

/-- The clauses of the longer source: the same words in the same order, with readers that agree. -/
def SameClauses (pl : Placement) (φ : σ → σ) (near far : Context.Clauses σ) : Prop :=
  List.Forall₂ (fun c c' => c.1 = c'.1 ∧ ∀ s, pl.Reads φ (c.2.read s) (c'.2.read (φ s))) near far

/-- No word of a declaration introduces a clause, `archetype` apart. -/
def Apart (allowed : Context.Clauses σ) : Prop :=
  ∀ w ∈ ["spell", "character", "world"], allowed.find? w.toList = none

omit hp in
theorem reads_clause {α : Type} {r r' : List Token → Outcome α} (within : ∀ ts, (r ts).Within ts)
    (within' : ∀ ts, (r' ts).Within ts) {put put' : σ → α → σ} {ψ : α → α} (hr : pl.Reads ψ r r')
    (hput : ∀ s a, φ (put s a) = put' (φ s) (ψ a)) (s : σ) :
    pl.Reads φ ((Context.Clause.of r within put).read s) ((Context.Clause.of r' within' put').read (φ s)) := by
  intro ts h
  rw [Context.Clause.of_read, Context.Clause.of_read]
  refine (hr ts h).bind ?_
  intro a rest _ hrest
  rw [← hput]
  exact agrees_ok (put s a) hrest

theorem reads_stringClause (what : String) {put put' : σ → String → σ}
    (hput : ∀ s a, φ (put s a) = put' (φ s) a) (s : σ) :
    pl.Reads φ ((pl.near.stringClause what put).read s) ((pl.far.stringClause what put').read (φ s)) :=
  reads_clause (pl.near.within_expectToken _ what) (pl.far.within_expectToken _ what)
    (reads_expectString hp what) hput s

theorem reads_wordClause (what : String) {put put' : σ → String → σ}
    (hput : ∀ s a, φ (put s a) = put' (φ s) a) (s : σ) :
    pl.Reads φ ((pl.near.wordClause what put).read s) ((pl.far.wordClause what put').read (φ s)) :=
  reads_clause (pl.near.within_expectToken _ what) (pl.far.within_expectToken _ what)
    (reads_expectStringOrWord hp what) hput s

theorem reads_wordListClause {put put' : σ → List String → σ}
    (hput : ∀ s a, φ (put s a) = put' (φ s) a) (s : σ) :
    pl.Reads φ ((pl.near.wordListClause put).read s) ((pl.far.wordListClause put').read (φ s)) :=
  reads_clause pl.near.within_wordList pl.far.within_wordList (reads_wordList hp) hput s

theorem reads_mapClause (clause : String) {put put' : σ → Object → σ}
    (hput : ∀ s a, φ (put s a) = put' (φ s) a) (s : σ) :
    pl.Reads φ ((pl.near.mapClause clause put).read s) ((pl.far.mapClause clause put').read (φ s)) :=
  reads_clause (pl.near.within_block .map clause) (pl.far.within_block .map clause)
    (reads_block hp .map clause) (fun s inner => hput s (decodeMap inner)) s

theorem reads_sequenceClause (clause : String) {put put' : σ → List Json → σ}
    (hput : ∀ s a, φ (put s a) = put' (φ s) a) (s : σ) :
    pl.Reads φ ((pl.near.sequenceClause clause put).read s) ((pl.far.sequenceClause clause put').read (φ s)) :=
  reads_clause (pl.near.within_block .sequence clause) (pl.far.within_block .sequence clause)
    (reads_block hp .sequence clause) (fun s inner => hput s (decodeSequence inner)) s

omit hp in
theorem SameClauses.cons {word : String} {c c' : Context.Clause σ}
    (h : ∀ s, pl.Reads φ (c.read s) (c'.read (φ s))) (hs : pl.SameClauses φ near far) :
    pl.SameClauses φ ((word, c) :: near) ((word, c') :: far) := List.Forall₂.cons ⟨rfl, h⟩ hs

omit hp in
theorem SameClauses.nil : pl.SameClauses φ [] [] := List.Forall₂.nil

omit hp in
theorem SameClauses.find? (hc : pl.SameClauses φ near far) (word : List Char) :
    match near.find? word with
    | none => far.find? word = none
    | some c => ∃ c', far.find? word = some c' ∧ ∀ s, pl.Reads φ (c.read s) (c'.read (φ s)) :=
  Context.Clauses.find?_of_forall₂ (R := fun c c' => ∀ s, pl.Reads φ (c.read s) (c'.read (φ s))) hc word

theorem beginsArchetype_place (h : pl.Holds (t :: ts)) :
    Context.beginsArchetype (t.moved pl.bytes pl.lines) (pl.behind ts) = Context.beginsArchetype t ts := by
  unfold Context.beginsArchetype
  by_cases ht : (t.kind == Kind.keyword .archetype) = true
  · have hnl : t.isNewline = false := by
      rw [Token.isNewline, beq_iff_eq.1 ht]
      rfl
    cases ts with
    | nil =>
      obtain hm : pl.more = [] := by simpa using h.ne_nil hnl
      simp [behind, hm, hp.gapless hm]
    | cons n ts =>
      cases ts with
      | cons m ts => rfl
      | nil =>
        rcases hp.more_cases with hm | ⟨sign, word, rest, hm, _⟩
        · simp [behind, hm, hp.gapless hm]
        · -- The name would be the newline that ends the tokens.
          have hn : n.isNewline = true := by
            rcases h.lines with hx | hx
            · simp [hm] at hx
            · exact hx n rfl
          have hni : n.isIdentifier = false := by
            rw [Token.isNewline, beq_iff_eq] at hn
            simp only [Token.isIdentifier, hn]
          simp only [behind_cons]
          split
          · next heq =>
            obtain ⟨rfl, -⟩ := List.cons.inj heq
            simp [hni]
          · simp
  · simp [ht]

omit hp in
/-- A declaration begins no clause. -/
theorem nextClause_of_startsDeclaration {sign word : Token} {rest : List Token} (ha : Apart far)
    (hstarts : startsDeclaration (sign :: word :: rest) = true) (hword : Faithful word.kind word.lexeme) :
    Context.nextClause far (sign :: word :: rest) = none := by
  have spelled {k : Keyword} {w : String} (hk : word.kind = .keyword k)
      (hw : ∀ l, Kind.ofReserved? l = some (.keyword k) → l = w.toList) : word.word? = some w.toList := by
    rw [Token.word?, hk]
    exact congrArg some (hw _ (hword.spelled k hk))
  have reserved {k : Kind} {l : List Char} (h : Kind.ofReserved? l = some k) :
      ∃ w : String, (w, k) ∈ Kind.reserved ∧ l = w.toList := by
    obtain ⟨⟨w, k'⟩, hm, rfl⟩ := Option.map_eq_some_iff.1 h
    exact ⟨w, List.mem_of_find?_eq_some hm, (by simpa using List.find?_some hm : w.toList = l).symm⟩
  have one {k : Keyword} {w : String} (hk : word.kind = .keyword k) (hw : w ∈ ["spell", "character", "world"])
      (hu : ∀ w' : String, (w', Kind.keyword k) ∈ Kind.reserved → w' = w) :
      Context.nextClause far (sign :: word :: rest) = none := by
    have hs := spelled hk fun l hl => by
      obtain ⟨w', hm, rfl⟩ := reserved hl
      rw [hu w' hm]
    simp only [Context.nextClause, hs, Option.bind_some, ha w hw, Option.map_none]
    split <;> rfl
  simp only [startsDeclaration, Bool.and_eq_true, Bool.or_eq_true, beq_iff_eq] at hstarts
  obtain ⟨_, ((hk | hk) | hk) | hb⟩ := hstarts
  · exact one (w := "spell") hk (by simp) fun w' hm => by simpa [Kind.reserved] using hm
  · exact one (w := "character") hk (by simp) fun w' hm => by simpa [Kind.reserved] using hm
  · exact one (w := "world") hk (by simp) fun w' hm => by simpa [Kind.reserved] using hm
  · simp [Context.nextClause, hb]

/-- What follows begins no clause. -/
theorem nextClause_more (ha : Apart far) : Context.nextClause far pl.more = none := by
  rcases hp.more_cases with hm | ⟨sign, word, rest, hm, _, hstarts, hword⟩
  · rw [hm]
    rfl
  · rw [hm]
    exact nextClause_of_startsDeclaration ha hstarts hword

theorem nextClause_place (hc : pl.SameClauses φ near far) (ha : Apart far) (h : pl.Holds ts) :
    match Context.nextClause near ts with
    | none => Context.nextClause far (pl.place ts) = none
    | some (c, rest) => pl.Holds rest ∧ ∃ c', Context.nextClause far (pl.place ts) = some (c', pl.place rest) ∧
        ∀ s, pl.Reads φ (c.read s) (c'.read (φ s)) := by
  cases ts with
  | nil => exact nextClause_more hp ha
  | cons t ts =>
    cases ts with
    | nil =>
      simp only [Context.nextClause, place_cons]
      rcases hp.more_cases with hm | ⟨sign, word, rest, hm, _⟩
      · simp [behind, hm, hp.gapless hm]
      · have hn : t.isNewline = true := by
          rcases h.lines with hx | hx
          · simp [hm] at hx
          · exact hx t rfl
        have hat : t.isSymbol .at = false := by
          rw [Token.isNewline, beq_iff_eq] at hn
          simp [Token.isSymbol, hn]
        split
        · next heq =>
          obtain ⟨rfl, -⟩ := List.cons.inj heq
          simp [hat]
        · rfl
    | cons w ts =>
      simp only [Context.nextClause, place_cons, behind_cons, Token.moved_isSymbol, beginsArchetype_place hp h.tail,
        Token.moved_word?]
      by_cases hx : (t.isSymbol .at && !Context.beginsArchetype w ts) = true
      · simp only [hx, if_true]
        cases hw : w.word? with
        | none => rfl
        | some word =>
          have hf := hc.find? word
          simp only [Option.bind_some]
          cases hn : near.find? word with
          | none =>
            simp only [hn] at hf
            simp only [hf, Option.map_none]
          | some c =>
            simp only [hn] at hf
            obtain ⟨c', hf', hr⟩ := hf
            simp only [hf', Option.map_some]
            exact ⟨h.tail.tail, c', by rw [h.tail.behind hp (Token.not_newline_of_word hw)], hr⟩
      · simp only [hx, Bool.false_eq_true, if_false]

theorem reads_readClauses (hc : pl.SameClauses φ near far) (ha : Apart far) (s : σ) :
    pl.Reads φ (Context.readClauses near s) (Context.readClauses far (φ s)) := by
  intro ts
  induction hn : ts.length using Nat.strongRecOn generalizing ts s with
  | ind n ih =>
    subst hn
    intro h
    have hlen := Context.length_skipTrivia false ts
    obtain ⟨hsk, hh⟩ := skipTrivia_place (b := false) hp h fun _ => .inr rfl
    have hnext := nextClause_place hp hc ha hh
    rw [Context.readClauses_eq, Context.readClauses_eq, hsk]
    cases hcl : Context.nextClause near (Context.skipTrivia false ts) with
    | none =>
      simp only [hcl] at hnext
      rw [hnext]
      exact agrees_ok s hh
    | some found =>
      obtain ⟨c, rest⟩ := found
      simp only [hcl] at hnext
      obtain ⟨hrest, c', hfar, hr⟩ := hnext
      rw [hfar]
      have hlen' := Context.length_nextClause hcl
      refine (hr s rest hrest).bind ?_
      intro s' after hafter hh'
      have hw := c.within s rest
      rw [hafter] at hw
      have hlt : after.length < ts.length := by
        simp only [Outcome.Within, Outcome.rest] at hw
        omega
      exact ih _ hlt s' after rfl hh'

end

/-! ## Declarations -/

/-- A declaration whose name is followed by clauses or more. -/
theorem reads_declared {α β : Type} {φ : α → β} {body : String → Token → List Token → Outcome α}
    {body' : String → Token → List Token → Outcome β} (what : String)
    (hb : ∀ name t, pl.Reads φ (body name t) (body' name (t.moved pl.bytes pl.lines))) :
    pl.Reads φ (pl.near.declared what body) (pl.far.declared what body') := by
  intro ts h
  rw [Context.declared_eq, Context.declared_eq]
  refine (reads_expectIdentifier hp what ts h).bind ?_
  intro name rest hok hrest
  have hne : ts ≠ [] := by
    rintro rfl
    simpa using Context.length_lt_of_expectToken _ hok
  rw [current_place hp (.inr hne)]
  exact hb name _ rest hrest

/-- A spell under construction some lines further on. -/
def movedDraft (pl : Placement) (d : Context.SpellDraft) : Context.SpellDraft :=
  { d with spell := d.spell.moved pl.lines }

theorem same_spellClauses : pl.SameClauses pl.movedDraft pl.near.spellClauses pl.far.spellClauses := by
  refine .cons (reads_stringClause hp _ fun _ _ => rfl) ?_
  refine .cons (reads_wordListClause hp fun _ _ => rfl) ?_
  refine .cons (reads_wordListClause hp fun _ _ => rfl) ?_
  refine .cons (reads_mapClause hp "@parameters" fun _ _ => rfl) ?_
  refine .cons (reads_stringClause hp _ fun _ _ => rfl) ?_
  exact .cons (reads_stringClause hp _ fun _ _ => rfl) .nil

omit hp in
theorem apart_spellClauses (ctx : Context) : Apart ctx.spellClauses := by
  simp [Apart, Context.Clauses.find?, Context.spellClauses]

theorem reads_spell : pl.Reads (Spell.moved pl.lines) pl.near.spell pl.far.spell := by
  intro ts h
  rw [Context.spell_eq, Context.spell_eq]
  refine (reads_expectIdentifier hp _ ts h).bind ?_
  intro name rest hok hrest
  have hne : ts ≠ [] := by
    rintro rfl
    simpa using Context.length_lt_of_expectToken _ hok
  rw [current_place hp (.inr hne)]
  have hclauses := reads_readClauses hp (same_spellClauses hp) (apart_spellClauses pl.far)
    { spell := { name, line := (pl.near.current ts).span.line } } rest hrest
  refine hclauses.bind ?_
  intro draft after _ hafter
  unfold Context.finishSpell
  have himpl : (pl.movedDraft draft).implementation? = draft.implementation? := rfl
  rw [himpl]
  cases draft.implementation? with
  | some implementation => exact fun _ => ⟨rfl, hafter⟩
  | none => exact fun _ => ⟨rfl, hafter⟩

theorem reads_spellItems : pl.Reads (List.map (Spell.moved pl.lines)) pl.near.spellItems pl.far.spellItems := by
  intro ts
  induction hn : ts.length using Nat.strongRecOn generalizing ts with
  | ind n ih =>
    subst hn
    intro h
    have hlen := Context.length_skipTrivia false ts
    obtain ⟨hsk, hh⟩ := skipTrivia_place (b := false) hp h fun _ => .inr rfl
    rw [Context.spellItems_eq, Context.spellItems_eq, hsk]
    cases hts : Context.skipTrivia false ts with
    | nil =>
      refine agrees_end hp (hts ▸ hh) ?_
      intro hm
      simp [hm]
    | cons t rest =>
      rw [hts] at hh hlen
      simp only [List.length_cons] at hlen
      simp only [place_cons, Context.spellsFrom, Token.moved_isSymbol]
      by_cases hcomma : t.isSymbol .comma = true
      · simp only [hcomma, if_true, hh.behind hp (Token.not_newline_of_symbol hcomma)]
        exact ih rest.length (by omega) rest rfl hh.tail
      · by_cases hclose : t.isSymbol .closeBracket = true
        · simp only [hcomma, hclose, if_true, Bool.false_eq_true, if_false,
            hh.behind hp (Token.not_newline_of_symbol hclose)]
          exact agrees_ok [] hh.tail
        · simp only [hcomma, hclose, Bool.false_eq_true, if_false]
          by_cases hat : t.isSymbol .at = true
          · have hn : t.isNewline = false := Token.not_newline_of_symbol hat
            -- The word after `@` is the same, for it is a token of the source.
            have hhead : (pl.behind rest).head?.any (·.kind == .keyword .spell) =
                rest.head?.any (·.kind == .keyword .spell) := by
              rw [hh.behind hp hn]
              rcases hh.ne_nil hn with hm | hne
              · cases rest with
                | nil => simp [hm]
                | cons u us => rfl
              · obtain ⟨u, us, rfl⟩ := List.exists_cons_of_ne_nil hne
                rfl
            simp only [hhead]
            by_cases hspell : rest.head?.any (·.kind == .keyword .spell) = true
            · simp only [hat, hspell, Bool.and_self, if_true]
              obtain ⟨u, us, rfl⟩ : ∃ u us, rest = u :: us := by
                cases rest with
                | nil => simp at hspell
                | cons u us => exact ⟨u, us, rfl⟩
              have hword : u.isNewline = false := by
                rw [List.head?_cons, Option.any_some, beq_iff_eq] at hspell
                simp [Token.isNewline, hspell]
              rw [behind_cons, List.tail_cons, List.tail_cons, hh.tail.behind hp hword]
              refine (reads_spell hp us hh.tail.tail).bind ?_
              intro s after hok hafter
              have hw := pl.near.within_spell us
              rw [hok] at hw
              simp only [Outcome.Within, Outcome.rest] at hw
              simp only [List.length_cons] at hlen
              refine (ih after.length (by omega) after rfl hafter).bind ?_
              intro more last _ hlast
              exact agrees_ok (s :: more) hlast
            · simp only [hspell, Bool.and_false, Bool.false_eq_true, if_false]
              exact agrees_fault hp _ hh
          · simp only [hat, Bool.false_and, Bool.false_eq_true, if_false]
            exact agrees_fault hp _ hh

theorem reads_spellList : pl.Reads (List.map (Spell.moved pl.lines)) pl.near.spellList pl.far.spellList := by
  intro ts h
  rw [Context.spellList_eq, Context.spellList_eq]
  exact (reads_expectSymbol hp .openBracket _ ts h).bind fun _ rest _ hr => reads_spellItems hp rest hr

theorem same_characterClauses :
    pl.SameClauses (Character.moved pl.lines) pl.near.characterClauses pl.far.characterClauses := by
  refine .cons (reads_wordClause hp _ fun _ _ => rfl) ?_
  refine .cons (reads_wordListClause hp fun _ _ => rfl) ?_
  refine .cons (reads_wordListClause hp fun _ _ => rfl) ?_
  refine .cons (reads_mapClause hp "@data" fun _ _ => rfl) ?_
  refine .cons (reads_stringClause hp _ fun _ _ => rfl) ?_
  refine .cons (reads_sequenceClause hp "@relationships" fun _ _ => rfl) ?_
  refine .cons (fun c => ?_) .nil
  exact reads_clause pl.near.within_spellList pl.far.within_spellList (reads_spellList hp) (fun _ _ => rfl) c

omit hp in
theorem apart_characterClauses (ctx : Context) : Apart ctx.characterClauses := by
  simp [Apart, Context.Clauses.find?, Context.characterClauses]

theorem reads_character : pl.Reads (Character.moved pl.lines) pl.near.character pl.far.character := by
  refine reads_declared hp _ ?_
  intro name t
  exact reads_readClauses hp (same_characterClauses hp) (apart_characterClauses _) { name, line := t.span.line }

theorem same_worldClauses : pl.SameClauses (World.moved pl.lines) pl.near.worldClauses pl.far.worldClauses := by
  refine .cons (reads_mapClause hp "@cosmology" fun _ _ => rfl) ?_
  refine .cons (reads_mapClause hp "@geography" fun _ _ => rfl) ?_
  refine .cons (reads_sequenceClause hp "@cultures" fun _ _ => rfl) ?_
  exact .cons (reads_sequenceClause hp "@history" fun _ _ => rfl) .nil

omit hp in
theorem apart_worldClauses (ctx : Context) : Apart ctx.worldClauses := by
  simp [Apart, Context.Clauses.find?, Context.worldClauses]

theorem reads_world : pl.Reads (World.moved pl.lines) pl.near.world pl.far.world := by
  refine reads_declared hp _ ?_
  intro name t
  exact reads_readClauses hp (same_worldClauses hp) (apart_worldClauses _) { name, line := t.span.line }

theorem reads_archetype : pl.Reads (Archetype.moved pl.lines) pl.near.archetype pl.far.archetype := by
  intro ts h
  rw [Context.archetype_eq, Context.archetype_eq]
  refine (reads_expectIdentifier hp _ ts h).bind ?_
  intro name rest hok hrest
  have hne : ts ≠ [] := by
    rintro rfl
    simpa using Context.length_lt_of_expectToken _ hok
  rw [current_place hp (.inr hne)]
  refine (reads_expectSymbol hp _ _ rest hrest).bind ?_
  intro _ after _ hafter
  refine (reads_expectString hp _ after hafter).bind ?_
  intro description last _ hlast
  exact fun _ => ⟨rfl, hlast⟩

/-! ## Top level -/

theorem reads_skipValue :
    pl.Reads (Option.map (Declaration.moved pl.lines)) pl.near.skipValue pl.far.skipValue := by
  intro ts h
  cases ts with
  | nil =>
    intro _
    refine ⟨?_, h⟩
    rcases hp.more_cases with hm | ⟨sign, word, rest, hm, hat, _⟩
    · simp [hm, Context.skipValue, outcome]
    · have hb : sign.isSymbol .openBrace = false ∧ sign.isSymbol .openBracket = false ∧ sign.isSymbol .at = true := by
        simp [Token.isSymbol, hat]
      rw [place_nil, hm, Context.skipValue_cons]
      simp [Context.dropValue, hb, Context.skipValue, outcome, hm]
  | cons t ts =>
    rw [place_cons, Context.skipValue_cons, Context.skipValue_cons]
    simp only [Context.dropValue, Token.moved_isSymbol, Token.moved_isNewline]
    by_cases ho : t.isSymbol .openBrace = true
    · simp only [ho, if_true, h.behind hp (Token.not_newline_of_symbol ho)]
      exact (agrees_blockText hp .map h).bind fun _ rest _ hr _ => ⟨rfl, hr⟩
    · by_cases hb : t.isSymbol .openBracket = true
      · simp only [ho, hb, if_true, Bool.false_eq_true, if_false, h.behind hp (Token.not_newline_of_symbol hb)]
        exact (agrees_blockText hp .sequence h).bind fun _ rest _ hr _ => ⟨rfl, hr⟩
      · simp only [ho, hb, Bool.false_eq_true, if_false]
        by_cases hx : (t.isSymbol .at || t.isNewline) = true
        · simp only [hx, if_true]
          exact fun _ => ⟨rfl, h⟩
        · have hn : t.isNewline = false := by
            cases hn : t.isNewline with
            | false => rfl
            | true => simp [hn] at hx
          simp only [hx, Bool.false_eq_true, if_false, h.behind hp hn]
          exact fun _ => ⟨rfl, h.tail⟩

omit hp in
theorem agrees_declare {α : Type} {φ : α → α} {o o' : Outcome α} {make : α → Declaration} (ho : pl.Agrees φ o o')
    (hm : ∀ a, make (φ a) = (make a).moved pl.lines) :
    pl.Agrees (Option.map (Declaration.moved pl.lines)) (Context.Outcome.declare o make)
      (Context.Outcome.declare o' make) := by
  rw [Context.declare_eq, Context.declare_eq]
  refine ho.bind ?_
  intro a rest _ hr
  rw [hm]
  exact agrees_ok (some (make a)) hr

theorem agrees_leftOver (h : pl.Holds (t :: ts)) :
    pl.Agrees (Option.map (Declaration.moved pl.lines)) (pl.near.leftOver t ts)
      (pl.far.leftOver (t.moved pl.bytes pl.lines) (pl.behind ts)) := by
  unfold Context.leftOver
  rw [Token.moved_word?]
  cases hw : t.word? with
  | none => exact agrees_fault hp _ h
  | some word =>
    dsimp only
    split
    · rw [h.behind hp (Token.not_newline_of_word hw)]
      exact reads_skipValue hp ts h.tail
    · exact agrees_fault hp _ h

theorem reads_declaration :
    pl.Reads (Option.map (Declaration.moved pl.lines)) pl.near.declaration pl.far.declaration := by
  intro ts h
  cases ts with
  | nil => exact agrees_end hp h fun hm => by simp [hm, Context.declaration]
  | cons t ts =>
    have hleft := agrees_leftOver hp h
    have hbehind {k : Keyword} (hk : t.kind = .keyword k) : pl.behind ts = pl.place ts :=
      h.behind hp (by simp [Token.isNewline, hk])
    rw [place_cons, Context.declaration_cons, Context.declaration_cons, Token.moved_kind, Token.moved_lexeme]
    split
    · next hk =>
      rw [hbehind hk]
      exact agrees_declare (reads_spell hp ts h.tail) fun _ => rfl
    · next hk =>
      rw [hbehind hk]
      exact agrees_declare (reads_character hp ts h.tail) fun _ => rfl
    · next hk =>
      rw [hbehind hk]
      exact agrees_declare (reads_world hp ts h.tail) fun _ => rfl
    · next hk =>
      have hn : t.isNewline = false := by simp [Token.isNewline, hk]
      have hhead : (pl.place ts).head?.any Token.isIdentifier = ts.head?.any Token.isIdentifier := by
        rcases h.ne_nil hn with hm | hne
        · cases ts with
          | nil => simp [hm]
          | cons u us => rfl
        · obtain ⟨u, us, rfl⟩ := List.exists_cons_of_ne_nil hne
          rfl
      rw [hbehind hk] at hleft ⊢
      rw [hhead]
      split
      · exact agrees_declare (reads_archetype hp ts h.tail) fun _ => rfl
      · exact hleft
    all_goals first | exact agrees_fault hp _ h | exact hleft

/-- Recovery goes on at the same place; behind a last newline it goes on in the gap. -/
theorem resume_place (h : pl.Holds ts) :
    Program.ofTokens pl.far false (Context.resume (pl.place ts)) =
        Program.ofTokens pl.far false (pl.place (Context.resume ts)) ∧
      pl.Holds (Context.resume ts) := by
  induction ts with
  | nil =>
    refine ⟨?_, h⟩
    rcases hp.more_cases with hm | ⟨sign, word, rest, hm, hat, _⟩
    · simp [hm, Context.resume]
    · simp [hm, Context.resume, Token.isSymbol, hat]
  | cons t ts ih =>
    simp only [place_cons, Context.resume, Token.moved_isSymbol, Token.moved_isNewline]
    by_cases hat : t.isSymbol .at = true
    · simp only [hat, if_true]
      exact ⟨rfl, h⟩
    · by_cases hn : t.isNewline = true
      · simp only [hat, hn, if_true, Bool.false_eq_true, if_false]
        exact ⟨hp.ofTokens_behind _ ts, h.tail⟩
      · simp only [hat, hn, Bool.false_eq_true, if_false, h.behind hp (by simpa using hn)]
        exact ih h.tail

/-- **A source before other tokens** gives its own declarations and faults, and then those of the rest,
if none of its faults was found at its end. -/
theorem ofTokens_place {b : Bool} (h : pl.Holds ts) (hb : ts = [] → pl.more = [] ∨ b = false)
    (hs : pl.more = [] ∨ ∀ e ∈ (Program.ofTokens pl.near b ts).errors, ¬ e.AtEnd) :
    Program.ofTokens pl.far b (pl.place ts) =
      ((Program.ofTokens pl.near b ts).moved pl.bytes pl.lines).append (Program.ofTokens pl.far false pl.more) := by
  induction hn : ts.length using Nat.strongRecOn generalizing ts b with
  | ind n ih =>
    subst hn
    cases ts with
    | nil =>
      rw [place_nil, Program.ofTokens_nil]
      rcases hb rfl with hm | rfl
      · rw [hm, Program.ofTokens_nil, Program.ofTokens_nil]
        rfl
      · rfl
    | cons t ts =>
      rw [Program.ofTokens_cons] at hs
      rw [place_cons, Program.ofTokens_cons, Program.ofTokens_cons]
      simp only [Token.moved_isSymbol, Token.moved_isNewline]
      have hlt : ts.length < (t :: ts).length := Nat.lt_succ_self _
      by_cases hnl : t.isNewline = true
      · simp only [hnl, if_true, hp.ofTokens_behind] at hs ⊢
        exact ih _ hlt h.tail (fun _ => .inr rfl) hs rfl
      · simp only [hnl, Bool.false_eq_true, if_false, h.behind hp (by simpa using hnl)] at hs ⊢
        by_cases hc : (b || t.isSymbol .hash) = true
        · simp only [hc, if_true] at hs ⊢
          have hne := h.ne_nil (by simpa using hnl)
          exact ih _ hlt h.tail (fun hts => hne.imp_right fun hx => absurd hts hx) hs rfl
        · simp only [hc, Bool.false_eq_true, if_false] at hs ⊢
          by_cases hat : t.isSymbol .at = true
          · simp only [hat, if_true] at hs ⊢
            have hset : pl.Settles (pl.near.declaration ts) := by
              refine hs.imp_right fun hs e rest he => hs e ?_
              simp [he, Program.after, Program.append]
            obtain ⟨hfar, hrest⟩ := reads_declaration hp ts h.tail hset
            have hw := pl.near.within_declaration ts
            rw [hfar]
            cases hd : pl.near.declaration ts with
            | ok d? rest =>
              rw [hd] at hs hrest hw
              have hlen : rest.length < (t :: ts).length := Nat.lt_succ_of_le hw
              have hrest' : pl.Holds rest := hrest
              have hrec := ih _ hlen hrest' (b := false) (fun _ => .inr rfl) hs rfl
              simp only [outcome, Program.after, hrec, Program.declare, Program.append, Program.moved]
              cases d? <;> rfl
            | fail e rest =>
              rw [hd] at hs hrest hw
              have hrest' : pl.Holds rest := hrest
              obtain ⟨hres, hres'⟩ := resume_place hp hrest'
              have hlen : (Context.resume rest).length < (t :: ts).length :=
                Nat.lt_succ_of_le (Nat.le_trans (Context.length_resume rest) hw)
              have hs' : pl.more = [] ∨
                  ∀ e ∈ (Program.ofTokens pl.near false (Context.resume rest)).errors, ¬ e.AtEnd :=
                hs.imp_right fun hs e he => hs e (by simp [Program.after, Program.append, he])
              have hrec := ih _ hlen hres' (b := false) (fun _ => .inr rfl) hs' rfl
              simp only [outcome, Program.after, hres, hrec, Program.append, Program.moved]
              rfl
          · simp only [hat, Bool.false_eq_true, if_false] at hs ⊢
            exact ih _ hlt h.tail (fun hts => by
              refine (h.ne_nil (by simpa using hnl)).imp_right fun hx => absurd hts hx) hs rfl

end Placement

end Grimoire.Source
