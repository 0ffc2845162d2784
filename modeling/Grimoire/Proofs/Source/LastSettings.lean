import Grimoire.Proofs.Source.Settings

/-!
# The last settings make the declaration

A head and well-formed clauses in whatever order are one declaration without faults. Each field is what the
last clause that sets it says, or empty, since a reader of clauses only ever goes from what some settings make to
what one more setting makes of it (`Views`). So clauses that set different fields may change places, and a
clause may go that is overwritten. Then only lines can change: that of the head, and those that spells in a list
remember (`parse_settings`).
-/
namespace Grimoire.Source

open Context

/-! ## Newlines and comments -/

/-- Newlines, and comments to the ends of their lines. -/
inductive Gap : List Token → Prop
  | nil : Gap []
  | newline {t : Token} {gap : List Token} (ht : t.isNewline = true) (next : Gap gap) : Gap (t :: gap)
  | comment {hash newline : Token} {inner gap : List Token} (hhash : hash.isSymbol .hash = true)
      (hinner : ∀ t ∈ inner, t.isNewline = false) (hnewline : newline.isNewline = true) (next : Gap gap) :
      Gap (hash :: (inner ++ newline :: gap))

/-- Nothing, or a comment on the last line. -/
inductive OpenComment : List Token → Prop
  | none : OpenComment []
  | comment {hash : Token} {inner : List Token} (hhash : hash.isSymbol .hash = true)
      (hinner : ∀ t ∈ inner, t.isNewline = false) : OpenComment (hash :: inner)

section
variable {t : Token} {gap inner rest tail : List Token}

theorem skipTrivia_hash (h : t.isSymbol .hash = true) (rest : List Token) :
    skipTrivia false (t :: rest) = skipTrivia true rest := by
  rw [skipTrivia, Token.not_newline_of_symbol h, if_neg Bool.false_ne_true, Bool.false_or, if_pos h]

/-- A comment goes on to its newline. -/
theorem skipTrivia_inner (h : ∀ t ∈ inner, t.isNewline = false) (rest : List Token) :
    skipTrivia true (inner ++ rest) = skipTrivia true rest := by
  induction inner with
  | nil => rfl
  | cons t inner ih =>
    obtain ⟨ht, hinner⟩ := List.forall_mem_cons.1 h
    rw [List.cons_append, skipTrivia, ht, if_neg Bool.false_ne_true, Bool.true_or, if_pos rfl, ih hinner]

theorem Gap.trivial (h : Gap gap) : Trivial gap := by
  intro rest
  induction h with
  | nil => rfl
  | newline ht _ ih => rw [List.cons_append, skipTrivia, if_pos ht, ih]
  | comment hhash hinner hnewline _ ih =>
    rw [List.cons_append, skipTrivia_hash hhash, List.append_assoc, skipTrivia_inner hinner, List.cons_append,
      skipTrivia, if_pos hnewline, ih]

theorem Gap.noColons (h : Gap gap) (hrest : NoColons rest) : NoColons (gap ++ rest) := by
  cases h with
  | nil => exact hrest
  | newline ht _ => exact .cons (Token.not_symbol_of_newline ht .doubleColon)
  | comment hhash _ _ _ => exact .cons (Token.not_symbol_of_symbol hhash (by decide))

theorem OpenComment.skipTrivia (h : OpenComment tail) : Context.skipTrivia false tail = [] := by
  cases h with
  | none => rfl
  | comment hhash hinner =>
    have hpassed := skipTrivia_inner hinner []
    rw [List.append_nil] at hpassed
    rw [skipTrivia_hash hhash, hpassed]
    rfl

theorem OpenComment.noColons (h : OpenComment tail) : NoColons tail := by
  cases h with
  | none =>
    intro t ht
    cases ht
  | comment hhash _ => exact .cons (Token.not_symbol_of_symbol hhash (by decide))

end

/-! ## What tokens say -/

/-- The items of a list behind its opening bracket, up to the closing one, and their words. -/
inductive WordsSay : List Token → List String → Prop
  | none {gap : List Token} {last : Token} (hgap : Gap gap) (hlast : last.isSymbol .closeBracket = true) :
      WordsSay (gap ++ [last]) []
  | one {gap gap' : List Token} {item last : Token} {word : String} (hgap : Gap gap)
      (hitem : item.stringOrWord? = some word.toList) (hgap' : Gap gap')
      (hlast : last.isSymbol .closeBracket = true) : WordsSay (gap ++ item :: (gap' ++ [last])) [word]
  | more {gap gap' ts : List Token} {item comma : Token} {word : String} {words : List String} (hgap : Gap gap)
      (hitem : item.stringOrWord? = some word.toList) (hgap' : Gap gap') (hcomma : comma.isSymbol .comma = true)
      (next : WordsSay ts words) : WordsSay (gap ++ item :: (gap' ++ comma :: ts)) (word :: words)

/-- A block, and what stands in the source between its signs. Inside it, signs of its own shape balance. -/
inductive BlockSays (source : List Char) (shape : BlockShape) : List Token → List Char → Prop
  | mk {first last : Token} {inner : List Token} {text : List Char}
      (hfirst : first.isSymbol (openSymbol shape) = true) (hlast : last.isSymbol (closeSymbol shape) = true)
      (hinner : SignsBalance shape inner) (htext : slice? source first.span.stop last.span.start = some text) :
      BlockSays source shape (first :: (inner ++ [last])) text

/-- Values of all forms but lists of spells, and what they say. -/
inductive PlainSays (source : List Char) : (form : Form) → List Token → form.Datum → Prop
  | text {what value : String} {t : Token} (h : t.kind = .string value.toList) :
      PlainSays source (.text what) [t] value
  | word {what word : String} {t : Token} (h : t.stringOrWord? = some word.toList) :
      PlainSays source (.word what) [t] word
  | words {first : Token} {ts : List Token} {words : List String} (hfirst : first.isSymbol .openBracket = true)
      (hts : WordsSay ts words) : PlainSays source .words (first :: ts) words
  | map {clause : String} {ts : List Token} {text : List Char} (h : BlockSays source .map ts text) :
      PlainSays source (.block .map clause) ts (decodeMap text)
  | sequence {clause : String} {ts : List Token} {text : List Char} (h : BlockSays source .sequence ts text) :
      PlainSays source (.block .sequence clause) ts (decodeSequence text)

/-- A clause that sets a field to what its value says, under any of the field's words. -/
structure ClauseTokens.Sets (Says : (form : Form) → List Token → form.Datum → Prop) (fields : List (String × Field))
    (c : ClauseTokens) (s : Setting) : Prop where
  sign : c.sign.isSymbol .at = true
  word : ∃ word, (word, s.1) ∈ fields ∧ c.word.Is word
  value : Says s.1.form c.value s.2
  gap : Gap c.gap

/-- A spell needs an implementation. -/
def Composite.Complete : Composite → List Setting → Prop
  | spell, settings => ∃ s ∈ settings, s.1 = .implementation
  | character, _ => True
  | world, _ => True

/-- The spells of a list behind its opening bracket, up to the closing one. -/
inductive SpellsSay (source : List Char) : List Token → List Spell → Prop
  | last {last : Token} (hlast : last.isSymbol .closeBracket = true) : SpellsSay source [last] []
  | comma {comma : Token} {ts : List Token} {spells : List Spell} (hcomma : comma.isSymbol .comma = true)
      (next : SpellsSay source ts spells) : SpellsSay source (comma :: ts) spells
  | gap {gap ts : List Token} {spells : List Spell} (hgap : Gap gap) (next : SpellsSay source ts spells) :
      SpellsSay source (gap ++ ts) spells
  | spell {sign word name : Token} {called : String} {gap ts : List Token} {clauses : List ClauseTokens}
      {settings : List Setting} {spells : List Spell} (hsign : sign.isSymbol .at = true) (hword : word.Is "spell")
      (hname : name.kind = .identifier called.toList) (hgap : Gap gap)
      (hclauses : List.Forall₂ (ClauseTokens.Sets (PlainSays source) Composite.spell.fields) clauses settings)
      (hcomplete : Composite.spell.Complete settings) (next : SpellsSay source ts spells) :
      SpellsSay source (sign :: word :: name :: (gap ++ (clauses.flatMap ClauseTokens.all ++ ts)))
        (Spell.ofSettings called name.span.line settings :: spells)

/-- Values of all forms, and what they say. -/
inductive Says (source : List Char) : (form : Form) → List Token → form.Datum → Prop
  | plain {form : Form} {ts : List Token} {v : form.Datum} (h : PlainSays source form ts v) : Says source form ts v
  | spells {first : Token} {ts : List Token} {spells : List Spell} (hfirst : first.isSymbol .openBracket = true)
      (hts : SpellsSay source ts spells) : Says source .spells (first :: ts) spells

/-! ## Readers of values -/

/-- The reader of the form. -/
def Form.read (ctx : Context) : (form : Form) → List Token → Outcome form.Datum
  | text what, ts => ctx.expectString what ts
  | word what, ts => ctx.expectStringOrWord what ts
  | words, ts => ctx.wordList ts
  | block .map clause, ts => (ctx.block .map clause ts).bind fun inner rest => .ok (decodeMap inner) rest
  | block .sequence clause, ts => (ctx.block .sequence clause ts).bind fun inner rest => .ok (decodeSequence inner) rest
  | spells, ts => ctx.spellList ts

/-- The reader of the form takes the tokens for this value, whatever follows them, and they name no archetype. -/
structure TakenFor (ctx : Context) (form : Form) (value : List Token) (v : form.Datum) : Prop where
  reads : ∀ rest, form.read ctx (value ++ rest) = .ok v rest
  clear : ∀ word rest, NoColons rest → beginsArchetype word (value ++ rest) = false

section
variable {ctx : Context} {ts : List Token}

theorem WordsSay.reads (ctx : Context) {words : List String} (h : WordsSay ts words) (rest : List Token) :
    ctx.wordItems (ts ++ rest) = .ok words rest := by
  induction h with
  | none hgap hlast =>
    rw [List.append_assoc, wordItems_gap ctx hgap.trivial, List.singleton_append, wordItems_close ctx hlast]
  | one hgap hitem hgap' hlast =>
    rw [List.append_assoc, wordItems_gap ctx hgap.trivial, List.cons_append, wordItems_word hitem, List.append_assoc,
      List.singleton_append, wordsAfter_close ctx _ hgap'.trivial hlast]
  | more hgap hitem hgap' hcomma _ ih =>
    rw [List.append_assoc, wordItems_gap ctx hgap.trivial, List.cons_append, wordItems_word hitem, List.append_assoc,
      List.cons_append, wordsAfter_comma ctx _ hgap'.trivial hcomma, ih, Outcome.bind_ok]

theorem BlockSays.reads {shape : BlockShape} {text : List Char} (h : BlockSays ctx.source shape ts text)
    (clause : String) (rest : List Token) : ctx.block shape clause (ts ++ rest) = .ok text rest := by
  obtain ⟨hfirst, hlast, hinner, htext⟩ := h
  rw [Token.isSymbol, beq_iff_eq] at hlast
  rw [List.cons_append, Context.block, if_pos hfirst, Context.blockText, List.append_assoc, hinner.blockEnd,
    List.singleton_append, blockEnd_last shape rest hlast]
  simp only [htext, Option.getD_some]

theorem BlockSays.clear {source : List Char} {shape : BlockShape} {text : List Char}
    (h : BlockSays source shape ts text) (word : Token) (rest : List Token) :
    beginsArchetype word (ts ++ rest) = false := by
  obtain ⟨hfirst, -, -, -⟩ := h
  exact beginsArchetype_symbol hfirst word _

theorem PlainSays.takenFor {form : Form} {v : form.Datum} (h : PlainSays ctx.source form ts v) :
    TakenFor ctx form ts v := by
  cases h with
  | @text what value t h =>
    constructor
    · intro rest
      simp [Form.read, expectString, expectToken, h]
    · intro word rest _
      exact beginsArchetype_value (by simp [Token.isIdentifier, h]) rest
  | @word what value t h =>
    constructor
    · intro rest
      simp [Form.read, expectStringOrWord, expectToken, h]
    · exact fun word rest hrest => beginsArchetype_single word _ hrest
  | words hfirst hwords =>
    constructor
    · intro rest
      rw [Form.read, List.cons_append, wordList_eq, expectSymbol_symbol hfirst, Outcome.bind_ok, hwords.reads]
    · exact fun word rest _ => beginsArchetype_symbol hfirst word _
  | map h =>
    constructor
    · intro rest
      rw [Form.read, h.reads, Outcome.bind_ok]
    · exact fun word rest _ => h.clear word rest
  | sequence h =>
    constructor
    · intro rest
      rw [Form.read, h.reads, Outcome.bind_ok]
    · exact fun word rest _ => h.clear word rest

end

/-! ## Clauses -/

/-- The states are views of settings: the clause of each word adds what it reads as a setting of its field. -/
def Views {σ : Type} (ctx : Context) (allowed : Clauses σ) (fields : List (String × Field))
    (view : List Setting → σ) : Prop :=
  ∀ entry ∈ fields, ∃ clause, allowed.find? entry.1.toList = some clause ∧ ∀ settings ts,
    clause.read (view settings) ts =
      (entry.2.form.read ctx ts).bind fun v rest => .ok (view (settings ++ [⟨entry.2, v⟩])) rest

/-- A spell under construction after these settings. -/
def SpellDraft.ofSettings (name : String) (line : Nat) (settings : List Setting) : SpellDraft where
  spell := { Spell.ofSettings name line settings with implementation := "" }
  implementation? := Field.implementation.last? settings

section
variable {σ : Type} {ctx : Context} {allowed : Clauses σ} {f : Field} {view : List Setting → σ}

theorem mapClause_read (clause : String) (put : σ → Object → σ) (s : σ) (ts : List Token) :
    (ctx.mapClause clause put).read s ts =
      ((Form.block .map clause).read ctx ts).bind fun v rest => .ok (put s v) rest := by
  rw [Context.mapClause, Clause.of_read, Form.read]
  cases ctx.block .map clause ts <;> rfl

theorem sequenceClause_read (clause : String) (put : σ → List Json → σ) (s : σ) (ts : List Token) :
    (ctx.sequenceClause clause put).read s ts =
      ((Form.block .sequence clause).read ctx ts).bind fun v rest => .ok (put s v) rest := by
  rw [Context.sequenceClause, Clause.of_read, Form.read]
  cases ctx.block .sequence clause ts <;> rfl

/-- The clause at this place puts what it reads where a setting of the field puts it. -/
theorem exists_clause {word : String} {clause : Clause σ} {put : σ → f.form.Datum → σ}
    (hnodup : (allowed.map Prod.fst).Nodup) (i : Nat) (h : allowed[i]? = some (word, clause))
    (hread : ∀ s ts, clause.read s ts = (f.form.read ctx ts).bind fun v rest => .ok (put s v) rest)
    (hput : ∀ settings v, put (view settings) v = view (settings ++ [⟨f, v⟩])) :
    ∃ clause, allowed.find? word.toList = some clause ∧ ∀ settings ts, clause.read (view settings) ts =
      (f.form.read ctx ts).bind fun v rest => .ok (view (settings ++ [⟨f, v⟩])) rest := by
  refine ⟨clause, find?_of_getElem? hnodup i h, ?_⟩
  intro settings ts
  simp only [hread, hput]

theorem views_spellClauses (ctx : Context) (name : String) (line : Nat) :
    Views ctx ctx.spellClauses Composite.spell.fields (SpellDraft.ofSettings name line) := by
  have hnodup := nodup_spellClauses ctx
  simp only [Views, Composite.fields, List.forall_mem_cons]
  refine ⟨exists_clause hnodup 0 rfl (Clause.of_read _ _ _) ?_, exists_clause hnodup 1 rfl (Clause.of_read _ _ _) ?_,
    exists_clause hnodup 2 rfl (Clause.of_read _ _ _) ?_, exists_clause hnodup 3 rfl (mapClause_read _ _) ?_,
    exists_clause hnodup 4 rfl (Clause.of_read _ _ _) ?_, exists_clause hnodup 5 rfl (Clause.of_read _ _ _) ?_, by simp⟩
  all_goals
    intro settings v
    simp [SpellDraft.ofSettings, Spell.ofSettings]

theorem views_characterClauses (ctx : Context) (name : String) (line : Nat) :
    Views ctx ctx.characterClauses Composite.character.fields (Character.ofSettings name line) := by
  have hnodup := nodup_characterClauses ctx
  simp only [Views, Composite.fields, List.forall_mem_cons]
  refine ⟨exists_clause hnodup 0 rfl (Clause.of_read _ _ _) ?_, exists_clause hnodup 1 rfl (Clause.of_read _ _ _) ?_,
    exists_clause hnodup 2 rfl (Clause.of_read _ _ _) ?_, exists_clause hnodup 3 rfl (mapClause_read _ _) ?_,
    exists_clause hnodup 4 rfl (Clause.of_read _ _ _) ?_, exists_clause hnodup 5 rfl (sequenceClause_read _ _) ?_,
    exists_clause hnodup 6 rfl (Clause.of_read _ _ _) ?_, by simp⟩
  all_goals
    intro settings v
    simp [Character.ofSettings]

theorem views_worldClauses (ctx : Context) (name : String) (line : Nat) :
    Views ctx ctx.worldClauses Composite.world.fields (World.ofSettings name line) := by
  have hnodup := nodup_worldClauses ctx
  simp only [Views, Composite.fields, List.forall_mem_cons]
  refine ⟨exists_clause hnodup 0 rfl (mapClause_read _ _) ?_, exists_clause hnodup 1 rfl (mapClause_read _ _) ?_,
    exists_clause hnodup 2 rfl (sequenceClause_read _ _) ?_, exists_clause hnodup 3 rfl (sequenceClause_read _ _) ?_,
    by simp⟩
  all_goals
    intro settings v
    simp [World.ofSettings]

end

/-! ## Runs of clauses -/

section
variable {σ : Type} {ctx : Context} {allowed : Clauses σ} {fields : List (String × Field)} {view : List Setting → σ}
  {P Q : (form : Form) → List Token → form.Datum → Prop} {c : ClauseTokens} {cs : List ClauseTokens} {s : Setting}
  {settings : List Setting} {word name : Token} {called : String} {gap rest : List Token}

theorem ClauseTokens.Sets.imp (h : c.Sets P fields s) (hPQ : ∀ form ts v, P form ts v → Q form ts v) :
    c.Sets Q fields s :=
  ⟨h.sign, h.word, hPQ _ _ _ h.value, h.gap⟩

theorem NoColons.sets (hcs : List.Forall₂ (ClauseTokens.Sets P fields) cs settings) (hrest : NoColons rest) :
    NoColons (cs.flatMap ClauseTokens.all ++ rest) := by
  cases hcs with
  | nil => exact hrest
  | cons hc _ => exact .cons (Token.not_symbol_of_symbol hc.sign (by decide))

/-- A clause whose value is taken adds its setting. -/
theorem readClauses_setting (hviews : Views ctx allowed fields view) (hc : c.Sets (TakenFor ctx) fields s)
    (settings : List Setting) (hrest : NoColons rest) :
    readClauses allowed (view settings) (c.all ++ rest) = readClauses allowed (view (settings ++ [s])) rest := by
  obtain ⟨word, hentry, hword⟩ := hc.word
  obtain ⟨clause, hfind, hread⟩ := hviews _ hentry
  have hclear := hc.value.clear c.word (c.gap ++ rest) (hc.gap.noColons hrest)
  have hall : c.all ++ rest = c.sign :: c.word :: (c.value ++ (c.gap ++ rest)) := by simp [ClauseTokens.all]
  rw [hall, readClauses_word hc.sign hword hfind hclear, hread, hc.value.reads, Outcome.bind_ok, Outcome.bind_ok,
    readClauses_gap hc.gap.trivial]

/-- **A run of clauses adds its settings**, one after another. -/
theorem readClauses_settings (hviews : Views ctx allowed fields view)
    (hcs : List.Forall₂ (ClauseTokens.Sets (TakenFor ctx) fields) cs settings) (before : List Setting)
    (hrest : NoColons rest) :
    readClauses allowed (view before) (cs.flatMap ClauseTokens.all ++ rest) =
      readClauses allowed (view (before ++ settings)) rest := by
  induction hcs generalizing before with
  | nil => rw [List.flatMap_nil, List.nil_append, List.append_nil]
  | @cons c s cs settings hc htail ih =>
    rw [List.flatMap_cons, List.append_assoc, readClauses_setting hviews hc before (hrest.sets htail), ih,
      List.append_assoc, List.singleton_append]

theorem spell_settings (hname : name.kind = .identifier called.toList) (hgap : Gap gap)
    (hcs : List.Forall₂ (ClauseTokens.Sets (TakenFor ctx) Composite.spell.fields) cs settings)
    (hcomplete : Composite.spell.Complete settings) (hrest : NoColons rest)
    (hnext : nextClause ctx.spellClauses (skipTrivia false rest) = none) :
    ctx.spell (name :: (gap ++ (cs.flatMap ClauseTokens.all ++ rest))) =
      .ok (Spell.ofSettings called name.span.line settings) (skipTrivia false rest) := by
  obtain ⟨implementation, hlast⟩ := Field.exists_last? hcomplete
  have hread := readClauses_settings (views_spellClauses ctx called name.span.line) hcs [] hrest
  rw [spell_named hname hgap.trivial]
  change (readClauses ctx.spellClauses (SpellDraft.ofSettings called name.span.line []) _).bind _ = _
  rw [hread, List.nil_append, readClauses_eq, hnext]
  simp [finishSpell, SpellDraft.ofSettings, Spell.ofSettings, hlast, Field.value]

/-! ### Spells in a list -/

namespace SpellsSay

variable {source : List Char} {ts : List Token} {spells : List Spell}

/-- What may stand in a list of spells ends the clauses before it. -/
theorem ends (ctx : Context) (h : SpellsSay source ts spells) (rest : List Token) :
    NoColons (ts ++ rest) ∧ nextClause ctx.spellClauses (skipTrivia false (ts ++ rest)) = none := by
  induction h with
  | last hlast =>
    refine ⟨.cons (Token.not_symbol_of_symbol hlast (by decide)), ?_⟩
    rw [List.singleton_append, skipTrivia_symbol hlast (by simp)]
    exact nextClause_other (Token.not_symbol_of_symbol hlast (by decide)) rest
  | comma hcomma _ _ =>
    refine ⟨.cons (Token.not_symbol_of_symbol hcomma (by decide)), ?_⟩
    rw [List.cons_append, skipTrivia_symbol hcomma (by simp)]
    exact nextClause_other (Token.not_symbol_of_symbol hcomma (by decide)) _
  | gap hgap _ ih =>
    rw [List.append_assoc, hgap.trivial]
    exact ⟨hgap.noColons ih.1, ih.2⟩
  | spell hsign hword _ _ _ _ _ _ =>
    refine ⟨.cons (Token.not_symbol_of_symbol hsign (by decide)), ?_⟩
    rw [List.cons_append, skipTrivia_symbol hsign (by simp)]
    exact nextClause_spell hword _

theorem reads {ctx : Context} (h : SpellsSay ctx.source ts spells) (rest : List Token) :
    ctx.spellItems (ts ++ rest) = .ok spells rest := by
  induction h with
  | last hlast => exact spellItems_close ctx hlast rest
  | comma hcomma _ ih => rw [List.cons_append, spellItems_comma ctx hcomma, ih]
  | gap hgap _ ih => rw [List.append_assoc, ctx.spellItems_congr _ (hgap.trivial _), ih]
  | @spell sign word name called gap ts cs settings spells hsign hword hname hgap hcs hcomplete hitems ih =>
    obtain ⟨hcolons, hnext⟩ := hitems.ends ctx rest
    have htaken := hcs.imp fun c s hc => hc.imp fun form ts v h => PlainSays.takenFor h
    have hone := spell_settings hname hgap htaken hcomplete hcolons hnext
    have hall : sign :: word :: name :: (gap ++ (cs.flatMap ClauseTokens.all ++ ts)) ++ rest =
        sign :: word :: name :: (gap ++ (cs.flatMap ClauseTokens.all ++ (ts ++ rest))) := by simp
    rw [hall, spellItems_spell hsign hword hone, ih, Outcome.bind_ok]

end SpellsSay

theorem Says.takenFor {form : Form} {ts : List Token} {v : form.Datum} (h : Says ctx.source form ts v) :
    TakenFor ctx form ts v := by
  cases h with
  | plain h => exact h.takenFor
  | spells hfirst hitems =>
    constructor
    · intro rest
      rw [Form.read, List.cons_append, spellList_eq, expectSymbol_symbol hfirst, Outcome.bind_ok, hitems.reads]
    · exact fun word rest _ => beginsArchetype_symbol hfirst word _

/-! ## Declarations -/

theorem declaration_settings {composite : Composite} {tail : List Token} (hword : word.Is composite.word)
    (hname : name.kind = .identifier called.toList) (hgap : Gap gap)
    (hcs : List.Forall₂ (ClauseTokens.Sets (TakenFor ctx) composite.fields) cs settings)
    (hcomplete : composite.Complete settings) (htail : OpenComment tail) :
    ctx.declaration (word :: name :: (gap ++ (cs.flatMap ClauseTokens.all ++ tail))) =
      .ok (some (composite.declare called name.span.line settings)) [] := by
  have hnext {τ : Type} (allowed : Clauses τ) : nextClause allowed (skipTrivia false tail) = none := by
    rw [htail.skipTrivia]
    rfl
  have hkind := hword.kind
  cases composite with
  | spell =>
    have hkeyword : word.kind = .keyword .spell := hkind
    simp only [declaration_cons, hkeyword]
    rw [spell_settings hname hgap hcs hcomplete htail.noColons (hnext _), htail.skipTrivia]
    rfl
  | character =>
    have hkeyword : word.kind = .keyword .character := hkind
    have hread := readClauses_settings (views_characterClauses ctx called name.span.line) hcs [] htail.noColons
    simp only [declaration_cons, hkeyword]
    rw [character_named hname hgap.trivial]
    change Outcome.declare (readClauses ctx.characterClauses (Character.ofSettings called name.span.line []) _) _ = _
    rw [hread, readClauses_eq, hnext, htail.skipTrivia]
    rfl
  | world =>
    have hkeyword : word.kind = .keyword .world := hkind
    have hread := readClauses_settings (views_worldClauses ctx called name.span.line) hcs [] htail.noColons
    simp only [declaration_cons, hkeyword]
    rw [world_named hname hgap.trivial]
    change Outcome.declare (readClauses ctx.worldClauses (World.ofSettings called name.span.line []) _) _ = _
    rw [hread, readClauses_eq, hnext, htail.skipTrivia]
    rfl

end

/-- The tokens of a declaration whose clauses are well formed, and what the clauses set. Newlines and comments may
stand before the head, behind it and behind every clause. -/
structure ClausedDeclaration (source : List Char) where
  composite : Composite
  before : List Token
  sign : Token
  word : Token
  name : Token
  called : String
  gap : List Token
  clauses : List ClauseTokens
  settings : List Setting
  tail : List Token
  before_gap : Gap before
  sign_at : sign.isSymbol .at = true
  word_is : word.Is composite.word
  name_called : name.kind = .identifier called.toList
  name_gap : Gap gap
  clauses_set : List.Forall₂ (ClauseTokens.Sets (Says source) composite.fields) clauses settings
  complete : composite.Complete settings
  tail_open : OpenComment tail

namespace ClausedDeclaration

def tokens {source : List Char} (d : ClausedDeclaration source) : List Token :=
  d.before ++ d.sign :: d.word :: d.name :: (d.gap ++ (d.clauses.flatMap ClauseTokens.all ++ d.tail))

/-- What the last settings of the fields make. -/
def declaration {source : List Char} (d : ClausedDeclaration source) : Declaration :=
  d.composite.declare d.called d.name.span.line d.settings

theorem parse_eq {mode : LexMode} {source : String} (d : ClausedDeclaration source.toList)
    (h : Source.tokens mode source.toList = .ok (d.tokens ++ [endOf source.toList])) :
    parseSource mode source = .ok ⟨[d.declaration], []⟩ := by
  obtain ⟨ts, hts, hlexes⟩ := tokens_eq_ok.1 h
  obtain rfl : d.tokens = ts := List.append_cancel_right hts
  let ctx : Context := ⟨source.toList, endOf source.toList⟩
  have htaken : List.Forall₂ (ClauseTokens.Sets (TakenFor ctx) d.composite.fields) d.clauses d.settings :=
    d.clauses_set.imp fun c s hc => hc.imp fun form ts v h => Says.takenFor h
  have hdeclaration := declaration_settings d.word_is d.name_called d.name_gap htaken d.complete d.tail_open
  rw [parseSource, h]
  refine congrArg Except.ok ?_
  rw [Source.parse_eq hlexes]
  change Program.ofTokens ctx false d.tokens = _
  rw [tokens, ofTokens_gap d.before_gap.trivial, ofTokens_sign d.sign_at, hdeclaration, Program.after,
    Program.ofTokens_nil]
  rfl

end ClausedDeclaration

/-- **The last settings make the declaration.** A declaration with well-formed clauses is read without faults, and
each field is what its last clause says, or empty. Another declaration of the same name whose settings are
these with some of different fields in other places, or without some that are overwritten, is the same up to lines,
where the spells of a character may stand on other lines in the two; it is the very same if these spells and the
name do not move. -/
theorem parse_settings {mode : LexMode} {source : String} (d : ClausedDeclaration source.toList)
    (h : tokens mode source.toList = .ok (d.tokens ++ [endOf source.toList])) :
    parseSource mode source = .ok ⟨[d.declaration], []⟩ ∧
      ∀ {mode' : LexMode} {source' : String} (d' : ClausedDeclaration source'.toList),
        tokens mode' source'.toList = .ok (d'.tokens ++ [endOf source'.toList]) →
        d'.composite = d.composite → d'.called = d.called →
        (Rearranged (d.settings.map Setting.withoutLines) (d'.settings.map Setting.withoutLines) →
          ∃ other, parseSource mode' source' = .ok ⟨[other], []⟩ ∧ other.withoutLines = d.declaration.withoutLines) ∧
        (d'.name.span.line = d.name.span.line → Rearranged d.settings d'.settings →
          parseSource mode' source' = parseSource mode source) := by
  refine ⟨d.parse_eq h, ?_⟩
  intro mode' source' d' h' hcomposite hcalled
  constructor
  · intro hrearranged
    refine ⟨d'.declaration, d'.parse_eq h', ?_⟩
    rw [ClausedDeclaration.declaration, ClausedDeclaration.declaration, Composite.declare_withoutLines,
      Composite.declare_withoutLines, hcomposite, hcalled, hrearranged.declare_eq]
  · intro hline hrearranged
    rw [d.parse_eq h, d'.parse_eq h', ClausedDeclaration.declaration, ClausedDeclaration.declaration, hcomposite,
      hcalled, hline, hrearranged.declare_eq]

/-! ### Spells that stay and spells that move -/

def quotedAt (byte line column : Nat) (text : String) : Token :=
  Token.at ⟨byte, line, column⟩ (.string text.toList) ('"' :: text.toList ++ ['"'])

/-- The declaration whose head is the first line: its word and its name, with no other blanks. -/
def ClausedDeclaration.firstLine (source : List Char) (composite : Composite) (called : String)
    (clauses : List ClauseTokens) (settings : List Setting)
    (hcalled : wordKind called.toList = .identifier called.toList)
    (hclauses : List.Forall₂ (ClauseTokens.Sets (Says source) composite.fields) clauses settings)
    (hcomplete : composite.Complete settings) : ClausedDeclaration source where
  composite := composite
  before := []
  sign := Token.at .start (.symbol .at) ['@']
  word := wordAt 1 1 2 composite.word
  name := wordAt (2 + composite.word.length) 1 (3 + composite.word.length) called
  called := called
  gap := [newlineAt (2 + composite.word.length + called.length) 1 (3 + composite.word.length + called.length)]
  clauses := clauses
  settings := settings
  tail := []
  before_gap := .nil
  sign_at := rfl
  word_is := ⟨rfl, rfl⟩
  name_called := hcalled
  name_gap := .newline rfl .nil
  clauses_set := hclauses
  complete := hcomplete
  tail_open := .none

/-- Archetypes that are set twice, once by either word, with a comment before the second time. -/
def ember : String :=
  "@spell Ember\n@archetype [Flame]\n@implementation \"burn\" # again\n@archetypes [Flame, Ash]\n"

def emberClauses : ClausedDeclaration ember.toList :=
  .firstLine _ .spell "Ember"
    [⟨signAt 13 2 1 .at '@', wordAt 14 2 2 "archetype",
      [signAt 24 2 12 .openBracket '[', wordAt 25 2 13 "Flame", signAt 30 2 18 .closeBracket ']'],
      [newlineAt 31 2 19]⟩,
     ⟨signAt 32 3 1 .at '@', wordAt 33 3 2 "implementation", [quotedAt 48 3 17 "burn"],
      [signAt 55 3 24 .hash '#', wordAt 57 3 26 "again", newlineAt 62 3 31]⟩,
     ⟨signAt 63 4 1 .at '@', wordAt 64 4 2 "archetypes",
      [signAt 75 4 13 .openBracket '[', wordAt 76 4 14 "Flame", signAt 81 4 19 .comma ',', wordAt 83 4 21 "Ash",
       signAt 86 4 24 .closeBracket ']'], [newlineAt 87 4 25]⟩]
    [⟨.archetypes, ["Flame"]⟩, ⟨.implementation, "burn"⟩, ⟨.archetypes, ["Flame", "Ash"]⟩] rfl
    (by
      have hcomment : Gap (signAt 55 3 24 .hash '#' :: ([wordAt 57 3 26 "again"] ++ [newlineAt 62 3 31])) :=
        .comment rfl (by decide) rfl .nil
      refine .cons ?_ (.cons ?_ (.cons ?_ .nil))
      · exact ⟨rfl, ⟨"archetype", by decide, rfl, rfl⟩, .plain (.words rfl (.one .nil rfl .nil rfl)),
          .newline rfl .nil⟩
      · exact ⟨rfl, ⟨"implementation", by decide, rfl, rfl⟩, .plain (.text rfl), hcomment⟩
      · exact ⟨rfl, ⟨"archetypes", by decide, rfl, rfl⟩,
          .plain (.words rfl (.more .nil rfl .nil rfl (.one .nil rfl .nil rfl))), .newline rfl .nil⟩)
    ⟨⟨.implementation, "burn"⟩, by simp, rfl⟩

/-- The same spell, its archetypes set once and first. -/
def shortEmber : String := "@spell Ember\n@archetypes [Flame, Ash]\n@implementation \"burn\"\n"

def shortEmberClauses : ClausedDeclaration shortEmber.toList :=
  .firstLine _ .spell "Ember"
    [⟨signAt 13 2 1 .at '@', wordAt 14 2 2 "archetypes",
      [signAt 25 2 13 .openBracket '[', wordAt 26 2 14 "Flame", signAt 31 2 19 .comma ',', wordAt 33 2 21 "Ash",
       signAt 36 2 24 .closeBracket ']'], [newlineAt 37 2 25]⟩,
     ⟨signAt 38 3 1 .at '@', wordAt 39 3 2 "implementation", [quotedAt 54 3 17 "burn"], [newlineAt 60 3 23]⟩]
    [⟨.archetypes, ["Flame", "Ash"]⟩, ⟨.implementation, "burn"⟩] rfl
    (by
      refine .cons ?_ (.cons ?_ .nil)
      · exact ⟨rfl, ⟨"archetypes", by decide, rfl, rfl⟩,
          .plain (.words rfl (.more .nil rfl .nil rfl (.one .nil rfl .nil rfl))), .newline rfl .nil⟩
      · exact ⟨rfl, ⟨"implementation", by decide, rfl, rfl⟩, .plain (.text rfl), .newline rfl .nil⟩)
    ⟨⟨.implementation, "burn"⟩, by simp, rfl⟩

/-- The first archetypes go, since they are set again, and the others change places with the implementation. -/
theorem ember_rearranged : Rearranged emberClauses.settings shortEmberClauses.settings := by
  let flame : Setting := ⟨.archetypes, ["Flame"]⟩
  let ash : Setting := ⟨.archetypes, ["Flame", "Ash"]⟩
  let burn : Setting := ⟨.implementation, "burn"⟩
  have hdrop : Rearranged [flame, burn, ash] [burn, ash] := .drop [] [burn] [] rfl
  have hswap : Rearranged [burn, ash] [ash, burn] := .swap [] [] (by decide)
  exact hdrop.trans hswap

theorem ember_read_alike :
    tokens .strict ember.toList = .ok (emberClauses.tokens ++ [endOf ember.toList]) ∧
      parseSource .strict ember = .ok ⟨[emberClauses.declaration], []⟩ ∧
      parseSource .lenient shortEmber = parseSource .strict ember := by
  have h : tokens .strict ember.toList = .ok (emberClauses.tokens ++ [endOf ember.toList]) := by decide +kernel
  have h' : tokens .lenient shortEmber.toList = .ok (shortEmberClauses.tokens ++ [endOf shortEmber.toList]) := by
    decide +kernel
  obtain ⟨hparse, hother⟩ := parse_settings emberClauses h
  refine ⟨h, hparse, (hother shortEmberClauses h' ?_ ?_).2 ?_ ember_rearranged⟩
  all_goals simp only [shortEmberClauses, emberClauses, ClausedDeclaration.firstLine]

/-- A character with a spell on its second line, and one more clause. -/
def wren : String := "@character Wren\n@arc_spells [@spell Gale @implementation \"blow\"]\n@backstory \"old\"\n"

/-- The clauses in the other order: the spell is on the third line. -/
def wrenSwapped : String :=
  "@character Wren\n@backstory \"old\"\n@arc_spells [@spell Gale @implementation \"blow\"]\n"

/-- The clause of the spell on a line of its own. -/
def galeClause (byte line : Nat) : ClauseTokens where
  sign := signAt byte line 1 .at '@'
  word := wordAt (byte + 1) line 2 "arc_spells"
  value :=
    [signAt (byte + 12) line 13 .openBracket '[', signAt (byte + 13) line 14 .at '@',
     wordAt (byte + 14) line 15 "spell", wordAt (byte + 20) line 21 "Gale", signAt (byte + 25) line 26 .at '@',
     wordAt (byte + 26) line 27 "implementation", quotedAt (byte + 41) line 42 "blow",
     signAt (byte + 47) line 48 .closeBracket ']']
  gap := [newlineAt (byte + 48) line 49]

def backstoryClause (byte line : Nat) : ClauseTokens where
  sign := signAt byte line 1 .at '@'
  word := wordAt (byte + 1) line 2 "backstory"
  value := [quotedAt (byte + 11) line 12 "old"]
  gap := [newlineAt (byte + 16) line 17]

def gale (line : Nat) : Setting := ⟨.spells, [Spell.ofSettings "Gale" line [⟨.implementation, "blow"⟩]]⟩

theorem galeClause_sets (source : List Char) (byte line : Nat) :
    (galeClause byte line).Sets (Says source) Composite.character.fields (gale line) := by
  let blow : ClauseTokens := ⟨signAt (byte + 25) line 26 .at '@', wordAt (byte + 26) line 27 "implementation",
    [quotedAt (byte + 41) line 42 "blow"], []⟩
  have hblow : blow.Sets (PlainSays source) Composite.spell.fields ⟨.implementation, "blow"⟩ :=
    ⟨rfl, ⟨"implementation", by decide, rfl, rfl⟩, .text rfl, .nil⟩
  have hspells : SpellsSay source
      (signAt (byte + 13) line 14 .at '@' :: wordAt (byte + 14) line 15 "spell" :: wordAt (byte + 20) line 21 "Gale" ::
        ([] ++ ([blow].flatMap ClauseTokens.all ++ [signAt (byte + 47) line 48 .closeBracket ']'])))
      [Spell.ofSettings "Gale" line [⟨.implementation, "blow"⟩]] :=
    .spell rfl ⟨rfl, rfl⟩ rfl .nil (.cons hblow .nil) ⟨⟨.implementation, "blow"⟩, by simp, rfl⟩ (.last rfl)
  exact ⟨rfl, ⟨"arc_spells", by simp [Composite.fields, gale], rfl, rfl⟩, .spells rfl hspells, .newline rfl .nil⟩

theorem backstoryClause_sets (source : List Char) (byte line : Nat) :
    (backstoryClause byte line).Sets (Says source) Composite.character.fields ⟨.backstory, "old"⟩ :=
  ⟨rfl, ⟨"backstory", by decide, rfl, rfl⟩, .plain (.text rfl), .newline rfl .nil⟩

def wrenClauses : ClausedDeclaration wren.toList :=
  .firstLine _ .character "Wren" [galeClause 16 2, backstoryClause 65 3] [gale 2, ⟨.backstory, "old"⟩] rfl
    (.cons (galeClause_sets _ _ _) (.cons (backstoryClause_sets _ _ _) .nil)) trivial

def wrenSwappedClauses : ClausedDeclaration wrenSwapped.toList :=
  .firstLine _ .character "Wren" [backstoryClause 16 2, galeClause 33 3] [⟨.backstory, "old"⟩, gale 3] rfl
    (.cons (backstoryClause_sets _ _ _) (.cons (galeClause_sets _ _ _) .nil)) trivial

/-- The lines of the spells of characters. -/
def Program.spellLines (p : Program) : List (List Nat) :=
  p.declarations.map fun
    | .character c => c.spells.map Spell.line
    | _ => []

/-- **A clause before a list of spells moves them**: two clauses of different fields change places, and the
declaration is not the same. -/
theorem wren_spell_moves :
    tokens .lenient wren.toList = .ok (wrenClauses.tokens ++ [endOf wren.toList]) ∧
      tokens .lenient wrenSwapped.toList = .ok (wrenSwappedClauses.tokens ++ [endOf wrenSwapped.toList]) ∧
      Rearranged (wrenClauses.settings.map Setting.withoutLines)
        (wrenSwappedClauses.settings.map Setting.withoutLines) ∧
      (parseSource .lenient wren).toOption.map Program.spellLines = some [[2]] ∧
      (parseSource .lenient wrenSwapped).toOption.map Program.spellLines = some [[3]] ∧
      parseSource .lenient wrenSwapped ≠ parseSource .lenient wren := by
  have h : tokens .lenient wren.toList = .ok (wrenClauses.tokens ++ [endOf wren.toList]) := by decide +kernel
  have h' : tokens .lenient wrenSwapped.toList =
      .ok (wrenSwappedClauses.tokens ++ [endOf wrenSwapped.toList]) := by decide +kernel
  have hlines : (parseSource .lenient wren).toOption.map Program.spellLines = some [[2]] := by
    rw [wrenClauses.parse_eq h]
    rfl
  have hswapped : (parseSource .lenient wrenSwapped).toOption.map Program.spellLines = some [[3]] := by
    rw [wrenSwappedClauses.parse_eq h']
    rfl
  refine ⟨h, h', .swap [] [] (by decide), hlines, hswapped, ?_⟩
  intro hsame
  rw [hsame, hlines] at hswapped
  simp at hswapped

end Grimoire.Source
