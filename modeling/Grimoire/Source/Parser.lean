import Grimoire.Source.Lexer
import Grimoire.Source.Declaration
import Grimoire.Source.Literal

/-!
# From tokens to declarations

`parse` reads every declaration of a token list. A fault in one declaration is recorded with its
token, and reading goes on behind the next newline or at the next `@`. Every reader returns the
tokens it left, never more than it was given, so all loops end by the number of tokens left.

| here | there |
| --- | --- |
| `Fault`, `ParseError`                | `ParseError`, its message by the place that raises it |
| `skipTrivia`                         | `Parser::skip_trivia`, `Parser::skip_comment` |
| `expectSymbol`, `expectIdentifier`   | `Parser::expect`, `Parser::expect_identifier` |
| `expectString`, `expectStringOrWord` | `Parser::expect_string`, `Parser::expect_string_or_word` |
| `wordList`                           | `Parser::parse_word_list` |
| `blockEnd`, `blockText`              | `Parser::extract_block` |
| `mapClause`, `sequenceClause`        | `Parser::parse_map_block`, `Parser::parse_sequence_block` |
| `nextClause`, `beginsArchetype`      | `Parser::next_clause` |
| `spell`, `spellList`                 | `Parser::parse_spell_body`, `Parser::parse_arc_spells` |
| `character`, `world`, `archetype`    | `parse_character_body`, `parse_world_body`, `parse_archetype_body` |
| `skipValue`                          | `Parser::skip_clause_value` |
| `declaration`                        | `Parser::parse_declaration` |
| `resume`                             | `Parser::synchronize` |
| `ofTokens`, `parse`, `parseSource`   | `Parser::parse`, `parse_with_mode` |

The position of the parser is the list of tokens that are left, and what it reads of the source by spans
is `Context.source`.
-/
namespace Grimoire.Source

/-! ## Faults and outcomes -/

/-- What is wrong at a token. -/
inductive Fault
  | expected (what : String)
  | unterminatedBlock
  | unterminatedList
  | expectedListEnd
  | expectedSpell
  | missingImplementation (spell : String)
  | unsupported (word : String)
  | unknownDeclaration (word : String)
  | expectedKeyword
deriving DecidableEq, Repr

def Fault.message : Fault → String
  | expected what => "Expected " ++ what
  | unterminatedBlock => "Unterminated structured literal"
  | unterminatedList => "Unterminated list, expected ']'"
  | expectedListEnd => "Expected ',' or ']' in list"
  | expectedSpell => "Expected @spell or ']' inside @arc_spells"
  | missingImplementation spell => "Spell '" ++ spell ++ "' is missing @implementation"
  | unsupported word => "Unsupported declaration '@" ++ word ++ "'"
  | unknownDeclaration word => "Unknown declaration '@" ++ word ++ "'"
  | expectedKeyword => "Expected declaration keyword after '@'"

/-- A fault and the token it was found at. -/
structure ParseError where
  fault : Fault
  token : Token

/-- What a reader made of the tokens, and the tokens it left. -/
inductive Outcome (α : Type)
  | ok (value : α) (rest : List Token)
  | fail (error : ParseError) (rest : List Token)

def Outcome.rest {α : Type} : Outcome α → List Token
  | ok _ rest | fail _ rest => rest

/-- Does the reader leave at most the tokens it was given? -/
def Outcome.Within {α : Type} (o : Outcome α) (ts : List Token) : Prop := o.rest.length ≤ ts.length

/-- What every reader may look at beside the tokens: the text of the source and its end. -/
structure Context where
  source : List Char
  finish : Token

namespace Context

variable (ctx : Context)

/-- The token at the front, or the end of input. -/
def current (ts : List Token) : Token := ts.headD ctx.finish

/-- Fail at the current token. -/
def fault {α : Type} (f : Fault) (ts : List Token) : Outcome α := .fail ⟨f, ctx.current ts⟩ ts

/-! ## Trivia -/

/-- Step over newlines, and over comments up to their newline. -/
def skipTrivia (inComment : Bool) : List Token → List Token
  | [] => []
  | t :: ts =>
    if t.isNewline then skipTrivia false ts
    else if inComment || t.isSymbol .hash then skipTrivia true ts
    else t :: ts

theorem length_skipTrivia (b : Bool) (ts : List Token) : (skipTrivia b ts).length ≤ ts.length := by
  induction ts generalizing b with
  | nil => simp [skipTrivia]
  | cons t ts ih =>
    simp only [skipTrivia]
    split
    · exact Nat.le_succ_of_le (ih false)
    · split
      · exact Nat.le_succ_of_le (ih true)
      · exact Nat.le_refl _

/-! ## Single tokens -/

/-- Take the front token if a test gives it a value. -/
def expectToken {α : Type} (test : Token → Option α) (what : String) (ts : List Token) : Outcome α :=
  match ts with
  | t :: rest =>
    match test t with
    | some a => .ok a rest
    | none => ctx.fault (.expected what) ts
  | [] => ctx.fault (.expected what) ts

def expectSymbol (s : Symbol) : String → List Token → Outcome Unit :=
  ctx.expectToken fun t => if t.isSymbol s then some () else none

def expectIdentifier : String → List Token → Outcome String :=
  ctx.expectToken fun t =>
    match t.kind with
    | .identifier name => some (String.ofList name)
    | _ => none

def expectString : String → List Token → Outcome String :=
  ctx.expectToken fun t =>
    match t.kind with
    | .string value => some (String.ofList value)
    | _ => none

/-- A string, an identifier, or a reserved word as a bare word. -/
def expectStringOrWord : String → List Token → Outcome String :=
  ctx.expectToken fun t => t.stringOrWord?.map String.ofList

theorem within_fault {α : Type} (f : Fault) (ts : List Token) :
    (ctx.fault f ts : Outcome α).Within ts := Nat.le_refl _

theorem within_expectToken {α : Type} (test : Token → Option α) (what : String) (ts : List Token) :
    (ctx.expectToken test what ts).Within ts := by
  unfold expectToken
  split
  · split
    · exact Nat.le_succ _
    · exact within_fault ..
  · exact within_fault ..

theorem length_lt_of_expectToken {α : Type} {test : Token → Option α} {what : String}
    {ts rest : List Token} {a : α} (h : ctx.expectToken test what ts = .ok a rest) :
    rest.length < ts.length := by
  unfold expectToken at h
  split at h
  · split at h
    · simp at h; obtain ⟨_, rfl⟩ := h; simp
    · simp [fault] at h
  · simp [fault] at h

/-! ## Lists of words -/

/-- The items after an opening bracket, up to its closing bracket; a comma may follow the last. -/
def wordItems (ts : List Token) : Outcome (List String) :=
  match _hs : skipTrivia false ts with
  | [] => ctx.fault .unterminatedList []
  | t :: rest =>
    if t.isSymbol .closeBracket then .ok [] rest
    else
      match _hi : ctx.expectStringOrWord "list item" (t :: rest) with
      | .fail e ts => .fail e ts
      | .ok item after =>
        match _hc : skipTrivia false after with
        | u :: tail =>
          if u.isSymbol .comma then
            match wordItems tail with
            | .ok items rest => .ok (item :: items) rest
            | .fail e rest => .fail e rest
          else if u.isSymbol .closeBracket then .ok [item] tail
          else ctx.fault .expectedListEnd (u :: tail)
        | [] => ctx.fault .expectedListEnd []
termination_by ts.length
decreasing_by
  have h1 := length_skipTrivia false ts
  have h2 := ctx.length_lt_of_expectToken _hi
  have h3 := length_skipTrivia false after
  rw [_hs] at h1
  rw [_hc] at h3
  simp at h1 h2 h3
  omega

/-- `[a, b, "c"]`. -/
def wordList (ts : List Token) : Outcome (List String) :=
  match ctx.expectSymbol .openBracket "'[' to open list" ts with
  | .ok _ rest => ctx.wordItems rest
  | .fail e rest => .fail e rest

theorem within_wordItems (ts : List Token) : (ctx.wordItems ts).Within ts := by
  fun_induction wordItems ctx ts with
  | case1 ts hs => simp [Outcome.Within, fault, Outcome.rest]
  | case2 ts t rest hs _ =>
    have := length_skipTrivia false ts
    simp [Outcome.Within, Outcome.rest]; simp [hs] at this; omega
  | case3 ts t rest hs _ e ts' hi =>
    have h1 := length_skipTrivia false ts
    have h2 : (ctx.expectStringOrWord "list item" (t :: rest)).Within (t :: rest) :=
      ctx.within_expectToken ..
    rw [hs] at h1; rw [hi] at h2
    simp [Outcome.Within, Outcome.rest] at h1 h2 ⊢; omega
  | case4 ts t rest hs _ item after hi u tail hc _ items r hr ih =>
    have h1 := length_skipTrivia false ts
    have h2 := ctx.length_lt_of_expectToken hi
    have h3 := length_skipTrivia false after
    rw [hs] at h1; rw [hc] at h3
    simp [Outcome.Within, Outcome.rest, hr] at h1 h2 h3 ih ⊢; omega
  | case5 ts t rest hs _ item after hi u tail hc _ e r hr ih =>
    have h1 := length_skipTrivia false ts
    have h2 := ctx.length_lt_of_expectToken hi
    have h3 := length_skipTrivia false after
    rw [hs] at h1; rw [hc] at h3
    simp [Outcome.Within, Outcome.rest, hr] at h1 h2 h3 ih ⊢; omega
  | case6 ts t rest hs _ item after hi u tail hc _ _ =>
    have h1 := length_skipTrivia false ts
    have h2 := ctx.length_lt_of_expectToken hi
    have h3 := length_skipTrivia false after
    rw [hs] at h1; rw [hc] at h3
    simp [Outcome.Within, Outcome.rest] at h1 h2 h3 ⊢; omega
  | case7 ts t rest hs _ item after hi u tail hc _ _ =>
    have h1 := length_skipTrivia false ts
    have h2 := ctx.length_lt_of_expectToken hi
    have h3 := length_skipTrivia false after
    rw [hs] at h1; rw [hc] at h3
    simp [Outcome.Within, Outcome.rest, fault] at h1 h2 h3 ⊢; omega
  | case8 ts t rest hs _ item after hi hc => simp [Outcome.Within, fault, Outcome.rest]

theorem within_wordList (ts : List Token) : (ctx.wordList ts).Within ts := by
  have h : (ctx.expectSymbol .openBracket "'[' to open list" ts).Within ts := ctx.within_expectToken ..
  unfold wordList
  split
  · next rest heq => rw [heq] at h; exact Nat.le_trans (ctx.within_wordItems rest) h
  · next e rest heq => rw [heq] at h; exact h

/-! ## Blocks -/

/-- The token that closes a block and the tokens after it, given how many blocks of the same
delimiters are open inside it. -/
def blockEnd (opens closes : Symbol) : Nat → List Token → Option (Token × List Token)
  | _, [] => none
  | depth, t :: ts =>
    if t.isSymbol opens then blockEnd opens closes (depth + 1) ts
    else if t.isSymbol closes then
      match depth with
      | 0 => some (t, ts)
      | depth + 1 => blockEnd opens closes depth ts
    else blockEnd opens closes depth ts

theorem length_blockEnd {o c : Symbol} {n : Nat} {ts rest : List Token} {t : Token}
    (h : blockEnd o c n ts = some (t, rest)) : rest.length < ts.length := by
  induction ts generalizing n with
  | nil => simp [blockEnd] at h
  | cons u us ih =>
    simp only [blockEnd] at h
    split at h
    · exact Nat.lt_succ_of_lt (ih h)
    · split at h
      · split at h
        · simp at h; obtain ⟨_, rfl⟩ := h; simp
        · exact Nat.lt_succ_of_lt (ih h)
      · exact Nat.lt_succ_of_lt (ih h)

def openSymbol : BlockShape → Symbol
  | .map => .openBrace
  | .sequence => .openBracket

def closeSymbol : BlockShape → Symbol
  | .map => .closeBrace
  | .sequence => .closeBracket

/-- The text between the delimiters of a block, whose opening token is `t`. -/
def blockText (shape : BlockShape) (t : Token) (ts : List Token) : Outcome (List Char) :=
  match blockEnd (openSymbol shape) (closeSymbol shape) 0 ts with
  | some (last, rest) => .ok ((slice? ctx.source t.span.stop last.span.start).getD []) rest
  | none => .fail ⟨.unterminatedBlock, t⟩ []

/-- A block of the given shape, after the clause word it belongs to. -/
def block (shape : BlockShape) (clause : String) (ts : List Token) : Outcome (List Char) :=
  match ts with
  | t :: rest =>
    if t.isSymbol (openSymbol shape) then ctx.blockText shape t rest
    else ctx.fault (.expected ("'" ++ String.ofList [shape.opening] ++ "' after " ++ clause)) ts
  | [] => ctx.fault (.expected ("'" ++ String.ofList [shape.opening] ++ "' after " ++ clause)) ts

theorem within_blockText (shape : BlockShape) (t : Token) (ts : List Token) :
    (ctx.blockText shape t ts).Within ts := by
  unfold blockText
  split
  · next last rest h => exact Nat.le_of_lt (length_blockEnd h)
  · exact Nat.zero_le _

theorem within_block (shape : BlockShape) (clause : String) (ts : List Token) :
    (ctx.block shape clause ts).Within ts := by
  unfold block
  split
  · split
    · exact Nat.le_succ_of_le (ctx.within_blockText ..)
    · exact within_fault ..
  · exact within_fault ..

/-! ## Clauses -/

/-- A reader of one clause's value that puts the value into a declaration under construction. -/
structure Clause (σ : Type) where
  read : σ → List Token → Outcome σ
  within : ∀ s ts, (read s ts).Within ts

/-- A clause whose value is read by `read` and put in its place by `put`. -/
def Clause.of {σ α : Type} (read : List Token → Outcome α) (within : ∀ ts, (read ts).Within ts)
    (put : σ → α → σ) : Clause σ where
  read s ts :=
    match read ts with
    | .ok a rest => .ok (put s a) rest
    | .fail e rest => .fail e rest
  within s ts := by
    have := within ts
    split <;> simp_all [Outcome.Within, Outcome.rest]

section ClauseKinds
variable {σ : Type}

def stringClause (what : String) (put : σ → String → σ) : Clause σ :=
  .of (ctx.expectString what) (ctx.within_expectToken _ what) put

def wordClause (what : String) (put : σ → String → σ) : Clause σ :=
  .of (ctx.expectStringOrWord what) (ctx.within_expectToken _ what) put

def wordListClause (put : σ → List String → σ) : Clause σ := .of ctx.wordList ctx.within_wordList put

def mapClause (clause : String) (put : σ → Object → σ) : Clause σ :=
  .of (ctx.block .map clause) (ctx.within_block .map clause) fun s inner => put s (decodeMap inner)

def sequenceClause (clause : String) (put : σ → List Json → σ) : Clause σ :=
  .of (ctx.block .sequence clause) (ctx.within_block .sequence clause)
    fun s inner => put s (decodeSequence inner)

end ClauseKinds

/-- `@archetype Name ::` begins a declaration, even where `@archetype` could be a clause. -/
def beginsArchetype (word : Token) (after : List Token) : Bool :=
  word.kind == .keyword .archetype &&
    match after with
    | name :: colons :: _ => name.isIdentifier && colons.isSymbol .doubleColon
    | _ => false

/-- The clauses of a declaration by their words. -/
abbrev Clauses (σ : Type) := List (String × Clause σ)

def Clauses.find? {σ : Type} (cs : Clauses σ) (word : List Char) : Option (Clause σ) :=
  (List.find? (fun c => c.1.toList == word) cs).map (·.2)

/-- The clause that `@` and an allowed word introduce at the front, and the tokens after the word. -/
def nextClause {σ : Type} (allowed : Clauses σ) : List Token → Option (Clause σ × List Token)
  | t :: word :: rest =>
    if t.isSymbol .at && !beginsArchetype word rest then
      (word.word?.bind allowed.find?).map fun clause => (clause, rest)
    else none
  | _ => none

theorem length_nextClause {σ : Type} {allowed : Clauses σ} {ts rest : List Token} {clause : Clause σ}
    (h : nextClause allowed ts = some (clause, rest)) : rest.length < ts.length := by
  unfold nextClause at h
  split at h
  · split at h
    · obtain ⟨_, _, he⟩ := Option.map_eq_some_iff.1 h
      simp at he; obtain ⟨_, rfl⟩ := he; simp only [List.length_cons]; omega
    · simp at h
  · simp at h

/-- Read clauses as long as allowed ones follow; each one overwrites what it writes. -/
def readClauses {σ : Type} (allowed : Clauses σ) (s : σ) (ts : List Token) : Outcome σ :=
  match _h : nextClause allowed (skipTrivia false ts) with
  | none => .ok s (skipTrivia false ts)
  | some (clause, rest) =>
    match _hr : clause.read s rest with
    | .ok next after => readClauses allowed next after
    | .fail e after => .fail e after
termination_by ts.length
decreasing_by
  have h1 := length_skipTrivia false ts
  have h2 := length_nextClause _h
  have h3 := clause.within s rest
  rw [_hr] at h3
  simp [Outcome.Within, Outcome.rest] at h3
  omega

theorem within_readClauses {σ : Type} (allowed : Clauses σ) (s : σ) (ts : List Token) :
    (readClauses allowed s ts).Within ts := by
  fun_induction readClauses allowed s ts with
  | case1 s ts h => exact length_skipTrivia false ts
  | case2 s ts clause rest h s' after hr ih =>
    have h1 := length_skipTrivia false ts
    have h2 := length_nextClause h
    have h3 := clause.within s rest
    simp [Outcome.Within, Outcome.rest, hr] at h3 ih ⊢; omega
  | case3 s ts clause rest h e after hr =>
    have h1 := length_skipTrivia false ts
    have h2 := length_nextClause h
    have h3 := clause.within s rest
    simp [Outcome.Within, Outcome.rest, hr] at h3 ⊢; omega

/-! ## Declarations -/

/-- The name after a declaration's keyword, and what the body makes of it and its token. -/
def declared {α : Type} (what : String) (body : String → Token → List Token → Outcome α)
    (ts : List Token) : Outcome α :=
  match ctx.expectIdentifier what ts with
  | .ok name rest => body name (ctx.current ts) rest
  | .fail e rest => .fail e rest

theorem within_declared {α : Type} (what : String) (body : String → Token → List Token → Outcome α)
    (h : ∀ name t ts, (body name t ts).Within ts) (ts : List Token) :
    (ctx.declared what body ts).Within ts := by
  have hi : (ctx.expectIdentifier what ts).Within ts := ctx.within_expectToken ..
  unfold declared
  split <;> next heq => rw [heq] at hi; first | exact Nat.le_trans (h ..) hi | exact hi

/-- A spell under construction; its implementation must be given. -/
structure SpellDraft where
  spell : Spell
  implementation? : Option String := none

def spellClauses : Clauses SpellDraft :=
  let archetypes : Clause SpellDraft :=
    ctx.wordListClause fun d v => { d with spell := { d.spell with archetypes := v } }
  [("description", ctx.stringClause "description string" fun d v =>
      { d with spell := { d.spell with description := v } }),
   ("archetype", archetypes),
   ("archetypes", archetypes),
   ("parameters", ctx.mapClause "@parameters" fun d v =>
      { d with spell := { d.spell with parameters := v } }),
   ("example", ctx.stringClause "example string" fun d v =>
      { d with spell := { d.spell with usage := v } }),
   ("implementation", ctx.stringClause "implementation string" fun d v =>
      { d with implementation? := some v })]

/-- A spell after `@spell`. -/
def spell : List Token → Outcome Spell :=
  ctx.declared "spell name after @spell" fun name t ts =>
    match readClauses ctx.spellClauses { spell := { name, line := t.span.line } } ts with
    | .fail e rest => .fail e rest
    | .ok draft rest =>
      match draft.implementation? with
      | some implementation => .ok { draft.spell with implementation } rest
      | none => .fail ⟨.missingImplementation name, t⟩ rest

theorem within_spell (ts : List Token) : (ctx.spell ts).Within ts := by
  apply within_declared
  intro name t ts
  have := within_readClauses ctx.spellClauses { spell := { name, line := t.span.line } } ts
  split
  · simp_all [Outcome.Within, Outcome.rest]
  · split <;> simp_all [Outcome.Within, Outcome.rest]

/-- The spells after an opening bracket, commas allowed between them, up to the closing bracket. -/
def spellItems (ts : List Token) : Outcome (List Spell) :=
  match _hs : skipTrivia false ts with
  | [] => ctx.fault .expectedSpell []
  | t :: rest =>
    if t.isSymbol .comma then spellItems rest
    else if t.isSymbol .closeBracket then .ok [] rest
    else if t.isSymbol .at && rest.head?.any (·.kind == .keyword .spell) then
      match _hp : ctx.spell rest.tail with
      | .fail e after => .fail e after
      | .ok s after =>
        match spellItems after with
        | .ok more after => .ok (s :: more) after
        | .fail e after => .fail e after
    else ctx.fault .expectedSpell (t :: rest)
termination_by ts.length
decreasing_by
  · have h1 := length_skipTrivia false ts
    rw [_hs] at h1; simp at h1; omega
  · have h1 := length_skipTrivia false ts
    have h2 := ctx.within_spell rest.tail
    rw [_hs] at h1; rw [_hp] at h2
    simp [Outcome.Within, Outcome.rest] at h1 h2; omega

theorem within_spellItems (ts : List Token) : (ctx.spellItems ts).Within ts := by
  fun_induction spellItems ctx ts with
  | case1 ts hs => simp [Outcome.Within, fault, Outcome.rest]
  | case2 ts t rest hs _ ih =>
    have h1 := length_skipTrivia false ts
    rw [hs] at h1
    simp [Outcome.Within] at h1 ih ⊢; omega
  | case3 ts t rest hs _ _ =>
    have h1 := length_skipTrivia false ts
    rw [hs] at h1
    simp [Outcome.Within, Outcome.rest] at h1 ⊢; omega
  | case4 ts t rest hs _ _ _ e after hp =>
    have h1 := length_skipTrivia false ts
    have h2 := ctx.within_spell rest.tail
    rw [hs] at h1
    simp [Outcome.Within, Outcome.rest, hp] at h1 h2 ⊢; omega
  | case5 ts t rest hs _ _ _ s after hp more r hr ih =>
    have h1 := length_skipTrivia false ts
    have h2 := ctx.within_spell rest.tail
    rw [hs] at h1
    simp [Outcome.Within, Outcome.rest, hp, hr] at h1 h2 ih ⊢; omega
  | case6 ts t rest hs _ _ _ s after hp e r hr ih =>
    have h1 := length_skipTrivia false ts
    have h2 := ctx.within_spell rest.tail
    rw [hs] at h1
    simp [Outcome.Within, Outcome.rest, hp, hr] at h1 h2 ih ⊢; omega
  | case7 ts t rest hs _ _ _ =>
    have h1 := length_skipTrivia false ts
    rw [hs] at h1
    simpa [Outcome.Within, Outcome.rest, fault] using h1

/-- `[ @spell A ... @spell B ... ]`. -/
def spellList (ts : List Token) : Outcome (List Spell) :=
  match ctx.expectSymbol .openBracket "'[' after @arc_spells" ts with
  | .ok _ rest => ctx.spellItems rest
  | .fail e rest => .fail e rest

theorem within_spellList (ts : List Token) : (ctx.spellList ts).Within ts := by
  have h : (ctx.expectSymbol .openBracket "'[' after @arc_spells" ts).Within ts := ctx.within_expectToken ..
  unfold spellList
  split
  · next rest heq => rw [heq] at h; exact Nat.le_trans (ctx.within_spellItems rest) h
  · next e rest heq => rw [heq] at h; exact h

def characterClauses : Clauses Character :=
  let elements : Clause Character := ctx.wordListClause fun c v => { c with elements := v }
  [("archetype", ctx.wordClause "archetype name" fun c v => { c with archetype := v }),
   ("elements", elements),
   ("elemental_alignment", elements),
   ("data", ctx.mapClause "@data" fun c v => { c with data := v }),
   ("backstory", ctx.stringClause "backstory string" fun c v => { c with backstory := v }),
   ("relationships", ctx.sequenceClause "@relationships" fun c v => { c with relationships := v }),
   ("arc_spells", .of ctx.spellList ctx.within_spellList fun c v => { c with spells := v })]

/-- A character after `@character`. -/
def character : List Token → Outcome Character :=
  ctx.declared "character name after @character" fun name t ts =>
    readClauses ctx.characterClauses { name, line := t.span.line } ts

def worldClauses : Clauses World :=
  [("cosmology", ctx.mapClause "@cosmology" fun w v => { w with cosmology := v }),
   ("geography", ctx.mapClause "@geography" fun w v => { w with geography := v }),
   ("cultures", ctx.sequenceClause "@cultures" fun w v => { w with cultures := v }),
   ("history", ctx.sequenceClause "@history" fun w v => { w with history := v })]

/-- A world after `@world`. -/
def world : List Token → Outcome World :=
  ctx.declared "world name after @world" fun name t ts =>
    readClauses ctx.worldClauses { name, line := t.span.line } ts

/-- `Name :: "description"` after `@archetype`. -/
def archetype : List Token → Outcome Archetype :=
  ctx.declared "archetype name after @archetype" fun name t ts =>
    match ctx.expectSymbol .doubleColon "'::' after archetype name" ts with
    | .fail e rest => .fail e rest
    | .ok _ rest =>
      match ctx.expectString "archetype description after '::'" rest with
      | .ok description rest => .ok { name, description, line := t.span.line } rest
      | .fail e rest => .fail e rest

theorem within_archetype (ts : List Token) : (ctx.archetype ts).Within ts := by
  apply within_declared
  intro name t ts
  have h1 : (ctx.expectSymbol .doubleColon "'::' after archetype name" ts).Within ts :=
    ctx.within_expectToken ..
  split
  · next e rest heq => rw [heq] at h1; exact h1
  · next rest heq =>
    rw [heq] at h1
    have h2 : (ctx.expectString "archetype description after '::'" rest).Within rest :=
      ctx.within_expectToken ..
    split <;> next hd => rw [hd] at h2; exact Nat.le_trans h2 h1

/-! ## Top level -/

/-- The words of all clauses; at top level they are left over from a broken declaration. -/
def clauseWords : List String :=
  ["description", "archetype", "archetypes", "parameters", "example", "implementation",
   "elements", "elemental_alignment", "data", "backstory", "relationships", "arc_spells",
   "cosmology", "geography", "cultures", "history"]

def isClauseWord (word : List Char) : Bool := clauseWords.any (·.toList == word)

/-- Step over the value of a clause that belongs to no declaration. -/
def skipValue (ts : List Token) : Outcome (Option Declaration) :=
  let dropText : Outcome (List Char) → Outcome (Option Declaration)
    | .ok _ rest => .ok none rest
    | .fail e rest => .fail e rest
  match ts with
  | [] => .ok none []
  | t :: rest =>
    if t.isSymbol .openBrace then dropText (ctx.blockText .map t rest)
    else if t.isSymbol .openBracket then dropText (ctx.blockText .sequence t rest)
    else if t.isSymbol .at || t.isNewline then .ok none ts
    else .ok none rest

def Outcome.declare {α : Type} (o : Outcome α) (make : α → Declaration) : Outcome (Option Declaration) :=
  match o with
  | .ok a rest => .ok (some (make a)) rest
  | .fail e rest => .fail e rest

/-- What follows `@` at top level: a declaration, or a clause left over, which declares nothing. -/
def declaration (ts : List Token) : Outcome (Option Declaration) :=
  match ts with
  | [] => ctx.fault .expectedKeyword []
  | t :: rest =>
    let byWord : Outcome (Option Declaration) :=
      match t.word? with
      | some word =>
        if isClauseWord word then ctx.skipValue rest
        else ctx.fault (.unknownDeclaration (String.ofList word)) ts
      | none => ctx.fault .expectedKeyword ts
    match t.kind with
    | .keyword .spell => Outcome.declare (ctx.spell rest) .spell
    | .keyword .character => Outcome.declare (ctx.character rest) .character
    | .keyword .world => Outcome.declare (ctx.world rest) .world
    | .keyword .archetype =>
      if rest.head?.any Token.isIdentifier then Outcome.declare (ctx.archetype rest) .archetype
      else byWord
    | .keyword .primordial | .keyword .modifier | .keyword .direction | .keyword .pattern =>
      ctx.fault (.unsupported (String.ofList t.lexeme)) ts
    | _ => byWord

theorem within_declare {α : Type} {o : Outcome α} {ts : List Token} (h : o.Within ts)
    (make : α → Declaration) : (Outcome.declare o make).Within ts := by
  cases o <;> exact h

theorem within_skipValue (ts : List Token) : (ctx.skipValue ts).Within ts := by
  unfold skipValue
  split
  · exact Nat.le_refl _
  · next t rest =>
    have hm := ctx.within_blockText .map t rest
    have hs := ctx.within_blockText .sequence t rest
    split
    · cases hb : ctx.blockText .map t rest <;> simp_all [Outcome.Within, Outcome.rest] <;> omega
    · split
      · cases hb : ctx.blockText .sequence t rest <;> simp_all [Outcome.Within, Outcome.rest] <;> omega
      · split <;> simp [Outcome.Within, Outcome.rest]

theorem within_declaration (ts : List Token) : (ctx.declaration ts).Within ts := by
  unfold declaration
  split
  · exact within_fault ..
  · next t rest =>
    have up {o : Outcome (Option Declaration)} (h : o.Within rest) : o.Within (t :: rest) :=
      Nat.le_succ_of_le h
    have word : (match t.word? with
        | some word => if isClauseWord word = true then ctx.skipValue rest
            else ctx.fault (.unknownDeclaration (String.ofList word)) (t :: rest)
        | none => ctx.fault .expectedKeyword (t :: rest)).Within (t :: rest) := by
      split
      · split
        · exact up (ctx.within_skipValue rest)
        · exact within_fault ..
      · exact within_fault ..
    have hc : (ctx.character rest).Within rest :=
      ctx.within_declared _ _ (fun _ _ _ => within_readClauses ..) _
    have hw : (ctx.world rest).Within rest :=
      ctx.within_declared _ _ (fun _ _ _ => within_readClauses ..) _
    simp only []
    split
    · exact up (within_declare (ctx.within_spell rest) _)
    · exact up (within_declare hc _)
    · exact up (within_declare hw _)
    · split
      · exact up (within_declare (ctx.within_archetype rest) _)
      · exact word
    all_goals first | exact within_fault .. | exact word

/-- Go on behind the next newline or at the next `@`. -/
def resume : List Token → List Token
  | [] => []
  | t :: ts => if t.isSymbol .at then t :: ts else if t.isNewline then ts else resume ts

theorem length_resume (ts : List Token) : (resume ts).length ≤ ts.length := by
  induction ts with
  | nil => simp [resume]
  | cons t ts ih =>
    simp only [resume]
    split
    · exact Nat.le_refl _
    · split
      · simp
      · exact Nat.le_succ_of_le ih

end Context

/-- All declarations of a source, and the faults found between them. -/
structure Program where
  declarations : List Declaration
  errors : List ParseError

namespace Program

def isClean (p : Program) : Bool := p.errors.isEmpty

/-- Read declarations from the front of the tokens to their end. -/
def ofTokens (ctx : Context) (inComment : Bool) (ts : List Token) : Program :=
  match ts with
  | [] => ⟨[], []⟩
  | t :: rest =>
    if t.isNewline then ofTokens ctx false rest
    else if inComment || t.isSymbol .hash then ofTokens ctx true rest
    else if t.isSymbol .at then
      match _h : ctx.declaration rest with
      | .ok none after => ofTokens ctx false after
      | .ok (some d) after =>
        let p := ofTokens ctx false after
        { p with declarations := d :: p.declarations }
      | .fail e after =>
        let p := ofTokens ctx false (Context.resume after)
        { p with errors := e :: p.errors }
    else ofTokens ctx false rest
termination_by ts.length
decreasing_by
  all_goals try simp; done
  · have := ctx.within_declaration rest
    rw [_h] at this; simp [Outcome.Within, Outcome.rest] at this ⊢; omega
  · have := ctx.within_declaration rest
    rw [_h] at this; simp [Outcome.Within, Outcome.rest] at this ⊢; omega
  · have := ctx.within_declaration rest
    have hr := Context.length_resume after
    rw [_h] at this; simp [Outcome.Within, Outcome.rest] at this ⊢; omega

end Program

/-- The end of input of a token list that lacks one: at the end of the source, on the last line. -/
def endToken (source : List Char) (ts : List Token) : Token :=
  let stop := Text.byteLength source
  ⟨.endOfInput, [], stop, stop, (ts.getLast?.map (·.span.line)).getD 1, 1⟩

/-- Read the tokens up to the first end of input. -/
def parse (source : List Char) (ts : List Token) : Program :=
  let finish := (ts.find? Token.isEnd).getD (endToken source ts)
  Program.ofTokens ⟨source, finish⟩ false (ts.takeWhile fun t => !t.isEnd)

/-- Read the declarations of a source. -/
def parseSource (mode : LexMode) (source : String) : Except LexError Program :=
  (tokens mode source.toList).map (parse source.toList)

end Grimoire.Source
