import Grimoire.Source.Parser

/-!
# The parser by index

The parser as a program over a list of tokens and an index into it, which looks at no token but by its index and
counts the rounds of its loops. It has no result where an index is outside the list or the rounds run out. That
neither happens, and that it makes of every list of tokens what `parse` makes of it, is proved of it afterwards.
-/
namespace Grimoire.Source

/-- A walk over the tokens: what it makes or the fault it meets, and the index where it stops. -/
abbrev Walk (α : Type) := ExceptT ParseError (StateT Nat Option) α

/-- An index outside the tokens, or no round left. -/
def Walk.stuck {α : Type} : Walk α := ExceptT.mk fun _ => none

/-- A walk whose fault is kept as a value. -/
def Walk.attempt {α : Type} (w : Walk α) : Walk (Except ParseError α) := ExceptT.lift w.run

/-- A source, and its tokens with an end of input. -/
structure Tape where
  source : List Char
  tokens : List Token

/-- The tokens with an end of input behind the last, if that is none. -/
def completed (source : List Char) (ts : List Token) : List Token :=
  if ts.getLast?.any Token.isEnd then ts else ts ++ [endToken source ts]

namespace Tape

variable (tape : Tape) {α σ : Type}

/-- Every loop has as many rounds as there are tokens. -/
def rounds : Nat := tape.tokens.length

/-! ## Tokens by index -/

def current : Walk Token := do
  match tape.tokens[← get]? with
  | some t => return t
  | none => .stuck

def previous : Walk Token := do
  match tape.tokens[(← get) - 1]? with
  | some t => return t
  | none => .stuck

/-- The token so many places ahead, if there is one. -/
def ahead (n : Nat) : Walk (Option Token) := do
  return tape.tokens[(← get) + n]?

/-- One token on, but not beyond an end of input. -/
def advance : Walk Unit := do
  let t ← tape.current
  if t.isEnd then return () else modify (· + 1)

def fault (f : Fault) : Walk α := do
  let t ← tape.current
  throw ⟨f, t⟩

/-! ## Trivia -/

/-- Up to the newline that ends the line. -/
def leaveLine : Nat → Walk Unit
  | 0 => .stuck
  | n + 1 => do
    let t ← tape.current
    if t.isEnd || t.isNewline then return ()
    else
      tape.advance
      leaveLine n

/-- Step over a comment, if one begins here. -/
def skipComment : Walk Bool := do
  let t ← tape.current
  if t.isSymbol .hash then
    tape.leaveLine tape.rounds
    return true
  else return false

def skipTrivia : Nat → Walk Unit
  | 0 => .stuck
  | n + 1 => do
    let t ← tape.current
    if t.isNewline then
      tape.advance
      skipTrivia n
    else
      let commented ← tape.skipComment
      if commented then skipTrivia n else return ()

/-! ## Values -/

def expectToken (test : Token → Option α) (what : String) : Walk α := do
  let t ← tape.current
  match test t with
  | some a =>
    tape.advance
    return a
  | none => throw ⟨.expected what, t⟩

def expectSymbol (s : Symbol) : String → Walk Unit :=
  tape.expectToken fun t => if t.isSymbol s then some () else none

def expectIdentifier : String → Walk String :=
  tape.expectToken fun t =>
    match t.kind with
    | .identifier name => some (String.ofList name)
    | _ => none

def expectString : String → Walk String :=
  tape.expectToken fun t =>
    match t.kind with
    | .string value => some (String.ofList value)
    | _ => none

def expectStringOrWord : String → Walk String :=
  tape.expectToken fun t => t.stringOrWord?.map String.ofList

/-- The items behind those read so far. -/
def wordRounds : Nat → List String → Walk (List String)
  | 0, _ => .stuck
  | n + 1, items => do
    tape.skipTrivia tape.rounds
    let t ← tape.current
    if t.isSymbol .closeBracket then
      tape.advance
      return items
    else if t.isEnd then tape.fault .unterminatedList
    else
      let item ← tape.expectStringOrWord "list item"
      tape.skipTrivia tape.rounds
      let u ← tape.current
      if u.isSymbol .comma then
        tape.advance
        wordRounds n (items ++ [item])
      else if u.isSymbol .closeBracket then wordRounds n (items ++ [item])
      else tape.fault .expectedListEnd

def wordList : Walk (List String) := do
  tape.expectSymbol .openBracket "'[' to open list"
  tape.wordRounds tape.rounds []

/-- The text up to the sign that closes the block of `opening`, with so many blocks open. -/
def blockRounds (opens closes : Symbol) (opening : Token) : Nat → Nat → Walk (List Char)
  | 0, _ => .stuck
  | n + 1, depth => do
    let t ← tape.current
    if t.isEnd then throw ⟨.unterminatedBlock, opening⟩
    else if t.isSymbol opens then
      tape.advance
      blockRounds opens closes opening n (depth + 1)
    else if t.isSymbol closes then
      tape.advance
      if depth - 1 = 0 then return (slice? tape.source opening.span.stop t.span.start).getD []
      else blockRounds opens closes opening n (depth - 1)
    else
      tape.advance
      blockRounds opens closes opening n depth

/-- A block whose opening sign is the current token. -/
def blockText (shape : BlockShape) : Walk (List Char) := do
  let t ← tape.current
  tape.advance
  tape.blockRounds (Context.openSymbol shape) (Context.closeSymbol shape) t tape.rounds 1

def block (shape : BlockShape) (clause : String) : Walk (List Char) := do
  let t ← tape.current
  if t.isSymbol (Context.openSymbol shape) then tape.blockText shape
  else tape.fault (.expected ("'" ++ String.ofList [shape.opening] ++ "' after " ++ clause))

/-! ## Clauses -/

/-- Walks that read the value of a clause, by the word of the clause. -/
abbrev Clauses (σ : Type) := List (String × (σ → Walk σ))

def textClause (what : String) (put : σ → String → σ) : σ → Walk σ := fun s => do
  let a ← tape.expectString what
  return put s a

def wordClause (what : String) (put : σ → String → σ) : σ → Walk σ := fun s => do
  let a ← tape.expectStringOrWord what
  return put s a

def wordListClause (put : σ → List String → σ) : σ → Walk σ := fun s => do
  let a ← tape.wordList
  return put s a

def mapClause (clause : String) (put : σ → Object → σ) : σ → Walk σ := fun s => do
  let inner ← tape.block .map clause
  return put s (decodeMap inner)

def sequenceClause (clause : String) (put : σ → List Json → σ) : σ → Walk σ := fun s => do
  let inner ← tape.block .sequence clause
  return put s (decodeSequence inner)

/-- The allowed clause that begins at a token, by the three tokens ahead of it. `@archetype Name ::` is none. -/
def Clauses.begun? (allowed : Clauses σ) (t : Token) (word? name? colons? : Option Token) : Option (σ → Walk σ) :=
  if t.isSymbol .at && !(word?.any (·.kind == .keyword .archetype) && (name?.any Token.isIdentifier &&
      colons?.any (·.isSymbol .doubleColon))) then
    (word?.bind Token.word?).bind fun word => (allowed.find? fun c => c.1.toList == word).map (·.2)
  else none

/-- The clause that begins behind newlines and comments, if it is an allowed one; its sign and word are taken. -/
def nextClause (allowed : Clauses σ) : Walk (Option (σ → Walk σ)) := do
  tape.skipTrivia tape.rounds
  let t ← tape.current
  let word? ← tape.ahead 1
  let name? ← tape.ahead 2
  let colons? ← tape.ahead 3
  match allowed.begun? t word? name? colons? with
  | some read =>
    tape.advance
    tape.advance
    return some read
  | none => return none

def clauseRounds (allowed : Clauses σ) : Nat → σ → Walk σ
  | 0, _ => .stuck
  | n + 1, s => do
    let read? ← tape.nextClause allowed
    match read? with
    | some read =>
      let next ← read s
      clauseRounds allowed n next
    | none => return s

/-! ## Declarations -/

def spellClauses : Clauses Context.SpellDraft :=
  let archetypes : Context.SpellDraft → Walk Context.SpellDraft :=
    tape.wordListClause fun d v => { d with spell := { d.spell with archetypes := v } }
  [("description", tape.textClause "description string" fun d v =>
      { d with spell := { d.spell with description := v } }),
   ("archetype", archetypes),
   ("archetypes", archetypes),
   ("parameters", tape.mapClause "@parameters" fun d v =>
      { d with spell := { d.spell with parameters := v } }),
   ("example", tape.textClause "example string" fun d v =>
      { d with spell := { d.spell with usage := v } }),
   ("implementation", tape.textClause "implementation string" fun d v =>
      { d with implementation? := some v })]

def spell : Walk Spell := do
  let t ← tape.current
  let name ← tape.expectIdentifier "spell name after @spell"
  let draft ← tape.clauseRounds tape.spellClauses tape.rounds { spell := { name, line := t.span.line } }
  match draft.implementation? with
  | some implementation => return { draft.spell with implementation }
  | none => throw ⟨.missingImplementation name, t⟩

/-- The spells behind those read so far. -/
def spellRounds : Nat → List Spell → Walk (List Spell)
  | 0, _ => .stuck
  | n + 1, spells => do
    tape.skipTrivia tape.rounds
    let t ← tape.current
    let word? ← tape.ahead 1
    if t.isSymbol .comma then
      tape.advance
      spellRounds n spells
    else if t.isSymbol .closeBracket then
      tape.advance
      return spells
    else if t.isSymbol .at && word?.any (·.kind == .keyword .spell) then
      tape.advance
      tape.advance
      let s ← tape.spell
      spellRounds n (spells ++ [s])
    else tape.fault .expectedSpell

def spellList : Walk (List Spell) := do
  tape.expectSymbol .openBracket "'[' after @arc_spells"
  tape.spellRounds tape.rounds []

def spellsClause (put : σ → List Spell → σ) : σ → Walk σ := fun s => do
  let a ← tape.spellList
  return put s a

def characterClauses : Clauses Character :=
  let elements : Character → Walk Character := tape.wordListClause fun c v => { c with elements := v }
  [("archetype", tape.wordClause "archetype name" fun c v => { c with archetype := v }),
   ("elements", elements),
   ("elemental_alignment", elements),
   ("data", tape.mapClause "@data" fun c v => { c with data := v }),
   ("backstory", tape.textClause "backstory string" fun c v => { c with backstory := v }),
   ("relationships", tape.sequenceClause "@relationships" fun c v => { c with relationships := v }),
   ("arc_spells", tape.spellsClause fun c v => { c with spells := v })]

def character : Walk Character := do
  let t ← tape.current
  let name ← tape.expectIdentifier "character name after @character"
  tape.clauseRounds tape.characterClauses tape.rounds { name, line := t.span.line }

def worldClauses : Clauses World :=
  [("cosmology", tape.mapClause "@cosmology" fun w v => { w with cosmology := v }),
   ("geography", tape.mapClause "@geography" fun w v => { w with geography := v }),
   ("cultures", tape.sequenceClause "@cultures" fun w v => { w with cultures := v }),
   ("history", tape.sequenceClause "@history" fun w v => { w with history := v })]

def world : Walk World := do
  let t ← tape.current
  let name ← tape.expectIdentifier "world name after @world"
  tape.clauseRounds tape.worldClauses tape.rounds { name, line := t.span.line }

def archetype : Walk Archetype := do
  let t ← tape.current
  let name ← tape.expectIdentifier "archetype name after @archetype"
  tape.expectSymbol .doubleColon "'::' after archetype name"
  let description ← tape.expectString "archetype description after '::'"
  return { name, description, line := t.span.line }

/-! ## Top level -/

def skipValue : Walk (Option Declaration) := do
  let t ← tape.current
  if t.isSymbol .openBrace then
    let _ ← tape.blockText .map
    return none
  else if t.isSymbol .openBracket then
    let _ ← tape.blockText .sequence
    return none
  else if t.isSymbol .at || t.isNewline || t.isEnd then return none
  else
    tape.advance
    return none

/-- What follows an `@` whose word begins no declaration. -/
def leftOver : Walk (Option Declaration) := do
  let t ← tape.current
  match t.word? with
  | some word =>
    if Context.isClauseWord word then
      tape.advance
      tape.skipValue
    else tape.fault (.unknownDeclaration (String.ofList word))
  | none => tape.fault .expectedKeyword

/-- Read a declaration behind its keyword. -/
def behind (read : Walk α) (make : α → Declaration) : Walk (Option Declaration) := do
  tape.advance
  let a ← read
  return some (make a)

def declaration : Walk (Option Declaration) := do
  tape.advance
  let t ← tape.current
  let name? ← tape.ahead 1
  match t.kind with
  | .keyword .spell => tape.behind tape.spell .spell
  | .keyword .character => tape.behind tape.character .character
  | .keyword .world => tape.behind tape.world .world
  | .keyword .archetype =>
    if name?.any Token.isIdentifier then tape.behind tape.archetype .archetype else tape.leftOver
  | .keyword .primordial | .keyword .modifier | .keyword .direction | .keyword .pattern =>
    tape.fault (.unsupported (String.ofList t.lexeme))
  | _ => tape.leftOver

/-- Behind the token passed last: stop if it was a newline, or at an `@`. -/
def resumeRounds : Nat → Walk Unit
  | 0 => .stuck
  | n + 1 => do
    let t ← tape.current
    if t.isEnd then return ()
    else
      let passed ← tape.previous
      if passed.isNewline || t.isSymbol .at then return ()
      else
        tape.advance
        resumeRounds n

def resume : Walk Unit := do
  let t ← tape.current
  if t.isSymbol .at then return ()
  else
    tape.advance
    tape.resumeRounds tape.rounds

/-- What is declared, and which faults are found, behind what was found so far. -/
def programRounds : Nat → Program → Walk Program
  | 0, _ => .stuck
  | n + 1, p => do
    let t ← tape.current
    if t.isEnd then return p
    else
      let commented ← tape.skipComment
      if commented then programRounds n p
      else if t.isSymbol .at then
        let made ← tape.declaration.attempt
        match made with
        | .ok d? => programRounds n ⟨p.declarations ++ d?.toList, p.errors⟩
        | .error e =>
          tape.resume
          programRounds n ⟨p.declarations, p.errors ++ [e]⟩
      else
        tape.advance
        programRounds n p

end Tape

/-- The parser by index, from the first token on. -/
def parse? (source : List Char) (ts : List Token) : Option Program :=
  let tape : Tape := ⟨source, completed source ts⟩
  match tape.programRounds tape.rounds ⟨[], []⟩ 0 with
  | some (.ok p, _) => some p
  | _ => none

end Grimoire.Source
