import Grimoire.Proofs.Source.Forms

/-!
# Recovery inside a declaration

A declaration with a number in the place of one value is given up at that number, and its other clauses are met
at top level. There each is stepped over with its value, but for one form: `@archetype` and a name are taken for
the head of an archetype, whatever follows the name, which makes a second fault (`broken_clause`). In a list of
clauses the same words are a clause as long as no `::` follows them.
-/
namespace Grimoire.Source

open Context

/-! ## A declaration with a broken clause -/

/-- The declarations that are made of clauses. -/
inductive Composite
  | spell
  | character
  | world

namespace Composite

def word : Composite → String
  | spell => "spell"
  | character => "character"
  | world => "world"

def forms : Composite → List (String × Form)
  | spell => spellForms
  | character => characterForms
  | world => worldForms

end Composite

/-- The tokens of a declaration whose clauses are well formed, all but one, whose value is a number. Newlines may
stand behind the head and behind every clause. -/
structure BrokenDeclaration (source : List Char) where
  composite : Composite
  sign : Token
  word : Token
  name : Token
  gap : List Token
  before : List ClauseTokens
  broken : ClauseTokens
  entry : String × Form
  number : Token
  after : List ClauseTokens
  sign_at : sign.isSymbol .at = true
  word_is : word.Is composite.word
  name_identifier : name.isIdentifier = true
  gap_newlines : Newlines gap
  before_formed : ∀ c ∈ before, c.Among (Value source) composite.forms
  entry_mem : entry ∈ composite.forms
  broken_number : broken.Of (fun _ value => value = [number]) entry
  number_kind : number.kind.category = .numberLiteral
  after_formed : ∀ c ∈ after, c.Among (Value source) composite.forms

/-- The tokens from the sign on. -/
def BrokenDeclaration.tokens {source : List Char} (d : BrokenDeclaration source) : List Token :=
  d.sign :: d.word :: d.name :: (d.gap ++ (d.before.flatMap ClauseTokens.all ++
    (d.broken.all ++ d.after.flatMap ClauseTokens.all)))

/-- The clause is `@archetype` and a name. -/
def ClauseTokens.namesArchetype (c : ClauseTokens) : Bool :=
  c.word.kind == .keyword .archetype && c.value.head?.any Token.isIdentifier

/-- The faults in clauses that stand at top level: no `::` behind the name of an archetype. -/
def strays (finish : Token) : List ClauseTokens → List ParseError
  | [] => []
  | c :: cs =>
    if c.namesArchetype then
      ⟨.expected "'::' after archetype name", (c.gap ++ cs.flatMap ClauseTokens.all).headD finish⟩ :: strays finish cs
    else strays finish cs

theorem strays_eq_nil {finish : Token} {cs : List ClauseTokens} :
    strays finish cs = [] ↔ ∀ c ∈ cs, c.namesArchetype = false := by
  induction cs with
  | nil => simp [strays]
  | cons c cs ih =>
    rw [List.forall_mem_cons, ← ih, strays]
    cases hc : c.namesArchetype with
    | false => simp
    | true => simp

/-! ## Up to the number -/

section
variable {σ : Type} {ctx : Context} {forms : List (String × Form)} {allowed : Clauses σ} {entry : String × Form}
  {before : List ClauseTokens} {broken : ClauseTokens} {number : Token} {gap rest : List Token}

theorem kind_of_numberLiteral {t : Token} (h : t.kind.category = .numberLiteral) : ∃ x, t.kind = .number x := by
  cases hkind : t.kind with
  | number x => exact ⟨x, rfl⟩
  | _ =>
    rw [hkind] at h
    cases h

/-- No value of any form begins with a number. -/
theorem Form.Makes.fails {form : Form} {clause : Clause σ} (h : form.Makes ctx clause)
    (hnumber : number.kind.category = .numberLiteral) (s : σ) (rest : List Token) :
    clause.read s (number :: rest) = .fail ⟨form.fault, number⟩ (number :: rest) := by
  obtain ⟨x, hx⟩ := kind_of_numberLiteral hnumber
  cases form with
  | text what =>
    obtain ⟨put, rfl⟩ := h
    simp [stringClause, Clause.of_read, expectString, expectToken, hx, Context.fault, current, Form.fault]
  | word what =>
    obtain ⟨put, rfl⟩ := h
    simp [wordClause, Clause.of_read, expectStringOrWord, expectToken, Token.stringOrWord?, Token.word?, hx,
      Context.fault, current, Form.fault]
  | words =>
    obtain ⟨put, rfl⟩ := h
    simp [wordListClause, Clause.of_read, wordList_eq, expectSymbol, expectToken, Token.isSymbol, hx,
      Context.fault, current, Form.fault]
  | block shape name =>
    cases shape with
    | map =>
      obtain ⟨put, rfl⟩ := h
      simp [Context.mapClause, Clause.of_read, Context.block, openSymbol, Token.isSymbol, hx, Context.fault, current,
        Form.fault]
    | sequence =>
      obtain ⟨put, rfl⟩ := h
      simp [Context.sequenceClause, Clause.of_read, Context.block, openSymbol, Token.isSymbol, hx, Context.fault,
        current, Form.fault]
  | spells =>
    obtain ⟨put, rfl⟩ := h
    simp [Clause.of_read, spellList_eq, expectSymbol, expectToken, Token.isSymbol, hx, Context.fault, current,
      Form.fault]

/-- The clauses before the broken one are read, and that one fails at its number. -/
theorem readClauses_broken (hfits : Fits ctx forms allowed) (hbefore : ∀ c ∈ before, c.Among (Taken ctx) forms)
    (hentry : entry ∈ forms) (hbroken : broken.Of (fun _ value => value = [number]) entry)
    (hnumber : number.kind.category = .numberLiteral) (s : σ) (rest : List Token) :
    readClauses allowed s (before.flatMap ClauseTokens.all ++ (broken.all ++ rest)) =
      .fail ⟨entry.2.fault, number⟩ (number :: (broken.gap ++ rest)) := by
  have hall : broken.all ++ rest = broken.sign :: broken.word :: number :: (broken.gap ++ rest) := by
    rw [ClauseTokens.all, hbroken.value]
    rfl
  have hcolons : NoColons (broken.all ++ rest) := .cons (Token.not_symbol_of_symbol hbroken.sign (by decide))
  have hclear : beginsArchetype broken.word (number :: (broken.gap ++ rest)) = false := by
    obtain ⟨x, hx⟩ := kind_of_numberLiteral hnumber
    exact beginsArchetype_value (by simp [Token.isIdentifier, hx]) _
  obtain ⟨s', hs'⟩ := readClauses_clauses hfits hbefore s
  obtain ⟨clause, hfind, hmakes⟩ := hfits entry hentry
  rw [hs' _ hcolons, hall, readClauses_word hbroken.sign hbroken.word hfind hclear, hmakes.fails hnumber,
    Outcome.bind_fail]

end

/-- The declaration is given up at the number. -/
theorem BrokenDeclaration.fails {source : List Char} (d : BrokenDeclaration source) {ctx : Context}
    (hbefore : ∀ c ∈ d.before, c.Among (Taken ctx) d.composite.forms) (rest : List Token) :
    ctx.declaration (d.word :: d.name :: (d.gap ++ (d.before.flatMap ClauseTokens.all ++ (d.broken.all ++ rest)))) =
      .fail ⟨d.entry.2.fault, d.number⟩ (d.number :: (d.broken.gap ++ rest)) := by
  have hword := d.word_is.kind
  have hentry := d.entry_mem
  obtain ⟨called, hname⟩ := kind_of_isIdentifier d.name_identifier
  cases hcomposite : d.composite with
  | spell =>
    rw [hcomposite] at hbefore hword hentry
    have hkeyword : d.word.kind = .keyword .spell := hword
    simp only [declaration_cons, hkeyword]
    rw [spell_named hname d.gap_newlines.skipTrivia,
      readClauses_broken (fits_spellForms ctx) hbefore hentry d.broken_number d.number_kind]
    rfl
  | character =>
    rw [hcomposite] at hbefore hword hentry
    have hkeyword : d.word.kind = .keyword .character := hword
    simp only [declaration_cons, hkeyword]
    rw [character_named hname d.gap_newlines.skipTrivia,
      readClauses_broken (fits_characterForms ctx) hbefore hentry d.broken_number d.number_kind]
    rfl
  | world =>
    rw [hcomposite] at hbefore hword hentry
    have hkeyword : d.word.kind = .keyword .world := hword
    simp only [declaration_cons, hkeyword]
    rw [world_named hname d.gap_newlines.skipTrivia,
      readClauses_broken (fits_worldForms ctx) hbefore hentry d.broken_number d.number_kind]
    rfl

/-! ## Clauses at top level -/

section
variable {ctx : Context} {forms : List (String × Form)} {entry : String × Form} {c : ClauseTokens}
  {cs : List ClauseTokens} {gap rest : List Token}

/-- The next thing is a sign, if anything is left. -/
def AtSign (ts : List Token) : Prop := ∀ t, ts.head? = some t → t.isSymbol .at = true

theorem AtSign.noColons (h : AtSign rest) : NoColons rest := by
  intro t ht
  exact Token.not_symbol_of_symbol (h t ht) (by decide)

theorem atSign_clauses {P : Form → List Token → Prop} (hcs : ∀ c ∈ cs, c.Among P forms) :
    AtSign (cs.flatMap ClauseTokens.all) := by
  cases cs with
  | nil => intro t ht; cases ht
  | cons c cs =>
    obtain ⟨entry, -, hc⟩ := hcs c List.mem_cons_self
    intro t ht
    obtain rfl : c.sign = t := by simpa [ClauseTokens.all] using ht
    exact hc.sign

/-- At a sign a declaration is read. -/
theorem ofTokens_sign {sign : Token} (h : sign.isSymbol .at = true) (rest : List Token) :
    Program.ofTokens ctx false (sign :: rest) = Program.after ctx (ctx.declaration rest) := by
  have hhash : sign.isSymbol .hash = false := Token.not_symbol_of_symbol h (by decide)
  rw [Program.ofTokens_cons, Token.not_newline_of_symbol h, hhash, h]
  rfl

theorem ofTokens_gap (h : Trivial gap) (rest : List Token) :
    Program.ofTokens ctx false (gap ++ rest) = Program.ofTokens ctx false rest := by
  rw [Program.ofTokens_skipTrivia, h, ← Program.ofTokens_skipTrivia]

/-- Behind a fault at the end of a line, or before the next sign, nothing more is lost. -/
theorem ofTokens_resume (h : Newlines gap) (hrest : AtSign rest) :
    Program.ofTokens ctx false (resume (gap ++ rest)) = Program.ofTokens ctx false rest := by
  cases gap with
  | nil =>
    cases rest with
    | nil => rfl
    | cons t rest => rw [List.nil_append, resume, if_pos (hrest t rfl)]
  | cons t gap =>
    have hnewline := h t List.mem_cons_self
    have hat : t.isSymbol .at = false := Token.not_symbol_of_newline hnewline .at
    rw [List.cons_append, resume, hat, if_neg Bool.false_ne_true, if_pos hnewline, ofTokens_gap h.tail.skipTrivia]

/-- A word of a clause at top level: its value is stepped over, but for a name behind `@archetype`. -/
theorem declaration_clause {word : Token} {w : String} (hword : word.Is w) (hw : w ∈ clauseWords)
    (hplain : word.kind = .keyword .archetype → rest.head?.any Token.isIdentifier = false) :
    ctx.declaration (word :: rest) = ctx.skipValue rest := by
  have hleft : ctx.leftOver word rest = ctx.skipValue rest := by
    have hclause : isClauseWord w.toList = true := List.any_eq_true.2 ⟨w, hw, beq_self_eq_true _⟩
    simp only [leftOver, hword.word?, hclause, if_true]
  rw [declaration_cons, hleft]
  by_cases harchetype : word.kind = .keyword .archetype
  · simp [harchetype, hplain harchetype]
  · have hkind := hword.kind
    simp only [clauseWords, List.mem_cons, List.not_mem_nil, or_false] at hw
    rcases hw with rfl | rfl | rfl | rfl | rfl | rfl | rfl | rfl | rfl | rfl | rfl | rfl | rfl | rfl | rfl | rfl
    all_goals first
      | exact absurd hkind harchetype
      | rw [hkind]; rfl

/-- `@archetype` and a name at top level, with no `::` behind it. -/
theorem archetype_fails {name : Token} {called : String} (hname : name.kind = .identifier called.toList)
    (hrest : NoColons rest) : ctx.archetype (name :: rest) =
      .fail ⟨.expected "'::' after archetype name", ctx.current rest⟩ rest := by
  have hcolons : ctx.expectSymbol .doubleColon "'::' after archetype name" rest =
      .fail ⟨.expected "'::' after archetype name", ctx.current rest⟩ rest := by
    cases rest with
    | nil => rfl
    | cons t rest => simp [expectSymbol, expectToken, hrest t rfl, Context.fault]
  rw [archetype_eq, expectIdentifier_named hname, Outcome.bind_ok, hcolons, Outcome.bind_fail]

theorem Taken.ne_nil {form : Form} {value : List Token} (h : Taken ctx form value) : value ≠ [] := by
  rintro rfl
  -- A value steps over no token behind it.
  have hskipped := h.skipped [Token.at .start (.symbol .comma) [',']]
  cases hskipped

/-- A clause at top level is stepped over, but for an archetype's name without `::`. -/
theorem ofTokens_clause (hc : c.Of (Taken ctx) entry) (hentry : entry.1 ∈ clauseWords) (hrest : AtSign rest) :
    Program.ofTokens ctx false (c.all ++ rest) =
      if c.namesArchetype then
        Program.append ⟨[], [⟨.expected "'::' after archetype name", ctx.current (c.gap ++ rest)⟩]⟩
          (Program.ofTokens ctx false rest)
      else Program.ofTokens ctx false rest := by
  have hall : c.all ++ rest = c.sign :: c.word :: (c.value ++ (c.gap ++ rest)) := by simp [ClauseTokens.all]
  obtain ⟨first, value, hvalue⟩ := List.exists_cons_of_ne_nil hc.value.ne_nil
  have hhead : (c.value ++ (c.gap ++ rest)).head? = c.value.head? := by
    rw [hvalue]
    rfl
  rw [hall, ofTokens_sign hc.sign]
  by_cases hnames : c.namesArchetype = true
  · obtain ⟨hkind, hfirst⟩ := Bool.and_eq_true_iff.1 hnames
    rw [beq_iff_eq] at hkind
    rw [hvalue] at hfirst
    obtain ⟨called, hcalled⟩ := kind_of_isIdentifier hfirst
    -- A value that begins with a name is that name.
    have hone : value = [] := by
      have hskipped := hc.value.skipped []
      rw [hvalue, List.cons_append, skipValue_single (by simp [Token.isDelimiter, Token.isSymbol, hcalled])
        (by simp [Token.isSymbol, hcalled]) (by simp [Token.isNewline, hcalled])] at hskipped
      simpa using hskipped
    have hdeclaration : ctx.declaration (c.word :: (c.value ++ (c.gap ++ rest))) =
        .fail ⟨.expected "'::' after archetype name", ctx.current (c.gap ++ rest)⟩ (c.gap ++ rest) := by
      have hidentifier : first.isIdentifier = true := hfirst
      rw [hvalue, hone, List.singleton_append]
      simp only [declaration_cons, hkind, List.head?_cons, Option.any_some, hidentifier, if_true]
      rw [archetype_fails hcalled (hc.gap.noColons hrest.noColons)]
      rfl
    rw [hdeclaration, if_pos hnames, Program.after, ofTokens_resume hc.gap hrest]
  · have hplain : c.word.kind = .keyword .archetype →
        (c.value ++ (c.gap ++ rest)).head?.any Token.isIdentifier = false := by
      intro hkind
      rw [hhead]
      simpa [ClauseTokens.namesArchetype, hkind] using hnames
    rw [declaration_clause hc.word hentry hplain, hc.value.skipped, if_neg hnames]
    exact ofTokens_gap hc.gap.skipTrivia rest

/-- **Clauses at top level** declare nothing, and each archetype's name among them is a fault. -/
theorem ofTokens_clauses (hforms : ∀ entry ∈ forms, entry.1 ∈ clauseWords)
    (hcs : ∀ c ∈ cs, c.Among (Taken ctx) forms) :
    Program.ofTokens ctx false (cs.flatMap ClauseTokens.all) = ⟨[], strays ctx.finish cs⟩ := by
  induction cs with
  | nil => exact Program.ofTokens_nil ctx false
  | cons c cs ih =>
    obtain ⟨entry, hentry, hc⟩ := hcs c List.mem_cons_self
    have htail : ∀ c ∈ cs, c.Among (Taken ctx) forms := fun c hc => hcs c (List.mem_cons_of_mem _ hc)
    rw [List.flatMap_cons, ofTokens_clause hc (hforms entry hentry) (atSign_clauses htail), ih htail, strays]
    by_cases hnames : c.namesArchetype = true
    · rw [if_pos hnames, if_pos hnames]
      rfl
    · rw [if_neg hnames, if_neg hnames]

end

theorem Composite.clauseWords (composite : Composite) : ∀ entry ∈ composite.forms, entry.1 ∈ clauseWords := by
  cases composite <;> decide

/-! ## One broken clause -/

/-- **One malformed clause.** A declaration with a number for one value declares nothing and fails at the number;
its clauses behind that are stepped over, in whatever order, but for each `@archetype` with a name, which is one
more fault. So there is one fault exactly if no such clause follows. -/
theorem broken_clause {mode : LexMode} {source : String} (d : BrokenDeclaration source.toList)
    (h : tokens mode source.toList = .ok (d.tokens ++ [endOf source.toList])) :
    parseSource mode source = .ok ⟨[], ⟨d.entry.2.fault, d.number⟩ :: strays (endOf source.toList) d.after⟩ ∧
      ((∃ e, parseSource mode source = .ok ⟨[], [e]⟩) ↔ ∀ c ∈ d.after, c.namesArchetype = false) := by
  obtain ⟨ts, hts, hlexes⟩ := tokens_eq_ok.1 h
  obtain rfl : d.tokens = ts := List.append_cancel_right hts
  let ctx : Context := ⟨source.toList, endOf source.toList⟩
  have hvalue (form : Form) (ts : List Token) (hin : ts <:+: d.tokens) (hform : Value source.toList form ts) :
      Taken ctx form ts := hform.taken ctx hlexes hin
  have hbefore : ∀ c ∈ d.before, c.Among (Taken ctx) d.composite.forms := by
    refine taken_clauses hvalue ⟨d.sign :: d.word :: d.name :: d.gap, d.broken.all ++
      d.after.flatMap ClauseTokens.all, ?_⟩ d.before_formed
    simp [BrokenDeclaration.tokens]
  have hafter : ∀ c ∈ d.after, c.Among (Taken ctx) d.composite.forms := by
    refine taken_clauses hvalue ⟨d.sign :: d.word :: d.name :: (d.gap ++ (d.before.flatMap ClauseTokens.all ++
      d.broken.all)), [], ?_⟩ d.after_formed
    simp [BrokenDeclaration.tokens]
  have hrecovered :
      Program.ofTokens ctx false (resume (d.number :: (d.broken.gap ++ d.after.flatMap ClauseTokens.all))) =
      ⟨[], strays (endOf source.toList) d.after⟩ := by
    obtain ⟨x, hx⟩ := kind_of_numberLiteral d.number_kind
    have hat : d.number.isSymbol .at = false := by simp [Token.isSymbol, hx]
    have hnewline : d.number.isNewline = false := by simp [Token.isNewline, hx]
    rw [resume, hat, hnewline, if_neg Bool.false_ne_true, if_neg Bool.false_ne_true,
      ofTokens_resume d.broken_number.gap (atSign_clauses hafter), ofTokens_clauses d.composite.clauseWords hafter]
  have hparse : parseSource mode source =
      .ok ⟨[], ⟨d.entry.2.fault, d.number⟩ :: strays (endOf source.toList) d.after⟩ := by
    rw [parseSource, h]
    refine congrArg Except.ok ?_
    rw [parse_eq hlexes]
    change Program.ofTokens ctx false d.tokens = _
    rw [BrokenDeclaration.tokens, ofTokens_sign d.sign_at, d.fails hbefore, Program.after, hrecovered]
    rfl
  refine ⟨hparse, ?_⟩
  rw [← strays_eq_nil, hparse]
  constructor
  · rintro ⟨e, he⟩
    have herrors := congrArg Program.errors (Except.ok.inj he)
    exact (List.cons.inj herrors).2
  · intro hnone
    exact ⟨_, by rw [hnone]⟩

/-! ### A spell and a character -/

def signAt (byte line column : Nat) (sign : Symbol) (c : Char) : Token :=
  Token.at ⟨byte, line, column⟩ (.symbol sign) [c]

def wordAt (byte line column : Nat) (word : String) : Token :=
  Token.at ⟨byte, line, column⟩ (wordKind word.toList) word.toList

def newlineAt (byte line column : Nat) : Token := Token.at ⟨byte, line, column⟩ .newline ['\n']

def wholeAt (byte line column : Nat) (digits : List Nat) (lexeme : String) : Token :=
  Token.at ⟨byte, line, column⟩ (.number (Decimal.Numeral.nearest ⟨false, digits, [], none⟩)) lexeme.toList

/-- A spell whose example is a number, with a clause before it and one behind it. -/
def ashes : String := "@spell Ash\n@archetype []\n@example 7\n@parameters \x7b\x7d\n"

def brokenAshes : BrokenDeclaration ashes.toList where
  composite := .spell
  sign := signAt 0 1 1 .at '@'
  word := wordAt 1 1 2 "spell"
  name := wordAt 7 1 8 "Ash"
  gap := [newlineAt 10 1 11]
  before := [⟨signAt 11 2 1 .at '@', wordAt 12 2 2 "archetype",
    [signAt 22 2 12 .openBracket '[', signAt 23 2 13 .closeBracket ']'], [newlineAt 24 2 14]⟩]
  broken := ⟨signAt 25 3 1 .at '@', wordAt 26 3 2 "example", [wholeAt 34 3 10 [7] "7"], [newlineAt 35 3 11]⟩
  entry := ("example", .text "example string")
  number := wholeAt 34 3 10 [7] "7"
  after := [⟨signAt 36 4 1 .at '@', wordAt 37 4 2 "parameters",
    [signAt 48 4 13 .openBrace '\x7b', signAt 49 4 14 .closeBrace '\x7d'], [newlineAt 50 4 15]⟩]
  sign_at := rfl
  word_is := ⟨rfl, rfl⟩
  name_identifier := rfl
  gap_newlines := by decide
  before_formed := by
    have hitems : WordItems ([] ++ [signAt 23 2 13 .closeBracket ']']) := .none (by decide) rfl
    exact List.forall_mem_singleton.2 ⟨("archetype", .words), by decide, rfl, ⟨rfl, rfl⟩,
      .plain (.words rfl hitems), by decide⟩
  entry_mem := by decide
  broken_number := ⟨rfl, ⟨rfl, rfl⟩, rfl, by decide⟩
  number_kind := rfl
  after_formed := by
    have hblock : DataBlock ashes.toList .map
        (signAt 48 4 13 .openBrace '\x7b' :: ([] ++ [signAt 49 4 14 .closeBrace '\x7d'])) :=
      .mk rfl rfl (by decide +kernel)
    exact List.forall_mem_singleton.2 ⟨("parameters", .block .map "@parameters"), by decide, rfl, ⟨rfl, rfl⟩,
      .plain (.block hblock), by decide⟩

theorem brokenAshes_one_fault : tokens .strict ashes.toList = .ok (brokenAshes.tokens ++ [endOf ashes.toList]) ∧
    ∃ e, parseSource .strict ashes = .ok ⟨[], [e]⟩ := by
  have h : tokens .strict ashes.toList = .ok (brokenAshes.tokens ++ [endOf ashes.toList]) := by decide +kernel
  exact ⟨h, (broken_clause brokenAshes h).2.2 (by decide)⟩

/-- A character whose data are a number, with the name of an archetype behind them. -/
def kai : String := "@character Kai\n@data 42\n@archetype Sage\n"

def brokenKai : BrokenDeclaration kai.toList where
  composite := .character
  sign := signAt 0 1 1 .at '@'
  word := wordAt 1 1 2 "character"
  name := wordAt 11 1 12 "Kai"
  gap := [newlineAt 14 1 15]
  before := []
  broken := ⟨signAt 15 2 1 .at '@', wordAt 16 2 2 "data", [wholeAt 21 2 7 [4, 2] "42"], [newlineAt 23 2 9]⟩
  entry := ("data", .block .map "@data")
  number := wholeAt 21 2 7 [4, 2] "42"
  after := [⟨signAt 24 3 1 .at '@', wordAt 25 3 2 "archetype", [wordAt 35 3 12 "Sage"], [newlineAt 39 3 16]⟩]
  sign_at := rfl
  word_is := ⟨rfl, rfl⟩
  name_identifier := rfl
  gap_newlines := by decide
  before_formed := by simp
  entry_mem := by decide
  broken_number := ⟨rfl, ⟨rfl, rfl⟩, rfl, by decide⟩
  number_kind := rfl
  after_formed := by
    have hsage : (wordAt 35 3 12 "Sage").stringOrWord? = some "Sage".toList := rfl
    exact List.forall_mem_singleton.2 ⟨("archetype", .word "archetype name"), by decide, rfl, ⟨rfl, rfl⟩,
      .plain (.word hsage), by decide⟩

/-- The archetype of a broken character is a second fault. -/
theorem brokenKai_two_faults : tokens .strict kai.toList = .ok (brokenKai.tokens ++ [endOf kai.toList]) ∧
    ((parseSource .strict kai).toOption.map fun p =>
      p.errors.map fun e => (e.fault.message, e.token.span.line, e.token.span.column)) =
        some [("Expected '\x7b' after @data", 2, 7), ("Expected '::' after archetype name", 3, 16)] ∧
    ¬ ∃ e, parseSource .strict kai = .ok ⟨[], [e]⟩ := by
  have htwo : ((parseSource .strict kai).toOption.map fun p =>
      p.errors.map fun e => (e.fault.message, e.token.span.line, e.token.span.column)) =
        some [("Expected '\x7b' after @data", 2, 7), ("Expected '::' after archetype name", 3, 16)] := by decide +kernel
  refine ⟨by decide +kernel, htwo, ?_⟩
  rintro ⟨e, he⟩
  rw [he] at htwo
  simp [Except.toOption] at htwo

end Grimoire.Source
