import Grimoire.Proofs.Source.Clauses

/-!
# Printing and parsing again

`parse_printAll`: the printed source of declarations parses without faults to the same declarations, lines
apart, in the same order. Names must be plain identifiers and data exact; texts and list items are arbitrary.
A declaration is read from its own lines, whatever declaration stands behind it (`declaration_print`).
-/
namespace Grimoire.Source

open Context

/-! ## What can be printed -/

/-- Data that is read back: exact, with few enough containers inside each other. -/
def isPrintableData (j : Json) : Bool := j.isExact && decide (j.depth ≤ Json.maxDepth)

def Spell.isPrintable (s : Spell) : Bool :=
  isPlainIdentifier s.name.toList && isPrintableData (.object s.parameters)

def Character.isPrintable (c : Character) : Bool :=
  isPlainIdentifier c.name.toList && isPrintableData (.object c.data) && isPrintableData (.array c.relationships)
    && c.spells.all Spell.isPrintable

def World.isPrintable (w : World) : Bool :=
  isPlainIdentifier w.name.toList && isPrintableData (.object w.cosmology) && isPrintableData (.object w.geography)
    && isPrintableData (.array w.cultures) && isPrintableData (.array w.history)

/-- Names are plain identifiers and data is read back. -/
def Declaration.isPrintable : Declaration → Bool
  | spell s => s.isPrintable
  | character c => c.isPrintable
  | world w => w.isPrintable
  | archetype a => isPlainIdentifier a.name.toList

theorem isPrintableData_iff {j : Json} :
    isPrintableData j = true ↔ j.isExact = true ∧ j.depth ≤ Json.maxDepth := by
  simp [isPrintableData]

variable {ctx : Context} {mode : LexMode} {p : Position}

/-! ## The head of a declaration -/

/-- A printed declaration at its place: its sign and its keyword, and what its reader makes of the tokens behind
them where no clause of it follows. -/
def Declared {α σ : Type} (mode : LexMode) (p : Position) (x : List Char) (keyword : Keyword) (allowed : Clauses σ)
    (read : List Token → Outcome α) (P : α → Prop) : Prop :=
  ∃ (sign word : Token) (ts : List Token) (a : α), sign.kind = .symbol .at ∧ word.kind = .keyword keyword ∧
    Lexes mode p x (sign :: word :: ts) ∧ P a ∧
    ∀ rest, nextClause allowed (skipTrivia false rest) = none → read (ts ++ rest) = .ok a (skipTrivia false rest)

/-- A head line and the lines of its clauses: what the clauses make of the state at the name's line. -/
theorem lexes_declared {σ : Type} {allowed : Clauses σ} {indent : Nat} {keyword : String} {name : String}
    {body : List Char} {s : Nat → σ} {P : Nat → σ → Prop} (hkeyword : isWord keyword.toList = true)
    (hname : isPlainIdentifier name.toList = true) (hbody : ∀ line, WritesTo ctx mode allowed body (s line) (P line))
    (hp : ctx.Stands p (clauseLine indent keyword name.toList ++ body)) :
    ∃ (sign word named : Token) (us : List Token) (s' : σ), sign.kind = .symbol .at ∧
      word.kind = wordKind keyword.toList ∧ named.kind = .identifier name.toList ∧
      Lexes mode p (clauseLine indent keyword name.toList ++ body) (sign :: word :: named :: us) ∧
      P (p.advanceAll (lead indent keyword)).line s' ∧
      ∀ rest, nextClause allowed (skipTrivia false rest) = none →
        readClauses allowed (s named.span.line) (us ++ rest) = .ok s' (skipTrivia false rest) := by
  obtain ⟨hplain, hkind⟩ := isWord_of_isPlainIdentifier hname
  let q := p.advanceAll (lead indent keyword)
  let named := Token.at q (wordKind name.toList) name.toList
  have hfragment : Fragment mode q name.toList [named] := fragment_word hplain
  obtain ⟨sign, word, newline, hsign, hword, _, hnewline, hline⟩ := lexes_line hkeyword hfragment
  obtain ⟨us, s', hlexes, hs', hread⟩ := hbody q.line _ hp.right
  have hall := hline.append (endsIn_clauseLine _ _ _) hlexes
  refine ⟨sign, word, named, newline :: us, s', hsign, hword, hkind, hall, hs', ?_⟩
  intro rest hnext
  change readClauses allowed (s q.line) (newline :: (us ++ rest)) = _
  rw [readClauses_newline hnewline, hread, readClauses_eq, hnext]

theorem expectIdentifier_named {named : Token} {name : String} (h : named.kind = .identifier name.toList)
    (what : String) (rest : List Token) : ctx.expectIdentifier what (named :: rest) = .ok name rest := by
  simp [expectIdentifier, expectToken, h]

/-! ## Spells -/

/-- The clauses of a printed spell. -/
def Spell.printClauses (s : Spell) (indent : Nat) : List Char :=
  textClause indent "description" s.description ++ (wordsClause indent "archetypes" s.archetypes
    ++ (mapClause indent "parameters" s.parameters ++ (textClause indent "example" s.usage
    ++ clauseLine indent "implementation" (quote s.implementation))))

theorem Spell.print_eq (s : Spell) (indent : Nat) :
    s.print indent = clauseLine indent "spell" s.name.toList ++ s.printClauses (indent + 2) := by
  simp [Spell.print, Spell.printClauses]

theorem nodup_spellClauses (ctx : Context) : (ctx.spellClauses.map Prod.fst).Nodup := by
  simp [spellClauses]

theorem writes_spell (ctx : Context) (mode : LexMode) {s : Spell} (h : s.isPrintable = true) (indent line : Nat) :
    Writes ctx mode ctx.spellClauses (s.printClauses indent) { spell := { name := s.name, line } }
      { spell := { s with implementation := "", line }, implementation? := some s.implementation } := by
  obtain ⟨_, hdata⟩ := Bool.and_eq_true_iff.1 h
  obtain ⟨hexact, hdepth⟩ := isPrintableData_iff.1 hdata
  have hnodup := nodup_spellClauses ctx
  refine .append (.text (by decide) (find?_of_getElem? hnodup 0 rfl) (by rfl)) ?_
  refine .append (.words (by decide) (find?_of_getElem? hnodup 2 rfl) (by rfl)) ?_
  refine .append (.map (by decide) (find?_of_getElem? hnodup 3 rfl) hexact hdepth (by rfl)) ?_
  refine .append (.text (by decide) (find?_of_getElem? hnodup 4 rfl) (by rfl)) ?_
  exact .line (by decide) (find?_of_getElem? hnodup 5 rfl) fun q _ => (takes_string _ _).of rfl

theorem declared_spell (ctx : Context) (mode : LexMode) {s : Spell} (h : s.isPrintable = true) {indent : Nat}
    (hp : ctx.Stands p (s.print indent)) :
    Declared mode p (s.print indent) .spell ctx.spellClauses ctx.spell fun s' =>
      { s' with line := 0 } = { s with line := 0 } := by
  have hname : isPlainIdentifier s.name.toList = true := (Bool.and_eq_true_iff.1 h).1
  have hbody (line : Nat) : WritesTo ctx mode ctx.spellClauses (s.printClauses (indent + 2))
      { spell := { name := s.name, line } } fun draft => ∃ line, draft =
        { spell := { s with implementation := "", line }, implementation? := some s.implementation } :=
    (writes_spell ctx mode h (indent + 2) line).to ⟨line, rfl⟩
  rw [Spell.print_eq] at hp ⊢
  obtain ⟨sign, word, named, us, draft, hsign, hword, hnamed, hlexes, ⟨line, rfl⟩, hread⟩ :=
    lexes_declared (by decide) hname hbody hp
  refine ⟨sign, word, named :: us, { s with line }, hsign, hword, hlexes, rfl, ?_⟩
  intro rest hnext
  rw [spell_eq, List.cons_append, expectIdentifier_named hnamed, Outcome.bind_ok]
  change (readClauses ctx.spellClauses { spell := { name := s.name, line := named.span.line } } (us ++ rest)).bind _ = _
  rw [hread rest hnext]
  rfl

/-! ### Lists of spells -/

theorem Lexes.fragment {x y : List Char} {ts us : List Token} (hx : Lexes mode p x ts) (hend : EndsIn isLineEnd x)
    (hy : Fragment mode (p.advanceAll x) y us) : Fragment mode p (x ++ y) (ts ++ us) := by
  intro z vs hz hl
  rw [Position.advanceAll_append] at hl
  rw [List.append_assoc, List.append_assoc]
  exact hx.append hend (hy z vs hz hl)

theorem endsIn_spell (s : Spell) (indent : Nat) : EndsIn isLineEnd (s.print indent) := by
  rw [Spell.print_eq, Spell.printClauses]
  simp only [← List.append_assoc]
  exact (endsIn_clauseLine _ _ _).append fun h => absurd h (by simp [clauseLine])

/-- The lines of printed spells, and the bracket behind them. -/
theorem spellItems_print (mode : LexMode) {spells : List Spell} (h : ∀ s ∈ spells, s.isPrintable = true)
    (hp : ctx.Stands p (spells.flatMap (·.print 4) ++ [' ', ' ', ']'])) :
    ∃ (ts : List Token) (spells' : List Spell), Fragment mode p (spells.flatMap (·.print 4) ++ [' ', ' ', ']']) ts ∧
      spells'.map (fun s => { s with line := 0 }) = spells.map (fun s => { s with line := 0 }) ∧
      (∀ rest, nextClause ctx.spellClauses (skipTrivia false (ts ++ rest)) = none) ∧
      ∀ rest, ctx.spellItems (ts ++ rest) = .ok spells' rest := by
  induction spells generalizing p with
  | nil =>
    refine ⟨[Token.at ((p.advance ' ').advance ' ') (.symbol .closeBracket) [']']], [], ?_, rfl, fun rest => ?_,
      fun rest => ?_⟩
    · exact .blank (by decide) (.blank (by decide) (.sign (by decide) (fun _ => rfl) .nil))
    · cases rest <;> rfl
    · rw [spellItems_eq]
      rfl
  | cons s spells ih =>
    rw [List.flatMap_cons, List.append_assoc] at hp ⊢
    obtain ⟨sign, keyword, ts, s', hsign, hkeyword, hlexes, hs', hread⟩ :=
      declared_spell ctx mode (h s (by simp)) hp.left
    obtain ⟨us, more, hfragment, hmore, hnext, hitems⟩ := ih (fun t ht => h t (by simp [ht])) hp.right
    have hfaithful := hlexes.faithful keyword (by simp)
    refine ⟨_, s' :: more, hlexes.fragment (endsIn_spell s 4) hfragment, ?_, fun rest => ?_, fun rest => ?_⟩
    · rw [List.map_cons, List.map_cons, hs', hmore]
    · have hstarts : startsDeclaration (sign :: keyword :: (ts ++ us ++ rest)) = true := by
        simp [startsDeclaration, Token.isSymbol, hsign, hkeyword]
      have hskip : skipTrivia false (sign :: keyword :: (ts ++ us ++ rest)) =
          sign :: keyword :: (ts ++ us ++ rest) := by
        simp [skipTrivia, Token.isNewline, Token.isSymbol, hsign]
      change nextClause ctx.spellClauses (skipTrivia false (sign :: keyword :: (ts ++ us ++ rest))) = none
      rw [hskip]
      exact Placement.nextClause_of_startsDeclaration (Placement.apart_spellClauses ctx) hstarts hfaithful
    · have hspell := hread (us ++ rest) (hnext rest)
      have hrest : ctx.spellItems (skipTrivia false (us ++ rest)) = .ok more rest := by
        rw [ctx.spellItems_congr (us ++ rest) (skipTrivia_skipTrivia false _), hitems]
      have hhead : ctx.spellItems (sign :: keyword :: (ts ++ us ++ rest)) =
          ctx.spellsFrom sign (keyword :: (ts ++ us ++ rest)) := by
        rw [spellItems_eq]
        simp [skipTrivia, Token.isNewline, Token.isSymbol, hsign]
      change ctx.spellItems (sign :: keyword :: (ts ++ us ++ rest)) = _
      rw [hhead, List.append_assoc, spellsFrom]
      simp [Token.isSymbol, hsign, hkeyword, hspell, hrest]

theorem takes_spells (mode : LexMode) {spells : List Spell} (h : ∀ s ∈ spells, s.isPrintable = true)
    (hp : ctx.Stands p (printSpells spells)) :
    ∃ spells' : List Spell, spells'.map (fun s => { s with line := 0 }) = spells.map (fun s => { s with line := 0 }) ∧
      Takes mode p (printSpells spells) ctx.spellList spells' := by
  have hlines : ctx.Stands ((p.advance '[').advance '\n') (spells.flatMap (·.print 4) ++ [' ', ' ', ']']) :=
    Stands.right (x := ['[', '\n']) hp
  obtain ⟨ts, spells', hfragment, hspells, _, hitems⟩ := spellItems_print mode h hlines
  refine ⟨spells', hspells, Token.at p (.symbol .openBracket) ['['],
    Token.at (p.advance '[') .newline ['\n'] :: ts, ?_, rfl, fun rest => ?_⟩
  · exact .sign (by decide) (fun _ => rfl) (.sign (by decide) (fun _ => rfl) hfragment)
  · rw [spellList_eq]
    have hskip : skipTrivia false (Token.at (p.advance '[') .newline ['\n'] :: (ts ++ rest)) =
        skipTrivia false (ts ++ rest) := rfl
    change ctx.spellItems (Token.at (p.advance '[') .newline ['\n'] :: (ts ++ rest)) = _
    rw [ctx.spellItems_congr (ts ++ rest) hskip, hitems]

/-! ## Characters -/

/-- The clauses of a printed character before its spells. -/
def Character.printClauses (c : Character) : List Char :=
  textClause 2 "archetype" c.archetype ++ (wordsClause 2 "elements" c.elements ++ (mapClause 2 "data" c.data
    ++ (textClause 2 "backstory" c.backstory ++ sequenceClause 2 "relationships" c.relationships)))

theorem Character.print_eq (c : Character) :
    c.print = clauseLine 0 "character" c.name.toList ++ (c.printClauses
      ++ clauseUnless c.spells.isEmpty 2 "arc_spells" (printSpells c.spells)) := by
  simp [Character.print, Character.printClauses]

theorem nodup_characterClauses (ctx : Context) : (ctx.characterClauses.map Prod.fst).Nodup := by
  simp [characterClauses]

theorem writes_character (ctx : Context) (mode : LexMode) {c : Character} (h : c.isPrintable = true) (line : Nat) :
    Writes ctx mode ctx.characterClauses c.printClauses { name := c.name, line } { c with spells := [], line } := by
  simp only [Character.isPrintable, Bool.and_eq_true, isPrintableData_iff] at h
  obtain ⟨⟨⟨_, hdata⟩, hrelationships⟩, _⟩ := h
  have hnodup := nodup_characterClauses ctx
  refine .append (.word (by decide) (find?_of_getElem? hnodup 0 rfl) (by rfl)) ?_
  refine .append (.words (by decide) (find?_of_getElem? hnodup 1 rfl) (by rfl)) ?_
  refine .append (.map (by decide) (find?_of_getElem? hnodup 3 rfl) hdata.1 hdata.2 (by rfl)) ?_
  refine .append (.text (by decide) (find?_of_getElem? hnodup 4 rfl) (by rfl)) ?_
  exact .sequence (by decide) (find?_of_getElem? hnodup 5 rfl) hrelationships.1 hrelationships.2 (by rfl)

/-- The spells of a character are its last clause; each has a line of its own. -/
theorem writesTo_arcSpells (ctx : Context) (mode : LexMode) {c : Character}
    (h : ∀ s ∈ c.spells, s.isPrintable = true) :
    WritesTo ctx mode ctx.characterClauses (clauseUnless c.spells.isEmpty 2 "arc_spells" (printSpells c.spells))
      { c with spells := [] } fun c' => ∃ spells : List Spell, c' = { c with spells } ∧
        spells.map (fun s => { s with line := 0 }) = c.spells.map (fun s => { s with line := 0 }) := by
  intro p hp
  unfold clauseUnless at hp ⊢
  by_cases hempty : c.spells.isEmpty = true
  · rw [if_pos hempty]
    exact ⟨[], _, .done, ⟨[], rfl, by rw [List.isEmpty_iff.1 hempty]⟩, fun _ => rfl⟩
  · rw [if_neg hempty] at hp ⊢
    have hvalue := hp
    rw [clauseLine_eq] at hvalue
    obtain ⟨spells, hspells, htakes⟩ := takes_spells mode h hvalue.right.left
    have hput : (fun (c : Character) v => { c with spells := v }) { c with spells := [] } spells =
        { c with spells } := rfl
    obtain ⟨us, hlexes, hread⟩ :=
      readClauses_line (by decide) (find?_of_getElem? (nodup_characterClauses ctx) 6 rfl) (htakes.of hput)
    exact ⟨us, _, hlexes, ⟨spells, rfl, hspells⟩, hread⟩

theorem declared_character (ctx : Context) (mode : LexMode) {c : Character} (h : c.isPrintable = true)
    (hp : ctx.Stands p c.print) :
    Declared mode p c.print .character ctx.characterClauses ctx.character fun c' =>
      (Declaration.character c').withoutLines = (Declaration.character c).withoutLines := by
  have hparts := h
  simp only [Character.isPrintable, Bool.and_eq_true, List.all_eq_true] at hparts
  obtain ⟨⟨⟨hname, _⟩, _⟩, hspells⟩ := hparts
  have hbody (line : Nat) : WritesTo ctx mode ctx.characterClauses
      (c.printClauses ++ clauseUnless c.spells.isEmpty 2 "arc_spells" (printSpells c.spells))
      { name := c.name, line } fun c' => ∃ line spells, c' = { c with line, spells } ∧
        spells.map (fun s : Spell => { s with line := 0 }) = c.spells.map (fun s => { s with line := 0 }) := by
    refine (writes_character ctx mode h line).appendTo ?_
    intro q hq
    obtain ⟨us, c', hlexes, ⟨spells, rfl, hsame⟩, hread⟩ :=
      writesTo_arcSpells ctx mode (c := { c with line }) hspells q hq
    exact ⟨us, _, hlexes, ⟨line, spells, rfl, hsame⟩, hread⟩
  rw [Character.print_eq] at hp ⊢
  obtain ⟨sign, word, named, us, c', hsign, hword, hnamed, hlexes, ⟨line, spells, rfl, hsame⟩, hread⟩ :=
    lexes_declared (by decide) hname hbody hp
  refine ⟨sign, word, named :: us, { c with line, spells }, hsign, hword, hlexes, ?_, ?_⟩
  · simp only [Declaration.withoutLines, hsame]
  · intro rest hnext
    rw [character, declared_eq, List.cons_append, expectIdentifier_named hnamed]
    exact hread rest hnext

/-! ## Worlds -/

/-- The clauses of a printed world. -/
def World.printClauses (w : World) : List Char :=
  mapClause 2 "cosmology" w.cosmology ++ (mapClause 2 "geography" w.geography
    ++ (sequenceClause 2 "cultures" w.cultures ++ sequenceClause 2 "history" w.history))

theorem World.print_eq (w : World) : w.print = clauseLine 0 "world" w.name.toList ++ w.printClauses := by
  simp [World.print, World.printClauses]

theorem nodup_worldClauses (ctx : Context) : (ctx.worldClauses.map Prod.fst).Nodup := by
  simp [worldClauses]

theorem writes_world (ctx : Context) (mode : LexMode) {w : World} (h : w.isPrintable = true) (line : Nat) :
    Writes ctx mode ctx.worldClauses w.printClauses { name := w.name, line } { w with line } := by
  simp only [World.isPrintable, Bool.and_eq_true, isPrintableData_iff] at h
  obtain ⟨⟨⟨⟨_, hcosmology⟩, hgeography⟩, hcultures⟩, hhistory⟩ := h
  have hnodup := nodup_worldClauses ctx
  refine .append (.map (by decide) (find?_of_getElem? hnodup 0 rfl) hcosmology.1 hcosmology.2 (by rfl)) ?_
  refine .append (.map (by decide) (find?_of_getElem? hnodup 1 rfl) hgeography.1 hgeography.2 (by rfl)) ?_
  refine .append (.sequence (by decide) (find?_of_getElem? hnodup 2 rfl) hcultures.1 hcultures.2 (by rfl)) ?_
  exact .sequence (by decide) (find?_of_getElem? hnodup 3 rfl) hhistory.1 hhistory.2 (by rfl)

theorem declared_world (ctx : Context) (mode : LexMode) {w : World} (h : w.isPrintable = true)
    (hp : ctx.Stands p w.print) :
    Declared mode p w.print .world ctx.worldClauses ctx.world fun w' =>
      (Declaration.world w').withoutLines = (Declaration.world w).withoutLines := by
  have hparts := h
  simp only [World.isPrintable, Bool.and_eq_true] at hparts
  obtain ⟨⟨⟨⟨hname, _⟩, _⟩, _⟩, _⟩ := hparts
  have hbody (line : Nat) : WritesTo ctx mode ctx.worldClauses w.printClauses { name := w.name, line }
      fun w' => ∃ line, w' = { w with line } :=
    (writes_world ctx mode h line).to ⟨line, rfl⟩
  rw [World.print_eq] at hp ⊢
  obtain ⟨sign, word, named, us, w', hsign, hword, hnamed, hlexes, ⟨line, rfl⟩, hread⟩ :=
    lexes_declared (by decide) hname hbody hp
  refine ⟨sign, word, named :: us, { w with line }, hsign, hword, hlexes, rfl, ?_⟩
  intro rest hnext
  rw [world, declared_eq, List.cons_append, expectIdentifier_named hnamed]
  exact hread rest hnext

/-! ## Declarations -/

/-- Behind newlines and comments there is nothing or another declaration. -/
def Follows (rest : List Token) : Prop := skipTrivia false rest = [] ∨
  startsDeclaration (skipTrivia false rest) = true ∧ ∀ t ∈ skipTrivia false rest, Faithful t.kind t.lexeme

theorem Follows.nextClause {σ : Type} {allowed : Clauses σ} {rest : List Token} (h : Follows rest)
    (ha : Placement.Apart allowed) : Context.nextClause allowed (skipTrivia false rest) = none := by
  rcases h with h | ⟨hstarts, hfaithful⟩
  · rw [h]
    rfl
  · match hts : skipTrivia false rest with
    | [] => rfl
    | [sign] => simp [hts, startsDeclaration] at hstarts
    | sign :: word :: more =>
      rw [hts] at hstarts hfaithful
      exact Placement.nextClause_of_startsDeclaration ha hstarts (hfaithful word (by simp))

theorem lexes_archetype (ctx : Context) (mode : LexMode) {a : Archetype} (h : isPlainIdentifier a.name.toList = true) :
    ∃ (sign keyword named colons : Token) (ts : List Token) (a' : Archetype), sign.kind = .symbol .at ∧
      keyword.kind = .keyword .archetype ∧ named.kind = .identifier a.name.toList ∧
      colons.kind = .symbol .doubleColon ∧
      Lexes mode p a.print (sign :: keyword :: named :: colons :: ts) ∧
      (Declaration.archetype a').withoutLines = (Declaration.archetype a).withoutLines ∧
      ∀ rest, ∃ after, skipTrivia false after = skipTrivia false rest ∧
        ctx.archetype (named :: colons :: (ts ++ rest)) = .ok a' after := by
  obtain ⟨hplain, hkind⟩ := isWord_of_isPlainIdentifier h
  let q := p.advanceAll (lead 0 "archetype")
  let r := (q.advanceAll a.name.toList).advance ' '
  let named := Token.at q (wordKind a.name.toList) a.name.toList
  let colons := Token.at r (.symbol .doubleColon) [':', ':']
  let description := Token.at (((r.advance ':').advance ':').advance ' ') (.string a.description.toList)
    (quote a.description)
  have hcolons : Fragment mode r (':' :: ':' :: ' ' :: quote a.description) [colons, description] :=
    .doubleColon (.blank (by decide) (fragment_quote a.description))
  have hname : Fragment mode q a.name.toList [named] := fragment_word hplain
  have hvalue : Fragment mode q (a.name.toList ++ [' ', ':', ':', ' '] ++ quote a.description)
      [named, colons, description] := by
    rw [List.append_assoc]
    exact hname.append (.blank (by decide) hcolons) (.cons (by decide) _)
  obtain ⟨sign, keyword, newline, hsign, hkeyword, _, hnewline, hlexes⟩ := lexes_line (by decide) hvalue
  refine ⟨sign, keyword, named, colons, [description, newline], { a with line := q.line }, hsign, hkeyword, hkind,
    rfl, hlexes, rfl, fun rest => ⟨newline :: rest, ?_, ?_⟩⟩
  · simp [skipTrivia, Token.isNewline, hnewline]
  · rw [archetype_eq, expectIdentifier_named hkind]
    change Outcome.ok (Archetype.mk a.name (String.ofList a.description.toList) q.line) (newline :: rest) = _
    rw [String.ofList_toList]

/-- The printed declaration at this place is read behind its sign, whatever declaration follows it. -/
def ReadBack (ctx : Context) (mode : LexMode) (p : Position) (d : Declaration) : Prop :=
  ∃ (sign : Token) (ts : List Token) (d' : Declaration), sign.kind = .symbol .at ∧
    Lexes mode p d.print (sign :: ts) ∧ startsDeclaration (sign :: ts) = true ∧
    d'.withoutLines = d.withoutLines ∧
    ∀ rest, Follows rest → ∃ after, skipTrivia false after = skipTrivia false rest ∧
      ctx.declaration (ts ++ rest) = .ok (some d') after

theorem Declared.readBack {α σ : Type} {keyword : Keyword} {allowed : Clauses σ} {read : List Token → Outcome α}
    {P : α → Prop} {d : Declaration} (h : Declared mode p d.print keyword allowed read P)
    (make : α → Declaration) (ha : Placement.Apart allowed)
    (hkeyword : keyword = .spell ∨ keyword = .character ∨ keyword = .world)
    (hdeclare : ∀ word rest, word.kind = .keyword keyword →
      ctx.declaration (word :: rest) = Outcome.declare (read rest) make)
    (hsame : ∀ a, P a → (make a).withoutLines = d.withoutLines) : ReadBack ctx mode p d := by
  obtain ⟨sign, word, ts, a, hsign, hword, hlexes, hP, hread⟩ := h
  refine ⟨sign, word :: ts, make a, hsign, hlexes, ?_, hsame a hP, ?_⟩
  · rcases hkeyword with rfl | rfl | rfl <;> simp [startsDeclaration, Token.isSymbol, hsign, hword]
  · intro rest hrest
    refine ⟨skipTrivia false rest, skipTrivia_skipTrivia false rest, ?_⟩
    rw [List.cons_append, hdeclare word _ hword, hread rest (hrest.nextClause ha)]
    rfl

theorem declaration_print (ctx : Context) (mode : LexMode) {d : Declaration} (h : d.isPrintable = true)
    (hp : ctx.Stands p d.print) : ReadBack ctx mode p d := by
  cases d with
  | spell s =>
    refine (declared_spell ctx mode h hp).readBack .spell (Placement.apart_spellClauses ctx) (by simp) ?_
      fun s' hs' => ?_
    · intro word rest hword
      rw [declaration_cons, hword]
    · simp only [Declaration.withoutLines, hs']
  | character c =>
    refine (declared_character ctx mode h hp).readBack .character (Placement.apart_characterClauses ctx) (by simp) ?_
      fun _ hc' => hc'
    intro word rest hword
    rw [declaration_cons, hword]
  | world w =>
    refine (declared_world ctx mode h hp).readBack .world (Placement.apart_worldClauses ctx) (by simp) ?_
      fun _ hw' => hw'
    intro word rest hword
    rw [declaration_cons, hword]
  | archetype a =>
    obtain ⟨sign, word, named, colons, ts, a', hsign, hword, hnamed, hcolons, hlexes, hsame, hread⟩ :=
      lexes_archetype ctx mode h
    refine ⟨sign, word :: named :: colons :: ts, .archetype a', hsign, hlexes, ?_, hsame, ?_⟩
    · simp [startsDeclaration, beginsArchetype, Token.isSymbol, Token.isIdentifier, hsign, hword, hnamed, hcolons]
    · intro rest _
      obtain ⟨after, hafter, harchetype⟩ := hread rest
      refine ⟨after, hafter, ?_⟩
      have hidentifier : (named :: colons :: (ts ++ rest)).head?.any Token.isIdentifier = true := by
        simp [Token.isIdentifier, hnamed]
      simp only [List.cons_append, declaration_cons, hword, hidentifier, if_true, harchetype]
      rfl

/-! ## Programs -/

theorem declaration_ofTokens {sign : Token} {ts after : List Token} {d : Declaration}
    (hsign : sign.kind = .symbol .at) (h : ctx.declaration ts = .ok (some d) after) :
    Program.ofTokens ctx false (sign :: ts) =
      Program.declare (some d) (Program.ofTokens ctx false (skipTrivia false after)) := by
  rw [Program.ofTokens_cons, ← Program.ofTokens_skipTrivia]
  simp [Token.isNewline, Token.isSymbol, hsign, h, Program.after]

theorem endsIn_clauseUnless (empty : Bool) (indent : Nat) (word : String) (value : List Char) :
    EndsIn isLineEnd (clauseUnless empty indent word value) := by
  unfold clauseUnless
  split
  · exact .nil
  · exact endsIn_clauseLine indent word value

theorem endsIn_print (d : Declaration) : EndsIn isLineEnd d.print := by
  cases d with
  | spell s => exact endsIn_spell s 0
  | archetype a => exact endsIn_clauseLine _ _ _
  | character c =>
    refine .both ?_ (endsIn_clauseUnless _ _ _ _)
    refine .both ?_ (endsIn_clauseUnless _ _ _ _)
    refine .both ?_ (endsIn_clauseUnless _ _ _ _)
    refine .both ?_ (endsIn_clauseUnless _ _ _ _)
    refine .both ?_ (endsIn_clauseUnless _ _ _ _)
    exact (endsIn_clauseLine _ _ _).both (endsIn_clauseUnless _ _ _ _)
  | world w =>
    refine .both ?_ (endsIn_clauseUnless _ _ _ _)
    refine .both ?_ (endsIn_clauseUnless _ _ _ _)
    refine .both ?_ (endsIn_clauseUnless _ _ _ _)
    exact (endsIn_clauseLine _ _ _).both (endsIn_clauseUnless _ _ _ _)

/-- A declaration before others that follow an empty line. -/
theorem printAll_cons (d : Declaration) (ds : List Declaration) :
    printAll (d :: ds) = d.print ++ (if ds.isEmpty then [] else '\n' :: printAll ds) := by
  cases ds with
  | nil => simp [printAll, Text.join]
  | cons d' ds => simp [printAll, Text.join]

/-- The newline of an empty line, before the tokens of the declarations behind it or before none. -/
theorem Follows.newline {x : List Char} {us : List Token} (hlexes : Lexes mode p x us)
    (hus : us = [] ∨ startsDeclaration us = true) (q : Position) : Follows (Token.at q .newline ['\n'] :: us) := by
  rcases hus with rfl | hus
  · exact .inl rfl
  · refine .inr ?_
    change startsDeclaration (skipTrivia false us) = true ∧ ∀ t ∈ skipTrivia false us, _
    rw [skipTrivia_of_startsDeclaration hus]
    exact ⟨hus, hlexes.faithful⟩

/-- **Printed declarations are read back** in their order, each with the line it stands on. -/
theorem ofTokens_printAll (mode : LexMode) {ds : List Declaration} (h : ∀ d ∈ ds, d.isPrintable = true)
    (hp : ctx.Stands p (printAll ds)) :
    ∃ (ts : List Token) (ds' : List Declaration), Lexes mode p (printAll ds) ts ∧
      (ts = [] ∨ startsDeclaration ts = true) ∧
      ds'.map Declaration.withoutLines = ds.map Declaration.withoutLines ∧
      Program.ofTokens ctx false ts = ⟨ds', []⟩ := by
  induction ds generalizing p with
  | nil => exact ⟨[], [], .done, .inl rfl, rfl, Program.ofTokens_nil ctx false⟩
  | cons d ds ih =>
    rw [printAll_cons] at hp ⊢
    obtain ⟨sign, ts, d', hsign, hlexes, hstarts, hsame, hread⟩ := declaration_print ctx mode (h d (by simp)) hp.left
    -- The tokens behind this declaration: none, or a newline and those of the next ones.
    obtain ⟨us, ds', hmore, hfollows, hsames, hrest⟩ : ∃ (us : List Token) (ds' : List Declaration),
        Lexes mode (p.advanceAll d.print) (if ds.isEmpty then [] else '\n' :: printAll ds) us ∧ Follows us ∧
        ds'.map Declaration.withoutLines = ds.map Declaration.withoutLines ∧
        Program.ofTokens ctx false us = ⟨ds', []⟩ := by
      by_cases hempty : ds.isEmpty = true
      · obtain rfl := List.isEmpty_iff.1 hempty
        exact ⟨[], [], .done, .inl rfl, rfl, Program.ofTokens_nil ctx false⟩
      · have hstands := hp.right
        rw [if_neg hempty] at hstands ⊢
        obtain ⟨us, ds', hlexes, hus, hsames, hrest⟩ :=
          ih (fun e he => h e (by simp [he])) (Stands.right (x := ['\n']) hstands)
        refine ⟨Token.at (p.advanceAll d.print) .newline ['\n'] :: us, ds', .token (by decide) rfl hlexes,
          .newline hlexes hus _, hsames, ?_⟩
        rw [Program.ofTokens_cons]
        exact hrest
    obtain ⟨after, hafter, hdeclaration⟩ := hread us hfollows
    refine ⟨sign :: (ts ++ us), d' :: ds', hlexes.append (endsIn_print d) hmore, .inr ?_, ?_, ?_⟩
    · exact startsDeclaration_append us hstarts
    · rw [List.map_cons, List.map_cons, hsame, hsames]
    · rw [declaration_ofTokens hsign hdeclaration, hafter, ← Program.ofTokens_skipTrivia, hrest]
      rfl

/-! ## Equality up to lines -/

/-- Lists with the same images agree item by item, where an image agrees with itself. -/
theorem all_zip_of_map {α β : Type} {f : α → β} {r : β → β → Bool} {as bs : List α} (hmap : as.map f = bs.map f)
    (hself : ∀ b ∈ bs, r (f b) (f b) = true) : (as.zip bs).all (fun p => r (f p.1) (f p.2)) = true := by
  induction bs generalizing as with
  | nil => simp
  | cons b bs ih =>
    cases as with
    | nil => simp
    | cons a as =>
      obtain ⟨hab, hrest⟩ := List.cons.inj hmap
      have hb : r (f a) (f b) = true := by
        rw [hab]
        exact hself b (by simp)
      have htail := ih hrest fun b' hb' => hself b' (by simp [hb'])
      rw [List.zip_cons_cons, List.all_cons, Bool.and_eq_true]
      exact ⟨hb, htail⟩

theorem Spell.same_self {s : Spell} (h : s.isPrintable = true) : s.same s = true := by
  obtain ⟨_, hdata⟩ := Bool.and_eq_true_iff.1 h
  have hparameters := Json.same_self _ (isPrintableData_iff.1 hdata).1
  simp [Spell.same, hparameters]

theorem Declaration.same_self {d : Declaration} (h : d.isPrintable = true) : d.same d = true := by
  cases d with
  | spell s => exact Spell.same_self h
  | archetype a => simp [Declaration.same]
  | character c =>
    simp only [isPrintable, Character.isPrintable, Bool.and_eq_true, isPrintableData_iff, List.all_eq_true] at h
    obtain ⟨⟨⟨_, hdata⟩, hrelationships⟩, hspells⟩ := h
    have hsamedata := Json.same_self _ hdata.1
    have hsamerelationships := Json.sameItems_self c.relationships hrelationships.1
    have hzip : (c.spells.zip c.spells).all (fun p => p.1.same p.2) = true :=
      all_zip_of_map (f := id) rfl fun s hs => Spell.same_self (hspells s hs)
    simp [Declaration.same, Character.same, hsamedata, hsamerelationships, hzip]
  | world w =>
    simp only [isPrintable, World.isPrintable, Bool.and_eq_true, isPrintableData_iff] at h
    obtain ⟨⟨⟨⟨_, hcosmology⟩, hgeography⟩, hcultures⟩, hhistory⟩ := h
    have hsamecosmology := Json.same_self _ hcosmology.1
    have hsamegeography := Json.same_self _ hgeography.1
    have hsamecultures := Json.sameItems_self w.cultures hcultures.1
    have hsamehistory := Json.sameItems_self w.history hhistory.1
    simp [Declaration.same, World.same, hsamecosmology, hsamegeography, hsamecultures, hsamehistory]

theorem Declaration.isPrintable_withoutLines (d : Declaration) : d.withoutLines.isPrintable = d.isPrintable := by
  cases d with
  | character c =>
    simp only [withoutLines, isPrintable, Character.isPrintable, List.all_map]
    rfl
  | _ => rfl

theorem Declaration.print_withoutLines (d : Declaration) : d.withoutLines.print = d.print := by
  cases d with
  | character c =>
    have hspell : (fun s : Spell => Spell.print { s with line := 0 } 4) = fun s => s.print 4 := rfl
    simp only [withoutLines, print, Character.print, printSpells, List.isEmpty_map, List.flatMap_map, hspell]
  | _ => rfl

/-- Lines are not printed. -/
theorem printAll_congr {ds ds' : List Declaration}
    (h : ds'.map Declaration.withoutLines = ds.map Declaration.withoutLines) : printAll ds' = printAll ds := by
  have hprint (es : List Declaration) :
      es.map Declaration.print = (es.map Declaration.withoutLines).map Declaration.print := by
    simp [Declaration.print_withoutLines]
  rw [printAll, printAll, hprint ds', hprint ds, h]

/-! ## Round trip -/

/-- **Print then parse is the identity on declarations.** The printed source of any declarations with plain names
and exact data lexes and parses without faults to these declarations in their order, each equal up to lines, and
these print as the same source again. -/
theorem parse_printAll (mode : LexMode) {ds : List Declaration} (h : ∀ d ∈ ds, d.isPrintable = true) :
    ∃ program, parseSource mode (String.ofList (printAll ds)) = .ok program ∧ program.errors = [] ∧
      program.declarations.map Declaration.withoutLines = ds.map Declaration.withoutLines ∧
      Declaration.sameAll program.declarations ds = true ∧ printAll program.declarations = printAll ds := by
  let ctx : Context := ⟨printAll ds, endOf (printAll ds)⟩
  have hstands : ctx.Stands .start (printAll ds) := ⟨[], [], (List.append_nil _).symm, rfl⟩
  obtain ⟨ts, ds', hlexes, _, hsame, hprogram⟩ := ofTokens_printAll mode h hstands
  have htokens : tokens mode (printAll ds) = .ok (ts ++ [endOf (printAll ds)]) := tokens_eq_ok.2 ⟨ts, rfl, hlexes⟩
  refine ⟨⟨ds', []⟩, ?_, rfl, hsame, ?_, printAll_congr hsame⟩
  · rw [parseSource, String.toList_ofList, htokens]
    change Except.ok (parse (printAll ds) (ts ++ [endOf (printAll ds)])) = _
    rw [parse_eq hlexes, hprogram]
  · have hlength : ds'.length = ds.length := by simpa using congrArg List.length hsame
    have hzip : (ds'.zip ds).all (fun p => p.1.sameIgnoringLines p.2) = true :=
      all_zip_of_map hsame fun d hd => Declaration.same_self (d.isPrintable_withoutLines.trans (h d hd))
    simp [Declaration.sameAll, hlength, hzip]

/-- A character with a spell of its own, nested data and escapes, before an archetype and a world. -/
def gathering : List Declaration :=
  [.character
      { name := "Mira", archetype := "The \"Sage\"", elements := ["fire", "spell", "deep\nsea"],
        data := [("age", .number (.whole ⟨-7, by decide, by decide⟩)),
          ("tags", .array [.object [("a]", .null)], .bool true, .string "\x07\x7d"])],
        relationships := [.string "\\"],
        spells := [{ name := "Ember", usage := "a # b", implementation := "", parameters := [("n", .array [])] }] },
    .archetype { name := "Sage", description := "wise" },
    .world { name := "Dawn" }]

theorem gathering_read_back : (∀ d ∈ gathering, d.isPrintable = true) ∧
    ∃ program, parseSource .strict (String.ofList (printAll gathering)) = .ok program ∧ program.errors = [] ∧
      program.declarations.map Declaration.withoutLines = gathering.map Declaration.withoutLines ∧
      Declaration.sameAll program.declarations gathering = true ∧
      printAll program.declarations = printAll gathering := by
  have h : ∀ d ∈ gathering, d.isPrintable = true := by decide +kernel
  exact ⟨h, parse_printAll .strict h⟩

end Grimoire.Source
