import Grimoire.Proofs.Source.Literals
import Grimoire.Proofs.Source.Places

/-!
# The forms of clauses

What a clause looks like as tokens: its sign, its word, a value of the form that the word asks for
(`Value`), and the newlines behind it. A value may go over several lines between its brackets, and data
must be valid. The reader of a form takes exactly the value, and so does the reader that steps over the
values of clauses without a declaration (`Taken`).
-/
namespace Grimoire.Source

open Context

/-! ## Words and newlines -/

/-- The token is this word, reserved or not. -/
structure Token.Is (t : Token) (word : String) : Prop where
  kind : t.kind = wordKind word.toList
  lexeme : t.lexeme = word.toList

instance (t : Token) (word : String) : Decidable (t.Is word) :=
  decidable_of_iff (t.kind = wordKind word.toList ∧ t.lexeme = word.toList)
    ⟨fun h => ⟨h.1, h.2⟩, fun h => ⟨h.kind, h.lexeme⟩⟩

theorem Token.Is.word? {t : Token} {word : String} (h : t.Is word) : t.word? = some word.toList := by
  have hat := word?_at .start word.toList
  rw [Token.word?, h.kind, h.lexeme]
  exact hat

def Newlines (ts : List Token) : Prop := ∀ t ∈ ts, t.isNewline = true

instance (ts : List Token) : Decidable (Newlines ts) := inferInstanceAs (Decidable (∀ t ∈ ts, t.isNewline = true))

/-- No `::` comes first. -/
def NoColons (ts : List Token) : Prop := ∀ t, ts.head? = some t → t.isSymbol .doubleColon = false

section
variable {gap rest : List Token} {t : Token}

theorem NoColons.cons (ht : t.isSymbol .doubleColon = false) : NoColons (t :: rest) := by
  intro u hu
  obtain rfl : t = u := by simpa using hu
  exact ht

theorem isDelimiter_of_newline (h : t.isNewline = true) : t.isDelimiter = false := by
  simp only [Token.isDelimiter, Token.not_symbol_of_newline h, Bool.or_self]

theorem Newlines.tail (h : Newlines (t :: gap)) : Newlines gap := by
  intro u hu
  exact h u (List.mem_cons_of_mem t hu)

theorem Newlines.skipTrivia (h : Newlines gap) (rest : List Token) :
    Context.skipTrivia false (gap ++ rest) = Context.skipTrivia false rest := by
  induction gap with
  | nil => rfl
  | cons t gap ih =>
    rw [List.cons_append, Context.skipTrivia, if_pos (h t List.mem_cons_self)]
    exact ih h.tail

theorem Newlines.balanced (h : Newlines gap) : Balanced gap := by
  induction gap with
  | nil => exact .nil
  | cons t gap ih => exact .cons (isDelimiter_of_newline (h t List.mem_cons_self)) (ih h.tail)

theorem Newlines.noColons (h : Newlines gap) (hrest : NoColons rest) : NoColons (gap ++ rest) := by
  cases gap with
  | nil => exact hrest
  | cons t gap => exact .cons (Token.not_symbol_of_newline (h t List.mem_cons_self) .doubleColon)

end

theorem kind_of_isIdentifier {t : Token} (h : t.isIdentifier = true) :
    ∃ name : String, t.kind = .identifier name.toList := by
  unfold Token.isIdentifier at h
  split at h
  · next word hkind => exact ⟨String.ofList word, by rw [hkind, String.toList_ofList]⟩
  · cases h

/-- A sign is passed neither as a newline nor as a comment. -/
theorem skipTrivia_symbol {t : Token} {s : Symbol} (h : t.isSymbol s = true) (hs : s ≠ .hash) (rest : List Token) :
    skipTrivia false (t :: rest) = t :: rest := by
  simp [skipTrivia, Token.not_newline_of_symbol h, Token.not_symbol_of_symbol h hs]

theorem expectSymbol_symbol {ctx : Context} {t : Token} {s : Symbol} (h : t.isSymbol s = true) (what : String)
    (rest : List Token) : ctx.expectSymbol s what (t :: rest) = .ok () rest := by
  simp only [expectSymbol, expectToken, h, if_true]

/-- A value that begins with a sign names no archetype. -/
theorem beginsArchetype_symbol {t : Token} {s : Symbol} (h : t.isSymbol s = true) (word : Token)
    (rest : List Token) : beginsArchetype word (t :: rest) = false := by
  rw [Token.isSymbol, beq_iff_eq] at h
  exact beginsArchetype_value (by simp [Token.isIdentifier, h]) rest

/-- A word alone could be a name, but no `::` follows it. -/
theorem beginsArchetype_single (word t : Token) {rest : List Token} (hrest : NoColons rest) :
    beginsArchetype word (t :: rest) = false := by
  cases rest with
  | nil => simp [beginsArchetype]
  | cons u rest => simp [beginsArchetype, hrest u rfl]

/-! ## Forms -/

/-- What a clause asks for behind its word. -/
inductive Form
  | text (what : String)
  | word (what : String)
  | words
  | block (shape : BlockShape) (clause : String)
  | spells
deriving DecidableEq

/-- What is wrong with a token that begins no value of the form. -/
def Form.fault : Form → Fault
  | text what | word what => .expected what
  | words => .expected "'[' to open list"
  | block shape clause => .expected ("'" ++ String.ofList [shape.opening] ++ "' after " ++ clause)
  | spells => .expected "'[' after @arc_spells"

def spellForms : List (String × Form) :=
  [("description", .text "description string"), ("archetype", .words), ("archetypes", .words),
   ("parameters", .block .map "@parameters"), ("example", .text "example string"),
   ("implementation", .text "implementation string")]

def characterForms : List (String × Form) :=
  [("archetype", .word "archetype name"), ("elements", .words), ("elemental_alignment", .words),
   ("data", .block .map "@data"), ("backstory", .text "backstory string"),
   ("relationships", .block .sequence "@relationships"), ("arc_spells", .spells)]

def worldForms : List (String × Form) :=
  [("cosmology", .block .map "@cosmology"), ("geography", .block .map "@geography"),
   ("cultures", .block .sequence "@cultures"), ("history", .block .sequence "@history")]

variable {σ : Type} {ctx : Context}

/-- The clause reads values of the form. -/
def Form.Makes (ctx : Context) : Form → Clause σ → Prop
  | text what, clause => ∃ put, clause = ctx.stringClause what put
  | word what, clause => ∃ put, clause = ctx.wordClause what put
  | words, clause => ∃ put, clause = ctx.wordListClause put
  | block .map name, clause => ∃ put, clause = ctx.mapClause name put
  | block .sequence name, clause => ∃ put, clause = ctx.sequenceClause name put
  | spells, clause => ∃ put, clause = .of ctx.spellList ctx.within_spellList put

/-- The clauses of a declaration have these forms. -/
def Fits (ctx : Context) (forms : List (String × Form)) (allowed : Clauses σ) : Prop :=
  ∀ entry ∈ forms, ∃ clause, allowed.find? entry.1.toList = some clause ∧ entry.2.Makes ctx clause

theorem fits_spellForms (ctx : Context) : Fits ctx spellForms ctx.spellClauses := by
  have hnodup := nodup_spellClauses ctx
  simp only [Fits, spellForms, List.forall_mem_cons]
  exact ⟨⟨_, find?_of_getElem? hnodup 0 rfl, _, rfl⟩, ⟨_, find?_of_getElem? hnodup 1 rfl, _, rfl⟩,
    ⟨_, find?_of_getElem? hnodup 2 rfl, _, rfl⟩, ⟨_, find?_of_getElem? hnodup 3 rfl, _, rfl⟩,
    ⟨_, find?_of_getElem? hnodup 4 rfl, _, rfl⟩, ⟨_, find?_of_getElem? hnodup 5 rfl, _, rfl⟩, by simp⟩

theorem fits_characterForms (ctx : Context) : Fits ctx characterForms ctx.characterClauses := by
  have hnodup := nodup_characterClauses ctx
  simp only [Fits, characterForms, List.forall_mem_cons]
  exact ⟨⟨_, find?_of_getElem? hnodup 0 rfl, _, rfl⟩, ⟨_, find?_of_getElem? hnodup 1 rfl, _, rfl⟩,
    ⟨_, find?_of_getElem? hnodup 2 rfl, _, rfl⟩, ⟨_, find?_of_getElem? hnodup 3 rfl, _, rfl⟩,
    ⟨_, find?_of_getElem? hnodup 4 rfl, _, rfl⟩, ⟨_, find?_of_getElem? hnodup 5 rfl, _, rfl⟩,
    ⟨_, find?_of_getElem? hnodup 6 rfl, _, rfl⟩, by simp⟩

theorem fits_worldForms (ctx : Context) : Fits ctx worldForms ctx.worldClauses := by
  have hnodup := nodup_worldClauses ctx
  simp only [Fits, worldForms, List.forall_mem_cons]
  exact ⟨⟨_, find?_of_getElem? hnodup 0 rfl, _, rfl⟩, ⟨_, find?_of_getElem? hnodup 1 rfl, _, rfl⟩,
    ⟨_, find?_of_getElem? hnodup 2 rfl, _, rfl⟩, ⟨_, find?_of_getElem? hnodup 3 rfl, _, rfl⟩, by simp⟩

/-! ## Values as tokens -/

/-- The items of a list of words behind its opening bracket, up to the closing one; a comma may follow the last. -/
inductive WordItems : List Token → Prop
  | none {gap : List Token} {last : Token} (hgap : Newlines gap) (hlast : last.isSymbol .closeBracket = true) :
      WordItems (gap ++ [last])
  | one {gap gap' : List Token} {item last : Token} {word : List Char} (hgap : Newlines gap)
      (hitem : item.stringOrWord? = some word) (hgap' : Newlines gap') (hlast : last.isSymbol .closeBracket = true) :
      WordItems (gap ++ item :: (gap' ++ [last]))
  | more {gap gap' ts : List Token} {item comma : Token} {word : List Char} (hgap : Newlines gap)
      (hitem : item.stringOrWord? = some word) (hgap' : Newlines gap') (hcomma : comma.isSymbol .comma = true)
      (next : WordItems ts) : WordItems (gap ++ item :: (gap' ++ comma :: ts))

/-- A block of valid data: what stands in the source between its signs decodes. -/
inductive DataBlock (source : List Char) (shape : BlockShape) : List Token → Prop
  | mk {first last : Token} {inner : List Token} (hfirst : first.isSymbol (openSymbol shape) = true)
      (hlast : last.isSymbol (closeSymbol shape) = true)
      (hdata : ((slice? source first.span.stop last.span.start).bind shape.decode?).isSome = true) :
      DataBlock source shape (first :: (inner ++ [last]))

/-- The values of all forms but lists of spells. -/
inductive PlainValue (source : List Char) : Form → List Token → Prop
  | text {what : String} {t : Token} {value : List Char} (h : t.kind = .string value) :
      PlainValue source (.text what) [t]
  | word {what : String} {t : Token} {word : List Char} (h : t.stringOrWord? = some word) :
      PlainValue source (.word what) [t]
  | words {first : Token} {ts : List Token} (hfirst : first.isSymbol .openBracket = true) (hts : WordItems ts) :
      PlainValue source .words (first :: ts)
  | block {shape : BlockShape} {clause : String} {ts : List Token} (h : DataBlock source shape ts) :
      PlainValue source (.block shape clause) ts

/-- The tokens of a clause. -/
structure ClauseTokens where
  sign : Token
  word : Token
  value : List Token
  gap : List Token

def ClauseTokens.all (c : ClauseTokens) : List Token := c.sign :: c.word :: (c.value ++ c.gap)

/-- A clause with this word whose value satisfies `P`, and newlines behind it. -/
structure ClauseTokens.Of (P : Form → List Token → Prop) (entry : String × Form) (c : ClauseTokens) : Prop where
  sign : c.sign.isSymbol .at = true
  word : c.word.Is entry.1
  value : P entry.2 c.value
  gap : Newlines c.gap

/-- A clause of one of these forms. -/
def ClauseTokens.Among (P : Form → List Token → Prop) (forms : List (String × Form)) (c : ClauseTokens) : Prop :=
  ∃ entry ∈ forms, c.Of P entry

/-- The spells of a list behind its opening bracket, up to the closing one; each has an implementation. -/
inductive SpellItems (source : List Char) : List Token → Prop
  | last {last : Token} (hlast : last.isSymbol .closeBracket = true) : SpellItems source [last]
  | pass {t : Token} {ts : List Token} (ht : t.isNewline = true ∨ t.isSymbol .comma = true)
      (next : SpellItems source ts) : SpellItems source (t :: ts)
  | spell {sign word name : Token} {gap ts : List Token} {clauses : List ClauseTokens}
      (hsign : sign.isSymbol .at = true) (hword : word.Is "spell") (hname : name.isIdentifier = true)
      (hgap : Newlines gap) (hclauses : ∀ c ∈ clauses, c.Among (PlainValue source) spellForms)
      (himplementation : ∃ c ∈ clauses, c.word.Is "implementation") (next : SpellItems source ts) :
      SpellItems source (sign :: word :: name :: (gap ++ (clauses.flatMap ClauseTokens.all ++ ts)))

/-- A value of the form: plain, or a list of spells. -/
inductive Value (source : List Char) : Form → List Token → Prop
  | plain {form : Form} {ts : List Token} (h : PlainValue source form ts) : Value source form ts
  | spells {first : Token} {ts : List Token} (hfirst : first.isSymbol .openBracket = true)
      (hts : SpellItems source ts) : Value source .spells (first :: ts)

/-- What readers do with the tokens of a value, whatever follows them: the clause of the form takes them, and they
are stepped over where the clause has no declaration. -/
structure Taken (ctx : Context) (form : Form) (value : List Token) : Prop where
  reads : ∀ {σ : Type} (clause : Clause σ), form.Makes ctx clause →
    ∀ s, ∃ s', ∀ rest, clause.read s (value ++ rest) = .ok s' rest
  skipped : ∀ rest, ctx.skipValue (value ++ rest) = .ok none rest
  balanced : Balanced value
  clear : ∀ word rest, NoColons rest → beginsArchetype word (value ++ rest) = false

/-! ## The tokens of valid data -/

section
variable {mode : LexMode} {p : Position} {x : List Char} {before after ts us : List Token} {t : Token}
  {shape : BlockShape} {c : Char} {cs lexeme rest : List Char}

theorem Lexes.unique (hts : Lexes mode p x ts) (hus : Lexes mode p x us) : ts = us := by
  have hall := (tokensFrom_eq_ok.2 ⟨ts, rfl, hts⟩).symm.trans (tokensFrom_eq_ok.2 ⟨us, rfl, hus⟩)
  exact List.append_cancel_right (Except.ok.inj hall)

/-- What the strict mode takes, the lenient one takes too. -/
theorem Lexes.lenient (h : Lexes mode p x ts) : Lexes .lenient p x ts := by
  induction h with
  | done => exact .done
  | separator hc _ ih => exact .separator hc ih
  | token hc hr _ ih => exact .token hc hr ih
  | skip hc hr _ _ ih => exact .skip hc hr rfl ih

/-- Each token is read somewhere in the text, and the tokens after it behind its lexeme. -/
theorem Lexes.at_token (h : Lexes mode p x (before ++ t :: after)) : ∃ front c cs kind lexeme rest,
    x = front ++ c :: cs ∧ isSeparator c = false ∧ readToken c cs = .token kind lexeme rest ∧
      t = Token.at (p.advanceAll front) kind lexeme ∧
      Lexes mode ((p.advanceAll front).advanceAll lexeme) rest after := by
  generalize hall : before ++ t :: after = all at h
  induction h generalizing before with
  | done => simp at hall
  | @separator p c cs ts hc _ ih =>
    obtain ⟨front, d, ds, kind, lexeme, rest, rfl, hd, hr, ht, hnext⟩ := ih hall
    exact ⟨c :: front, d, ds, kind, lexeme, rest, rfl, hd, hr, ht, hnext⟩
  | @skip p c cs ts hc _ _ _ ih =>
    obtain ⟨front, d, ds, kind, lexeme, rest, rfl, hd, hr, ht, hnext⟩ := ih hall
    exact ⟨c :: front, d, ds, kind, lexeme, rest, rfl, hd, hr, ht, hnext⟩
  | @token p c cs lexeme rest kind ts hc hr next ih =>
    cases before with
    | nil =>
      obtain ⟨rfl, rfl⟩ := List.cons.inj hall
      exact ⟨[], c, cs, kind, lexeme, rest, rfl, hc, hr, rfl, next⟩
    | cons b before =>
      obtain ⟨rfl, hbefore⟩ := List.cons.inj hall
      obtain ⟨front, d, ds, kind', lexeme', rest', rfl, hd, hr', ht, hnext⟩ := ih hbefore
      refine ⟨lexeme ++ front, d, ds, kind', lexeme', rest', ?_, hd, hr', ?_, ?_⟩
      · rw [List.append_assoc, append_of_readToken hr]
      · rw [Position.advanceAll_append]
        exact ht
      · rw [Position.advanceAll_append]
        exact hnext

/-- A sign makes no word before it longer. -/
theorem endsWord_of_symbol {s : Symbol} (h : readToken c cs = .token (.symbol s) lexeme rest) : EndsWord (c :: cs) := by
  apply EndsWord.cons
  constructor
  · cases hstart : startsWord c with
    | true =>
      rw [readToken_word cs hstart] at h
      have hkind : wordKind ((c :: cs).takeWhile continuesWord) = .symbol s := (Reading.token.inj h).1
      have hword := word?_at .start ((c :: cs).takeWhile continuesWord)
      rw [hkind] at hword
      cases hword
    | false =>
      cases hdigit : isAsciiDigit c with
      | true =>
        rw [readToken_digit cs hdigit] at h
        simp [readNumber] at h
      | false => rw [continuesWord, hstart, hdigit]; rfl
  · rintro rfl
    cases h

theorem level_of_decode {inner : List Char} (h : (shape.decode? inner).isSome = true) : Level .lenient inner := by
  obtain ⟨value, hread, hvalue⟩ : ∃ value, Json.read? (shape.opening :: (inner ++ [shape.closing])) = some value ∧
      shape.holds value = true := by
    unfold BlockShape.decode? at h
    split at h
    · next hread => exact ⟨_, hread, rfl⟩
    · next hread => exact ⟨_, hread, rfl⟩
    · cases h
  obtain ⟨b, inner', r, heq, hb, hr, hblock⟩ := blockText_of_read hread hvalue
  have hfirst : Json.isBlank shape.opening = false := by cases shape <;> rfl
  have hlast : Json.isBlank shape.closing = false := by cases shape <;> rfl
  cases b with
  | cons c b =>
    rw [List.cons_append, List.cons_append] at heq
    have hc := hb c List.mem_cons_self
    rw [← (List.cons.inj heq).1, hfirst] at hc
    cases hc
  | nil =>
    rw [List.nil_append, List.cons_append] at heq
    have htail := (List.cons.inj heq).2
    rcases List.eq_nil_or_concat r with rfl | ⟨r, d, rfl⟩
    · rw [List.append_nil] at htail
      rw [List.append_cancel_right htail]
      exact hblock.level
    · rw [List.concat_eq_append, ← List.append_assoc] at htail
      obtain ⟨-, hd⟩ := List.append_inj' htail rfl
      have hblank := hr d (by simp)
      rw [← (List.cons.inj hd).1, hlast] at hblank
      cases hblank

/-- **Between the signs of valid data the tokens are balanced**: they are those of its text. -/
theorem balanced_of_data {source : List Char} {first last : Token} {inner : List Token}
    (hlexes : Lexes mode .start source (before ++ first :: (inner ++ last :: after)))
    (hlast : last.isSymbol (closeSymbol shape) = true)
    (hdata : ((slice? source first.span.stop last.span.start).bind shape.decode?).isSome = true) : Balanced inner := by
  obtain ⟨front, c, cs, kind, lexeme, rest, rfl, -, hread, rfl, hrest⟩ := hlexes.lenient.at_token
  obtain ⟨text, d, ds, kind', lexeme', rest', rfl, hsolid, hread', rfl, hafter⟩ := hrest.at_token
  -- The text between the signs is what the decoder was given.
  have hsource : front ++ c :: cs = (front ++ lexeme) ++ text ++ d :: ds := by
    rw [← append_of_readToken hread, List.append_assoc, List.append_assoc]
  have hstop : (Token.at (Position.start.advanceAll front) kind lexeme).span.stop =
      Text.byteLength (front ++ lexeme) := by
    rw [← byte_advanceAll_start, Position.advanceAll_append]
    rfl
  have hstart : (Token.at (((Position.start.advanceAll front).advanceAll lexeme).advanceAll text) kind'
      lexeme').span.start = Text.byteLength (front ++ lexeme ++ text) := by
    rw [← byte_advanceAll_start, Position.advanceAll_append, Position.advanceAll_append]
    rfl
  rw [hstop, hstart, hsource, slice?_between] at hdata
  obtain ⟨us, hfragment, hbalanced⟩ :=
    level_of_decode hdata ((Position.start.advanceAll front).advanceAll lexeme)
  obtain rfl : kind' = .symbol (closeSymbol shape) := by
    simpa [Token.isSymbol, Token.at] using hlast
  have hall := hfragment _ _ (endsWord_of_symbol hread') (.token hsolid hread' hafter)
  obtain rfl : inner = us := List.append_cancel_right (hrest.unique hall)
  exact hbalanced

end

/-! ## Bracketed values -/

/-- Signs of this shape around balanced tokens. -/
inductive Enclosed (shape : BlockShape) : List Token → Prop
  | mk {first last : Token} {inner : List Token} (hfirst : first.isSymbol (openSymbol shape) = true)
      (hlast : last.isSymbol (closeSymbol shape) = true) (hinner : Balanced inner) :
      Enclosed shape (first :: (inner ++ [last]))

namespace Enclosed

variable {shape : BlockShape} {ts : List Token}

theorem balanced (h : Enclosed shape ts) : Balanced ts := by
  obtain ⟨hfirst, hlast, hinner⟩ := h
  rw [Token.isSymbol, beq_iff_eq] at hfirst hlast
  exact .block shape hfirst hlast hinner

theorem blockText (ctx : Context) (h : Enclosed shape ts) : ∃ first inner text, ts = first :: inner ∧
    first.isSymbol (openSymbol shape) = true ∧ ∀ rest, ctx.blockText shape first (inner ++ rest) = .ok text rest := by
  cases h with
  | @mk first last inner hfirst hlast hinner =>
    rw [Token.isSymbol, beq_iff_eq] at hlast
    refine ⟨first, inner ++ [last], (slice? ctx.source first.span.stop last.span.start).getD [], rfl, hfirst, ?_⟩
    intro rest
    rw [Context.blockText, List.append_assoc, hinner, List.singleton_append, blockEnd_last shape rest hlast]

theorem skipped (ctx : Context) (h : Enclosed shape ts) (rest : List Token) :
    ctx.skipValue (ts ++ rest) = .ok none rest := by
  obtain ⟨first, inner, text, rfl, hfirst, htext⟩ := h.blockText ctx
  rw [List.cons_append, skipValue_cons, dropValue]
  cases shape with
  | map =>
    have hbrace : first.isSymbol .openBrace = true := hfirst
    rw [if_pos hbrace, htext]
    rfl
  | sequence =>
    have hbracket : first.isSymbol .openBracket = true := hfirst
    have hbrace : first.isSymbol .openBrace = false := Token.not_symbol_of_symbol hbracket (by decide)
    rw [hbrace, if_neg Bool.false_ne_true, if_pos hbracket, htext]
    rfl

theorem clear (h : Enclosed shape ts) (word : Token) (rest : List Token) :
    beginsArchetype word (ts ++ rest) = false := by
  obtain ⟨hfirst, -, -⟩ := h
  exact beginsArchetype_symbol hfirst word _

/-- A value in brackets of one kind, with what its reader takes it for. -/
theorem taken {form : Form} (h : Enclosed shape ts)
    (hreads : ∀ {σ : Type} (clause : Clause σ), form.Makes ctx clause →
      ∀ s, ∃ s', ∀ rest, clause.read s (ts ++ rest) = .ok s' rest) : Taken ctx form ts :=
  ⟨hreads, h.skipped ctx, h.balanced, fun word rest _ => h.clear word rest⟩

end Enclosed

/-- Balanced tokens and a closing bracket. -/
def Closed (ts : List Token) : Prop :=
  ∃ inner last, ts = inner ++ [last] ∧ last.isSymbol .closeBracket = true ∧ Balanced inner

section
variable {front ts : List Token} {t : Token}

theorem Closed.last (ht : t.isSymbol .closeBracket = true) : Closed [t] := ⟨[], t, rfl, ht, .nil⟩

theorem Closed.behind (hfront : Balanced front) (h : Closed ts) : Closed (front ++ ts) := by
  obtain ⟨inner, last, rfl, hlast, hinner⟩ := h
  exact ⟨front ++ inner, last, (List.append_assoc _ _ _).symm, hlast, hfront.append hinner⟩

theorem Closed.cons (ht : t.isDelimiter = false) (h : Closed ts) : Closed (t :: ts) := h.behind (.cons ht .nil)

theorem Closed.enclosed (ht : t.isSymbol .openBracket = true) (h : Closed ts) : Enclosed .sequence (t :: ts) := by
  obtain ⟨inner, last, rfl, hlast, hinner⟩ := h
  exact ⟨ht, hlast, hinner⟩

end

/-- A reader that takes these tokens for one value, whatever follows. -/
theorem reads_of {α : Type} {read : List Token → Outcome α} {within : ∀ ts, (read ts).Within ts} {put : σ → α → σ}
    {ts : List Token} {a : α} (h : ∀ rest, read (ts ++ rest) = .ok a rest) (s : σ) :
    ∃ s', ∀ rest, (Clause.of read within put).read s (ts ++ rest) = .ok s' rest := by
  refine ⟨put s a, ?_⟩
  intro rest
  rw [Clause.of_read, h, Outcome.bind_ok]

/-! ### Lists of words -/

theorem wordItems_congr (ctx : Context) {ts us : List Token} (h : skipTrivia false ts = skipTrivia false us) :
    ctx.wordItems ts = ctx.wordItems us := by
  rw [wordItems_eq, h, ← wordItems_eq]

theorem WordItems.closed {ts : List Token} (h : WordItems ts) : Closed ts := by
  induction h with
  | none hgap hlast => exact (Closed.last hlast).behind hgap.balanced
  | one hgap hitem hgap' hlast =>
    apply Closed.behind hgap.balanced
    exact ((Closed.last hlast).behind hgap'.balanced).cons (isDelimiter_of_stringOrWord hitem).1
  | more hgap hitem hgap' hcomma _ ih =>
    apply Closed.behind hgap.balanced
    apply Closed.cons (isDelimiter_of_stringOrWord hitem).1
    apply Closed.behind hgap'.balanced
    exact ih.cons (isDelimiter_of_symbol hcomma (by simp))

section
variable {t : Token} {gap : List Token}

theorem wordItems_gap (ctx : Context) (h : Trivial gap) (rest : List Token) :
    ctx.wordItems (gap ++ rest) = ctx.wordItems rest := wordItems_congr ctx (h rest)

theorem wordItems_close (ctx : Context) (h : t.isSymbol .closeBracket = true) (rest : List Token) :
    ctx.wordItems (t :: rest) = .ok [] rest := by
  rw [wordItems_eq, skipTrivia_symbol h (by simp)]
  simp only [h, if_true]

theorem wordsAfter_close (ctx : Context) (item : String) (hgap : Trivial gap) (h : t.isSymbol .closeBracket = true)
    (rest : List Token) : ctx.wordsAfter item (gap ++ t :: rest) = .ok [item] rest := by
  have hcomma : t.isSymbol .comma = false := Token.not_symbol_of_symbol h (by decide)
  rw [wordsAfter, hgap, skipTrivia_symbol h (by simp)]
  simp only [hcomma, h, Bool.false_eq_true, if_false, if_true]

theorem wordsAfter_comma (ctx : Context) (item : String) (hgap : Trivial gap) (h : t.isSymbol .comma = true)
    (rest : List Token) : ctx.wordsAfter item (gap ++ t :: rest) =
      (ctx.wordItems rest).bind fun items rest => .ok (item :: items) rest := by
  rw [wordsAfter, hgap, skipTrivia_symbol h (by simp)]
  simp only [h, if_true]

end

theorem WordItems.reads (ctx : Context) {ts : List Token} (h : WordItems ts) :
    ∃ items, ∀ rest, ctx.wordItems (ts ++ rest) = .ok items rest := by
  have first {item : Token} {word : List Char} (hitem : item.stringOrWord? = some word) (rest : List Token) :
      ctx.wordItems (item :: rest) = ctx.wordsAfter (String.ofList word) rest :=
    wordItems_word (by rw [hitem, String.toList_ofList]) rest
  induction h with
  | none hgap hlast =>
    refine ⟨[], fun rest => ?_⟩
    rw [List.append_assoc, wordItems_gap ctx hgap.skipTrivia, List.singleton_append, wordItems_close ctx hlast]
  | @one gap gap' item last word hgap hitem hgap' hlast =>
    refine ⟨[String.ofList word], fun rest => ?_⟩
    rw [List.append_assoc, wordItems_gap ctx hgap.skipTrivia, List.cons_append, first hitem, List.append_assoc,
      List.singleton_append, wordsAfter_close ctx _ hgap'.skipTrivia hlast]
  | @more gap gap' ts item comma word hgap hitem hgap' hcomma _ ih =>
    obtain ⟨items, hitems⟩ := ih
    refine ⟨String.ofList word :: items, fun rest => ?_⟩
    rw [List.append_assoc, wordItems_gap ctx hgap.skipTrivia, List.cons_append, first hitem, List.append_assoc,
      List.cons_append, wordsAfter_comma ctx _ hgap'.skipTrivia hcomma, hitems, Outcome.bind_ok]

/-! ### Values of one token -/

theorem skipValue_single {t : Token} (hdelimiter : t.isDelimiter = false) (hat : t.isSymbol .at = false)
    (hnewline : t.isNewline = false) (rest : List Token) : ctx.skipValue (t :: rest) = .ok none rest := by
  simp only [Token.isDelimiter, Bool.or_eq_false_iff] at hdelimiter
  obtain ⟨⟨⟨hbrace, -⟩, hbracket⟩, -⟩ := hdelimiter
  rw [skipValue_cons, dropValue]
  simp only [hbrace, hbracket, hat, hnewline, Bool.false_eq_true, if_false, Bool.or_self]

theorem taken_string (ctx : Context) {t : Token} {value : List Char} (h : t.kind = .string value) (what : String) :
    Taken ctx (.text what) [t] where
  reads := by
    rintro σ clause ⟨put, rfl⟩ s
    apply reads_of
    intro rest
    simp only [expectString, expectToken, List.singleton_append, h]
    rfl
  skipped := skipValue_single (by simp [Token.isDelimiter, Token.isSymbol, h]) (by simp [Token.isSymbol, h])
    (by simp [Token.isNewline, h])
  balanced := .cons (by simp [Token.isDelimiter, Token.isSymbol, h]) .nil
  clear word rest _ := beginsArchetype_value (by simp [Token.isIdentifier, h]) rest

theorem taken_word (ctx : Context) {t : Token} {word : List Char} (h : t.stringOrWord? = some word) (what : String) :
    Taken ctx (.word what) [t] where
  reads := by
    rintro σ clause ⟨put, rfl⟩ s
    apply reads_of
    intro rest
    simp only [expectStringOrWord, expectToken, List.singleton_append, h, Option.map_some]
    rfl
  skipped := skipValue_single (isDelimiter_of_stringOrWord h).1 (isSymbol_of_stringOrWord h .at)
    (isDelimiter_of_stringOrWord h).2
  balanced := .cons (isDelimiter_of_stringOrWord h).1 .nil
  clear word rest hrest := beginsArchetype_single word t hrest

/-! ### Blocks -/

theorem Enclosed.block (ctx : Context) {shape : BlockShape} {ts : List Token} (h : Enclosed shape ts)
    (clause : String) : ∃ text, ∀ rest, ctx.block shape clause (ts ++ rest) = .ok text rest := by
  obtain ⟨first, inner, text, rfl, hfirst, htext⟩ := h.blockText ctx
  refine ⟨text, ?_⟩
  intro rest
  rw [List.cons_append, Context.block, if_pos hfirst, htext]

theorem DataBlock.enclosed {mode : LexMode} {source : List Char} {shape : BlockShape} {all ts : List Token}
    (hlexes : Lexes mode .start source all) (hts : ts <:+: all) (h : DataBlock source shape ts) :
    Enclosed shape ts := by
  obtain ⟨before, after, rfl⟩ := hts
  cases h with
  | @mk first last inner hfirst hlast hdata =>
    have hwhere : Lexes mode .start source (before ++ first :: (inner ++ last :: after)) := by simpa using hlexes
    exact ⟨hfirst, hlast, balanced_of_data hwhere hlast hdata⟩

theorem PlainValue.taken (ctx : Context) {mode : LexMode} {source : List Char} {form : Form} {all ts : List Token}
    (hlexes : Lexes mode .start source all) (hts : ts <:+: all) (h : PlainValue source form ts) :
    Taken ctx form ts := by
  cases h with
  | text h => exact taken_string ctx h _
  | word h => exact taken_word ctx h _
  | words hfirst hitems =>
    apply (hitems.closed.enclosed hfirst).taken
    rintro σ clause ⟨put, rfl⟩ s
    obtain ⟨items, hread⟩ := hitems.reads ctx
    apply reads_of
    intro rest
    rw [List.cons_append, wordList_eq, expectSymbol_symbol hfirst, Outcome.bind_ok, hread]
  | @block shape clause ts hblock =>
    have henclosed := hblock.enclosed hlexes hts
    obtain ⟨text, htext⟩ := henclosed.block ctx clause
    apply henclosed.taken
    intro σ reader hreader s
    cases shape with
    | map =>
      obtain ⟨put, rfl⟩ := hreader
      exact reads_of htext s
    | sequence =>
      obtain ⟨put, rfl⟩ := hreader
      exact reads_of htext s

/-! ## Clauses -/

theorem ClauseTokens.Among.imp {P Q : Form → List Token → Prop} {forms : List (String × Form)} {c : ClauseTokens}
    (h : c.Among P forms) (hPQ : ∀ form, P form c.value → Q form c.value) : c.Among Q forms := by
  obtain ⟨entry, hentry, hc⟩ := h
  exact ⟨entry, hentry, hc.sign, hc.word, hPQ _ hc.value, hc.gap⟩

/-- The value of a clause stands among the tokens of all clauses. -/
theorem infix_value {c : ClauseTokens} {cs : List ClauseTokens} (hc : c ∈ cs) :
    c.value <:+: cs.flatMap ClauseTokens.all := by
  obtain ⟨front, back, rfl⟩ := List.append_of_mem hc
  refine ⟨front.flatMap ClauseTokens.all ++ [c.sign, c.word], c.gap ++ back.flatMap ClauseTokens.all, ?_⟩
  simp [ClauseTokens.all]

theorem taken_clauses {P : Form → List Token → Prop} {forms : List (String × Form)} {all : List Token}
    {cs : List ClauseTokens} (hP : ∀ form ts, ts <:+: all → P form ts → Taken ctx form ts)
    (hin : cs.flatMap ClauseTokens.all <:+: all) (hcs : ∀ c ∈ cs, c.Among P forms) :
    ∀ c ∈ cs, c.Among (Taken ctx) forms := by
  intro c hc
  apply (hcs c hc).imp
  intro form hform
  exact hP form c.value ((infix_value hc).trans hin) hform

section
variable {P : Form → List Token → Prop} {forms : List (String × Form)} {entry : String × Form}
  {allowed : Clauses σ} {clause : Clause σ} {s : σ} {c : ClauseTokens} {cs : List ClauseTokens} {gap rest : List Token}

theorem NoColons.clauses (hcs : ∀ c ∈ cs, c.Among P forms) (hrest : NoColons rest) :
    NoColons (cs.flatMap ClauseTokens.all ++ rest) := by
  cases cs with
  | nil => exact hrest
  | cons c cs =>
    obtain ⟨entry, -, hc⟩ := hcs c List.mem_cons_self
    exact .cons (Token.not_symbol_of_symbol hc.sign (by decide))

theorem balanced_clauses (hcs : ∀ c ∈ cs, c.Among (Taken ctx) forms) : Balanced (cs.flatMap ClauseTokens.all) := by
  induction cs with
  | nil => exact .nil
  | cons c cs ih =>
    obtain ⟨entry, -, hc⟩ := hcs c List.mem_cons_self
    rw [List.flatMap_cons]
    apply Balanced.append
    · apply Balanced.cons (isDelimiter_of_symbol hc.sign (by simp))
      apply Balanced.cons (isDelimiter_of_word hc.word.word?).1
      exact hc.value.balanced.append hc.gap.balanced
    · exact ih fun c hc => hcs c (List.mem_cons_of_mem _ hc)

theorem readClauses_gap (h : Trivial gap) : readClauses allowed s (gap ++ rest) = readClauses allowed s rest := by
  rw [readClauses_eq, h, ← readClauses_eq]

/-- An allowed clause at the front is read by its reader. -/
theorem readClauses_word {sign t : Token} {word : String} (hsign : sign.isSymbol .at = true) (hword : t.Is word)
    (hfind : allowed.find? word.toList = some clause) (hclear : beginsArchetype t rest = false) :
    readClauses allowed s (sign :: t :: rest) = (clause.read s rest).bind (readClauses allowed) := by
  have hnext : nextClause allowed (sign :: t :: rest) = some (clause, rest) := by
    simp [nextClause, hsign, hclear, hword.word?, hfind]
  rw [readClauses_eq, skipTrivia_symbol hsign (by simp), hnext]

/-- A clause whose value is taken turns the state into another one. -/
theorem readClauses_clause (h : c.Of (Taken ctx) entry) (hfind : allowed.find? entry.1.toList = some clause)
    (hmakes : entry.2.Makes ctx clause) (s : σ) : ∃ s', (∀ rest, clause.read s (c.value ++ rest) = .ok s' rest) ∧
      ∀ rest, NoColons rest → readClauses allowed s (c.all ++ rest) = readClauses allowed s' rest := by
  obtain ⟨s', hread⟩ := h.value.reads clause hmakes s
  refine ⟨s', hread, ?_⟩
  intro rest hrest
  have hclear := h.value.clear c.word (c.gap ++ rest) (h.gap.noColons hrest)
  have hall : c.all ++ rest = c.sign :: c.word :: (c.value ++ (c.gap ++ rest)) := by simp [ClauseTokens.all]
  rw [hall, readClauses_word h.sign h.word hfind hclear, hread, Outcome.bind_ok, readClauses_gap h.gap.skipTrivia]

/-- All clauses are read, one after another. -/
theorem readClauses_clauses (hfits : Fits ctx forms allowed) (hcs : ∀ c ∈ cs, c.Among (Taken ctx) forms) (s : σ) :
    ∃ s', ∀ rest, NoColons rest →
      readClauses allowed s (cs.flatMap ClauseTokens.all ++ rest) = readClauses allowed s' rest := by
  induction cs generalizing s with
  | nil => exact ⟨s, fun rest _ => rfl⟩
  | cons c cs ih =>
    obtain ⟨entry, hentry, hc⟩ := hcs c List.mem_cons_self
    have htail : ∀ c ∈ cs, c.Among (Taken ctx) forms := fun c hc => hcs c (List.mem_cons_of_mem _ hc)
    obtain ⟨clause, hfind, hmakes⟩ := hfits entry hentry
    obtain ⟨t, -, ht⟩ := readClauses_clause hc hfind hmakes s
    obtain ⟨s', hs'⟩ := ih htail t
    refine ⟨s', ?_⟩
    intro rest hrest
    rw [List.flatMap_cons, List.append_assoc, ht _ (hrest.clauses htail), hs' rest hrest]

end

/-! ### Implementations of spells -/

/-- Only the clause for it gives a spell its implementation, and none takes it away. -/
theorem implementation_read {word : String} {clause : Clause SpellDraft} {d d' : SpellDraft} {ts rest : List Token}
    (hfind : ctx.spellClauses.find? word.toList = some clause) (h : clause.read d ts = .ok d' rest) :
    (d.implementation?.isSome = true → d'.implementation?.isSome = true) ∧
      (word = "implementation" → d'.implementation?.isSome = true) := by
  obtain ⟨⟨w, clause⟩, hsome, rfl⟩ := Option.map_eq_some_iff.1 hfind
  have hmem := List.mem_of_find?_eq_some hsome
  have hword : w = word := String.toList_injective (by simpa using List.find?_some hsome)
  subst hword
  have put {α : Type} {o : Outcome α} {f : α → SpellDraft}
      (h : (o.bind fun a after => .ok (f a) after) = .ok d' rest) : ∃ a, d' = f a := by
    cases o with
    | ok a after =>
      injection h with hd
      exact ⟨a, hd.symm⟩
    | fail e after => cases h
  simp only [spellClauses, List.mem_cons, Prod.mk.injEq, List.not_mem_nil, or_false] at hmem
  rcases hmem with ⟨rfl, rfl⟩ | ⟨rfl, rfl⟩ | ⟨rfl, rfl⟩ | ⟨rfl, rfl⟩ | ⟨rfl, rfl⟩ | ⟨rfl, rfl⟩
  all_goals
    simp only [stringClause, wordListClause, Context.mapClause, Clause.of_read] at h
    obtain ⟨a, rfl⟩ := put h
    simp

theorem readClauses_spell {cs : List ClauseTokens} (hcs : ∀ c ∈ cs, c.Among (Taken ctx) spellForms) (d : SpellDraft) :
    ∃ d', (∀ rest, NoColons rest → readClauses ctx.spellClauses d (cs.flatMap ClauseTokens.all ++ rest) =
        readClauses ctx.spellClauses d' rest) ∧
      (d.implementation?.isSome = true ∨ (∃ c ∈ cs, c.word.Is "implementation") →
        d'.implementation?.isSome = true) := by
  induction cs generalizing d with
  | nil => exact ⟨d, fun rest _ => rfl, by simp⟩
  | cons c cs ih =>
    obtain ⟨entry, hentry, hc⟩ := hcs c List.mem_cons_self
    have htail : ∀ c ∈ cs, c.Among (Taken ctx) spellForms := fun c hc => hcs c (List.mem_cons_of_mem _ hc)
    obtain ⟨clause, hfind, hmakes⟩ := fits_spellForms ctx entry hentry
    obtain ⟨e, hread, he⟩ := readClauses_clause hc hfind hmakes d
    obtain ⟨hkept, hset⟩ := implementation_read hfind (hread [])
    obtain ⟨d', hd', hsome⟩ := ih htail e
    refine ⟨d', fun rest hrest => ?_, fun himplementation => hsome ?_⟩
    · rw [List.flatMap_cons, List.append_assoc, he _ (hrest.clauses htail), hd' rest hrest]
    · rcases himplementation with hd | ⟨c', hc', hword⟩
      · exact .inl (hkept hd)
      · rcases List.mem_cons.1 hc' with rfl | hc'
        · left
          apply hset
          apply String.toList_injective
          exact hc.word.lexeme.symm.trans hword.lexeme
        · exact .inr ⟨c', hc', hword⟩

/-! ### Named heads -/

section
variable {name : Token} {called : String} {gap : List Token}

theorem spell_named (hname : name.kind = .identifier called.toList) (hgap : Trivial gap) (rest : List Token) :
    ctx.spell (name :: (gap ++ rest)) =
      (readClauses ctx.spellClauses { spell := { name := called, line := name.span.line } } rest).bind
        (finishSpell called name) := by
  rw [spell_eq, expectIdentifier_named hname, Outcome.bind_ok, readClauses_gap hgap]
  rfl

theorem character_named (hname : name.kind = .identifier called.toList) (hgap : Trivial gap) (rest : List Token) :
    ctx.character (name :: (gap ++ rest)) =
      readClauses ctx.characterClauses { name := called, line := name.span.line } rest := by
  rw [character, declared_eq, expectIdentifier_named hname, Outcome.bind_ok, readClauses_gap hgap]
  rfl

theorem world_named (hname : name.kind = .identifier called.toList) (hgap : Trivial gap) (rest : List Token) :
    ctx.world (name :: (gap ++ rest)) =
      readClauses ctx.worldClauses { name := called, line := name.span.line } rest := by
  rw [world, declared_eq, expectIdentifier_named hname, Outcome.bind_ok, readClauses_gap hgap]
  rfl

end

theorem spell_reads {name : Token} {gap : List Token} {cs : List ClauseTokens} (hname : name.isIdentifier = true)
    (hgap : Newlines gap) (hcs : ∀ c ∈ cs, c.Among (Taken ctx) spellForms)
    (himplementation : ∃ c ∈ cs, c.word.Is "implementation") :
    ∃ s, ∀ rest, NoColons rest → nextClause ctx.spellClauses (skipTrivia false rest) = none →
      ctx.spell (name :: (gap ++ (cs.flatMap ClauseTokens.all ++ rest))) = .ok s (skipTrivia false rest) := by
  obtain ⟨called, hkind⟩ := kind_of_isIdentifier hname
  obtain ⟨d, hread, hsome⟩ := readClauses_spell hcs { spell := { name := called, line := name.span.line } }
  obtain ⟨implementation, hd⟩ := Option.isSome_iff_exists.1 (hsome (.inr himplementation))
  refine ⟨{ d.spell with implementation }, ?_⟩
  intro rest hrest hnext
  rw [spell_named hkind hgap.skipTrivia, hread rest hrest, readClauses_eq, hnext]
  simp only [Outcome.bind_ok, finishSpell, hd]

/-! ### Lists of spells -/

section
variable {t sign word : Token}

/-- Only a sign begins a clause. -/
theorem nextClause_other {allowed : Clauses σ} (h : t.isSymbol .at = false) (rest : List Token) :
    nextClause allowed (t :: rest) = none := by
  cases rest <;> simp [nextClause, h]

/-- The next spell of a list is no clause of the one before. -/
theorem nextClause_spell (hword : word.Is "spell") (rest : List Token) :
    nextClause ctx.spellClauses (sign :: word :: rest) = none := by
  have hnone : ctx.spellClauses.find? "spell".toList = none := Placement.apart_spellClauses ctx "spell" (by simp)
  simp only [nextClause, hword.word?, Option.bind_some, hnone, Option.map_none, ite_self]

theorem spellItems_close (ctx : Context) (h : t.isSymbol .closeBracket = true) (rest : List Token) :
    ctx.spellItems (t :: rest) = .ok [] rest := by
  have hcomma : t.isSymbol .comma = false := Token.not_symbol_of_symbol h (by decide)
  rw [spellItems_eq, skipTrivia_symbol h (by simp)]
  simp only [spellsFrom, hcomma, h, Bool.false_eq_true, if_false, if_true]

theorem spellItems_comma (ctx : Context) (h : t.isSymbol .comma = true) (rest : List Token) :
    ctx.spellItems (t :: rest) = ctx.spellItems rest := by
  rw [spellItems_eq, skipTrivia_symbol h (by simp)]
  simp only [spellsFrom, h, if_true]

theorem spellItems_spell {s : Spell} {ts rest : List Token} (hsign : sign.isSymbol .at = true)
    (hword : word.Is "spell") (h : ctx.spell ts = .ok s (skipTrivia false rest)) :
    ctx.spellItems (sign :: word :: ts) = (ctx.spellItems rest).bind fun more rest => .ok (s :: more) rest := by
  have hcomma : sign.isSymbol .comma = false := Token.not_symbol_of_symbol hsign (by decide)
  have hbracket : sign.isSymbol .closeBracket = false := Token.not_symbol_of_symbol hsign (by decide)
  have hkeyword : word.kind = .keyword .spell := hword.kind
  have hrest := ctx.spellItems_congr rest (skipTrivia_skipTrivia false rest)
  rw [spellItems_eq, skipTrivia_symbol hsign (by simp)]
  simp [spellsFrom, hcomma, hbracket, hsign, hkeyword, h, hrest]

end

namespace SpellItems

variable {source : List Char} {ts : List Token}

/-- What may stand in a list of spells ends the clauses before it. -/
theorem ends (ctx : Context) (h : SpellItems source ts) (rest : List Token) :
    NoColons (ts ++ rest) ∧ nextClause ctx.spellClauses (skipTrivia false (ts ++ rest)) = none := by
  induction h with
  | last hlast =>
    refine ⟨.cons (Token.not_symbol_of_symbol hlast (by decide)), ?_⟩
    rw [List.singleton_append, skipTrivia_symbol hlast (by simp)]
    exact nextClause_other (Token.not_symbol_of_symbol hlast (by decide)) rest
  | pass ht _ ih =>
    rcases ht with hnewline | hcomma
    · refine ⟨.cons (Token.not_symbol_of_newline hnewline .doubleColon), ?_⟩
      rw [List.cons_append, skipTrivia, if_pos hnewline]
      exact ih.2
    · refine ⟨.cons (Token.not_symbol_of_symbol hcomma (by decide)), ?_⟩
      rw [List.cons_append, skipTrivia_symbol hcomma (by simp)]
      exact nextClause_other (Token.not_symbol_of_symbol hcomma (by decide)) _
  | spell hsign hword _ _ _ _ _ _ =>
    refine ⟨.cons (Token.not_symbol_of_symbol hsign (by decide)), ?_⟩
    rw [List.cons_append, skipTrivia_symbol hsign (by simp)]
    exact nextClause_spell hword _

variable {mode : LexMode} {all : List Token}

/-- What stands behind a spell's name: its clauses, and the rest of the list. -/
theorem infix_parts {sign word name : Token} {gap : List Token} {cs : List ClauseTokens}
    (hts : sign :: word :: name :: (gap ++ (cs.flatMap ClauseTokens.all ++ ts)) <:+: all) :
    cs.flatMap ClauseTokens.all <:+: all ∧ ts <:+: all := by
  constructor
  · exact List.IsInfix.trans ⟨sign :: word :: name :: gap, ts, by simp⟩ hts
  · exact List.IsInfix.trans ⟨sign :: word :: name :: (gap ++ cs.flatMap ClauseTokens.all), [], by simp⟩ hts

theorem closed (ctx : Context) (hlexes : Lexes mode .start source all) (hts : ts <:+: all)
    (h : SpellItems source ts) : Closed ts := by
  induction h with
  | last hlast => exact .last hlast
  | @pass t ts ht _ ih =>
    apply (ih ((List.suffix_cons t ts).isInfix.trans hts)).cons
    rcases ht with hnewline | hcomma
    · exact isDelimiter_of_newline hnewline
    · exact isDelimiter_of_symbol hcomma (by simp)
  | spell hsign hword hname hgap hcs _ _ ih =>
    obtain ⟨hclauses, hrest⟩ := infix_parts hts
    have htaken := taken_clauses (fun _ _ hin h => PlainValue.taken ctx hlexes hin h) hclauses hcs
    obtain ⟨called, hkind⟩ := kind_of_isIdentifier hname
    apply Closed.cons (isDelimiter_of_symbol hsign (by simp))
    apply Closed.cons (isDelimiter_of_word hword.word?).1
    apply Closed.cons (by simp [Token.isDelimiter, Token.isSymbol, hkind])
    exact ((ih hrest).behind (balanced_clauses htaken)).behind hgap.balanced

theorem reads (ctx : Context) (hlexes : Lexes mode .start source all) (hts : ts <:+: all) (h : SpellItems source ts) :
    ∃ spells, ∀ rest, ctx.spellItems (ts ++ rest) = .ok spells rest := by
  induction h with
  | last hlast => exact ⟨[], fun rest => spellItems_close ctx hlast rest⟩
  | @pass t ts ht _ ih =>
    obtain ⟨spells, hspells⟩ := ih ((List.suffix_cons t ts).isInfix.trans hts)
    refine ⟨spells, fun rest => ?_⟩
    rcases ht with hnewline | hcomma
    · have hskip : skipTrivia false (t :: (ts ++ rest)) = skipTrivia false (ts ++ rest) := by
        rw [skipTrivia, if_pos hnewline]
      rw [List.cons_append, ctx.spellItems_congr _ hskip, hspells]
    · rw [List.cons_append, spellItems_comma ctx hcomma, hspells]
  | @spell sign word name gap ts cs hsign hword hname hgap hcs himplementation hitems ih =>
    obtain ⟨hclauses, hrest⟩ := infix_parts hts
    obtain ⟨spells, hspells⟩ := ih hrest
    have htaken := taken_clauses (fun _ _ hin h => PlainValue.taken ctx hlexes hin h) hclauses hcs
    obtain ⟨s, hspell⟩ := spell_reads hname hgap htaken himplementation
    refine ⟨s :: spells, fun rest => ?_⟩
    obtain ⟨hcolons, hnext⟩ := hitems.ends ctx rest
    have hone := hspell (ts ++ rest) hcolons hnext
    have hall : sign :: word :: name :: (gap ++ (cs.flatMap ClauseTokens.all ++ ts)) ++ rest =
        sign :: word :: name :: (gap ++ (cs.flatMap ClauseTokens.all ++ (ts ++ rest))) := by simp
    rw [hall, spellItems_spell hsign hword hone, hspells, Outcome.bind_ok]

end SpellItems

/-- **Readers take every value of its form**, and step over it where its clause has no declaration. -/
theorem Value.taken (ctx : Context) {mode : LexMode} {source : List Char} {form : Form} {all ts : List Token}
    (hlexes : Lexes mode .start source all) (hts : ts <:+: all) (h : Value source form ts) : Taken ctx form ts := by
  cases h with
  | plain h => exact h.taken ctx hlexes hts
  | @spells first ts hfirst hitems =>
    have hrest : ts <:+: all := (List.suffix_cons first ts).isInfix.trans hts
    apply ((hitems.closed ctx hlexes hrest).enclosed hfirst).taken
    rintro σ clause ⟨put, rfl⟩ s
    obtain ⟨spells, hspells⟩ := hitems.reads ctx hlexes hrest
    apply reads_of
    intro rest
    rw [List.cons_append, spellList_eq, expectSymbol_symbol hfirst, Outcome.bind_ok, hspells]

end Grimoire.Source
