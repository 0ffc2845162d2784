import Grimoire.Proofs.Source.Appending
import Grimoire.Proofs.Source.Numerals

/-!
# Printed clauses

The text of each value is taken for that value by the reader of its clause (`Takes`), wherever it stands
in the source, and the line of a clause puts the value in its place (`Writes`). Lines that write one
after another write together what each of them writes.
-/
namespace Grimoire.Source

open Context

/-! ## Text in its place -/

/-- The text stands in the source at this place. -/
def Context.Stands (ctx : Context) (p : Position) (x : List Char) : Prop :=
  ∃ before after, ctx.source = before ++ (x ++ after) ∧ p = Position.start.advanceAll before

variable {ctx : Context} {mode : LexMode} {p : Position} {x y : List Char}

theorem Context.Stands.left (h : ctx.Stands p (x ++ y)) : ctx.Stands p x := by
  obtain ⟨before, after, hsource, hp⟩ := h
  exact ⟨before, y ++ after, by rw [hsource, List.append_assoc], hp⟩

theorem Context.Stands.right (h : ctx.Stands p (x ++ y)) : ctx.Stands (p.advanceAll x) y := by
  obtain ⟨before, after, hsource, rfl⟩ := h
  refine ⟨before ++ x, after, ?_, (Position.advanceAll_append _ _ _).symm⟩
  rw [hsource, List.append_assoc, List.append_assoc]

theorem takeBytes_all (x : List Char) : takeBytes (Text.byteLength x) x = some x := by
  induction x with
  | nil => rfl
  | cons c x ih =>
    have hc := c.utf8Size_pos
    obtain ⟨n, hn⟩ : ∃ n, c.utf8Size + Text.byteLength x = n + 1 := ⟨c.utf8Size + Text.byteLength x - 1, by omega⟩
    have hrest : n + 1 - c.utf8Size = Text.byteLength x := by omega
    rw [byteLength_cons, hn, takeBytes, if_pos (by omega), hrest, ih]
    rfl

/-- The text between the bytes where it begins and ends. -/
theorem Context.Stands.slice (h : ctx.Stands p x) : slice? ctx.source p.byte (p.advanceAll x).byte = some x := by
  obtain ⟨before, after, hsource, rfl⟩ := h
  have hright := slice?_append_right 0 (Text.byteLength x) before (x ++ after)
  have hleft := slice?_append_left after (Nat.zero_le (Text.byteLength x)) (Nat.le_refl _)
  rw [Position.byte_advanceAll _ x, byte_advanceAll_start, hsource, Nat.add_comm (Text.byteLength before)]
  rw [Nat.zero_add] at hright
  rw [hright, hleft, slice?, if_pos (Nat.zero_le _)]
  simp [dropBytes, takeBytes_all]

/-! ## Values -/

/-- The reader takes the text at this place for `a`, and its first token is no name. -/
def Takes {α : Type} (mode : LexMode) (p : Position) (x : List Char) (read : List Token → Outcome α) (a : α) : Prop :=
  ∃ t ts, Fragment mode p x (t :: ts) ∧ t.isIdentifier = false ∧ ∀ rest, read (t :: (ts ++ rest)) = .ok a rest

theorem takes_string (what s : String) : Takes mode p (quote s) (ctx.expectString what) s := by
  refine ⟨_, [], fragment_quote s, rfl, ?_⟩
  intro rest
  change Outcome.ok (String.ofList s.toList) rest = .ok s rest
  rw [String.ofList_toList]

theorem takes_word (what s : String) : Takes mode p (quote s) (ctx.expectStringOrWord what) s := by
  refine ⟨_, [], fragment_quote s, rfl, ?_⟩
  intro rest
  change Outcome.ok (String.ofList s.toList) rest = .ok s rest
  rw [String.ofList_toList]

/-! ### Lists of words -/

theorem join_cons (separator part : List Char) (parts : List (List Char)) :
    Text.join separator (part :: parts) = part ++ parts.flatMap fun part => separator ++ part := by
  induction parts generalizing part with
  | nil => simp [Text.join]
  | cons next parts ih => simp [Text.join, ih]

theorem isWord_of_isPlainIdentifier {w : List Char} (h : isPlainIdentifier w = true) :
    isWord w = true ∧ wordKind w = .identifier w := by
  cases w with
  | nil => simp [isPlainIdentifier] at h
  | cons c cs =>
    simp only [isPlainIdentifier, Bool.and_eq_true, Option.isNone_iff_eq_none] at h
    obtain ⟨⟨hc, hcs⟩, hkind⟩ := h
    exact ⟨by rw [isWord, hc, hcs]; rfl, by rw [wordKind, hkind]; rfl⟩

/-- A printed word is one token, bare or quoted. -/
theorem fragment_printWord (mode : LexMode) (p : Position) (w : String) :
    ∃ t, Fragment mode p (printWord w) [t] ∧ t.stringOrWord? = some w.toList := by
  unfold printWord
  by_cases h : isPlainIdentifier w.toList = true
  · obtain ⟨hw, hkind⟩ := isWord_of_isPlainIdentifier h
    refine ⟨_, by rw [if_pos h]; exact fragment_word hw, ?_⟩
    rw [hkind]
    rfl
  · exact ⟨_, by rw [if_neg h]; exact fragment_quote w, rfl⟩

theorem isSymbol_of_stringOrWord {t : Token} {w : List Char} (h : t.stringOrWord? = some w) (s : Symbol) :
    t.isSymbol s = false := by
  unfold Token.stringOrWord? Token.word? at h
  cases hk : t.kind <;> simp [hk, Token.isSymbol] at h ⊢

theorem wordItems_word {t : Token} {w : String} (h : t.stringOrWord? = some w.toList) (rest : List Token) :
    ctx.wordItems (t :: rest) = ctx.wordsAfter w rest := by
  have hnewline := (isDelimiter_of_stringOrWord h).2
  have hskip : skipTrivia false (t :: rest) = t :: rest := by
    simp [skipTrivia, hnewline, isSymbol_of_stringOrWord h]
  have hword : ctx.expectStringOrWord "list item" (t :: rest) = .ok w rest := by
    simp [expectStringOrWord, expectToken, h]
  rw [wordItems_eq, hskip]
  simp [isSymbol_of_stringOrWord h, hword]

/-- The words after the first one, a comma and a blank before each, and the closing bracket. -/
def moreWords (words : List String) : List Char := words.flatMap (fun w => ',' :: ' ' :: printWord w) ++ [']']

theorem endsWord_moreWords (words : List String) : EndsWord (moreWords words) := by
  cases words with
  | nil => exact .cons (by decide) []
  | cons w words => exact .cons (by decide) _

theorem printWords_cons (w : String) (words : List String) :
    printWords (w :: words) = '[' :: (printWord w ++ moreWords words) := by
  rw [printWords, List.map_cons, join_cons, List.append_assoc, List.flatMap_map]
  rfl

theorem wordsAfter_moreWords (ctx : Context) (mode : LexMode) (p : Position) (item : String) (words : List String) :
    ∃ ts, Fragment mode p (moreWords words) ts ∧
      ∀ rest, ctx.wordsAfter item (ts ++ rest) = .ok (item :: words) rest := by
  induction words generalizing p item with
  | nil =>
    refine ⟨[Token.at p (.symbol .closeBracket) [']']], ?_, fun rest => rfl⟩
    exact .sign (by decide) (fun _ => rfl) .nil
  | cons w words ih =>
    obtain ⟨t, hfragment, hword⟩ := fragment_printWord mode ((p.advance ',').advance ' ') w
    obtain ⟨ts, hmore, hread⟩ := ih (((p.advance ',').advance ' ').advanceAll (printWord w)) w
    refine ⟨Token.at p (.symbol .comma) [','] :: t :: ts, ?_, fun rest => ?_⟩
    · have hboth := hfragment.append hmore (endsWord_moreWords words)
      rw [moreWords, List.flatMap_cons, List.append_assoc]
      exact .sign (by decide) (fun _ => rfl) (.blank (by decide) hboth)
    · change (ctx.wordItems (t :: (ts ++ rest))).bind _ = _
      rw [wordItems_word hword, hread]
      rfl

theorem takes_words (ctx : Context) (words : List String) : Takes mode p (printWords words) ctx.wordList words := by
  cases words with
  | nil =>
    refine ⟨Token.at p (.symbol .openBracket) ['['], [Token.at (p.advance '[') (.symbol .closeBracket) [']']],
      ?_, rfl, fun rest => ?_⟩
    · exact .sign (by decide) (fun _ => rfl) (.sign (by decide) (fun _ => rfl) .nil)
    · rw [wordList_eq]
      change ctx.wordItems (Token.at (p.advance '[') (.symbol .closeBracket) [']'] :: rest) = _
      rw [wordItems_eq]
      rfl
  | cons w words =>
    obtain ⟨t, hfragment, hword⟩ := fragment_printWord mode (p.advance '[') w
    obtain ⟨ts, hmore, hread⟩ := wordsAfter_moreWords ctx mode ((p.advance '[').advanceAll (printWord w)) w words
    refine ⟨Token.at p (.symbol .openBracket) ['['], t :: ts, ?_, rfl, fun rest => ?_⟩
    · rw [printWords_cons]
      exact .sign (by decide) (fun _ => rfl) (hfragment.append hmore (endsWord_moreWords words))
    · rw [wordList_eq]
      change ctx.wordItems (t :: (ts ++ rest)) = _
      rw [wordItems_word hword, hread]

/-! ### Blocks -/

/-- A block is read as the text between its signs, if the tokens of that text leave the count of open blocks as
it is. -/
theorem takes_enclosed (shape : BlockShape) (clause : String) {ts : List Token}
    (hs : ctx.Stands p (shape.opening :: (x ++ [shape.closing])))
    (hfragment : Fragment mode p (shape.opening :: (x ++ [shape.closing]))
      (Token.at p (.symbol (openSymbol shape)) [shape.opening] ::
        (ts ++ [Token.at ((p.advance shape.opening).advanceAll x) (.symbol (closeSymbol shape)) [shape.closing]])))
    (hcount : ∀ rest, blockEnd (openSymbol shape) (closeSymbol shape) 0 (ts ++ rest) =
      blockEnd (openSymbol shape) (closeSymbol shape) 0 rest) :
    Takes mode p (shape.opening :: (x ++ [shape.closing])) (ctx.block shape clause) x := by
  have hslice := (Stands.right (x := [shape.opening]) hs).left.slice
  refine ⟨_, _, hfragment, by cases shape <;> rfl, ?_⟩
  intro rest
  have hopen : (Token.at p (.symbol (openSymbol shape)) [shape.opening]).isSymbol (openSymbol shape) = true := by
    simp [Token.isSymbol, Token.at]
  rw [block, if_pos hopen, blockText, List.append_assoc, hcount]
  rw [List.singleton_append, blockEnd_last shape rest rfl]
  change Outcome.ok ((slice? ctx.source _ _).getD []) rest = _
  exact congrArg (fun inner => Outcome.ok (inner.getD []) rest) hslice

/-- A block whose inner text is level is read as that text. -/
theorem takes_block (shape : BlockShape) (clause : String) (hx : Level mode x)
    (hs : ctx.Stands p (shape.opening :: (x ++ [shape.closing]))) :
    Takes mode p (shape.opening :: (x ++ [shape.closing])) (ctx.block shape clause) x := by
  obtain ⟨ts, hts, hbalanced⟩ := hx (p.advance shape.opening)
  exact takes_enclosed shape clause hs (fragment_block shape hts) fun rest => hbalanced shape 0 rest

theorem decodeMap_membersText {members : Object} (h : (Json.object members).isExact = true)
    (hd : (Json.object members).depth ≤ Json.maxDepth) : decodeMap (Json.membersText members) = members := by
  have hread := Json.read?_compact h hd
  rw [Json.compact_object] at hread
  simp [decodeMap, BlockShape.decode?, BlockShape.opening, BlockShape.closing, hread]

theorem decodeSequence_itemsText {items : List Json} (h : (Json.array items).isExact = true)
    (hd : (Json.array items).depth ≤ Json.maxDepth) : decodeSequence (Json.itemsText items) = items := by
  have hread := Json.read?_compact h hd
  rw [Json.compact_array] at hread
  simp [decodeSequence, BlockShape.decode?, BlockShape.opening, BlockShape.closing, hread]

/-! ## Lines -/

/-- No word is listed twice, so each clause is found at its place. -/
theorem find?_of_getElem? {σ : Type} {allowed : Clauses σ} {word : String} {clause : Clause σ}
    (hnodup : (allowed.map Prod.fst).Nodup) (i : Nat) (h : allowed[i]? = some (word, clause)) :
    allowed.find? word.toList = some clause := by
  induction allowed generalizing i with
  | nil => simp at h
  | cons c allowed ih =>
    obtain ⟨w, first⟩ := c
    obtain ⟨hw, hrest⟩ : w ∉ allowed.map Prod.fst ∧ (allowed.map Prod.fst).Nodup := List.nodup_cons.1 hnodup
    cases i with
    | zero =>
      obtain ⟨rfl, rfl⟩ : w = word ∧ first = clause := by simpa using h
      simp [Clauses.find?]
    | succ i =>
      have hat : allowed[i]? = some (word, clause) := by simpa using h
      have hne : (w.toList == word.toList) = false := by
        refine beq_eq_false_iff_ne.2 fun heq => hw ?_
        rw [String.toList_injective heq]
        exact List.mem_map_of_mem (f := Prod.fst) (List.mem_of_getElem? hat)
      have hfind := ih hrest i hat
      rw [Clauses.find?] at hfind ⊢
      rw [List.find?_cons, hne]
      exact hfind

/-- What stands before the value of a clause. -/
def lead (indent : Nat) (word : String) : List Char := List.replicate indent ' ' ++ '@' :: (word.toList ++ [' '])

theorem clauseLine_eq (indent : Nat) (word : String) (value : List Char) :
    clauseLine indent word value = lead indent word ++ (value ++ ['\n']) := by
  simp [clauseLine, lead]

/-- The tokens of a line: its sign, its word, those of its value, and the newline. -/
theorem lexes_line {indent : Nat} {word : String} {value : List Char} {ts : List Token}
    (hword : isWord word.toList = true) (h : Fragment mode (p.advanceAll (lead indent word)) value ts) :
    ∃ sign name newline : Token, sign.kind = .symbol .at ∧ name.kind = wordKind word.toList ∧
      name.word? = some word.toList ∧ newline.kind = .newline ∧
      Lexes mode p (clauseLine indent word value) (sign :: name :: (ts ++ [newline])) := by
  let q := p.advanceAll (List.replicate indent ' ')
  let r := (q.advance '@').advanceAll word.toList
  have hr : r.advance ' ' = p.advanceAll (lead indent word) := by
    simp only [lead, Position.advanceAll_append, Position.advanceAll_cons]
    rfl
  let newline := Token.at ((p.advanceAll (lead indent word)).advanceAll value) .newline ['\n']
  have hnewline : Fragment mode ((p.advanceAll (lead indent word)).advanceAll value) ['\n'] [newline] :=
    .sign (by decide) (fun _ => rfl) .nil
  have hvalue : Fragment mode (r.advance ' ') (value ++ ['\n']) (ts ++ [newline]) := by
    rw [hr]
    exact h.append hnewline (.cons (by decide) [])
  have hname : Fragment mode (q.advance '@') word.toList
      [Token.at (q.advance '@') (wordKind word.toList) word.toList] := fragment_word hword
  have hline := hname.append (.blank (c := ' ') (by decide) hvalue) (.cons (by decide) _)
  refine ⟨Token.at q (.symbol .at) ['@'], Token.at (q.advance '@') (wordKind word.toList) word.toList, newline,
    rfl, rfl, word?_at _ _, rfl, ?_⟩
  exact (Fragment.separators (.replicate indent) (.sign (by decide) (fun _ => rfl) hline)).lexes

/-- Where the text stands, the clauses of its lines turn `s` into `s'`. -/
def Writes {σ : Type} (ctx : Context) (mode : LexMode) (allowed : Clauses σ) (x : List Char) (s s' : σ) : Prop :=
  EndsIn isLineEnd x ∧ ∀ p, ctx.Stands p x → ∃ ts, Lexes mode p x ts ∧
    ∀ rest, readClauses allowed s (ts ++ rest) = readClauses allowed s' rest

section
variable {σ : Type} {allowed : Clauses σ} {s s' s'' : σ}

theorem Writes.nothing : Writes ctx mode allowed [] s s :=
  ⟨.nil, fun _ _ => ⟨[], .done, fun _ => rfl⟩⟩

theorem Writes.append (hx : Writes ctx mode allowed x s s') (hy : Writes ctx mode allowed y s' s'') :
    Writes ctx mode allowed (x ++ y) s s'' := by
  obtain ⟨hxend, hxread⟩ := hx
  obtain ⟨hyend, hyread⟩ := hy
  refine ⟨hyend.append fun _ => hxend, ?_⟩
  intro p hp
  obtain ⟨ts, hlx, hts⟩ := hxread p hp.left
  obtain ⟨us, hly, hus⟩ := hyread _ hp.right
  refine ⟨ts ++ us, hlx.append hxend hly, ?_⟩
  intro rest
  rw [List.append_assoc, hts, hus]

/-- Where the text stands, the clauses of its lines turn `s` into a state with a property. -/
def WritesTo {σ : Type} (ctx : Context) (mode : LexMode) (allowed : Clauses σ) (x : List Char) (s : σ)
    (P : σ → Prop) : Prop :=
  ∀ p, ctx.Stands p x → ∃ ts s', Lexes mode p x ts ∧ P s' ∧
    ∀ rest, readClauses allowed s (ts ++ rest) = readClauses allowed s' rest

theorem Writes.to {P : σ → Prop} (h : Writes ctx mode allowed x s s') (hs' : P s') :
    WritesTo ctx mode allowed x s P := by
  intro p hp
  obtain ⟨ts, hlexes, hread⟩ := h.2 p hp
  exact ⟨ts, s', hlexes, hs', hread⟩

theorem Writes.appendTo {P : σ → Prop} (hx : Writes ctx mode allowed x s s') (hy : WritesTo ctx mode allowed y s' P) :
    WritesTo ctx mode allowed (x ++ y) s P := by
  intro p hp
  obtain ⟨ts, hlx, hts⟩ := hx.2 p hp.left
  obtain ⟨us, s'', hly, hs'', hus⟩ := hy _ hp.right
  refine ⟨ts ++ us, s'', hlx.append hx.1 hly, hs'', ?_⟩
  intro rest
  rw [List.append_assoc, hts, hus]

theorem readClauses_newline {newline : Token} (h : newline.kind = .newline) (rest : List Token) :
    readClauses allowed s (newline :: rest) = readClauses allowed s rest := by
  have hskip : skipTrivia false (newline :: rest) = skipTrivia false rest := by
    simp [skipTrivia, Token.isNewline, h]
  rw [readClauses_eq, hskip, ← readClauses_eq]

theorem beginsArchetype_value {word t : Token} (h : t.isIdentifier = false) (rest : List Token) :
    beginsArchetype word (t :: rest) = false := by
  cases rest with
  | nil => simp [beginsArchetype]
  | cons u rest => simp [beginsArchetype, h]

theorem endsIn_clauseLine (indent : Nat) (word : String) (value : List Char) :
    EndsIn isLineEnd (clauseLine indent word value) := by
  intro c hc
  have hlast : (clauseLine indent word value).getLast? = some '\n' := by
    rw [clauseLine_eq, ← List.append_assoc, List.getLast?_concat]
  obtain rfl : '\n' = c := by simpa [hlast] using hc
  rfl

/-- The line of an allowed clause, at a place where its reader takes the value. -/
theorem readClauses_line {indent : Nat} {word : String} {value : List Char} {clause : Clause σ}
    (hword : isWord word.toList = true) (hfind : allowed.find? word.toList = some clause)
    (h : Takes mode (p.advanceAll (lead indent word)) value (clause.read s) s') :
    ∃ ts, Lexes mode p (clauseLine indent word value) ts ∧
      ∀ rest, readClauses allowed s (ts ++ rest) = readClauses allowed s' rest := by
  obtain ⟨t, ts, hfragment, hname, hread⟩ := h
  obtain ⟨sign, name, newline, hsign, _, hspelled, hnewline, hlexes⟩ := lexes_line hword hfragment
  refine ⟨_, hlexes, ?_⟩
  intro rest
  have hskip : skipTrivia false (sign :: name :: t :: (ts ++ newline :: rest)) =
      sign :: name :: t :: (ts ++ newline :: rest) := by
    simp [skipTrivia, Token.isNewline, Token.isSymbol, hsign]
  have hnext : nextClause allowed (sign :: name :: t :: (ts ++ newline :: rest)) =
      some (clause, t :: (ts ++ newline :: rest)) := by
    simp [nextClause, Token.isSymbol, hsign, beginsArchetype_value hname, hspelled, hfind]
  have htokens : sign :: name :: (t :: ts ++ [newline]) ++ rest = sign :: name :: t :: (ts ++ newline :: rest) := by
    simp
  rw [htokens, readClauses_eq, hskip, hnext]
  dsimp only
  rw [hread, Outcome.bind_ok, readClauses_newline hnewline]

theorem Takes.of {α : Type} {read : List Token → Outcome α} {within : ∀ ts, (read ts).Within ts} {put : σ → α → σ}
    {a : α} (h : Takes mode p x read a) (hput : put s a = s') :
    Takes mode p x ((Clause.of read within put).read s) s' := by
  obtain ⟨t, ts, hfragment, hname, hread⟩ := h
  refine ⟨t, ts, hfragment, hname, ?_⟩
  intro rest
  rw [Clause.of_read, hread, Outcome.bind_ok, hput]

/-- A line whose value is taken wherever it stands. -/
theorem Writes.line {indent : Nat} {word : String} {value : List Char} {clause : Clause σ}
    (hword : isWord word.toList = true) (hfind : allowed.find? word.toList = some clause)
    (h : ∀ q, ctx.Stands q value → Takes mode q value (clause.read s) s') :
    Writes ctx mode allowed (clauseLine indent word value) s s' := by
  refine ⟨endsIn_clauseLine indent word value, ?_⟩
  intro p hp
  rw [clauseLine_eq] at hp
  exact readClauses_line hword hfind (h _ hp.right.left)

/-- A clause that is left out writes nothing. -/
theorem Writes.unless {empty : Bool} {indent : Nat} {word : String} {value : List Char}
    (hempty : empty = true → s' = s)
    (h : Writes ctx mode allowed (clauseLine indent word value) s s') :
    Writes ctx mode allowed (clauseUnless empty indent word value) s s' := by
  unfold clauseUnless
  split
  · next he =>
    rw [hempty he]
    exact .nothing
  · exact h

/-! ## Clauses of each kind -/

theorem Writes.text {indent : Nat} {word what text : String} {put : σ → String → σ}
    (hword : isWord word.toList = true) (hfind : allowed.find? word.toList = some (ctx.stringClause what put))
    (hempty : put s "" = s) : Writes ctx mode allowed (textClause indent word text) s (put s text) := by
  refine .unless (fun he => ?_) (.line hword hfind fun q _ => (takes_string what text).of rfl)
  rw [String.isEmpty_iff.1 he, hempty]

/-- A text clause whose reader would take a bare word too. -/
theorem Writes.word {indent : Nat} {word what text : String} {put : σ → String → σ}
    (hword : isWord word.toList = true) (hfind : allowed.find? word.toList = some (ctx.wordClause what put))
    (hempty : put s "" = s) : Writes ctx mode allowed (textClause indent word text) s (put s text) := by
  refine .unless (fun he => ?_) (.line hword hfind fun q _ => (takes_word what text).of rfl)
  rw [String.isEmpty_iff.1 he, hempty]

theorem Writes.words {indent : Nat} {word : String} {words : List String} {put : σ → List String → σ}
    (hword : isWord word.toList = true) (hfind : allowed.find? word.toList = some (ctx.wordListClause put))
    (hempty : put s [] = s) : Writes ctx mode allowed (wordsClause indent word words) s (put s words) := by
  refine .unless (fun he => ?_) (.line hword hfind fun q _ => (takes_words ctx words).of rfl)
  rw [List.isEmpty_iff.1 he, hempty]

theorem Writes.map {indent : Nat} {word clause : String} {members : Object} {put : σ → Object → σ}
    (hword : isWord word.toList = true) (hfind : allowed.find? word.toList = some (ctx.mapClause clause put))
    (hexact : (Json.object members).isExact = true) (hdepth : (Json.object members).depth ≤ Json.maxDepth)
    (hempty : put s [] = s) : Writes ctx mode allowed (mapClause indent word members) s (put s members) := by
  have hmembers := (Json.isExact_object.1 hexact).1
  refine .unless (fun he => ?_) (.line hword hfind fun q hq => ?_)
  · rw [List.isEmpty_iff.1 he, hempty]
  · rw [Json.compact_object] at hq ⊢
    exact (takes_block .map clause (level_membersText mode members hmembers) hq).of
      (congrArg (put s) (decodeMap_membersText hexact hdepth))

theorem Writes.sequence {indent : Nat} {word clause : String} {items : List Json} {put : σ → List Json → σ}
    (hword : isWord word.toList = true) (hfind : allowed.find? word.toList = some (ctx.sequenceClause clause put))
    (hexact : (Json.array items).isExact = true) (hdepth : (Json.array items).depth ≤ Json.maxDepth)
    (hempty : put s [] = s) : Writes ctx mode allowed (sequenceClause indent word items) s (put s items) := by
  refine .unless (fun he => ?_) (.line hword hfind fun q hq => ?_)
  · rw [List.isEmpty_iff.1 he, hempty]
  · rw [Json.compact_array] at hq ⊢
    exact (takes_block .sequence clause (level_itemsText mode items hexact) hq).of
      (congrArg (put s) (decodeSequence_itemsText hexact hdepth))

end

end Grimoire.Source
