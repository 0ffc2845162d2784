import Grimoire.Proofs.Source.DataText
import Grimoire.Proofs.Source.Joining
import Grimoire.Proofs.Source.RoundTrip
import Mathlib.Data.List.Infix

/-!
# Data in a source

A character with one block (`embedding`) is read without faults in the lenient mode, and holds exactly the data
that the text of the block spells (`literals_embedded`). Where the text between the signs is no data, the
character holds that text, as long as its tokens close no more blocks than they open (`SignsBalance`). Blanks
may stand before the block, but no newline: the block begins on the line of its clause
(`newline_before_block`).
-/
namespace Grimoire.Source

open Context

/-! ## A character with one block -/

/-- The clause of a character that holds a block of this shape. -/
def BlockShape.clause : BlockShape → String
  | map => "data"
  | sequence => "relationships"

/-- The source of a character with one clause. -/
def embedding (shape : BlockShape) (text : String) : String :=
  "@character C\n@" ++ shape.clause ++ " " ++ text ++ "\n"

/-- The character that has the members of an object as its data, or the items of an array as its relationships. -/
def holder : Json → Character
  | .object members => { name := "C", data := members, line := 1 }
  | .array items => { name := "C", relationships := items, line := 1 }
  | _ => { name := "C", line := 1 }

/-- A block of this shape around a text. -/
def BlockShape.around (shape : BlockShape) (inner : String) : String :=
  String.ofList [shape.opening] ++ inner ++ String.ofList [shape.closing]

/-- What a block of this shape holds of a text that is no data. -/
def BlockShape.raw (shape : BlockShape) (inner : String) : Json :=
  match shape with
  | map => .object [("raw", .string inner)]
  | sequence => .array [.object [("raw", .string inner)]]

/-! ## Signs that balance -/

def opened (shape : BlockShape) (ts : List Token) : Nat := (ts.map Token.kind).count (.symbol (openSymbol shape))

def closed (shape : BlockShape) (ts : List Token) : Nat := (ts.map Token.kind).count (.symbol (closeSymbol shape))

/-- No tokens from the front close more blocks of this shape than they open, and all together close as many. -/
structure SignsBalance (shape : BlockShape) (ts : List Token) : Prop where
  never_below : ∀ us, us <+: ts → closed shape us ≤ opened shape us
  settled : closed shape ts = opened shape ts

instance (shape : BlockShape) (ts : List Token) : Decidable (SignsBalance shape ts) :=
  decidable_of_iff ((∀ us ∈ ts.inits, closed shape us ≤ opened shape us) ∧ closed shape ts = opened shape ts)
    ⟨fun h => ⟨fun us hus => h.1 us ((List.mem_inits _ _).2 hus), h.2⟩,
      fun h => ⟨fun us hus => h.never_below us ((List.mem_inits _ _).1 hus), h.settled⟩⟩

section
variable {shape : BlockShape} {ts us : List Token} {t : Token} {n : Nat}

theorem opened_cons : opened shape (t :: ts) = opened shape ts + if t.isSymbol (openSymbol shape) then 1 else 0 := by
  simp [opened, List.count_cons, Token.isSymbol]

theorem closed_cons : closed shape (t :: ts) = closed shape ts + if t.isSymbol (closeSymbol shape) then 1 else 0 := by
  simp [closed, List.count_cons, Token.isSymbol]

theorem not_closing (h : t.isSymbol (openSymbol shape) = true) : t.isSymbol (closeSymbol shape) = false := by
  cases shape <;> simp_all [Token.isSymbol, openSymbol, closeSymbol]

/-- Tokens that never close more blocks than are open change the count by those they open and close. -/
theorem blockEnd_counts (h : ∀ us, us <+: ts → closed shape us ≤ n + opened shape us) (rest : List Token) :
    blockEnd (openSymbol shape) (closeSymbol shape) n (ts ++ rest) =
      blockEnd (openSymbol shape) (closeSymbol shape) (n + opened shape ts - closed shape ts) rest := by
  induction ts generalizing n with
  | nil => rfl
  | cons t ts ih =>
    have hpart (us : List Token) (hus : us <+: ts) := h (t :: us) (List.cons_prefix_cons.2 ⟨rfl, hus⟩)
    simp only [opened_cons, closed_cons] at hpart ⊢
    rw [List.cons_append]
    simp only [Context.blockEnd]
    by_cases ho : t.isSymbol (openSymbol shape) = true
    · have hc := not_closing ho
      simp only [ho, hc, if_true, Bool.false_eq_true, if_false] at hpart ⊢
      rw [ih fun us hus => by have := hpart us hus; omega]
      congr 1
      omega
    · by_cases hc : t.isSymbol (closeSymbol shape) = true
      · simp only [ho, hc, if_true, Bool.false_eq_true, if_false] at hpart ⊢
        have hopen := hpart [] List.nil_prefix
        simp only [closed, opened, List.map_nil, List.count_nil] at hopen
        obtain ⟨m, rfl⟩ : ∃ m, n = m + 1 := ⟨n - 1, by omega⟩
        dsimp only
        rw [ih fun us hus => by have := hpart us hus; omega]
        congr 1
        omega
      · simp only [ho, hc, Bool.false_eq_true, if_false] at hpart ⊢
        rw [ih hpart]
        rfl

theorem SignsBalance.blockEnd (h : SignsBalance shape ts) (rest : List Token) :
    Context.blockEnd (openSymbol shape) (closeSymbol shape) 0 (ts ++ rest) =
      Context.blockEnd (openSymbol shape) (closeSymbol shape) 0 rest := by
  rw [blockEnd_counts fun us hus => by rw [Nat.zero_add]; exact h.never_below us hus]
  rw [h.settled, Nat.zero_add, Nat.sub_self]

/-- Only the kinds of the tokens count. -/
theorem SignsBalance.congr (h : SignsBalance shape ts) (hkinds : us.map Token.kind = ts.map Token.kind) :
    SignsBalance shape us := by
  refine ⟨fun vs hvs => ?_, ?_⟩
  · have hfront : vs.map Token.kind = (ts.take vs.length).map Token.kind := by
      rw [List.map_take, ← hkinds, ← List.map_take, ← List.prefix_iff_eq_take.1 hvs]
    rw [closed, opened, hfront]
    exact h.never_below _ (List.take_prefix _ _)
  · rw [closed, opened, hkinds]
    exact h.settled

/-- The end of input is no sign. -/
theorem SignsBalance.dropEnd {e : Token} (h : SignsBalance shape (ts ++ [e])) (he : e.kind = .endOfInput) :
    SignsBalance shape ts := by
  refine ⟨fun us hus => h.never_below us (hus.trans (List.prefix_append _ _)), ?_⟩
  have hsettled := h.settled
  simpa [closed, opened, he] using hsettled

end

/-! ## A block on the line of its clause -/

variable {ctx : Context} {mode : LexMode} {p : Position} {b x inner : List Char} {shape : BlockShape} {value : Json}

/-- Blanks before and behind a value, none of them a newline. -/
theorem Takes.separated {α : Type} {read : List Token → Outcome α} {a : α} {r : List Char} (hb : AllSeparators b)
    (hr : AllSeparators r) (h : Takes mode (p.advanceAll b) x read a) : Takes mode p (b ++ (x ++ r)) read a := by
  obtain ⟨t, ts, hfragment, hname, hread⟩ := h
  have hbehind : Fragment mode ((p.advanceAll b).advanceAll x) r [] := by
    rw [← List.append_nil r]
    exact .separators hr .nil
  have hall := hfragment.append hbehind hr.endsWord
  rw [List.append_nil] at hall
  exact ⟨t, ts, .separators hb hall, hname, hread⟩

/-- Empty lines write nothing. -/
theorem Writes.blankLines {σ : Type} {allowed : Clauses σ} {s : σ} (hb : AllBlank b) (hend : EndsIn isLineEnd b) :
    Writes ctx mode allowed b s s := by
  refine ⟨hend, ?_⟩
  rintro p -
  clear hend
  induction b generalizing p with
  | nil => exact ⟨[], .done, fun _ => rfl⟩
  | cons c b ih =>
    obtain ⟨ts, hlexes, hread⟩ := ih (fun d hd => hb d (by simp [hd])) (p.advance c)
    rcases eq_of_isBlank (hb c (by simp)) with rfl | hc
    · refine ⟨_, .token (by decide) rfl hlexes, fun rest => ?_⟩
      rw [List.cons_append, readClauses_newline rfl, hread]
    · exact ⟨ts, .separator hc hlexes, hread⟩

/-- Blanks and a newline behind them: the end of a line, and empty lines. -/
theorem AllBlank.split_line {r : List Char} (hr : AllBlank r) : ∃ front back, r ++ ['\n'] = front ++ '\n' :: back ∧
    AllSeparators front ∧ AllBlank back ∧ EndsIn isLineEnd back := by
  have hends (y : List Char) : EndsIn isLineEnd (y ++ ['\n']) := by
    intro c hc
    obtain rfl : '\n' = c := by simpa using hc
    rfl
  induction r with
  | nil => exact ⟨[], [], rfl, by simp [AllSeparators], .nil, .nil⟩
  | cons c r ih =>
    have hrest : AllBlank r := fun d hd => hr d (by simp [hd])
    rcases eq_of_isBlank (hr c (by simp)) with rfl | hc
    · refine ⟨[], r ++ ['\n'], rfl, by simp [AllSeparators], ?_, hends r⟩
      intro d hd
      rcases List.mem_append.1 hd with hd | hd
      · exact hrest d hd
      · obtain rfl : d = '\n' := by simpa using hd
        rfl
    · obtain ⟨front, back, heq, hfront, hback, hend⟩ := ih hrest
      refine ⟨c :: front, back, by rw [List.cons_append, heq]; rfl, ?_, hback, hend⟩
      exact List.forall_mem_cons.2 ⟨hc, hfront⟩

/-! ## The character is read -/

/-- What a block of this shape holds of the text between its signs. -/
def BlockShape.held (shape : BlockShape) (inner : List Char) : Json :=
  match shape with
  | map => .object (decodeMap inner)
  | sequence => .array (decodeSequence inner)

/-- The line of the clause that holds a block. -/
theorem writes_embedded {line : Nat} {value : List Char}
    (h : ∀ q, ctx.Stands q value → Takes mode q value (ctx.block shape ("@" ++ shape.clause)) inner) :
    Writes ctx mode ctx.characterClauses (clauseLine 0 shape.clause value) { name := "C", line }
      { holder (shape.held inner) with line } := by
  have hnodup := nodup_characterClauses ctx
  cases shape with
  | map => exact .line (by decide) (find?_of_getElem? hnodup 3 rfl) fun q hq => (h q hq).of rfl
  | sequence => exact .line (by decide) (find?_of_getElem? hnodup 5 rfl) fun q hq => (h q hq).of rfl

theorem line_holder (j : Json) : { holder j with line := 1 } = holder j := by
  unfold holder
  split <;> rfl

/-- The lines of a character with one block, where the text of the block goes on to `front` on its line. -/
theorem toList_embedding {text front back : List Char} (h : text ++ ['\n'] = front ++ '\n' :: back) :
    (embedding shape (String.ofList text)).toList =
      clauseLine 0 "character" "C".toList ++ (clauseLine 0 shape.clause front ++ back) := by
  have hhead : "@character C\n@".toList = clauseLine 0 "character" "C".toList ++ ['@'] := by decide
  have hblank : " ".toList = [' '] := by decide
  have hnewline : "\n".toList = ['\n'] := by decide
  have hclause : clauseLine 0 shape.clause front ++ back =
      '@' :: (shape.clause.toList ++ ' ' :: (text ++ ['\n'])) := by
    rw [h]
    simp only [clauseLine, List.replicate_zero, List.nil_append, List.cons_append, List.append_assoc]
  change ("@character C\n@" ++ shape.clause ++ " " ++ String.ofList text ++ "\n").toList = _
  simp only [String.toList_append, String.toList_ofList, hhead, hblank, hnewline, hclause, List.append_assoc,
    List.cons_append, List.nil_append]

/-- A source whose tokens are those of one character holds that character. -/
theorem parse_character {x : List Char} {sign word : Token} {us : List Token} {c : Character}
    (hlexes : Lexes mode .start x (sign :: word :: us)) (hsign : sign.kind = .symbol .at)
    (hword : word.kind = .keyword .character) (h : Context.character ⟨x, endOf x⟩ us = .ok c []) :
    parse x (sign :: word :: us ++ [endOf x]) = ⟨[.character c], []⟩ := by
  have hdeclaration : Context.declaration ⟨x, endOf x⟩ (word :: us) = .ok (some (.character c)) [] := by
    rw [declaration_cons, hword, h]
    rfl
  rw [parse_eq hlexes, declaration_ofTokens hsign hdeclaration]
  rw [show skipTrivia false [] = [] from rfl, Program.ofTokens_nil]
  rfl

/-- **A character with one block is read without faults**, if the block stands on the line of its clause and its
reader takes it for the text between its signs. -/
theorem parse_embedding {r : List Char} (hb : AllSeparators b) (hr : AllBlank r)
    (htakes : ∀ (ctx : Context) (q : Position), ctx.Stands q (shape.opening :: (inner ++ [shape.closing])) →
      Takes mode q (shape.opening :: (inner ++ [shape.closing])) (ctx.block shape ("@" ++ shape.clause)) inner) :
    parseSource mode
        (embedding shape (String.ofList (b ++ (shape.opening :: (inner ++ [shape.closing]) ++ r)))) =
      .ok ⟨[.character (holder (shape.held inner))], []⟩ := by
  obtain ⟨front, back, heq, hfront, hback, hend⟩ := hr.split_line
  generalize hblock : shape.opening :: (inner ++ [shape.closing]) = block at htakes ⊢
  have hline : b ++ (block ++ r) ++ ['\n'] = b ++ (block ++ front) ++ '\n' :: back := by
    simp only [List.append_assoc, heq]
  have hsource : (embedding shape (String.ofList (b ++ (block ++ r)))).toList = _ := toList_embedding hline
  generalize hx : clauseLine 0 "character" "C".toList ++ (clauseLine 0 shape.clause (b ++ (block ++ front)) ++ back) = x
    at hsource
  have hstands : Context.Stands ⟨x, endOf x⟩ .start
      (clauseLine 0 "character" "C".toList ++ (clauseLine 0 shape.clause (b ++ (block ++ front)) ++ back)) :=
    ⟨[], [], hx ▸ (List.append_nil _).symm, rfl⟩
  have hbody (line : Nat) : WritesTo ⟨x, endOf x⟩ mode (characterClauses ⟨x, endOf x⟩)
      (clauseLine 0 shape.clause (b ++ (block ++ front)) ++ back) { name := "C", line }
      fun c => c = { holder (shape.held inner) with line } :=
    ((writes_embedded fun q hq => .separated hb hfront (htakes _ _ hq.right.left)).append
      (.blankLines hback hend)).to rfl
  obtain ⟨sign, word, named, us, c, hsign, hword, hnamed, hlexes, rfl, hread⟩ :=
    lexes_declared (by decide) (by decide) hbody hstands
  rw [hx] at hlexes
  have hcharacter : Context.character ⟨x, endOf x⟩ (named :: us) = .ok (holder (shape.held inner)) [] := by
    rw [character, declared_eq, expectIdentifier_named hnamed]
    have hclauses := hread [] rfl
    rw [List.append_nil] at hclauses
    exact hclauses.trans (congrArg (fun c => Outcome.ok c []) (line_holder _))
  rw [parseSource, hsource, tokens_eq_ok.2 ⟨_, rfl, hlexes⟩]
  exact congrArg Except.ok (parse_character hlexes hsign hword hcharacter)

/-! ## Data -/

/-- The data between its blanks is a block that holds it. -/
theorem held_of_blockText (h : BlockText Json.maxDepth shape inner value) (hvalue : shape.holds value = true) :
    shape.held inner = value := by
  have hread := h.read (inner.length + 2) [] (by omega)
  have hdata : Json.read? (shape.opening :: (inner ++ [shape.closing])) = some value := by
    rw [Json.read?]
    simp only [List.length_cons, List.length_append, List.length_nil]
    rw [hread]
    rfl
  cases shape with
  | map =>
    cases value <;> try cases hvalue
    simp [BlockShape.held, decodeMap, BlockShape.decode?, hdata]
  | sequence =>
    cases value <;> try cases hvalue
    simp [BlockShape.held, decodeSequence, BlockShape.decode?, hdata]

/-- A text that reads as data of this shape is the block between blanks. -/
theorem blockText_of_read {cs : List Char} (hread : Json.read? cs = some value) (hvalue : shape.holds value = true) :
    ∃ b inner r, cs = b ++ shape.opening :: (inner ++ [shape.closing]) ++ r ∧ AllBlank b ∧ AllBlank r ∧
      BlockText Json.maxDepth shape inner value := by
  rw [Json.read?] at hread
  split at hread
  case h_2 => simp at hread
  next j rest hj =>
  split at hread
  case isFalse => simp at hread
  next hrest =>
  obtain rfl := Option.some.inj hread
  obtain ⟨x, htext, hdata⟩ := dataText_of_readValue _ _ hj
  obtain ⟨b, inner, rfl, hb, hblock⟩ := hdata.block shape hvalue
  obtain ⟨r, hsplit, hr⟩ := blanks_skipBlanks rest
  obtain rfl : rest = r := by rw [hsplit, List.isEmpty_iff.1 hrest, List.append_nil]
  exact ⟨b, inner, rest, htext, hb, hr, hblock⟩

theorem parse_data {text : String} (hread : Json.ofText? text = some value) (hvalue : shape.holds value = true)
    (hline : '\n' ∉ text.toList.takeWhile Json.isBlank) :
    parseSource .lenient (embedding shape text) = .ok ⟨[.character (holder value)], []⟩ := by
  obtain ⟨b, inner, r, htext, hb, hr, hblock⟩ := blockText_of_read hread hvalue
  have hsolid : Json.isBlank shape.opening = false := by cases shape <;> decide
  have hfront : text.toList.takeWhile Json.isBlank = b := by
    rw [htext, List.append_assoc, List.takeWhile_append_of_pos hb, List.cons_append, List.takeWhile_cons, hsolid]
    simp
  have hseparators : AllSeparators b := by
    intro c hc
    rcases eq_of_isBlank (hb c hc) with rfl | hsep
    · exact absurd (hfront ▸ hc) hline
    · exact hsep
  have htakes (ctx : Context) (q : Position) (hq : ctx.Stands q (shape.opening :: (inner ++ [shape.closing]))) :
      Takes .lenient q (shape.opening :: (inner ++ [shape.closing])) (ctx.block shape ("@" ++ shape.clause)) inner :=
    takes_block shape ("@" ++ shape.clause) hblock.level hq
  have hparse := parse_embedding hseparators hr htakes
  rw [held_of_blockText hblock hvalue] at hparse
  rw [← hparse, ← List.append_assoc, ← htext, String.ofList_toList]

/-! ## Text that is no data -/

/-- The tokens of a text whose signs balance, at another place and between the signs of a block. -/
theorem takes_balanced {ts : List Token} (clause : String) (h : Lexes mode .start inner ts)
    (hbalance : SignsBalance shape ts) (hs : ctx.Stands p (shape.opening :: (inner ++ [shape.closing]))) :
    Takes mode p (shape.opening :: (inner ++ [shape.closing])) (ctx.block shape clause) inner := by
  obtain ⟨us, hus, hkinds⟩ := h.elsewhere (p.advance shape.opening)
  have hfragment : Fragment mode p (shape.opening :: (inner ++ [shape.closing]))
      (Token.at p (.symbol (openSymbol shape)) [shape.opening] :: (us ++
        [Token.at ((p.advance shape.opening).advanceAll inner) (.symbol (closeSymbol shape)) [shape.closing]])) := by
    intro y vs _ hvs
    rw [Position.advanceAll_cons, Position.advanceAll_append] at hvs
    have hends : EndsToken (shape.closing :: y) := by cases shape <;> exact .cons (by decide) y
    have hclose : Lexes mode ((p.advance shape.opening).advanceAll inner) (shape.closing :: y)
        (Token.at ((p.advance shape.opening).advanceAll inner) (.symbol (closeSymbol shape)) [shape.closing] :: vs) := by
      cases shape <;> exact .token (by decide) rfl hvs
    rw [List.cons_append, List.append_assoc, List.singleton_append, List.cons_append, List.append_assoc,
      List.singleton_append]
    cases shape <;> exact .token (by decide) rfl (hus.before hends hclose)
  exact takes_enclosed shape clause hs hfragment (hbalance.congr hkinds).blockEnd

theorem held_of_no_data (h : ∀ value, Json.ofText? (shape.around (String.ofList inner)) = some value →
    shape.holds value = false) : shape.held inner = shape.raw (String.ofList inner) := by
  have htext : (shape.around (String.ofList inner)).toList = shape.opening :: (inner ++ [shape.closing]) := by
    simp [BlockShape.around]
  rw [Json.ofText?, htext] at h
  have hnone : shape.decode? inner = none := by
    unfold BlockShape.decode?
    split
    · next heq => exact absurd (h _ heq) (by simp [BlockShape.holds])
    · next heq => exact absurd (h _ heq) (by simp [BlockShape.holds])
    · rfl
  cases shape <;> simp [BlockShape.held, BlockShape.raw, decodeMap, decodeSequence, hnone, rawText]

theorem parse_raw {text : String} {ts : List Token} (htokens : tokens mode text.toList = .ok ts)
    (hbalance : SignsBalance shape ts)
    (hraw : ∀ value, Json.ofText? (shape.around text) = some value → shape.holds value = false) :
    parseSource mode (embedding shape (shape.around text)) = .ok ⟨[.character (holder (shape.raw text))], []⟩ := by
  obtain ⟨us, rfl, hlexes⟩ := tokens_eq_ok.1 htokens
  have htakes (ctx : Context) (q : Position) (hq : ctx.Stands q (shape.opening :: (text.toList ++ [shape.closing]))) :
      Takes mode q (shape.opening :: (text.toList ++ [shape.closing])) (ctx.block shape ("@" ++ shape.clause))
        text.toList :=
    takes_balanced ("@" ++ shape.clause) hlexes (hbalance.dropEnd rfl) hq
  have hparse := parse_embedding (b := []) (r := []) (by simp [AllSeparators]) .nil htakes
  have htext : String.ofList ([] ++ (shape.opening :: (text.toList ++ [shape.closing]) ++ [])) = shape.around text := by
    rw [← String.toList_inj]
    simp [BlockShape.around]
  rw [← String.ofList_toList (s := text)] at hraw
  rw [htext, held_of_no_data hraw, String.ofList_toList] at hparse
  exact hparse

/-! ## Both -/

/-- **Structured literals survive embedding.** In the lenient mode a character whose block is a text of data, on
the line of its clause, is read without faults and holds exactly that data. A character whose block has another
text between its signs, whose tokens balance the signs of the block, is read without faults and holds that text as
it is. -/
theorem literals_embedded (shape : BlockShape) :
    (∀ (text : String) (value : Json), Json.ofText? text = some value → shape.holds value = true →
      '\n' ∉ text.toList.takeWhile Json.isBlank →
      parseSource .lenient (embedding shape text) = .ok ⟨[.character (holder value)], []⟩) ∧
    ∀ (text : String) (ts : List Token), tokens .lenient text.toList = .ok ts → SignsBalance shape ts →
      (∀ value, Json.ofText? (shape.around text) = some value → shape.holds value = false) →
      parseSource .lenient (embedding shape (shape.around text)) =
        .ok ⟨[.character (holder (shape.raw text))], []⟩ :=
  ⟨fun _ _ => parse_data, fun _ _ => parse_raw⟩

/-- A block over two lines with signs in a string, and words in brackets that are no data. -/
theorem literals_embedded_lines :
    (∃ value, Json.ofText? "\t\x7b\"k]\\u00e9@\": [1e3,\n-0.5 ] \x7d\n" = some value ∧
      parseSource .lenient (embedding .map "\t\x7b\"k]\\u00e9@\": [1e3,\n-0.5 ] \x7d\n") =
        .ok ⟨[.character (holder value)], []⟩) ∧
    parseSource .lenient (embedding .sequence (BlockShape.sequence.around "Nova [of] ~ \x7b")) =
      .ok ⟨[.character (holder (BlockShape.sequence.raw "Nova [of] ~ \x7b"))], []⟩ := by
  have hdata : (Json.ofText? "\t\x7b\"k]\\u00e9@\": [1e3,\n-0.5 ] \x7d\n").any BlockShape.map.holds = true := by
    decide +kernel
  obtain ⟨value, hread, hvalue⟩ := (Option.any_eq_true _ _).1 hdata
  obtain ⟨ts, htokens, hbalance⟩ : ∃ ts, tokens .lenient "Nova [of] ~ \x7b".toList = .ok ts ∧
      decide (SignsBalance .sequence ts) = true := exists_ok (by decide +kernel)
  have hnone : Json.ofText? (BlockShape.sequence.around "Nova [of] ~ \x7b") = none :=
    Option.isNone_iff_eq_none.1 (by decide +kernel)
  refine ⟨⟨value, hread, (literals_embedded .map).1 _ _ hread hvalue (by decide)⟩, ?_⟩
  exact (literals_embedded .sequence).2 _ ts htokens (of_decide_eq_true hbalance) fun value h => by simp [hnone] at h

/-- A newline before the block ends the clause, though it is a blank of the data. -/
theorem newline_before_block : ∃ value, Json.ofText? "\n\x7b\"a\":1\x7d" = some value ∧
    BlockShape.map.holds value = true ∧
    parseSource .lenient (embedding .map "\n\x7b\"a\":1\x7d") ≠ .ok ⟨[.character (holder value)], []⟩ := by
  have hdata : (Json.ofText? "\n\x7b\"a\":1\x7d").any BlockShape.map.holds = true := by decide +kernel
  obtain ⟨value, hread, hvalue⟩ := (Option.any_eq_true _ _).1 hdata
  refine ⟨value, hread, hvalue, fun h => ?_⟩
  have hfaults : (parseSource .lenient (embedding .map "\n\x7b\"a\":1\x7d")).toOption.any Program.isClean = false := by
    decide +kernel
  rw [h] at hfaults
  simp [Except.toOption, Program.isClean] at hfaults

end Grimoire.Source
