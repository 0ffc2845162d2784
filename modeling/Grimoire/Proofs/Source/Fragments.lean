import Grimoire.Source.Printer
import Grimoire.Proofs.Source.Nesting
import Grimoire.Proofs.Json.Compact

/-!
# Fragments of a source

A fragment has the same tokens before every text that does not make its last word longer
(`Fragment`), so the tokens of a line are put together from those of its parts. The text of a string
reads back (`readQuoted_escape`). Text is level (`Level`) where its braces and brackets are balanced.
-/
namespace Grimoire.Source

/-! ## Tokens of a part -/

/-- What may follow a word or a number: nothing that would make it longer. -/
def EndsWord (y : List Char) : Prop := ∀ c, y.head? = some c → continuesWord c = false ∧ c ≠ '.'

/-- At this place `x` has these tokens, whatever follows it. -/
def Fragment (mode : LexMode) (p : Position) (x : List Char) (ts : List Token) : Prop :=
  ∀ y us, EndsWord y → Lexes mode (p.advanceAll x) y us → Lexes mode p (x ++ y) (ts ++ us)

theorem EndsWord.nil : EndsWord [] := by
  intro c hc
  simp at hc

theorem EndsWord.cons {c : Char} (hc : continuesWord c = false ∧ c ≠ '.') (y : List Char) : EndsWord (c :: y) := by
  intro d hd
  obtain rfl : c = d := by simpa using hd
  exact hc

theorem EndsWord.append {y z : List Char} (hy : EndsWord y) (hz : EndsWord z) : EndsWord (y ++ z) := by
  cases y with
  | nil => exact hz
  | cons c y => exact .cons (hy c rfl) _

def AllSeparators (b : List Char) : Prop := ∀ c ∈ b, isSeparator c = true

theorem AllSeparators.endsWord {b : List Char} (hb : AllSeparators b) : EndsWord b := by
  intro c hc
  have hsep := hb c (List.mem_of_mem_head? hc)
  simp only [isSeparator, Bool.or_eq_true, decide_eq_true_eq] at hsep
  rcases hsep with (rfl | rfl) | rfl <;> decide

theorem AllSeparators.replicate (n : Nat) : AllSeparators (List.replicate n ' ') := by
  intro c hc
  obtain rfl := List.eq_of_mem_replicate hc
  decide

namespace Fragment

variable {mode : LexMode} {p : Position} {x y : List Char} {ts us : List Token}

theorem nil : Fragment mode p [] [] := by
  intro y us _ hy
  exact hy

theorem append (hx : Fragment mode p x ts) (hy : Fragment mode (p.advanceAll x) y us) (hend : EndsWord y) :
    Fragment mode p (x ++ y) (ts ++ us) := by
  intro z vs hz hl
  rw [Position.advanceAll_append] at hl
  rw [List.append_assoc, List.append_assoc]
  exact hx _ _ (hend.append hz) (hy _ _ hz hl)

theorem lexes (h : Fragment mode p x ts) : Lexes mode p x ts := by
  have hl := h [] [] .nil .done
  rwa [List.append_nil, List.append_nil] at hl

theorem blank {c : Char} (hc : isSeparator c = true) (h : Fragment mode (p.advance c) x ts) :
    Fragment mode p (c :: x) ts := by
  intro y us hy hl
  exact .separator hc (h y us hy hl)

theorem separators {b : List Char} (hb : AllSeparators b) (h : Fragment mode (p.advanceAll b) x ts) :
    Fragment mode p (b ++ x) ts := by
  induction b generalizing p with
  | nil => exact h
  | cons c b ih => exact .blank (hb c (by simp)) (ih (fun d hd => hb d (by simp [hd])) h)

/-- One token. -/
theorem one {c : Char} {kind : Kind} (hc : isSeparator c = false)
    (hread : ∀ y, EndsWord y → readToken c (x ++ y) = .token kind (c :: x) y) :
    Fragment mode p (c :: x) [Token.at p kind (c :: x)] := by
  intro y us hy hl
  exact .token hc (hread y hy) hl

/-- A sign and what follows it. -/
theorem sign {c : Char} {kind : Kind} (hc : isSeparator c = false) (hread : ∀ y, readToken c y = .token kind [c] y)
    (h : Fragment mode (p.advance c) x ts) : Fragment mode p (c :: x) (Token.at p kind [c] :: ts) := by
  intro y us hy hl
  exact .token hc (hread (x ++ y)) (h y us hy hl)

theorem doubleColon (h : Fragment mode ((p.advance ':').advance ':') x ts) :
    Fragment mode p (':' :: ':' :: x) (Token.at p (.symbol .doubleColon) [':', ':'] :: ts) := by
  intro y us hy hl
  exact .token (by decide) rfl (h y us hy hl)

/-- A colon that no second colon follows. -/
theorem colon {c : Char} (hc : c ≠ ':') (h : Fragment mode (p.advance ':') (c :: x) ts) :
    Fragment mode p (':' :: c :: x) (Token.at p (.symbol .colon) [':'] :: ts) := by
  intro y us hy hl
  refine .token (by decide) ?_ (h y us hy hl)
  simp only [readToken, List.append_eq, List.cons_append]
  split
  · next heq => exact absurd (List.cons.inj heq).1 hc
  · rfl

end Fragment

/-! ## Words -/

theorem startsWord_ne {c : Char} (h : startsWord c = true) {d : Char} (hd : startsWord d = false) : c ≠ d := by
  rintro rfl
  simp [hd] at h

theorem isAsciiDigit_of_startsWord {c : Char} (h : startsWord c = true) : isAsciiDigit c = false := by
  by_contra hd
  simp only [isAsciiDigit, Bool.not_eq_false, Bool.and_eq_true, decide_eq_true_eq] at hd
  simp only [startsWord, Bool.or_eq_true, Bool.and_eq_true, decide_eq_true_eq] at h
  rcases h with (⟨ha, _⟩ | ⟨ha, _⟩) | rfl
  · exact absurd (Char.le_trans ha hd.2) (by decide)
  · exact absurd (Char.le_trans ha hd.2) (by decide)
  · exact absurd hd.2 (by decide)

theorem readToken_word {c : Char} (cs : List Char) (h : startsWord c = true) :
    readToken c cs = readWord (c :: cs) := by
  unfold readToken
  split
  all_goals first
    | exact absurd h (by decide)
    | rw [isAsciiDigit_of_startsWord h, h]
      rfl

theorem readToken_digit {c : Char} (cs : List Char) (h : isAsciiDigit c = true) :
    readToken c cs = readNumber [] (c :: cs) := by
  unfold readToken
  split
  all_goals first
    | exact absurd h (by decide)
    | rw [h]
      rfl

/-- A run stops where a text begins that does not go on with it. -/
theorem takeWhile_dropWhile_stop {p : Char → Bool} {y : List Char} (hy : ∀ c, y.head? = some c → p c = false)
    (x : List Char) : (x ++ y).takeWhile p = x.takeWhile p ∧ (x ++ y).dropWhile p = x.dropWhile p ++ y := by
  induction x with
  | nil =>
    cases y with
    | nil => simp
    | cons c y => simp [hy c rfl]
  | cons c x ih =>
    by_cases hc : p c = true
    · simp [hc, ih.1, ih.2]
    · simp [hc]

/-- All of a word is taken, and what ends it is left. -/
theorem takeWhile_dropWhile_eq {p : Char → Bool} {w y : List Char} (hw : w.all p = true)
    (hy : ∀ c, y.head? = some c → p c = false) :
    (w ++ y).takeWhile p = w ∧ (w ++ y).dropWhile p = y := by
  obtain ⟨htake, hdrop⟩ := takeWhile_dropWhile_stop hy w
  rw [htake, hdrop, List.takeWhile_eq_self_iff.2 (List.all_eq_true.1 hw),
    List.dropWhile_eq_nil_iff.2 (List.all_eq_true.1 hw), List.nil_append]
  exact ⟨rfl, rfl⟩

/-- The kind of a bare word. -/
def wordKind (w : List Char) : Kind := (Kind.ofReserved? w).getD (.identifier w)

/-- Does the text read as one word? -/
def isWord : List Char → Bool
  | [] => false
  | c :: cs => startsWord c && cs.all continuesWord

theorem fragment_word {mode : LexMode} {p : Position} {w : List Char} (h : isWord w = true) :
    Fragment mode p w [Token.at p (wordKind w) w] := by
  cases w with
  | nil => simp [isWord] at h
  | cons c cs =>
    obtain ⟨hc, hcs⟩ := Bool.and_eq_true_iff.1 h
    refine .one ?_ fun y hy => ?_
    · simp [isSeparator, startsWord_ne hc (d := ' ') (by decide), startsWord_ne hc (d := '\t') (by decide),
        startsWord_ne hc (d := '\r') (by decide)]
    · have hall : (c :: cs).all continuesWord = true := by
        rw [List.all_cons, hcs, continuesWord, hc]
        rfl
      obtain ⟨ht, hd⟩ := takeWhile_dropWhile_eq (y := y) hall fun d hd => (hy d hd).1
      rw [List.cons_append] at ht hd
      rw [readToken_word _ hc]
      simp only [readWord, ht, hd]
      rfl

/-- A reserved word is a keyword or a truth value. -/
theorem word?_at (p : Position) (w : List Char) : (Token.at p (wordKind w) w).word? = some w := by
  have hreserved : ∀ e ∈ Kind.reserved, ∀ t : Token, t.kind = e.2 → t.word? = some t.lexeme := by
    intro e he t ht
    simp only [Kind.reserved, List.mem_cons, List.not_mem_nil, or_false] at he
    rcases he with rfl | rfl | rfl | rfl | rfl | rfl | rfl | rfl | rfl | rfl | rfl | rfl | rfl | rfl | rfl | rfl |
      rfl | rfl <;> simp [Token.word?, ht]
  unfold wordKind
  cases hk : Kind.ofReserved? w with
  | none => rfl
  | some k =>
    obtain ⟨e, he, rfl⟩ := Option.map_eq_some_iff.1 hk
    exact hreserved e (List.mem_of_find?_eq_some he) _ rfl

theorem isAsciiDigit_eq (c : Char) : isAsciiDigit c = c.isDigit := rfl

/-! ## Quoted text -/

/-- A reading of quoted text that begins with one more character. -/
def Quoted.after (value lexeme : List Char) (q : Quoted) : Quoted :=
  { q with value := value ++ q.value, lexeme := lexeme ++ q.lexeme }

theorem readQuoted_plain {c : Char} (rest : List Char) (hquote : c ≠ '"') (hslash : c ≠ '\\') :
    readQuoted (c :: rest) = (readQuoted rest).map (Quoted.after [c] [c]) := by
  rw [readQuoted.eq_def]
  split
  · next heq => simp at heq
  · next heq => exact absurd (List.cons.inj heq).1 hquote
  · next heq => exact absurd (List.cons.inj heq).1 hslash
  · next heq =>
    obtain ⟨rfl, rfl⟩ := List.cons.inj heq
    rfl

theorem readQuoted_escapeChar (c : Char) (rest : List Char) :
    readQuoted (escapeChar c ++ rest) = (readQuoted rest).map (Quoted.after [c] (escapeChar c)) := by
  unfold escapeChar
  split
  · next h => subst h; rfl
  split
  · next h => subst h; rfl
  split
  · next h => subst h; rfl
  split
  · next h => subst h; rfl
  split
  · next h => subst h; rfl
  · next hslash hquote _ _ _ => exact readQuoted_plain rest hquote hslash

/-- **An escaped text is read as itself**, whatever follows its closing quote. -/
theorem readQuoted_escape (cs rest : List Char) :
    readQuoted (escape cs ++ '"' :: rest) = some ⟨cs, escape cs ++ ['"'], rest⟩ := by
  induction cs with
  | nil => rfl
  | cons c cs ih =>
    have hstep := readQuoted_escapeChar c (escape cs ++ '"' :: rest)
    rw [ih, Option.map_some] at hstep
    rw [escape, List.flatMap_cons, List.append_assoc, List.append_assoc]
    exact hstep

theorem fragment_quote {mode : LexMode} {p : Position} (s : String) :
    Fragment mode p (quote s) [Token.at p (.string s.toList) (quote s)] := by
  refine .one (by decide) ?_
  intro y _
  have hread := readQuoted_escape s.toList y
  rw [List.append_assoc, List.singleton_append]
  simp only [readToken, hread]

theorem readQuoted_plainAll {cs : List Char} (rest : List Char) (hcs : ∀ c ∈ cs, c ≠ '"' ∧ c ≠ '\\') :
    readQuoted (cs ++ rest) = (readQuoted rest).map (Quoted.after cs cs) := by
  induction cs with
  | nil =>
    have hid : Quoted.after [] [] = id := rfl
    simp [hid]
  | cons c cs ih =>
    obtain ⟨hquote, hslash⟩ := hcs c (by simp)
    rw [List.cons_append, readQuoted_plain _ hquote hslash, ih fun d hd => hcs d (by simp [hd]), Option.map_map]
    rfl

/-- A backslash that stands for itself, and plain characters behind it. -/
theorem readQuoted_kept {c : Char} {cs : List Char} (rest : List Char) (hc : unescape? c = none)
    (hcs : ∀ d ∈ c :: cs, d ≠ '"' ∧ d ≠ '\\') :
    readQuoted ('\\' :: c :: cs ++ rest) =
      (readQuoted rest).map (Quoted.after ('\\' :: c :: cs) ('\\' :: c :: cs)) := by
  have hstep : readQuoted ('\\' :: (c :: (cs ++ rest))) =
      (readQuoted (c :: (cs ++ rest))).map (Quoted.after ['\\'] ['\\']) := by
    rw [readQuoted, hc]
    rfl
  rw [List.cons_append, List.cons_append, hstep, ← List.cons_append, readQuoted_plainAll rest hcs, Option.map_map]
  rfl

theorem hexDigit_plain : ∀ n < 32, (Json.hexDigit (n / 16) ≠ '"' ∧ Json.hexDigit (n / 16) ≠ '\\') ∧
    Json.hexDigit (n % 16) ≠ '"' ∧ Json.hexDigit (n % 16) ≠ '\\' := by
  decide

/-- The escapes of data are no end of a quoted text, though some stand for other characters in it. -/
theorem readQuoted_jsonEscapeChar (c : Char) : ∃ value, ∀ rest,
    readQuoted (Json.escapeChar c ++ rest) = (readQuoted rest).map (Quoted.after value (Json.escapeChar c)) := by
  unfold Json.escapeChar
  split
  · exact ⟨['"'], fun rest => rfl⟩
  split
  · exact ⟨['\\'], fun rest => rfl⟩
  split
  · exact ⟨['\n'], fun rest => rfl⟩
  split
  · exact ⟨['\r'], fun rest => rfl⟩
  split
  · exact ⟨['\t'], fun rest => rfl⟩
  split
  · exact ⟨['\\', 'b'], fun rest => readQuoted_kept rest rfl (by simp)⟩
  split
  · exact ⟨['\\', 'f'], fun rest => readQuoted_kept rest rfl (by simp)⟩
  split
  · next hcontrol =>
    refine ⟨_, fun rest => readQuoted_kept rest rfl ?_⟩
    simpa using hexDigit_plain c.toNat hcontrol
  · next hquote hslash _ _ _ _ _ _ => exact ⟨[c], fun rest => readQuoted_plain rest hquote hslash⟩

theorem readQuoted_jsonText (cs : List Char) : ∃ value, ∀ rest,
    readQuoted (cs.flatMap Json.escapeChar ++ '"' :: rest) =
      some ⟨value, cs.flatMap Json.escapeChar ++ ['"'], rest⟩ := by
  induction cs with
  | nil => exact ⟨[], fun rest => rfl⟩
  | cons c cs ih =>
    obtain ⟨value, hc⟩ := readQuoted_jsonEscapeChar c
    obtain ⟨more, hcs⟩ := ih
    refine ⟨value ++ more, ?_⟩
    intro rest
    rw [List.flatMap_cons, List.append_assoc, hc, hcs, List.append_assoc]
    rfl

theorem fragment_jsonQuote (mode : LexMode) (p : Position) (cs : List Char) :
    ∃ value, Fragment mode p (Json.quote cs) [Token.at p (.string value) (Json.quote cs)] := by
  obtain ⟨value, hread⟩ := readQuoted_jsonText cs
  refine ⟨value, .one (by decide) ?_⟩
  intro y _
  rw [List.append_assoc, List.singleton_append]
  simp only [readToken, hread]

/-! ## Level text -/

/-- Tokens that leave every count of open blocks as it is. -/
def Balanced (ts : List Token) : Prop := ∀ (shape : BlockShape) (n : Nat) (rest : List Token),
  Context.blockEnd (Context.openSymbol shape) (Context.closeSymbol shape) n (ts ++ rest) =
    Context.blockEnd (Context.openSymbol shape) (Context.closeSymbol shape) n rest

section
variable {ts us : List Token} {t u : Token}

theorem Balanced.nil : Balanced [] := fun _ _ _ => rfl

theorem Balanced.append (ht : Balanced ts) (hu : Balanced us) : Balanced (ts ++ us) := by
  intro shape n rest
  rw [List.append_assoc, ht, hu]

theorem blockEnd_plain (shape : BlockShape) (n : Nat) (rest : List Token) (ht : t.isDelimiter = false) :
    Context.blockEnd (Context.openSymbol shape) (Context.closeSymbol shape) n (t :: rest) =
      Context.blockEnd (Context.openSymbol shape) (Context.closeSymbol shape) n rest := by
  simp only [Token.isDelimiter, Bool.or_eq_false_iff] at ht
  cases shape <;> simp [Context.blockEnd, Context.openSymbol, Context.closeSymbol, ht]

theorem Balanced.cons (ht : t.isDelimiter = false) (hts : Balanced ts) : Balanced (t :: ts) := by
  intro shape n rest
  rw [List.cons_append, blockEnd_plain shape n _ ht, hts]

theorem blockEnd_open (shape : BlockShape) (n : Nat) (rest : List Token)
    (ht : t.kind = .symbol (Context.openSymbol shape)) :
    Context.blockEnd (Context.openSymbol shape) (Context.closeSymbol shape) n (t :: rest) =
      Context.blockEnd (Context.openSymbol shape) (Context.closeSymbol shape) (n + 1) rest := by
  simp [Context.blockEnd, Token.isSymbol, ht]

theorem blockEnd_close (shape : BlockShape) (n : Nat) (rest : List Token)
    (ht : t.kind = .symbol (Context.closeSymbol shape)) :
    Context.blockEnd (Context.openSymbol shape) (Context.closeSymbol shape) (n + 1) (t :: rest) =
      Context.blockEnd (Context.openSymbol shape) (Context.closeSymbol shape) n rest := by
  cases shape <;> simp [Context.blockEnd, Token.isSymbol, ht, Context.openSymbol, Context.closeSymbol]

/-- The closing sign of the block that was opened last. -/
theorem blockEnd_last (shape : BlockShape) (rest : List Token) (ht : t.kind = .symbol (Context.closeSymbol shape)) :
    Context.blockEnd (Context.openSymbol shape) (Context.closeSymbol shape) 0 (t :: rest) = some (t, rest) := by
  cases shape <;> simp [Context.blockEnd, Token.isSymbol, ht, Context.openSymbol, Context.closeSymbol]

theorem blockEnd_other (shape : BlockShape) (n : Nat) (rest : List Token)
    (ht : t.kind = .symbol (Context.openSymbol (other shape)) ∨
      t.kind = .symbol (Context.closeSymbol (other shape))) :
    Context.blockEnd (Context.openSymbol shape) (Context.closeSymbol shape) n (t :: rest) =
      Context.blockEnd (Context.openSymbol shape) (Context.closeSymbol shape) n rest := by
  rcases ht with ht | ht
  · cases shape <;> simp [Context.blockEnd, Token.isSymbol, ht, other, Context.openSymbol, Context.closeSymbol]
  · cases shape <;> simp [Context.blockEnd, Token.isSymbol, ht, other, Context.openSymbol, Context.closeSymbol]

theorem eq_or_other (shape inner : BlockShape) : inner = shape ∨ inner = other shape := by
  cases shape <;> cases inner <;> simp [other]

/-- A block within a block, of the same or the other kind. -/
theorem Balanced.block (inner : BlockShape) (ht : t.kind = .symbol (Context.openSymbol inner))
    (hu : u.kind = .symbol (Context.closeSymbol inner)) (hts : Balanced ts) : Balanced (t :: (ts ++ [u])) := by
  intro shape n rest
  rw [List.cons_append, List.append_assoc, List.singleton_append]
  rcases eq_or_other shape inner with rfl | rfl
  · rw [blockEnd_open _ _ _ ht, hts, blockEnd_close _ _ _ hu]
  · rw [blockEnd_other _ _ _ (.inl ht), hts, blockEnd_other _ _ _ (.inr hu)]

end

/-- The tokens of a block: its signs, and the tokens of the text between them. -/
theorem fragment_block (shape : BlockShape) {mode : LexMode} {p : Position} {x : List Char}
    (h : Fragment mode (p.advance shape.opening) x ts) :
    Fragment mode p (shape.opening :: (x ++ [shape.closing]))
      (Token.at p (.symbol (Context.openSymbol shape)) [shape.opening] ::
        (ts ++ [Token.at ((p.advance shape.opening).advanceAll x) (.symbol (Context.closeSymbol shape))
          [shape.closing]])) := by
  have hend : EndsWord [shape.closing] := by
    cases shape <;> exact .cons (by decide) []
  have hclose : Fragment mode ((p.advance shape.opening).advanceAll x) [shape.closing]
      [Token.at ((p.advance shape.opening).advanceAll x) (.symbol (Context.closeSymbol shape)) [shape.closing]] := by
    cases shape <;> exact .sign (by decide) (fun _ => rfl) .nil
  have hall := h.append hclose hend
  cases shape <;> exact .sign (by decide) (fun _ => rfl) hall

/-- Text that is a fragment at every place, with balanced tokens. -/
def Level (mode : LexMode) (x : List Char) : Prop :=
  ∀ p : Position, ∃ ts, Fragment mode p x ts ∧ Balanced ts

namespace Level

variable {mode : LexMode} {x y : List Char}

theorem nil : Level mode [] := fun _ => ⟨[], .nil, .nil⟩

theorem append (hx : Level mode x) (hy : Level mode y) (hend : EndsWord y) : Level mode (x ++ y) := by
  intro p
  obtain ⟨ts, hts, hbt⟩ := hx p
  obtain ⟨us, hus, hbu⟩ := hy (p.advanceAll x)
  exact ⟨ts ++ us, hts.append hus hend, hbt.append hbu⟩

theorem comma (hx : Level mode x) : Level mode (',' :: x) := by
  intro p
  obtain ⟨ts, hts, hb⟩ := hx (p.advance ',')
  exact ⟨_, .sign (by decide) (fun _ => rfl) hts, .cons rfl hb⟩

theorem colon {c : Char} (hc : c ≠ ':') (hx : Level mode (c :: x)) : Level mode (':' :: c :: x) := by
  intro p
  obtain ⟨ts, hts, hb⟩ := hx (p.advance ':')
  exact ⟨_, .colon hc hts, .cons rfl hb⟩

theorem quoted (cs : List Char) : Level mode (Json.quote cs) := by
  intro p
  obtain ⟨value, h⟩ := fragment_jsonQuote mode p cs
  exact ⟨_, h, .cons rfl .nil⟩

theorem word (hx : isWord x = true) : Level mode x := by
  intro p
  exact ⟨_, fragment_word hx, .cons (isDelimiter_of_word (word?_at p x)).1 .nil⟩

theorem block (shape : BlockShape) (hx : Level mode x) : Level mode (shape.opening :: (x ++ [shape.closing])) := by
  intro p
  obtain ⟨ts, hts, hb⟩ := hx (p.advance shape.opening)
  exact ⟨_, fragment_block shape hts, .block shape rfl rfl hb⟩

end Level

end Grimoire.Source
