import Grimoire.Proofs.Source.Clauses
import Mathlib.Data.List.Chain
import Mathlib.Data.List.Induction

/-!
# Where tokens stand

The tokens of a source and the gaps between them are the source, piece by piece (`Laid`). So the bytes
of a token cut its lexeme out of the source, its line and column count the text before it, and nothing
but separators, and in the lenient mode characters that start no token, lies between two tokens
(`tokens_lossless`).
-/
namespace Grimoire.Source

variable {mode : LexMode} {p : Position} {source seen gap x : List Char} {ts : List Token}

/-! ## Characters that start a token -/

/-- A sign, a digit or a letter starts a token wherever it stands; a minus sign does before a digit. -/
def startsToken (c : Char) (cs : List Char) : Bool :=
  ['@', '\x7b', '\x7d', '[', ']', '(', ')', ',', '#', '\n', ':', '"'].contains c || isAsciiDigit c || startsWord c
    || c == '-' && cs.head?.any isAsciiDigit

/-- Only such characters are read as a token, or as a string without its end. -/
theorem startsToken_of_unexpected {c : Char} {cs : List Char} (h : readToken c cs = .unexpected) :
    startsToken c cs = false := by
  unfold readToken at h
  split at h
  all_goals try simp at h
  · split at h <;> simp at h
  · split at h <;> simp at h
  · split at h
    · next d tail =>
      split at h
      · simp [readNumber] at h
      · next hd => simpa [startsToken, startsWord, isAsciiDigit] using hd
    · simp [startsToken, startsWord, isAsciiDigit]
  · split at h
    · simp [readNumber] at h
    · split at h
      · simp [readWord] at h
      · simp_all [startsToken]

/-- The mode goes over these characters before the rest of a text: each is a separator, or starts no
token and the mode is the lenient one. -/
def Skipped (mode : LexMode) : List Char → List Char → Prop
  | [], _ => True
  | c :: gap, after =>
    (isSeparator c = true ∨ mode = .lenient ∧ startsToken c (gap ++ after) = false) ∧ Skipped mode gap after

/-! ## Counting lines and columns -/

/-- The characters since the last newline of a text. -/
def lastLine (x : List Char) : List Char := (x.reverse.takeWhile fun c => !isLineEnd c).reverse

theorem Position.advanceAll_concat (p : Position) (x : List Char) (c : Char) :
    p.advanceAll (x ++ [c]) = (p.advanceAll x).advance c := Position.advanceAll_append _ _ _

theorem column_advanceAll (x : List Char) :
    (Position.start.advanceAll x).column = 1 + (lastLine x).length := by
  induction x using List.reverseRecOn with
  | nil => rfl
  | append_singleton x c ih =>
    rw [Position.advanceAll_concat]
    by_cases hc : c = '\n'
    · subst hc
      simp [lastLine, isLineEnd]
      rfl
    · have hline : isLineEnd c = false := by simpa [isLineEnd] using hc
      have hlast : (lastLine (x ++ [c])).length = (lastLine x).length + 1 := by
        simp [lastLine, hline]
      rw [Position.advance, if_neg hc, hlast]
      simp only [ih]
      omega

/-! ## The source, piece by piece -/

/-- After the text that was seen, the source goes on with these tokens, each at its place and after what
the mode goes over. -/
def Laid (mode : LexMode) (source : List Char) : List Char → List Token → Prop
  | _, [] => True
  | seen, t :: ts => ∃ gap after, source = seen ++ gap ++ t.lexeme ++ after ∧ Skipped mode gap (t.lexeme ++ after) ∧
      t = Token.at (Position.start.advanceAll (seen ++ gap)) t.kind t.lexeme ∧
      Laid mode source (seen ++ gap ++ t.lexeme) ts

/-- What the mode goes over belongs to the gap before the next token. -/
theorem Laid.cons {c : Char} {cs : List Char} (hsource : source = seen ++ c :: cs)
    (hc : isSeparator c = true ∨ mode = .lenient ∧ startsToken c cs = false)
    (h : Laid mode source (seen ++ [c]) ts) : Laid mode source seen ts := by
  cases ts with
  | nil => trivial
  | cons t ts =>
    obtain ⟨gap, after, heq, hgap, hplace, hnext⟩ := h
    have hcs : cs = gap ++ (t.lexeme ++ after) := by
      rw [hsource] at heq
      simpa using heq
    refine ⟨c :: gap, after, ?_, ⟨?_, hgap⟩, ?_, ?_⟩
    · simpa using heq
    · rwa [← hcs]
    · simpa using hplace
    · simpa using hnext

theorem Lexes.laid (h : Lexes mode p x ts) (seen : List Char) (hp : p = Position.start.advanceAll seen) :
    Laid mode (seen ++ x) seen (ts ++ [endOf (seen ++ x)]) := by
  induction h generalizing seen with
  | done => exact ⟨[], [], by simp [endOf, Token.at], trivial, by simp [endOf, Token.at], trivial⟩
  | @separator p c cs ts hc _ ih =>
    have hrest := ih (seen ++ [c]) (by rw [hp, Position.advanceAll_concat])
    rw [List.append_assoc, List.singleton_append] at hrest
    exact .cons rfl (.inl hc) hrest
  | @token p c cs lexeme rest kind ts hc hr _ ih =>
    have hsplit := append_of_readToken hr
    have hplace : p.advanceAll lexeme = Position.start.advanceAll (seen ++ lexeme) := by
      rw [hp, Position.advanceAll_append]
    have hrest := ih (seen ++ lexeme) hplace
    rw [List.append_assoc, hsplit] at hrest
    refine ⟨[], rest, ?_, trivial, ?_, ?_⟩
    · simp [Token.at, hsplit]
    · simp [Token.at, hp]
    · simpa [Token.at] using hrest
  | @skip p c cs ts hc hr hm _ ih =>
    have hrest := ih (seen ++ [c]) (by rw [hp, Position.advanceAll_concat])
    rw [List.append_assoc, List.singleton_append] at hrest
    exact .cons rfl (.inr ⟨hm, startsToken_of_unexpected hr⟩) hrest

/-! ## Bytes, lines and columns -/

/-- The lexeme is what stands between the bytes of the token, and its line and column count the text
before it. -/
structure Token.Exact (source : List Char) (t : Token) : Prop where
  ordered : t.span.start ≤ t.span.stop
  within : slice? source t.span.start t.span.stop = some t.lexeme
  counted : ∃ before, slice? source 0 t.span.start = some before ∧
    t.span.line = 1 + newlines before ∧ t.span.column = 1 + (lastLine before).length

/-- Between two bytes of the source lies only what the mode goes over. -/
structure Passes (mode : LexMode) (source : List Char) (start stop : Nat) : Prop where
  ordered : start ≤ stop
  skipped : ∃ gap after, slice? source start stop = some gap ∧ dropBytes stop source = some after ∧
    Skipped mode gap after

theorem slice?_between (before x after : List Char) :
    slice? (before ++ x ++ after) (Text.byteLength before) (Text.byteLength (before ++ x)) = some x := by
  let ctx : Context := ⟨before ++ x ++ after, endOf (before ++ x ++ after)⟩
  have hstands : ctx.Stands (Position.start.advanceAll before) x :=
    ⟨before, after, List.append_assoc before x after, rfl⟩
  have hslice := hstands.slice
  rwa [← Position.advanceAll_append, byte_advanceAll_start, byte_advanceAll_start] at hslice

theorem dropBytes_front (before after : List Char) :
    dropBytes (Text.byteLength before) (before ++ after) = some after := by
  have h := dropBytes_append_right 0 before after
  rwa [Nat.add_zero, dropBytes] at h

theorem byteLength_append (x y : List Char) :
    Text.byteLength (x ++ y) = Text.byteLength x + Text.byteLength y := by
  rw [← byte_advanceAll_start, Position.advanceAll_append, Position.byte_advanceAll, byte_advanceAll_start]

theorem stop_of_place {t : Token} {before : List Char}
    (hplace : t = Token.at (Position.start.advanceAll before) t.kind t.lexeme) :
    t.span.stop = Text.byteLength (before ++ t.lexeme) := by
  have hstop : t.span.stop = ((Position.start.advanceAll before).advanceAll t.lexeme).byte := by
    conv => lhs; rw [hplace]
    rfl
  rw [hstop, ← Position.advanceAll_append, byte_advanceAll_start]

/-- A token laid out after a gap stands where it says. -/
theorem Token.Exact.of_place {t : Token} {before after : List Char} (hsource : source = before ++ t.lexeme ++ after)
    (hplace : t = Token.at (Position.start.advanceAll before) t.kind t.lexeme) : t.Exact source := by
  have hstart : t.span.start = Text.byteLength before := by
    rw [hplace]
    exact byte_advanceAll_start before
  have hstop := stop_of_place hplace
  have hline : t.span.line = 1 + newlines before := by
    rw [hplace]
    exact Position.line_advanceAll .start before
  have hcolumn : t.span.column = 1 + (lastLine before).length := by
    rw [hplace]
    exact column_advanceAll before
  constructor
  · rw [hstart, hstop, byteLength_append]
    omega
  · rw [hstart, hstop, hsource]
    exact slice?_between before t.lexeme after
  · refine ⟨before, ?_, hline, hcolumn⟩
    rw [hstart, hsource, List.append_assoc]
    exact slice?_between [] before _

/-- Tokens that are laid out stand where they say, with only what the mode goes over before each. -/
theorem Laid.exact (h : Laid mode source seen ts) :
    (∀ t ∈ ts, t.Exact source) ∧ (∀ t ∈ ts.head?, Passes mode source (Text.byteLength seen) t.span.start) ∧
    ts.IsChain fun t u => Passes mode source t.span.stop u.span.start := by
  induction ts generalizing seen with
  | nil => simp
  | cons t ts ih =>
    obtain ⟨gap, after, hsource, hgap, hplace, hnext⟩ := h
    obtain ⟨hexact, hfirst, hchain⟩ := ih hnext
    have hstart : t.span.start = Text.byteLength (seen ++ gap) := by
      rw [hplace]
      exact byte_advanceAll_start _
    have hstop : t.span.stop = Text.byteLength (seen ++ gap ++ t.lexeme) := stop_of_place hplace
    have hpasses : Passes mode source (Text.byteLength seen) t.span.start := by
      rw [hstart]
      refine ⟨?_, gap, t.lexeme ++ after, ?_, ?_, hgap⟩
      · rw [byteLength_append]
        omega
      · rw [hsource, List.append_assoc (seen ++ gap)]
        exact slice?_between seen gap _
      · rw [hsource, List.append_assoc (seen ++ gap)]
        exact dropBytes_front _ _
    refine ⟨?_, by simpa using hpasses, ?_⟩
    · intro u hu
      rcases List.mem_cons.1 hu with rfl | hu
      · exact .of_place hsource hplace
      · exact hexact u hu
    · refine List.isChain_cons.2 ⟨?_, hchain⟩
      rw [hstop]
      exact hfirst

/-- **The tokens of a source are the source.** The last token and only the last is the end of input, at
the end of the source. Each token cuts its lexeme out of the source by its bytes, and its line and column
count the newlines before it and the characters since the last of them. From one token to the next the
bytes go up, and what lies between is separators, and in the lenient mode also characters that start no
token. -/
theorem tokens_lossless (h : tokens mode source = .ok ts) :
    (∃ front last, ts = front ++ [last] ∧ last.isEnd = true ∧ last.lexeme = [] ∧
      last.span.start = Text.byteLength source ∧ last.span.stop = Text.byteLength source ∧
      ∀ t ∈ front, t.isEnd = false) ∧
    (∀ t ∈ ts, t.Exact source) ∧ (∀ t ∈ ts.head?, Passes mode source 0 t.span.start) ∧
    ts.IsChain fun t u => Passes mode source t.span.stop u.span.start := by
  obtain ⟨front, rfl, hlexes⟩ := tokens_eq_ok.1 h
  refine ⟨⟨front, endOf source, rfl, rfl, rfl, ?_, ?_, ?_⟩, (hlexes.laid [] rfl).exact⟩
  · exact byte_advanceAll_start source
  · exact byte_advanceAll_start source
  · intro t ht
    have hkind := (hlexes.faithful t ht).goesOn
    simpa [Token.isEnd] using hkind

/-- A name in another script and a sign that starts no token, a string over two lines, a number. -/
def mixedSource : String := "@world Ωm ~\n\"a\\\"b\nc\" -2.5\n"

theorem mixedSource_lossless : ∃ ts, tokens .lenient mixedSource.toList = .ok ts ∧ ts.length = 8 ∧
    (∃ front last, ts = front ++ [last] ∧ last.isEnd = true ∧ last.lexeme = [] ∧
      last.span.start = Text.byteLength mixedSource.toList ∧ last.span.stop = Text.byteLength mixedSource.toList ∧
      ∀ t ∈ front, t.isEnd = false) ∧
    (∀ t ∈ ts, t.Exact mixedSource.toList) ∧
    (∀ t ∈ ts.head?, Passes .lenient mixedSource.toList 0 t.span.start) ∧
    ts.IsChain fun t u => Passes .lenient mixedSource.toList t.span.stop u.span.start := by
  obtain ⟨ts, hts, hlength⟩ : ∃ ts, tokens .lenient mixedSource.toList = .ok ts ∧ (ts.length == 8) = true :=
    exists_ok (by decide +kernel)
  exact ⟨ts, hts, by simpa using hlength, tokens_lossless hts⟩

end Grimoire.Source
