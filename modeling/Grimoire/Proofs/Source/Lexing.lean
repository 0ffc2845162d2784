import Grimoire.Source.Lexer
import Mathlib.Data.List.TakeWhile

/-!
# Lines and tokens

A token never goes over the end of a text that ends with a newline, so a text after it changes no
token of it (`Lexes.append`), and what is read from another place differs in its places only
(`Lexes.moved`). `tokensFrom_eq_ok` ties the relation to the function.
-/
namespace Grimoire.Source

/-! ## Lists that end in one of a class -/

/-- The list is empty or its last element is of the class. -/
def EndsIn {α : Type} (p : α → Bool) (l : List α) : Prop := ∀ a, l.getLast? = some a → p a = true

section
variable {α : Type} {p : α → Bool} {a : α} {l l' : List α}

theorem EndsIn.nil : EndsIn p [] := fun a h => by simp at h

theorem EndsIn.append_right (h : EndsIn p (l ++ l')) : EndsIn p l' := by
  intro a ha
  exact h a (by rw [List.getLast?_append, ha]; rfl)

theorem EndsIn.tail (h : EndsIn p (a :: l)) : EndsIn p l := EndsIn.append_right (l := [a]) h

theorem EndsIn.ne_nil (h : EndsIn p (a :: l)) (ha : p a = false) : l ≠ [] := by
  rintro rfl
  simp [h a rfl] at ha

/-- Somewhere in the list the class begins. -/
theorem EndsIn.exists_mem (h : EndsIn p (a :: l)) : ∃ b ∈ a :: l, p b = true := by
  refine ⟨(a :: l).getLast (by simp), List.getLast_mem _, h _ ?_⟩
  exact List.getLast?_eq_some_getLast _

theorem EndsIn.append (h : EndsIn p l') (hl : l' = [] → EndsIn p l) : EndsIn p (l ++ l') := by
  cases l' with
  | nil => simpa using hl rfl
  | cons b l' =>
    intro a ha
    rw [List.getLast?_append, List.getLast?_eq_some_getLast (List.cons_ne_nil b l')] at ha
    exact h a (by rw [List.getLast?_eq_some_getLast (List.cons_ne_nil b l')]; exact ha)

theorem EndsIn.both (h : EndsIn p l) (h' : EndsIn p l') : EndsIn p (l ++ l') := h'.append fun _ => h

end

/-- Where an element does not satisfy `p`, what follows the list is neither taken nor dropped. -/
theorem takeWhile_dropWhile_append {α : Type} {p : α → Bool} {l : List α} (l' : List α)
    (h : ∃ a ∈ l, p a = false) :
    (l ++ l').takeWhile p = l.takeWhile p ∧ (l ++ l').dropWhile p = l.dropWhile p ++ l' := by
  induction l with
  | nil => simp at h
  | cons a l ih =>
    by_cases ha : p a = true
    · have hl : ∃ b ∈ l, p b = false := by
        obtain ⟨b, hb, hpb⟩ := h
        rcases List.mem_cons.1 hb with rfl | hb
        · simp [ha] at hpb
        · exact ⟨b, hb, hpb⟩
      obtain ⟨ht, hd⟩ := ih hl
      simp [ha, ht, hd]
    · simp [ha]

/-! ## One token before more text -/

def isLineEnd (c : Char) : Bool := c == '\n'

/-- The same reading with more text behind it. -/
def Reading.followedBy (y : List Char) : Reading → Reading
  | token kind lexeme rest => token kind lexeme (rest ++ y)
  | unterminated => unterminated
  | unexpected => unexpected

theorem readQuoted_append {cs : List Char} {q : Quoted} (y : List Char) (h : readQuoted cs = some q) :
    readQuoted (cs ++ y) = some { q with rest := q.rest ++ y } := by
  fun_induction readQuoted cs generalizing q with
  | case1 => simp at h
  | case2 rest =>
    obtain rfl := Option.some.inj h
    rfl
  | case3 c rest x hx ih =>
    obtain ⟨q', hq, rfl⟩ := Option.map_eq_some_iff.1 h
    simp [readQuoted, hx, ih hq]
  | case4 c rest hx ih =>
    obtain ⟨q', hq, rfl⟩ := Option.map_eq_some_iff.1 h
    have := ih hq
    rw [List.cons_append] at this
    simp [readQuoted, hx, this]
  | case5 c rest h1 h2 ih =>
    obtain ⟨q', hq, rfl⟩ := Option.map_eq_some_iff.1 h
    have hstep : readQuoted (c :: (rest ++ y)) =
        (readQuoted (rest ++ y)).map fun q => ⟨c :: q.value, c :: q.lexeme, q.rest⟩ := by
      cases rest with
      | nil => simp [readQuoted] at hq
      | cons d rest =>
        rw [List.cons_append, readQuoted]
        · exact h1
        · intro c' rest' hc heq
          obtain ⟨rfl, rfl⟩ := List.cons.inj heq
          exact h2 _ _ hc rfl
    rw [List.cons_append, hstep, ih hq]
    rfl

theorem splitNumber_append {cs : List Char} (y : List Char) (h : EndsIn isLineEnd cs) (hne : cs ≠ []) :
    splitNumber (cs ++ y) = ((splitNumber cs).1, (splitNumber cs).2.1, (splitNumber cs).2.2 ++ y) := by
  have hsome {d : Char} {ds : List Char} (h : EndsIn isLineEnd (d :: ds)) : ∃ b ∈ d :: ds, isAsciiDigit b = false := by
    obtain ⟨b, hb, hn⟩ := h.exists_mem
    refine ⟨b, hb, ?_⟩
    obtain rfl : b = '\n' := by simpa [isLineEnd] using hn
    decide
  obtain ⟨c, cs, rfl⟩ := List.exists_cons_of_ne_nil hne
  obtain ⟨ht, hd⟩ := takeWhile_dropWhile_append y (hsome h)
  have hend : EndsIn isLineEnd ((c :: cs).dropWhile isAsciiDigit) := by
    rw [← List.takeWhile_append_dropWhile (p := isAsciiDigit) (l := c :: cs)] at h
    exact h.append_right
  have hrest : (c :: cs).dropWhile isAsciiDigit ≠ [] := by
    obtain ⟨b, hb, hn⟩ := hsome h
    exact fun hx => by simpa [hn] using List.dropWhile_eq_nil_iff.1 hx b hb
  simp only [splitNumber, ht, hd]
  obtain ⟨a, r, hr⟩ := List.exists_cons_of_ne_nil hrest
  rw [hr] at hend ⊢
  cases r with
  | nil =>
    obtain rfl : a = '\n' := by simpa [isLineEnd] using hend a rfl
    rfl
  | cons d r =>
    obtain ⟨ht', hd'⟩ := takeWhile_dropWhile_append y (hsome hend.tail)
    rw [List.cons_append] at ht' hd'
    by_cases ha : a = '.'
    · subst ha
      by_cases hdig : isAsciiDigit d = true
      · simp only [List.cons_append, hdig, if_true, ht', hd']
      · simp only [List.cons_append, hdig]
        rfl
    · simp only [List.cons_append]
      split
      · simp_all
      · split
        · simp_all
        · rfl

theorem readNumber_append {cs : List Char} (sign y : List Char) (h : EndsIn isLineEnd cs) (hne : cs ≠ []) :
    readNumber sign (cs ++ y) = (readNumber sign cs).followedBy y := by
  simp only [readNumber, splitNumber_append y h hne]
  rfl

theorem readWord_append {c : Char} {cs : List Char} (y : List Char) (h : EndsIn isLineEnd (c :: cs)) :
    readWord (c :: (cs ++ y)) = (readWord (c :: cs)).followedBy y := by
  have hsome : ∃ b ∈ c :: cs, continuesWord b = false := by
    obtain ⟨b, hb, hn⟩ := h.exists_mem
    refine ⟨b, hb, ?_⟩
    obtain rfl : b = '\n' := by simpa [isLineEnd] using hn
    decide
  obtain ⟨ht, hd⟩ := takeWhile_dropWhile_append y hsome
  rw [List.cons_append] at ht hd
  simp only [readWord, ht, hd]
  rfl

theorem readToken_append {c : Char} {cs : List Char} (y : List Char) (h : EndsIn isLineEnd (c :: cs))
    (hq : readToken c cs ≠ .unterminated) : readToken c (cs ++ y) = (readToken c cs).followedBy y := by
  have hne (hc : c ≠ '\n') : cs ≠ [] := h.ne_nil (by simpa [isLineEnd] using hc)
  unfold readToken at hq ⊢
  split at hq
  all_goals try rfl
  · obtain ⟨d, ds, rfl⟩ := List.exists_cons_of_ne_nil (hne (by decide))
    by_cases hd : d = ':'
    · subst hd
      rfl
    · simp [hd, Reading.followedBy]
  · split at hq
    · next q hread => simp [readQuoted_append y hread, Reading.followedBy]
    · exact absurd rfl hq
  · obtain ⟨d, ds, rfl⟩ := List.exists_cons_of_ne_nil (hne (by decide))
    by_cases hd : isAsciiDigit d = true
    · simpa [hd] using readNumber_append ['-'] y h.tail (by simp)
    · simp [hd, Reading.followedBy]
  · by_cases hd : isAsciiDigit c = true
    · have hn := readNumber_append [] y h (List.cons_ne_nil c cs)
      rw [List.cons_append] at hn
      simpa only [hd, if_true] using hn
    · by_cases hs : startsWord c = true
      · simpa only [hd, hs, if_true, Bool.false_eq_true, if_false] using readWord_append y h
      · simp [hd, hs, Reading.followedBy]

/-! ## Lexemes -/

theorem append_of_readQuoted {cs : List Char} {q : Quoted} (h : readQuoted cs = some q) :
    q.lexeme ++ q.rest = cs := by
  fun_induction readQuoted cs generalizing q with
  | case1 => simp at h
  | case2 rest =>
    obtain rfl := Option.some.inj h
    rfl
  | case3 c rest x hx ih =>
    obtain ⟨q', hq, rfl⟩ := Option.map_eq_some_iff.1 h
    simp [ih hq]
  | case4 c rest hx ih =>
    obtain ⟨q', hq, rfl⟩ := Option.map_eq_some_iff.1 h
    simp [ih hq]
  | case5 c rest h1 h2 ih =>
    obtain ⟨q', hq, rfl⟩ := Option.map_eq_some_iff.1 h
    simp [ih hq]

theorem append_of_splitNumber (cs : List Char) :
    (splitNumber cs).1 ++ (if (splitNumber cs).2.1.isEmpty then [] else ['.']) ++ (splitNumber cs).2.1
      ++ (splitNumber cs).2.2 = cs := by
  have hall := List.takeWhile_append_dropWhile (p := isAsciiDigit) (l := cs)
  unfold splitNumber
  dsimp only
  split
  · next d rest hr =>
    split
    · next hd =>
      have htail := List.takeWhile_append_dropWhile (p := isAsciiDigit) (l := d :: rest)
      have hne : ((d :: rest).takeWhile isAsciiDigit).isEmpty = false := by simp [hd]
      rw [hr] at hall
      dsimp only
      rw [hne, List.append_assoc, htail]
      simpa only [Bool.false_eq_true, if_false, List.append_assoc, List.singleton_append] using hall
    · rw [hr] at hall
      simpa using hall
  · simp

/-- A token takes its lexeme from the front of the text. -/
theorem append_of_readToken {c : Char} {cs lexeme rest : List Char} {kind : Kind}
    (h : readToken c cs = .token kind lexeme rest) : lexeme ++ rest = c :: cs := by
  have number {sign cs : List Char} (h : readNumber sign cs = .token kind lexeme rest) :
      lexeme ++ rest = sign ++ cs := by
    simp only [readNumber, Reading.token.injEq] at h
    obtain ⟨_, rfl, rfl⟩ := h
    conv => rhs; rw [← append_of_splitNumber cs]
    simp
  unfold readToken at h
  split at h
  all_goals try
    simp only [Reading.token.injEq] at h
    obtain ⟨_, rfl, rfl⟩ := h
    rfl
  · split at h
    all_goals
      simp only [Reading.token.injEq] at h
      obtain ⟨_, rfl, rfl⟩ := h
      rfl
  · split at h
    · next q hq =>
      simp only [Reading.token.injEq] at h
      obtain ⟨_, rfl, rfl⟩ := h
      simp [append_of_readQuoted hq]
    · simp at h
  · split at h
    · split at h
      · exact number h
      · simp at h
    · simp at h
  · split at h
    · simpa using number h
    · split at h
      · simp only [readWord, Reading.token.injEq] at h
        obtain ⟨_, rfl, rfl⟩ := h
        exact List.takeWhile_append_dropWhile
      · simp at h

/-- What a token of a kind can be: a newline is one character, and the reserved words are spelled as
such; the lexeme of any other token does not end in a newline. -/
structure Faithful (kind : Kind) (lexeme : List Char) : Prop where
  goesOn : kind ≠ .endOfInput
  spelled : ∀ k, kind = .keyword k → Kind.ofReserved? lexeme = some (.keyword k)
  lineEnd : kind = .newline ∨ ∀ c, lexeme.getLast? = some c → c ≠ '\n'

theorem getLast?_readQuoted {cs : List Char} {q : Quoted} (h : readQuoted cs = some q) :
    q.lexeme.getLast? = some '"' := by
  have more {q : Quoted} (c : Char) (hq : q.lexeme.getLast? = some '"') :
      (c :: q.lexeme).getLast? = some '"' := by
    rw [List.getLast?_cons, hq]
    rfl
  fun_induction readQuoted cs generalizing q with
  | case1 => simp at h
  | case2 rest =>
    obtain rfl := Option.some.inj h
    rfl
  | case3 c rest x hx ih =>
    obtain ⟨q', hq, rfl⟩ := Option.map_eq_some_iff.1 h
    have hl := more c (ih hq)
    dsimp only
    rw [List.getLast?_cons, hl]
    rfl
  | case4 c rest hx ih =>
    obtain ⟨q', hq, rfl⟩ := Option.map_eq_some_iff.1 h
    exact more _ (ih hq)
  | case5 c rest h1 h2 ih =>
    obtain ⟨q', hq, rfl⟩ := Option.map_eq_some_iff.1 h
    exact more _ (ih hq)

theorem faithful_readNumber {sign cs lexeme rest : List Char} {kind : Kind} (hs : ∀ c ∈ sign, c ≠ '\n')
    (h : readNumber sign cs = .token kind lexeme rest) : Faithful kind lexeme := by
  have digits (cs : List Char) : ∀ c ∈ cs.takeWhile isAsciiDigit, c ≠ '\n' := by
    rintro c hc rfl
    exact absurd (List.mem_takeWhile_imp hc) (by decide)
  have hparts : (∀ c ∈ (splitNumber cs).1, c ≠ '\n') ∧ ∀ c ∈ (splitNumber cs).2.1, c ≠ '\n' := by
    unfold splitNumber
    dsimp only
    split
    · split
      · exact ⟨digits _, digits _⟩
      · exact ⟨digits _, by simp⟩
    · exact ⟨digits _, by simp⟩
  simp only [readNumber, Reading.token.injEq] at h
  obtain ⟨rfl, rfl, _⟩ := h
  refine ⟨by simp, by simp, .inr ?_⟩
  intro c hc
  have hmem := List.mem_of_getLast? hc
  simp only [List.mem_append] at hmem
  rcases hmem with ((hm | hm) | hm) | hm
  · exact hs c hm
  · exact hparts.1 c hm
  · split at hm
    · simp at hm
    · obtain rfl := List.mem_singleton.1 hm
      decide
  · exact hparts.2 c hm

theorem faithful_readWord {c : Char} {cs lexeme rest : List Char} {kind : Kind}
    (h : readWord (c :: cs) = .token kind lexeme rest) : Faithful kind lexeme := by
  simp only [readWord, Reading.token.injEq] at h
  obtain ⟨rfl, rfl, _⟩ := h
  have hreserved (k : Kind) (hk : Kind.ofReserved? ((c :: cs).takeWhile continuesWord) = some k) :
      k ≠ .endOfInput := by
    obtain ⟨⟨w, k'⟩, hm, rfl⟩ := Option.map_eq_some_iff.1 hk
    have hmem := List.mem_of_find?_eq_some hm
    revert hmem
    rintro hmem rfl
    simp [Kind.reserved] at hmem
  refine ⟨?_, ?_, .inr fun c hc => ?_⟩
  · cases hk : Kind.ofReserved? ((c :: cs).takeWhile continuesWord) with
    | none => simp
    | some k => exact hreserved k hk
  · intro k hk
    cases hk' : Kind.ofReserved? ((c :: cs).takeWhile continuesWord) with
    | none => simp [hk'] at hk
    | some k' => simpa [hk'] using hk
  · rintro rfl
    exact absurd (List.mem_takeWhile_imp (List.mem_of_getLast? hc)) (by decide)

theorem faithful_readToken {c : Char} {cs lexeme rest : List Char} {kind : Kind}
    (h : readToken c cs = .token kind lexeme rest) : Faithful kind lexeme := by
  unfold readToken at h
  split at h
  all_goals try
    simp only [Reading.token.injEq] at h
    obtain ⟨rfl, rfl, _⟩ := h
    exact ⟨by simp, by simp, by simp⟩
  · split at h
    all_goals
      simp only [Reading.token.injEq] at h
      obtain ⟨rfl, rfl, _⟩ := h
      exact ⟨by simp, by simp, by simp⟩
  · split at h
    · next q hq =>
      simp only [Reading.token.injEq] at h
      obtain ⟨rfl, rfl, _⟩ := h
      refine ⟨by simp, by simp, .inr ?_⟩
      intro c hc
      rw [List.getLast?_cons, getLast?_readQuoted hq] at hc
      obtain rfl : '"' = c := by simpa using hc
      decide
    · simp at h
  · split at h
    · split at h
      · exact faithful_readNumber (by simp) h
      · simp at h
    · simp at h
  · split at h
    · exact faithful_readNumber (by simp) h
    · split at h
      · exact faithful_readWord h
      · simp at h

/-! ## All tokens -/

/-- A text that starts at a place has these tokens before its end of input. -/
inductive Lexes (mode : LexMode) : Position → List Char → List Token → Prop
  | done {p : Position} : Lexes mode p [] []
  | separator {p : Position} {c : Char} {cs : List Char} {ts : List Token} (blank : isSeparator c = true)
      (next : Lexes mode (p.advance c) cs ts) : Lexes mode p (c :: cs) ts
  | token {p : Position} {c : Char} {cs lexeme rest : List Char} {kind : Kind} {ts : List Token}
      (solid : isSeparator c = false) (read : readToken c cs = .token kind lexeme rest)
      (next : Lexes mode (p.advanceAll lexeme) rest ts) : Lexes mode p (c :: cs) (Token.at p kind lexeme :: ts)
  | skip {p : Position} {c : Char} {cs : List Char} {ts : List Token} (solid : isSeparator c = false)
      (read : readToken c cs = .unexpected) (lenient : mode = .lenient)
      (next : Lexes mode (p.advance c) cs ts) : Lexes mode p (c :: cs) ts

theorem Position.advanceAll_append (p : Position) (x y : List Char) :
    p.advanceAll (x ++ y) = (p.advanceAll x).advanceAll y := List.foldl_append

theorem Position.advanceAll_cons (p : Position) (c : Char) (cs : List Char) :
    p.advanceAll (c :: cs) = (p.advance c).advanceAll cs := rfl

theorem advanceAll_readToken {p : Position} {c : Char} {cs lexeme rest : List Char} {kind : Kind}
    (h : readToken c cs = .token kind lexeme rest) :
    p.advanceAll (c :: cs) = (p.advanceAll lexeme).advanceAll rest := by
  rw [← append_of_readToken h, Position.advanceAll_append]

theorem tokensFrom_eq_ok {mode : LexMode} {p : Position} {x : List Char} {us : List Token} :
    tokensFrom mode p x = .ok us ↔
      ∃ ts, us = ts ++ [Token.at (p.advanceAll x) .endOfInput []] ∧ Lexes mode p x ts := by
  constructor
  · intro h
    fun_induction tokensFrom mode p x generalizing us with
    | case1 p =>
      obtain rfl := Except.ok.inj h
      exact ⟨[], rfl, .done⟩
    | case2 p c cs hc ih =>
      obtain ⟨ts, rfl, hl⟩ := ih h
      exact ⟨ts, rfl, .separator hc hl⟩
    | case3 p c cs hc kind lexeme rest hr _ vs hv ih =>
      obtain rfl := Except.ok.inj h
      obtain ⟨ts, rfl, hl⟩ := ih hv
      refine ⟨Token.at p kind lexeme :: ts, ?_, .token (by simpa using hc) hr hl⟩
      rw [advanceAll_readToken hr, List.cons_append]
    | case4 | case5 | case6 => simp at h
    | case7 p c cs hc hr hm ih =>
      subst hm
      obtain ⟨ts, rfl, hl⟩ := ih h
      exact ⟨ts, rfl, .skip (by simpa using hc) hr rfl hl⟩
  · rintro ⟨ts, rfl, hl⟩
    induction hl with
    | done =>
      rw [tokensFrom.eq_def]
      rfl
    | separator hc _ ih =>
      rw [tokensFrom.eq_def]
      simp only [hc, if_true]
      exact ih
    | token hc hr _ ih =>
      rw [advanceAll_readToken hr, tokensFrom.eq_def]
      simp only [hc, Bool.false_eq_true, if_false]
      split
      · next heq =>
        rw [hr] at heq
        obtain ⟨rfl, rfl, rfl⟩ := Reading.token.inj heq
        simp only [ih, List.cons_append]
      · next heq => simp [hr] at heq
      · next heq => simp [hr] at heq
    | skip hc hr hm _ ih =>
      subst hm
      rw [tokensFrom.eq_def]
      simp only [hc, Bool.false_eq_true, if_false]
      split
      · next heq => simp [hr] at heq
      · next heq => simp [hr] at heq
      · exact ih

namespace Lexes

variable {mode : LexMode} {p : Position} {x y : List Char} {ts us : List Token}

/-- **Tokens do not go over the end of a line**: a text that ends with one has its own tokens. -/
theorem append (h : Lexes mode p x ts) (hx : EndsIn isLineEnd x) (hy : Lexes mode (p.advanceAll x) y us) :
    Lexes mode p (x ++ y) (ts ++ us) := by
  induction h with
  | done => exact hy
  | separator hc _ ih => exact .separator hc (ih hx.tail hy)
  | @token p c cs lexeme rest kind ts hc hr _ ih =>
    have hq := readToken_append y hx (by simp [hr])
    rw [hr] at hq
    have hrest : EndsIn isLineEnd rest := by
      rw [← append_of_readToken hr] at hx
      exact hx.append_right
    rw [advanceAll_readToken hr] at hy
    exact .token hc hq (ih hrest hy)
  | skip hc hr hm _ ih =>
    have hq := readToken_append y hx (by simp [hr])
    rw [hr] at hq
    exact .skip hc hq hm (ih hx.tail hy)

theorem faithful (h : Lexes mode p x ts) : ∀ t ∈ ts, Faithful t.kind t.lexeme := by
  induction h with
  | done => simp
  | separator _ _ ih => exact ih
  | token _ hr _ ih =>
    intro t ht
    rcases List.mem_cons.1 ht with rfl | ht
    · exact faithful_readToken hr
    · exact ih t ht
  | skip _ _ _ _ ih => exact ih

/-- A line has a token, at least its newline. -/
theorem eq_nil (h : Lexes mode p x []) (hx : EndsIn isLineEnd x) : x = [] := by
  generalize hts : [] = ts at h
  induction h with
  | done => rfl
  | @separator p c cs ts hc _ ih =>
    have hne : c ≠ '\n' := by
      rintro rfl
      exact absurd hc (by decide)
    exact absurd (ih hx.tail hts) (hx.ne_nil (by simpa [isLineEnd] using hne))
  | token => cases hts
  | @skip p c cs ts _ hr _ _ ih =>
    have hne : c ≠ '\n' := by
      rintro rfl
      cases hr
    exact absurd (ih hx.tail hts) (hx.ne_nil (by simpa [isLineEnd] using hne))

/-- The tokens of a text that ends with a line end with a newline. -/
theorem endsIn (h : Lexes mode p x ts) (hx : EndsIn isLineEnd x) : EndsIn Token.isNewline ts := by
  induction h with
  | done => exact .nil
  | separator _ _ ih => exact ih hx.tail
  | @token p c cs lexeme rest kind ts hc hr next ih =>
    have hsplit := append_of_readToken hr
    have hx' := hx
    rw [← hsplit] at hx'
    refine EndsIn.append (l := [Token.at p kind lexeme]) (ih hx'.append_right) ?_
    intro hts t ht
    obtain rfl : Token.at p kind lexeme = t := by simpa using ht
    subst hts
    obtain rfl := next.eq_nil hx'.append_right
    rw [List.append_nil] at hsplit
    rcases (faithful_readToken hr).lineEnd with hk | hl
    · simp [Token.isNewline, Token.at, hk]
    · rw [hsplit] at hl
      have hlast := List.getLast?_eq_some_getLast (List.cons_ne_nil c cs)
      exact absurd (by simpa [isLineEnd] using hx _ hlast) (hl _ hlast)
  | skip _ _ _ _ ih => exact ih hx.tail

end Lexes

/-! ## Places -/

/-- The same place or token, some bytes and lines further on. -/
def Position.moved (bytes lines : Nat) (p : Position) : Position := ⟨p.byte + bytes, p.line + lines, p.column⟩

def Token.moved (bytes lines : Nat) (t : Token) : Token :=
  { t with span := ⟨t.span.start + bytes, t.span.stop + bytes, t.span.line + lines, t.span.column⟩ }

def newlines (x : List Char) : Nat := x.countP isLineEnd

theorem Position.advance_moved (b l : Nat) (p : Position) (c : Char) :
    (p.moved b l).advance c = (p.advance c).moved b l := by
  unfold advance moved
  split <;> simp [Nat.add_right_comm]

theorem Position.advanceAll_moved (b l : Nat) (p : Position) (x : List Char) :
    (p.moved b l).advanceAll x = (p.advanceAll x).moved b l := by
  induction x generalizing p with
  | nil => rfl
  | cons c cs ih => rw [advanceAll_cons, advanceAll_cons, advance_moved, ih]

theorem Token.at_moved (b l : Nat) (p : Position) (kind : Kind) (lexeme : List Char) :
    Token.at (p.moved b l) kind lexeme = (Token.at p kind lexeme).moved b l := by
  simp only [Token.at, Position.advanceAll_moved]
  rfl

theorem Position.byte_advanceAll (p : Position) (x : List Char) :
    (p.advanceAll x).byte = p.byte + Text.byteLength x := by
  induction x generalizing p with
  | nil => rfl
  | cons c cs ih =>
    have hc : (p.advance c).byte = p.byte + c.utf8Size := by
      unfold advance
      split <;> rfl
    rw [advanceAll_cons, ih, hc]
    simp [Text.byteLength, Nat.add_assoc]

theorem byte_advanceAll_start (x : List Char) : (Position.start.advanceAll x).byte = Text.byteLength x := by
  rw [Position.byte_advanceAll, show Position.start.byte = 0 from rfl, Nat.zero_add]

theorem Position.line_advanceAll (p : Position) (x : List Char) :
    (p.advanceAll x).line = p.line + newlines x := by
  induction x generalizing p with
  | nil => rfl
  | cons c cs ih =>
    rw [advanceAll_cons, ih]
    by_cases hc : c = '\n'
    · simp [advance, newlines, isLineEnd, hc]; omega
    · simp [advance, newlines, isLineEnd, hc]

/-- A text that ends with a line ends at the front of a line. -/
theorem Position.advanceAll_start {x : List Char} (hx : EndsIn isLineEnd x) :
    Position.start.advanceAll x = Position.start.moved (Text.byteLength x) (newlines x) := by
  have hcol : (Position.start.advanceAll x).column = 1 := by
    rcases List.eq_nil_or_concat x with rfl | ⟨cs, c, rfl⟩
    · rfl
    · obtain rfl : c = '\n' := by simpa [isLineEnd] using hx c (by simp)
      rw [List.concat_eq_append, advanceAll_append]
      rfl
  have hb := Position.byte_advanceAll .start x
  have hl := Position.line_advanceAll .start x
  cases hp : Position.start.advanceAll x
  rw [hp] at hcol hb hl
  simp only at hcol hb hl
  rw [hcol, hb, hl]
  rfl

namespace Lexes

variable {mode : LexMode} {p : Position} {x : List Char} {ts : List Token}

theorem moved (h : Lexes mode p x ts) (b l : Nat) : Lexes mode (p.moved b l) x (ts.map (Token.moved b l)) := by
  induction h with
  | done => exact .done
  | separator hc _ ih => exact .separator hc (Position.advance_moved b l _ _ ▸ ih)
  | token hc hr _ ih =>
    rw [List.map_cons, ← Token.at_moved]
    exact .token hc hr (Position.advanceAll_moved b l _ _ ▸ ih)
  | skip hc hr hm _ ih => exact .skip hc hr hm (Position.advance_moved b l _ _ ▸ ih)

/-- All tokens stand within the text. -/
theorem within (h : Lexes mode p x ts) :
    ∀ t ∈ ts, t.span.start ≤ (p.advanceAll x).byte ∧ t.span.stop ≤ (p.advanceAll x).byte := by
  induction h with
  | done => simp
  | separator _ _ ih => exact ih
  | @token p c cs lexeme rest kind ts _ hr _ ih =>
    rw [advanceAll_readToken hr]
    intro t ht
    rcases List.mem_cons.1 ht with rfl | ht
    · rw [Position.byte_advanceAll _ rest]
      simp only [Token.at, Position.byte_advanceAll]
      omega
    · exact ih t ht
  | skip _ _ _ _ ih => exact ih

end Lexes

end Grimoire.Source
