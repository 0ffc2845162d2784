import Grimoire.Proofs.Source.Appending
import Grimoire.Proofs.Source.Skipping

/-!
# Comments between declarations

The lexer knows no comments: what stands behind a `#` is read into tokens like any other text, and the
parser passes those up to the newline. So a comment line changes nothing between declarations exactly if
it has tokens of its own (`comment_inert_iff`). A quote that the comment does not close takes what follows
into a string, and a character that begins no token is refused by the strict mode in a comment too.
-/
namespace Grimoire.Source

/-- The line of a comment. -/
def commentLine (c : List Char) : List Char := '#' :: c ++ ['\n']

/-- Between a text without faults and one that begins with a declaration, the line of this comment puts the
second text one line further on and does nothing else. -/
def CommentInert (mode : LexMode) (c : List Char) : Prop :=
  ∀ (x y : String) (p : Program) (us : List Token), x.toList.getLast? = some '\n' →
    parseSource mode x = .ok p → p.isClean = true → tokens mode y.toList = .ok us → startsDeclaration us = true →
    ∃ q, parseSource mode (x ++ y) = .ok (p.append q) ∧
      parseSource mode (x ++ String.ofList (commentLine c) ++ y) =
        .ok (p.append (q.moved (Text.byteLength (commentLine c)) 1))

/-! ## The tokens of the first lines -/

section
variable {mode : LexMode} {p : Position} {x y : List Char} {c : Char} {cs : List Char} {ts : List Token}

/-- Before a text without quotes, a string that ends has its closing quote. -/
theorem readQuoted_front {q : Quoted} (hy : '"' ∉ y) (h : readQuoted (x ++ y) = some q) :
    readQuoted x ≠ none := by
  intro hnone
  have hlast := getLast?_readQuoted h
  rcases List.append_eq_append_iff.1 (append_of_readQuoted h) with ⟨z, hx, -⟩ | ⟨z, hlexeme, hz⟩
  · rw [hx, readQuoted_lexeme h] at hnone
    cases hnone
  · cases z with
    | nil =>
      have hread := readQuoted_lexeme h []
      rw [hlexeme, List.append_nil, List.append_nil, hnone] at hread
      cases hread
    | cons d z =>
      rw [hlexeme, List.getLast?_append, List.getLast?_eq_some_getLast (List.cons_ne_nil d z)] at hlast
      apply hy
      rw [hz]
      apply List.mem_append_left
      rw [← Option.some.inj hlast]
      exact List.getLast_mem _

/-- Only a string can be without its end. -/
theorem readToken_unterminated (h : readToken c cs = .unterminated) : c = '"' ∧ readQuoted cs = none := by
  unfold readToken at h
  split at h
  all_goals try cases h
  · split at h <;> cases h
  · split at h
    · cases h
    · next hnone => exact ⟨rfl, hnone⟩
  · split at h
    · split at h <;> cases h
    · cases h
  · split at h
    · cases h
    · split at h <;> cases h

/-- A token that ends before a text without quotes is the same one without that text. -/
theorem readToken_front (hx : EndsIn isLineEnd (c :: cs)) (hy : '"' ∉ y)
    (h : readToken c (cs ++ y) ≠ .unterminated) : readToken c (cs ++ y) = (readToken c cs).followedBy y := by
  apply readToken_append y hx
  intro hcs
  obtain ⟨rfl, hnone⟩ := readToken_unterminated hcs
  apply h
  cases hread : readQuoted (cs ++ y) with
  | none => simp only [readToken, hread]
  | some q => exact absurd hnone (readQuoted_front hy hread)

/-- Lines that have tokens before a text without quotes have tokens by themselves. -/
theorem Lexes.front (hx : EndsIn isLineEnd x) (hy : '"' ∉ y) (h : Lexes mode p (x ++ y) ts) :
    ∃ us, Lexes mode p x us := by
  generalize hz : x ++ y = z at h
  induction h generalizing x with
  | done =>
    obtain ⟨rfl, -⟩ := List.append_eq_nil_iff.1 hz
    exact ⟨[], .done⟩
  | separator hc _ ih =>
    cases x with
    | nil => exact ⟨[], .done⟩
    | cons d x =>
      rw [List.cons_append] at hz
      obtain ⟨rfl, rfl⟩ := List.cons.inj hz
      obtain ⟨us, hus⟩ := ih hx.tail rfl
      exact ⟨us, .separator hc hus⟩
  | token hc hr _ ih =>
    cases x with
    | nil => exact ⟨[], .done⟩
    | cons d x =>
      rw [List.cons_append] at hz
      obtain ⟨rfl, rfl⟩ := List.cons.inj hz
      have hsame := readToken_front hx hy (by simp [hr])
      rw [hr] at hsame
      cases hread : readToken d x with
      | token kind lexeme rest =>
        rw [hread] at hsame
        obtain ⟨rfl, rfl, rfl⟩ := Reading.token.inj hsame
        have hrest : EndsIn isLineEnd rest := by
          rw [← append_of_readToken hread] at hx
          exact hx.append_right
        obtain ⟨us, hus⟩ := ih hrest rfl
        exact ⟨_, .token hc hread hus⟩
      | unterminated => simp [hread, Reading.followedBy] at hsame
      | unexpected => simp [hread, Reading.followedBy] at hsame
  | skip hc hr hm _ ih =>
    cases x with
    | nil => exact ⟨[], .done⟩
    | cons d x =>
      rw [List.cons_append] at hz
      obtain ⟨rfl, rfl⟩ := List.cons.inj hz
      have hsame := readToken_front hx hy (by simp [hr])
      rw [hr] at hsame
      cases hread : readToken d x with
      | token => simp [hread, Reading.followedBy] at hsame
      | unterminated => simp [hread, Reading.followedBy] at hsame
      | unexpected =>
        obtain ⟨us, hus⟩ := ih hx.tail rfl
        exact ⟨us, .skip hc hread hm hus⟩

/-! ## The line of a comment is passed -/

theorem wordKind_ne_newline (w : List Char) : wordKind w ≠ .newline := by
  intro h
  have hword := word?_at .start w
  rw [h] at hword
  cases hword

theorem newline_of_readToken {lexeme rest : List Char} (h : readToken c cs = .token .newline lexeme rest) :
    c = '\n' := by
  unfold readToken at h
  split at h
  all_goals try cases h
  · rfl
  · split at h <;> cases h
  · split at h <;> cases h
  · split at h
    · split at h
      · simp [readNumber] at h
      · cases h
    · cases h
  · split at h
    · simp [readNumber] at h
    · split at h
      · exact absurd (Reading.token.inj h).1 (wordKind_ne_newline _)
      · cases h

/-- A token of a line other than its newline leaves the end of the line. -/
theorem readToken_line {w lexeme rest : List Char} {kind : Kind} (hc : c ≠ '\n') (hw : '\n' ∉ w)
    (h : readToken c (w ++ ['\n']) = .token kind lexeme rest) :
    kind ≠ .newline ∧ ∃ w', rest = w' ++ ['\n'] ∧ '\n' ∉ w' := by
  have hall := append_of_readToken h
  have hkind : kind ≠ .newline := by
    rintro rfl
    exact hc (newline_of_readToken h)
  refine ⟨hkind, ?_⟩
  rcases List.eq_nil_or_concat rest with rfl | ⟨w', d, rfl⟩
  · have hlast := (faithful_readToken h).lineEnd.resolve_left hkind '\n'
    rw [List.append_nil] at hall
    rw [hall, ← List.cons_append, List.getLast?_concat] at hlast
    exact absurd rfl (hlast rfl)
  · rw [List.concat_eq_append, ← List.append_assoc, ← List.cons_append] at hall
    obtain ⟨hfront, hd⟩ := List.append_inj' hall rfl
    obtain rfl : d = '\n' := by simpa using hd
    refine ⟨w', by rw [List.concat_eq_append], fun hmem => ?_⟩
    have hmem : '\n' ∈ c :: w := by
      rw [← hfront]
      exact List.mem_append_right lexeme hmem
    rcases List.mem_cons.1 hmem with heq | hmem
    · exact hc heq.symm
    · exact hw hmem

/-- Inside a comment, the tokens of the rest of a line are passed, its newline too. -/
theorem Lexes.skipTrivia_line {w : List Char} (h : Lexes mode p (w ++ ['\n']) ts) (hw : '\n' ∉ w)
    (us : List Token) : Context.skipTrivia true (ts ++ us) = Context.skipTrivia false us := by
  generalize hz : w ++ ['\n'] = z at h
  induction h generalizing w with
  | done => simp at hz
  | separator hc _ ih =>
    cases w with
    | nil =>
      obtain ⟨rfl, -⟩ := List.cons.inj hz
      exact absurd hc (by decide)
    | cons d w =>
      obtain ⟨rfl, rfl⟩ := List.cons.inj hz
      exact ih (fun hmem => hw (List.mem_cons_of_mem d hmem)) rfl
  | token hc hr next ih =>
    cases w with
    | nil =>
      obtain ⟨rfl, rfl⟩ := List.cons.inj hz
      obtain ⟨rfl, rfl, rfl⟩ := Reading.token.inj hr
      cases next
      rfl
    | cons d w =>
      rw [List.cons_append] at hz
      obtain ⟨rfl, rfl⟩ := List.cons.inj hz
      have hd : d ≠ '\n' := fun heq => hw (heq ▸ List.mem_cons_self)
      obtain ⟨hkind, w', rfl, hw'⟩ := readToken_line hd (fun hmem => hw (List.mem_cons_of_mem d hmem)) hr
      rw [List.cons_append, Context.skipTrivia]
      simp only [Token.isNewline, Token.at, beq_iff_eq, hkind, if_false, Bool.true_or, if_true]
      exact ih hw' rfl
  | skip hc hr _ _ ih =>
    cases w with
    | nil =>
      obtain ⟨rfl, -⟩ := List.cons.inj hz
      cases hr
    | cons d w =>
      obtain ⟨rfl, rfl⟩ := List.cons.inj hz
      exact ih (fun hmem => hw (List.mem_cons_of_mem d hmem)) rfl

/-- Between declarations the tokens of a comment line are passed as one. -/
theorem Lexes.trivial_commentLine {w : List Char} (h : Lexes mode p (commentLine w) ts) (hw : '\n' ∉ w) :
    Trivial ts := by
  cases h with
  | separator hc _ => exact absurd hc (by decide)
  | token hc hr next =>
    obtain ⟨rfl, rfl, rfl⟩ := Reading.token.inj hr
    intro us
    exact next.skipTrivia_line hw us
  | skip hc hr => cases hr

end

/-! ## Comments are inert exactly if they lex -/

theorem Spell.moved_moved (l l' : Nat) (s : Spell) : (s.moved l).moved l' = s.moved (l + l') := by
  simp only [Spell.moved, Nat.add_assoc]

theorem Declaration.moved_moved (l l' : Nat) (d : Declaration) : (d.moved l).moved l' = d.moved (l + l') := by
  cases d with
  | spell s => exact congrArg _ (Spell.moved_moved l l' s)
  | character c =>
    simp only [Declaration.moved, Character.moved, List.map_map, Nat.add_assoc]
    congr 3
    funext s
    exact Spell.moved_moved l l' s
  | world w => simp only [Declaration.moved, World.moved, Nat.add_assoc]
  | archetype a => simp only [Declaration.moved, Archetype.moved, Nat.add_assoc]

theorem ParseError.moved_moved (b l b' l' : Nat) (e : ParseError) :
    (e.moved b l).moved b' l' = e.moved (b + b') (l + l') := by
  simp only [ParseError.moved, Token.moved, Nat.add_assoc]

theorem Program.moved_moved (b l b' l' : Nat) (p : Program) :
    (p.moved b l).moved b' l' = p.moved (b + b') (l + l') := by
  have hd : Declaration.moved l' ∘ Declaration.moved l = Declaration.moved (l + l') :=
    funext (Declaration.moved_moved l l')
  have he : ParseError.moved b' l' ∘ ParseError.moved b l = ParseError.moved (b + b') (l + l') :=
    funext (ParseError.moved_moved b l b' l')
  simp only [Program.moved, List.map_map, hd, he]

section
variable {mode : LexMode} {c : List Char}

theorem endsIn_commentLine : EndsIn isLineEnd (commentLine c) := by
  intro d hd
  rw [commentLine, List.getLast?_concat] at hd
  obtain rfl := Option.some.inj hd
  rfl

theorem newlines_append (x y : List Char) : newlines (x ++ y) = newlines x + newlines y := List.countP_append

theorem newlines_commentLine (hc : '\n' ∉ c) : newlines (commentLine c) = 1 := by
  have hnone : newlines ('#' :: c) = 0 := by
    rw [newlines, List.countP_eq_zero]
    intro d hd hend
    obtain rfl : d = '\n' := by simpa [isLineEnd] using hend
    rcases List.mem_cons.1 hd with heq | hmem
    · exact absurd heq (by decide)
    · exact hc hmem
  rw [commentLine, newlines_append, hnone]
  rfl

/-- A comment line with tokens of its own is passed between declarations. -/
theorem commentInert_of_lexes {ts : List Token} (hc : '\n' ∉ c) (h : tokens mode (commentLine c) = .ok ts) :
    CommentInert mode c := by
  intro x y p us hline hx hclean hy hstarts
  have hends : EndsIn isLineEnd x.toList := by
    intro d hd
    obtain rfl := Option.some.inj (hline.symm.trans hd)
    rfl
  obtain ⟨vs, hvs⟩ : ∃ vs, tokens mode x.toList = .ok vs := by
    cases hvs : tokens mode x.toList with
    | ok vs => exact ⟨vs, rfl⟩
    | error e => simp [parseSource, hvs, Except.map] at hx
  obtain rfl : parse x.toList vs = p := by
    rw [parseSource, hvs] at hx
    exact Except.ok.inj hx
  have hsettled : ∀ e ∈ (parse x.toList vs).errors, ¬ e.AtEnd := by
    have herrors : (parse x.toList vs).errors = [] := by simpa [Program.isClean] using hclean
    simp [herrors]
  -- The tokens of the comment line do not depend on where it stands.
  obtain ⟨_, -, hcomment⟩ := tokens_eq_ok.1 h
  obtain ⟨gap, hgap, -⟩ := hcomment.elsewhere (Position.start.advanceAll x.toList)
  have hof : (String.ofList (commentLine c)).toList = commentLine c := String.toList_ofList
  have hboth := parseSource_append hends hvs hsettled hy hstarts
  have hbetween := parseSource_between hends hvs hsettled (z := String.ofList (commentLine c))
    (by rw [hof]; exact endsIn_commentLine) (by rw [hof]; exact hgap) (hgap.trivial_commentLine hc) hy hstarts
  refine ⟨_, hboth, ?_⟩
  rw [hbetween, Program.moved_moved, String.toList_append, hof, byteLength_append, newlines_append,
    newlines_commentLine hc]

/-- A comment that is passed before a world whose text has no quotes has tokens of its own. -/
theorem lexes_of_commentInert (h : CommentInert mode c) : ∃ ts, tokens mode (commentLine c) = .ok ts := by
  obtain ⟨p, hx, hclean⟩ : ∃ p, parseSource mode "\n" = .ok p ∧ p.isClean = true := by
    cases mode <;> exact exists_ok (by decide +kernel)
  obtain ⟨us, hy, hstarts⟩ : ∃ us, tokens mode "@world Ember\n".toList = .ok us ∧ startsDeclaration us = true := by
    cases mode <;> exact exists_ok (by decide +kernel)
  obtain ⟨q, -, hq⟩ := h "\n" "@world Ember\n" p us (by decide) hx hclean hy hstarts
  have htext : ("\n" ++ String.ofList (commentLine c) ++ "@world Ember\n").toList =
      '\n' :: (commentLine c ++ "@world Ember\n".toList) := by
    simp [String.toList_append]
  rw [parseSource, htext] at hq
  cases hall : tokens mode ('\n' :: (commentLine c ++ "@world Ember\n".toList)) with
  | error e =>
    rw [hall] at hq
    cases hq
  | ok vs =>
    obtain ⟨vs, -, hlexes⟩ := tokens_eq_ok.1 hall
    have hends : EndsIn isLineEnd ('\n' :: commentLine c) :=
      EndsIn.append (l := ['\n']) endsIn_commentLine fun hnil => by simp at hnil
    rw [← List.cons_append] at hlexes
    obtain ⟨ws, hws⟩ := hlexes.front hends (by decide)
    cases hws with
    | separator hc _ => exact absurd hc (by decide)
    | skip _ hr => cases hr
    | token _ hr next =>
      obtain ⟨rfl, rfl, rfl⟩ := Reading.token.inj hr
      obtain ⟨ts, hts, -⟩ := next.elsewhere .start
      exact ⟨_, tokens_eq_ok.2 ⟨ts, rfl, hts⟩⟩

/-- **A comment is inert exactly if it lexes**: the parser passes whatever tokens its line has, but the line
must have them. -/
theorem comment_inert_iff (mode : LexMode) (c : List Char) (hc : '\n' ∉ c) :
    CommentInert mode c ↔ ∃ ts, tokens mode (commentLine c) = .ok ts := by
  constructor
  · exact lexes_of_commentInert
  · rintro ⟨ts, h⟩
    exact commentInert_of_lexes hc h

end

/-- Signs and numbers of all kinds, in the strict mode. -/
theorem tally_inert : '\n' ∉ " @spell [[ -3.5 :: \"a # b\" \x7d, see (below)".toList ∧
    CommentInert .strict " @spell [[ -3.5 :: \"a # b\" \x7d, see (below)".toList := by
  have hc : '\n' ∉ " @spell [[ -3.5 :: \"a # b\" \x7d, see (below)".toList := by decide
  obtain ⟨ts, h, -⟩ := exists_ok (p := fun _ => true)
    (show (tokens .strict
        (commentLine " @spell [[ -3.5 :: \"a # b\" \x7d, see (below)".toList)).toOption.any _ = true by
      decide +kernel)
  exact ⟨hc, (comment_inert_iff .strict _ hc).2 ⟨ts, h⟩⟩

/-- Inches in a comment: the quote opens a string that takes the rest of the source. -/
theorem inches_not_inert :
    (parseSource .lenient "@world Old\n@world New\n").toOption.any Program.isClean = true ∧
    parseSource .lenient "@world Old\n# the 12\" record\n@world New\n" = .error (.unterminatedString 2 9) ∧
    ¬ CommentInert .lenient " the 12\" record".toList := by
  have hopen : parseSource .lenient "@world Old\n# the 12\" record\n@world New\n" =
      .error (.unterminatedString 2 9) := by
    have htokens : tokens .lenient "@world Old\n# the 12\" record\n@world New\n".toList =
        .error (.unterminatedString 2 9) := by decide +kernel
    rw [parseSource, htokens]
    rfl
  refine ⟨by decide +kernel, hopen, ?_⟩
  intro h
  obtain ⟨p, hx, hclean⟩ : ∃ p, parseSource .lenient "@world Old\n" = .ok p ∧ p.isClean = true :=
    exists_ok (by decide +kernel)
  obtain ⟨us, hy, hstarts⟩ : ∃ us, tokens .lenient "@world New\n".toList = .ok us ∧ startsDeclaration us = true :=
    exists_ok (by decide +kernel)
  obtain ⟨q, -, hq⟩ := h "@world Old\n" "@world New\n" p us (by decide) hx hclean hy hstarts
  have htext : "@world Old\n" ++ String.ofList (commentLine " the 12\" record".toList) ++ "@world New\n" =
      "@world Old\n# the 12\" record\n@world New\n" := by decide
  rw [htext, hopen] at hq
  cases hq

/-- The strict mode refuses a sign of the written language in a comment as anywhere else. -/
example : tokens .strict "# beware!\n".toList = .error (.unexpectedCharacter '!' 1 9) := by decide +kernel

end Grimoire.Source
