import Grimoire.Proofs.Source.LastSettings
import Grimoire.Proofs.Source.Tracking

/-!
# Lists of words

A list of words is an opening bracket, items with single commas between them, perhaps a comma behind the last one, and
a closing bracket, with newlines and comments before every token but the first (`WordList`). The reader takes such a
list from the front of its tokens, up to the first bracket that closes it, and has no other result but a fault
(`wordList_eq_ok`). No list begins another one (`WordList.unique`).
-/
namespace Grimoire.Source

open Context

/-! ## The grammar -/

/-- What a token says as an item: a string its value, an identifier its name, a reserved word its spelling. -/
inductive Token.IsItem (t : Token) : String → Prop
  | string {value : String} (h : t.kind = .string value.toList) : IsItem t value
  | identifier {name : String} (h : t.kind = .identifier name.toList) : IsItem t name
  | keyword {k : Keyword} (h : t.kind = .keyword k) : IsItem t (String.ofList t.lexeme)
  | truth {b : Bool} (h : t.kind = .boolean b) : IsItem t (String.ofList t.lexeme)

/-- One item or more, with single commas between them. -/
inductive SeparatedItems : List Token → List String → Prop
  | one {gap : List Token} {item : Token} {word : String} (hgap : Gap gap) (hitem : item.IsItem word) :
      SeparatedItems (gap ++ [item]) [word]
  | more {ts gap gap' : List Token} {words : List String} {comma item : Token} {word : String}
      (front : SeparatedItems ts words) (hgap : Gap gap) (hcomma : comma.isSymbol .comma = true) (hgap' : Gap gap')
      (hitem : item.IsItem word) : SeparatedItems (ts ++ (gap ++ comma :: (gap' ++ [item]))) (words ++ [word])

/-- Nothing, or a comma. -/
inductive TrailingComma : List Token → Prop
  | none : TrailingComma []
  | comma {gap : List Token} {comma : Token} (hgap : Gap gap) (hcomma : comma.isSymbol .comma = true) :
      TrailingComma (gap ++ [comma])

/-- A list of words as tokens, and the words. -/
inductive WordList : List Token → List String → Prop
  | empty {first last : Token} {gap : List Token} (hfirst : first.isSymbol .openBracket = true) (hgap : Gap gap)
      (hlast : last.isSymbol .closeBracket = true) : WordList (first :: (gap ++ [last])) []
  | items {first last : Token} {ts tail gap : List Token} {words : List String}
      (hfirst : first.isSymbol .openBracket = true) (hitems : SeparatedItems ts words) (htail : TrailingComma tail)
      (hgap : Gap gap) (hlast : last.isSymbol .closeBracket = true) :
      WordList (first :: (ts ++ (tail ++ (gap ++ [last])))) words

variable {ctx : Context} {t first : Token} {ts us rest front gap : List Token} {word : String} {words : List String}

theorem Token.isItem_iff : t.IsItem word ↔ t.stringOrWord? = some word.toList := by
  constructor
  · rintro (h | h | h | h) <;> simp [Token.stringOrWord?, Token.word?, h]
  · intro h
    unfold Token.stringOrWord? Token.word? at h
    split at h
    · next value hkind =>
      obtain rfl := Option.some.inj h
      exact .string hkind
    · split at h
      · next name hkind =>
        obtain rfl := Option.some.inj h
        exact .identifier hkind
      · next k hkind =>
        obtain rfl : String.ofList t.lexeme = word := by rw [Option.some.inj h, String.ofList_toList]
        exact .keyword hkind
      · next b hkind =>
        obtain rfl : String.ofList t.lexeme = word := by rw [Option.some.inj h, String.ofList_toList]
        exact .truth hkind
      · cases h

/-! ## Items one after another -/

/-- Items in front of what can stand behind any item. -/
theorem SeparatedItems.says (h : SeparatedItems ts words) {k : List Token} {more : List String}
    (hk : ∀ gap item word, Gap gap → item.IsItem word → WordsSay (gap ++ item :: k) (word :: more)) :
    WordsSay (ts ++ k) (words ++ more) := by
  induction h generalizing k more with
  | one hgap hitem =>
    rw [List.append_assoc]
    exact hk _ _ _ hgap hitem
  | @more ts gap gap' words comma item word _ hgap hcomma hgap' hitem ih =>
    have hall : WordsSay (ts ++ (gap ++ comma :: (gap' ++ item :: k))) (words ++ word :: more) :=
      ih fun g i w hg hi => .more hg (Token.isItem_iff.1 hi) hgap hcomma (hk _ _ _ hgap' hitem)
    simpa using hall

/-- A list of words, seen from its first token on. -/
theorem WordList.says (h : WordList front words) :
    ∃ first ts, front = first :: ts ∧ first.isSymbol .openBracket = true ∧ WordsSay ts words := by
  cases h with
  | @empty first last gap hfirst hgap hlast => exact ⟨first, _, rfl, hfirst, .none hgap hlast⟩
  | @items first last ts tail gap words hfirst hitems htail hgap hlast =>
    refine ⟨first, _, rfl, hfirst, ?_⟩
    rw [← List.append_nil words]
    refine hitems.says fun g item word hg hitem => ?_
    have hitem := Token.isItem_iff.1 hitem
    cases htail with
    | none => exact .one hg hitem hgap hlast
    | comma hgap' hcomma =>
      rw [List.append_assoc]
      exact .more hg hitem hgap' hcomma (.none hgap hlast)

/-- Items, a comma and more of a list are a list. -/
theorem SeparatedItems.wordList {before : List String} {comma : Token} (hfront : SeparatedItems front before)
    (h : WordsSay ts words) (hfirst : first.isSymbol .openBracket = true) (hgap : Gap gap)
    (hcomma : comma.isSymbol .comma = true) :
    WordList (first :: (front ++ (gap ++ comma :: ts))) (before ++ words) := by
  induction h generalizing front before gap comma with
  | none hgap' hlast =>
    have hall := WordList.items hfirst hfront (.comma hgap hcomma) hgap' hlast
    simpa using hall
  | one hgap' hitem hgap'' hlast =>
    have hitems := hfront.more hgap hcomma hgap' (Token.isItem_iff.2 hitem)
    have hall := WordList.items hfirst hitems .none hgap'' hlast
    simpa using hall
  | more hgap' hitem hgap'' hcomma' _ ih =>
    have hitems := hfront.more hgap hcomma hgap' (Token.isItem_iff.2 hitem)
    have hall := ih hitems hgap'' hcomma'
    simpa using hall

theorem WordsSay.wordList (h : WordsSay ts words) (hfirst : first.isSymbol .openBracket = true) :
    WordList (first :: ts) words := by
  cases h with
  | none hgap hlast => exact .empty hfirst hgap hlast
  | one hgap hitem hgap' hlast =>
    have hall := WordList.items hfirst (.one hgap (Token.isItem_iff.2 hitem)) .none hgap' hlast
    simpa using hall
  | more hgap hitem hgap' hcomma next =>
    have hall := (SeparatedItems.one hgap (Token.isItem_iff.2 hitem)).wordList next hfirst hgap' hcomma
    simpa using hall

/-! ## What the reader takes -/

/-- The tokens up to the first newline, where one was found. -/
theorem line_of_dropWhile {newline : Token} {behind : List Token}
    (h : us.dropWhile (fun t => !t.isNewline) = newline :: behind) :
    ∃ inner, us = inner ++ newline :: behind ∧ (∀ t ∈ inner, t.isNewline = false) ∧ newline.isNewline = true := by
  refine ⟨us.takeWhile fun t => !t.isNewline, ?_, fun t ht => ?_, ?_⟩
  · rw [← h, List.takeWhile_append_dropWhile]
  · simpa using List.mem_takeWhile_imp ht
  · have hfound := List.head?_dropWhile_not (fun t : Token => !t.isNewline) us
    simpa [h] using hfound

/-- What is stepped over in front of a token is newlines and comments that have ended. -/
theorem gap_of_skipTrivia (h : skipTrivia false ts = t :: rest) : ∃ gap, Gap gap ∧ ts = gap ++ t :: rest := by
  induction hn : ts.length using Nat.strongRecOn generalizing ts with
  | ind n ih =>
    subst hn
    cases ts with
    | nil => cases h
    | cons u us =>
      rw [skipTrivia] at h
      split at h
      · next hnewline =>
        obtain ⟨gap, hgap, rfl⟩ := ih us.length (Nat.lt_succ_self _) h rfl
        exact ⟨u :: gap, .newline hnewline hgap, rfl⟩
      · split at h
        · next hhash =>
          -- The comment goes up to the first newline behind it.
          rw [skipTrivia_true] at h
          cases hline : us.dropWhile fun t => !t.isNewline with
          | nil =>
            rw [hline] at h
            cases h
          | cons newline behind =>
            obtain ⟨inner, rfl, hinner, hnewline⟩ := line_of_dropWhile hline
            rw [hline, skipTrivia, if_pos hnewline] at h
            have hlt : behind.length < (u :: (inner ++ newline :: behind)).length := by
              simp
              omega
            obtain ⟨gap, hgap, rfl⟩ := ih behind.length hlt h rfl
            exact ⟨u :: (inner ++ newline :: gap), .comment (by simpa using hhash) hinner hnewline hgap, by simp⟩
        · obtain ⟨rfl, rfl⟩ := List.cons.inj h
          exact ⟨[], .nil, rfl⟩

theorem stringOrWord_of_expect {what : String} (h : ctx.expectStringOrWord what (t :: ts) = .ok word rest) :
    t.stringOrWord? = some word.toList ∧ rest = ts := by
  unfold expectStringOrWord expectToken at h
  dsimp only at h
  split at h
  · next w hw =>
    obtain ⟨rfl, rfl⟩ := Outcome.ok.inj h
    obtain ⟨cs, hcs, rfl⟩ := Option.map_eq_some_iff.1 hw
    exact ⟨by rw [hcs, String.toList_ofList], rfl⟩
  · cases h

/-- **The items that were read stand in front of the tokens left.** -/
theorem says_of_wordItems (h : ctx.wordItems ts = .ok words rest) : ∃ us, WordsSay us words ∧ ts = us ++ rest := by
  fun_induction wordItems ctx ts generalizing words rest with
  | case1 | case3 | case5 | case7 | case8 => cases h
  | case2 ts t behind hs hclose =>
    obtain ⟨rfl, rfl⟩ := Outcome.ok.inj h
    obtain ⟨gap, hgap, rfl⟩ := gap_of_skipTrivia hs
    exact ⟨gap ++ [t], .none hgap hclose, by simp⟩
  | case4 ts t behind hs _ item after hi comma tail hc hcomma items left hr ih =>
    obtain ⟨rfl, rfl⟩ := Outcome.ok.inj h
    obtain ⟨us, hus, rfl⟩ := ih hr
    obtain ⟨gap, hgap, rfl⟩ := gap_of_skipTrivia hs
    obtain ⟨hitem, rfl⟩ := stringOrWord_of_expect hi
    obtain ⟨gap', hgap', rfl⟩ := gap_of_skipTrivia hc
    exact ⟨gap ++ t :: (gap' ++ comma :: us), .more hgap hitem hgap' hcomma hus, by simp⟩
  | case6 ts t behind hs _ item after hi last tail hc _ hlast =>
    obtain ⟨rfl, rfl⟩ := Outcome.ok.inj h
    obtain ⟨gap, hgap, rfl⟩ := gap_of_skipTrivia hs
    obtain ⟨hitem, rfl⟩ := stringOrWord_of_expect hi
    obtain ⟨gap', hgap', rfl⟩ := gap_of_skipTrivia hc
    exact ⟨gap ++ t :: (gap' ++ [last]), .one hgap hitem hgap' hlast, by simp⟩

/-- **The reader takes exactly a list of words.** -/
theorem wordList_eq_ok :
    ctx.wordList ts = .ok words rest ↔ ∃ front, ts = front ++ rest ∧ WordList front words := by
  constructor
  · intro h
    rw [wordList_eq] at h
    cases ts with
    | nil => cases h
    | cons t ts =>
      by_cases hopen : t.isSymbol .openBracket = true
      · rw [expectSymbol_symbol hopen, Outcome.bind_ok] at h
        obtain ⟨us, hus, rfl⟩ := says_of_wordItems h
        exact ⟨t :: us, rfl, hus.wordList hopen⟩
      · simp [expectSymbol, expectToken, hopen, fault] at h
  · rintro ⟨front, rfl, hfront⟩
    obtain ⟨first, us, rfl, hfirst, hus⟩ := hfront.says
    rw [List.cons_append, wordList_eq, expectSymbol_symbol hfirst, Outcome.bind_ok]
    exact hus.reads ctx rest

/-- Of two lists in front of the same tokens, neither goes on behind the other. -/
theorem WordList.unique {front' : List Token} {words' : List String} (h : WordList front words)
    (h' : WordList front' words') (hts : front <+: ts) (hts' : front' <+: ts) : front = front' ∧ words = words' := by
  let ctx : Context := ⟨[], endToken [] []⟩
  obtain ⟨rest, rfl⟩ := hts
  obtain ⟨rest', heq⟩ := hts'
  have hread : ctx.wordList (front ++ rest) = .ok words rest := wordList_eq_ok.2 ⟨front, rfl, h⟩
  have hread' : ctx.wordList (front ++ rest) = .ok words' rest' := wordList_eq_ok.2 ⟨front', heq.symm, h'⟩
  obtain ⟨rfl, rfl⟩ := Outcome.ok.inj (hread.symm.trans hread')
  exact ⟨List.append_cancel_right heq.symm, rfl⟩

/-- A fault is what the reader makes of tokens that begin with no list, and of no others. -/
theorem wordList_eq_fail :
    (∃ e rest, ctx.wordList ts = .fail e rest) ↔ ¬ ∃ front words, front <+: ts ∧ WordList front words := by
  constructor
  · rintro ⟨e, rest, hfail⟩ ⟨front, words, ⟨behind, rfl⟩, hfront⟩
    rw [wordList_eq_ok.2 ⟨front, rfl, hfront⟩] at hfail
    cases hfail
  · intro hnone
    cases h : ctx.wordList ts with
    | fail e rest => exact ⟨e, rest, rfl⟩
    | ok words rest =>
      obtain ⟨front, rfl, hfront⟩ := wordList_eq_ok.1 h
      exact absurd ⟨front, words, ⟨rest, rfl⟩, hfront⟩ hnone

/-! ## By index -/

/-- At each index the walk over a list ends right behind it, or meets a fault where no list begins. -/
theorem walk_wordList {tape : Tape} {body : List Token} {i : Nat} (h : tape.Holds ctx body) (hi : i ≤ body.length) :
    (∃ front words, front <+: body.drop i ∧ WordList front words ∧
      tape.wordList i = some (.ok words, i + front.length)) ∨
    (¬ ∃ front words, front <+: body.drop i ∧ WordList front words) ∧
      ∃ e j, tape.wordList i = some (.error e, j) := by
  obtain ⟨j, hj, hwalk, hrest⟩ := tracks_wordList h (body.drop i) i hi rfl
  cases hread : ctx.wordList (body.drop i) with
  | ok words rest =>
    rw [hread] at hwalk hrest
    obtain ⟨front, hfront, hlist⟩ := wordList_eq_ok.1 hread
    have hindex : j = i + front.length := by
      have hlength := congrArg List.length hfront
      have hleft := congrArg List.length hrest
      rw [List.length_drop] at hleft
      rw [List.length_drop, List.length_append, ← show body.length - j = rest.length from hleft] at hlength
      omega
    subst hindex
    exact .inl ⟨front, words, ⟨rest, hfront.symm⟩, hlist, hwalk⟩
  | fail e rest =>
    rw [hread] at hwalk
    exact .inr ⟨wordList_eq_fail.1 ⟨e, rest, hread⟩, e, j, hwalk⟩

/-- **Lists of words are read exactly by their grammar.** The reader makes words of tokens if and only if the tokens
begin with a list, which says these words, and it leaves the tokens behind that list; where none begins it meets a
fault, and there is never more than one list to take. So does the walk by index, over any tokens and from any index
up to their end of input: it stops right behind the list. -/
theorem wordList_exact (ctx : Context) (ts : List Token) :
    (∀ words rest, ctx.wordList ts = .ok words rest ↔ ∃ front, ts = front ++ rest ∧ WordList front words) ∧
    ((∃ e rest, ctx.wordList ts = .fail e rest) ↔ ¬ ∃ front words, front <+: ts ∧ WordList front words) ∧
    (∀ front words front' words', front <+: ts → front' <+: ts → WordList front words → WordList front' words' →
      front = front' ∧ words = words') ∧
    ∀ i ≤ (ts.takeWhile fun t => !t.isEnd).length,
      let tape : Tape := ⟨ctx.source, completed ctx.source ts⟩
      let ahead := (ts.takeWhile fun t => !t.isEnd).drop i
      (∀ words j, tape.wordList i = some (.ok words, j) ↔
        ∃ front, front <+: ahead ∧ WordList front words ∧ j = i + front.length) ∧
      ((∃ e j, tape.wordList i = some (.error e, j)) ↔ ¬ ∃ front words, front <+: ahead ∧ WordList front words) := by
  refine ⟨fun words rest => wordList_eq_ok, wordList_eq_fail,
    fun front words front' words' hts hts' h h' => h.unique h' hts hts', ?_⟩
  intro i hi tape ahead
  rcases walk_wordList (Tape.holds_completed ctx.source ts) hi with
    ⟨front, words, hfront, hlist, hwalk⟩ | ⟨hnone, e, j, hwalk⟩
  · rw [hwalk]
    refine ⟨fun words' j => ⟨fun heq => ?_, ?_⟩, iff_of_false (by simp) fun hnone => hnone ⟨front, words, hfront, hlist⟩⟩
    · obtain ⟨hwords, rfl⟩ := Prod.mk.inj (Option.some.inj heq)
      obtain rfl := Except.ok.inj hwords
      exact ⟨front, hfront, hlist, rfl⟩
    · rintro ⟨front', hfront', hlist', rfl⟩
      obtain ⟨rfl, rfl⟩ := hlist.unique hlist' hfront hfront'
      rfl
  · rw [hwalk]
    refine ⟨fun words j => iff_of_false (by simp) ?_, iff_of_true ⟨e, j, rfl⟩ hnone⟩
    rintro ⟨front, hfront, hlist, -⟩
    exact hnone ⟨front, words, hfront, hlist⟩

-- A bracket in a comment closes nothing, and a comma may follow the last item.
example : ((tokens .strict "[a, # ]\n \"b c\"\n, true,] x".toList).toOption.map fun ts =>
    match (⟨[], endOf []⟩ : Context).wordList ts with
    | .ok words rest => (words, rest.length)
    | .fail _ rest => ([], rest.length)) = some (["a", "b c", "true"], 2) := by decide +kernel

end Grimoire.Source
