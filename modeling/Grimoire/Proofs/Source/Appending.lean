import Grimoire.Proofs.Source.Nesting

/-!
# One source after another

A source that ends with a line, and whose faults are not found at its end, keeps its declarations and
faults when declarations follow (`parseSource_append`). That covers every source without faults, and by
`errors_not_atEnd` every one without comments whose braces and brackets are nested: no malformed piece
of it damages what follows (`parse_followed`).
-/
namespace Grimoire.Source

/-! ## Parts of a longer source -/

theorem byteLength_cons (c : Char) (x : List Char) :
    Text.byteLength (c :: x) = c.utf8Size + Text.byteLength x := by
  simp [Text.byteLength]

theorem takeBytes_append {n : Nat} {x : List Char} (y : List Char) (h : n ≤ Text.byteLength x) :
    takeBytes n (x ++ y) = takeBytes n x := by
  induction x generalizing n with
  | nil =>
    obtain rfl : n = 0 := by simpa [Text.byteLength] using h
    simp [takeBytes]
  | cons c x ih =>
    cases n with
    | zero => simp [takeBytes]
    | succ n =>
      rw [byteLength_cons] at h
      rw [List.cons_append, takeBytes, takeBytes]
      split
      · rw [ih (by omega)]
      · rfl

theorem dropBytes_append {n : Nat} {x : List Char} (y : List Char) (h : n ≤ Text.byteLength x) :
    dropBytes n (x ++ y) = (dropBytes n x).map (· ++ y) := by
  induction x generalizing n with
  | nil =>
    obtain rfl : n = 0 := by simpa [Text.byteLength] using h
    simp [dropBytes]
  | cons c x ih =>
    cases n with
    | zero => simp [dropBytes]
    | succ n =>
      rw [byteLength_cons] at h
      rw [List.cons_append, dropBytes, dropBytes]
      split
      · rw [ih (by omega)]
      · rfl

theorem byteLength_dropBytes {n : Nat} {x r : List Char} (h : dropBytes n x = some r) :
    n + Text.byteLength r = Text.byteLength x := by
  induction x generalizing n with
  | nil =>
    cases n with
    | zero => obtain rfl := Option.some.inj h; simp
    | succ n => simp [dropBytes] at h
  | cons c x ih =>
    cases n with
    | zero => obtain rfl := Option.some.inj h; simp
    | succ n =>
      rw [dropBytes] at h
      split at h
      · have := ih h
        rw [byteLength_cons]
        omega
      · simp at h

/-- A part of the first source is the same part of both. -/
theorem slice?_append_left {i j : Nat} {x : List Char} (y : List Char) (hi : i ≤ Text.byteLength x)
    (hj : j ≤ Text.byteLength x) : slice? (x ++ y) i j = slice? x i j := by
  unfold slice?
  split
  · rw [dropBytes_append y hi]
    cases hd : dropBytes i x with
    | none => rfl
    | some r =>
      have hr := byteLength_dropBytes hd
      exact takeBytes_append y (by omega)
  · rfl

theorem dropBytes_append_right (n : Nat) (x y : List Char) :
    dropBytes (Text.byteLength x + n) (x ++ y) = dropBytes n y := by
  induction x with
  | nil => simp [Text.byteLength]
  | cons c x ih =>
    have hc := c.utf8Size_pos
    rw [byteLength_cons, List.cons_append]
    obtain ⟨m, hm⟩ : ∃ m, c.utf8Size + Text.byteLength x + n = m + 1 :=
      ⟨c.utf8Size + Text.byteLength x + n - 1, by omega⟩
    rw [hm, dropBytes, if_pos (by omega)]
    rw [← ih]
    congr 1
    omega

/-- A part of the second source lies further on in both. -/
theorem slice?_append_right (i j : Nat) (x y : List Char) :
    slice? (x ++ y) (i + Text.byteLength x) (j + Text.byteLength x) = slice? y i j := by
  unfold slice?
  rw [Nat.add_comm i, dropBytes_append_right]
  by_cases h : i ≤ j
  · rw [if_pos h, if_pos (by omega)]
    congr 2
    omega
  · rw [if_neg h, if_neg (by omega)]

/-! ## Sources that lex -/

/-- The end of input of a text. -/
def endOf (x : List Char) : Token := Token.at (Position.start.advanceAll x) .endOfInput []

theorem tokens_eq_ok {mode : LexMode} {x : List Char} {us : List Token} :
    tokens mode x = .ok us ↔ ∃ ts, us = ts ++ [endOf x] ∧ Lexes mode .start x ts := tokensFrom_eq_ok

theorem Lexes.no_end {mode : LexMode} {p : Position} {x : List Char} {ts : List Token} (h : Lexes mode p x ts) :
    ∀ t ∈ ts, t.isEnd = false := by
  intro t ht
  simpa [Token.isEnd] using (h.faithful t ht).goesOn

/-- The tokens before the end of input are those that are read. -/
theorem parse_eq {mode : LexMode} {x : List Char} {ts : List Token} (h : Lexes mode .start x ts) :
    parse x (ts ++ [endOf x]) = Program.ofTokens ⟨x, endOf x⟩ false ts := by
  have hts : ∀ t ∈ ts, t.isEnd = false := h.no_end
  have hend : (endOf x).isEnd = true := rfl
  have hfind : (ts ++ [endOf x]).find? Token.isEnd = some (endOf x) := by
    rw [List.find?_append, List.find?_eq_none.2 fun t ht => by simp [hts t ht]]
    simp [hend]
  have htake : (ts ++ [endOf x]).takeWhile (fun t => !t.isEnd) = ts := by
    rw [List.takeWhile_append_of_pos fun t ht => by simp [hts t ht]]
    simp [hend]
  unfold parse
  rw [hfind, htake]
  rfl

theorem startsDeclaration_dropEnd {ts : List Token} {e : Token} (he : e.kind = .endOfInput)
    (h : startsDeclaration (ts ++ [e]) = true) : startsDeclaration ts = true := by
  match ts with
  | [] => simp [startsDeclaration] at h
  | [sign] => simp [startsDeclaration, he, Context.beginsArchetype] at h
  | [sign, word] => simpa [startsDeclaration, Context.beginsArchetype] using h
  | [sign, word, name] => simpa [startsDeclaration, Context.beginsArchetype, Token.isSymbol, he] using h
  | sign :: word :: name :: colons :: rest => simpa [startsDeclaration, Context.beginsArchetype] using h

theorem startsDeclaration_moved (b l : Nat) (ts : List Token) :
    startsDeclaration (ts.map (Token.moved b l)) = startsDeclaration ts := by
  match ts with
  | [] => rfl
  | [sign] => rfl
  | [sign, word] => rfl
  | [sign, word, name] => rfl
  | sign :: word :: name :: colons :: rest => rfl

theorem nested_dropEnd {e : Token} (he : e.kind = .endOfInput) : ∀ {due : List Symbol} {ts : List Token},
    nested due (ts ++ [e]) = nested due ts
  | due, [] => by simp [nested, Token.isSymbol, he]
  | due, t :: ts => by
    simp only [List.cons_append, nested, nested_dropEnd he]

/-! ## Nothing is moved by nothing -/

theorem Spell.moved_zero (s : Spell) : s.moved 0 = s := rfl

theorem Declaration.moved_zero (d : Declaration) : d.moved 0 = d := by
  cases d with
  | spell s => rfl
  | character c =>
    have hs : Spell.moved 0 = id := funext Spell.moved_zero
    simp [Declaration.moved, Character.moved, hs]
  | world w => rfl
  | archetype a => rfl

theorem Program.moved_zero (p : Program) : p.moved 0 0 = p := by
  have hd : Declaration.moved 0 = id := funext Declaration.moved_zero
  have he : ParseError.moved 0 0 = id := rfl
  simp [Program.moved, hd, he]

/-! ## Appending -/

/-- A source that ends with a line and has no fault at its end, before one that begins a declaration, with
newlines and comments between them. -/
theorem parseSource_between {mode : LexMode} {x z y : String} {ts gap us : List Token}
    (hline : EndsIn isLineEnd x.toList) (hx : tokens mode x.toList = .ok ts)
    (hsettled : ∀ e ∈ (parse x.toList ts).errors, ¬ e.AtEnd) (hline' : EndsIn isLineEnd z.toList)
    (hz : Lexes mode (Position.start.advanceAll x.toList) z.toList gap) (hgap : Trivial gap)
    (hy : tokens mode y.toList = .ok us) (hstarts : startsDeclaration us = true) :
    parseSource mode (x ++ z ++ y) = .ok ((parse x.toList ts).append
      ((parse y.toList us).moved (Text.byteLength (x ++ z).toList) (newlines (x ++ z).toList))) := by
  obtain ⟨ts, rfl, hlx⟩ := tokens_eq_ok.1 hx
  obtain ⟨us, rfl, hly⟩ := tokens_eq_ok.1 hy
  have hstart := startsDeclaration_dropEnd rfl hstarts
  have hfront : Lexes mode .start (x ++ z).toList (ts ++ gap) := by
    rw [String.toList_append]
    exact hlx.append hline hz
  have hlines : EndsIn isLineEnd (x ++ z).toList := by
    rw [String.toList_append]
    exact hline.both hline'
  have htext : (x ++ z ++ y).toList = (x ++ z).toList ++ y.toList := String.toList_append
  have hadv := Position.advanceAll_start hlines
  generalize hbytes : Text.byteLength (x ++ z).toList = bytes at hadv ⊢
  generalize hcount : newlines (x ++ z).toList = lines at hadv ⊢
  have hfar : Lexes mode .start (x ++ z ++ y).toList (ts ++ gap ++ us.map (Token.moved bytes lines)) := by
    rw [htext]
    exact hfront.append hlines (hadv ▸ hly.moved _ _)
  have hend : endOf (x ++ z ++ y).toList = (endOf y.toList).moved bytes lines := by
    rw [endOf, endOf, htext, Position.advanceAll_append, hadv, Position.advanceAll_moved, Token.at_moved]
  rw [parse_eq hlx] at hsettled ⊢
  rw [parse_eq hly]
  -- The first source in its place, and then the second one behind it.
  let front : Placement :=
    { near := ⟨x.toList, endOf x.toList⟩
      far := ⟨(x ++ z ++ y).toList, endOf (x ++ z ++ y).toList⟩
      bytes := 0
      lines := 0
      gap := gap
      more := us.map (Token.moved bytes lines) }
  have hfits : front.Fits := by
    refine ⟨fun i j hi hj => ?_, rfl, .inr ⟨?_, fun t ht => ?_⟩, hgap⟩
    · change slice? (x ++ z ++ y).toList i j = slice? x.toList i j
      rw [String.toList_append, String.toList_append, List.append_assoc]
      exact slice?_append_left _ hi hj
    · exact (startsDeclaration_moved _ _ us).trans hstart
    · obtain ⟨u, hu, rfl⟩ := List.mem_map.1 ht
      exact hly.faithful u hu
  have hts : front.Holds ts := by
    refine ⟨fun t ht => ?_, .inr (hlx.endsIn hline)⟩
    have := hlx.within t ht
    rwa [byte_advanceAll_start] at this
  let back : Placement :=
    { near := ⟨y.toList, endOf y.toList⟩
      far := ⟨(x ++ z ++ y).toList, endOf (x ++ z ++ y).toList⟩
      bytes := bytes
      lines := lines
      gap := []
      more := [] }
  have hback : back.Fits := by
    refine ⟨fun i j _ _ => ?_, rfl, .inl ⟨rfl, rfl, hend⟩, fun _ => rfl⟩
    change slice? (x ++ z ++ y).toList (i + bytes) (j + bytes) = slice? y.toList i j
    rw [htext, ← hbytes]
    exact slice?_append_right i j _ _
  have hus : back.Holds us := by
    refine ⟨fun t ht => ?_, .inl rfl⟩
    have := hly.within t ht
    rwa [byte_advanceAll_start] at this
  have h1 := Placement.ofTokens_place hfits (b := false) hts (fun _ => .inr rfl) (.inr hsettled)
  have h2 := Placement.ofTokens_place hback (b := false) hus (fun _ => .inr rfl) (.inl rfl)
  have hplace1 : front.behind ts = ts ++ gap ++ front.more := by
    have hid : Token.moved 0 0 = id := rfl
    simp [Placement.behind, front, hid]
  have hplace2 : back.place us = front.more := by
    rw [Placement.place_of_gapless rfl]
    exact List.append_nil _
  have hempty : ∀ p : Program, p.append ⟨[], []⟩ = p := fun p => by simp [Program.append]
  rw [← hfits.ofTokens_behind, hplace1, Program.moved_zero] at h1
  rw [hplace2, show back.more = [] from rfl, Program.ofTokens_nil, hempty] at h2
  have htokens : tokens mode (x ++ z ++ y).toList = .ok ((ts ++ gap ++ front.more) ++ [endOf (x ++ z ++ y).toList]) :=
    tokens_eq_ok.2 ⟨_, rfl, hfar⟩
  calc parseSource mode (x ++ z ++ y)
    _ = .ok (parse (x ++ z ++ y).toList ((ts ++ gap ++ front.more) ++ [endOf (x ++ z ++ y).toList])) := by
        rw [parseSource, htokens]
        rfl
    _ = .ok (Program.ofTokens front.far false (ts ++ gap ++ front.more)) := by
        rw [parse_eq hfar]
    _ = _ := by
        rw [h1, show front.far = back.far from rfl, h2]

theorem parseSource_append {mode : LexMode} {x y : String} {ts us : List Token}
    (hline : EndsIn isLineEnd x.toList) (hx : tokens mode x.toList = .ok ts)
    (hsettled : ∀ e ∈ (parse x.toList ts).errors, ¬ e.AtEnd) (hy : tokens mode y.toList = .ok us)
    (hstarts : startsDeclaration us = true) :
    parseSource mode (x ++ y) = .ok ((parse x.toList ts).append
      ((parse y.toList us).moved (Text.byteLength x.toList) (newlines x.toList))) := by
  have h := parseSource_between (z := "") hline hx hsettled .nil .done (fun _ => rfl) hy hstarts
  rwa [String.append_empty] at h

/-- **What follows a piece of source is not damaged by it.** A text that ends with a line and lexes, and
that has no faults or else no comments and nested braces and brackets, before a text that begins with a
declaration: the declarations and faults are those of the first text and then those of the second one,
further on by the bytes and lines of the first. -/
theorem parse_followed {mode : LexMode} {x y : String} {ts us : List Token}
    (hline : x.toList.getLast? = some '\n') (hx : tokens mode x.toList = .ok ts)
    (hsound : (parse x.toList ts).isClean = true ∨
      (∀ t ∈ ts, t.isSymbol .hash = false) ∧ nested [] ts = true)
    (hy : tokens mode y.toList = .ok us) (hstarts : startsDeclaration us = true) :
    parseSource mode x = .ok (parse x.toList ts) ∧ parseSource mode y = .ok (parse y.toList us) ∧
    parseSource mode (x ++ y) = .ok ((parse x.toList ts).append
      ((parse y.toList us).moved (Text.byteLength x.toList) (newlines x.toList))) := by
  have hends : EndsIn isLineEnd x.toList := by
    intro c hc
    obtain rfl := Option.some.inj (hline.symm.trans hc)
    rfl
  refine ⟨by rw [parseSource, hx]; rfl, by rw [parseSource, hy]; rfl, ?_⟩
  refine parseSource_append hends hx ?_ hy hstarts
  rcases hsound with hclean | ⟨hhash, hnested⟩
  · have herrors : (parse x.toList ts).errors = [] := by simpa [Program.isClean] using hclean
    simp [herrors]
  · obtain ⟨ts, rfl, hlx⟩ := tokens_eq_ok.1 hx
    rw [parse_eq hlx]
    rw [nested_dropEnd rfl] at hnested
    refine errors_not_atEnd ⟨[], hnested, fun t ht => ⟨hhash t (by simp [ht]), ?_⟩, hlx.endsIn hends⟩
    exact (hlx.faithful t ht).goesOn

/-- A character whose last clause has no value. -/
def brokenCharacter : String := "@character Broken\n  @data \x7b \"a\": [] \x7d\n  @archetype\n"

def sage : String := "@archetype Sage :: \"wise\"\n"

/-- What a run that can be evaluated gives, without its value written out. -/
theorem exists_ok {ε α : Type} {run : Except ε α} {p : α → Bool} (h : run.toOption.any p = true) :
    ∃ a, run = .ok a ∧ p a = true := by
  cases run with
  | ok a => exact ⟨a, rfl, h⟩
  | error e => simp [Except.toOption] at h

theorem brokenCharacter_followed : ∃ ts us, brokenCharacter.toList.getLast? = some '\n' ∧
    tokens .strict brokenCharacter.toList = .ok ts ∧
    ((∀ t ∈ ts, t.isSymbol .hash = false) ∧ nested [] ts = true) ∧
    tokens .strict sage.toList = .ok us ∧ startsDeclaration us = true ∧
    parseSource .strict brokenCharacter = .ok (parse brokenCharacter.toList ts) ∧
    parseSource .strict sage = .ok (parse sage.toList us) ∧
    parseSource .strict (brokenCharacter ++ sage) = .ok ((parse brokenCharacter.toList ts).append
      ((parse sage.toList us).moved (Text.byteLength brokenCharacter.toList) (newlines brokenCharacter.toList))) := by
  obtain ⟨ts, hx, hts⟩ : ∃ ts, tokens .strict brokenCharacter.toList = .ok ts ∧
      (ts.all (fun t => !t.isSymbol .hash) && nested [] ts) = true :=
    exists_ok (by decide +kernel)
  obtain ⟨us, hy, hstarts⟩ : ∃ us, tokens .strict sage.toList = .ok us ∧ startsDeclaration us = true :=
    exists_ok (by decide +kernel)
  obtain ⟨hhash, hnested⟩ := Bool.and_eq_true_iff.1 hts
  have hsound : (∀ t ∈ ts, t.isSymbol .hash = false) ∧ nested [] ts = true :=
    ⟨fun t ht => by simpa using List.all_eq_true.1 hhash t ht, hnested⟩
  have hline : brokenCharacter.toList.getLast? = some '\n' := by decide +kernel
  exact ⟨ts, us, hline, hx, hsound, hy, hstarts, parse_followed hline hx (.inr hsound) hy hstarts⟩

end Grimoire.Source
