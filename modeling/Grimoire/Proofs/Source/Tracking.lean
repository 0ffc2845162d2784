import Grimoire.Proofs.Source.Cursor
import Grimoire.Proofs.Source.Readers
import Mathlib.Data.List.Forall2
import Mathlib.Data.List.TakeWhile

/-!
# The parser by index keeps track of the parser

Each walk of the parser by index makes what the reader of the same name makes of the tokens left, and stops where
that leaves off (`Tracks`); one lemma for each, by induction on the rounds of its loop. So no walk is ever stuck,
and the parser by index is `parse` (`parse?_eq`).
-/
namespace Grimoire.Source

/-! ## Outcomes of a walk -/

def Outcome.result {α : Type} : Outcome α → Except ParseError α
  | .ok a _ => .ok a
  | .fail e _ => .error e

theorem Outcome.bind_assoc {α β γ : Type} (o : Outcome α) (k : α → List Token → Outcome β)
    (l : β → List Token → Outcome γ) : (o.bind k).bind l = o.bind fun a rest => (k a rest).bind l := by
  cases o <;> rfl

/-- Started where these tokens are left of the body, the walk makes this outcome and stops where the tokens are
left that the outcome leaves. -/
def Tracks {α : Type} (body : List Token) (w : Walk α) (ts : List Token) (o : Outcome α) : Prop :=
  ∀ i ≤ body.length, body.drop i = ts → ∃ j ≤ body.length, w i = some (o.result, j) ∧ body.drop j = o.rest

/-- The tokens of the tape are those of the body and then an end of input. -/
structure Tape.Holds (tape : Tape) (ctx : Context) (body : List Token) : Prop where
  source : tape.source = ctx.source
  tokens : ∃ behind, tape.tokens = body ++ ctx.finish :: behind
  inner : ∀ t ∈ body, t.isEnd = false
  finish : ctx.finish.isEnd = true

section
variable {α β σ : Type} {tape : Tape} {ctx : Context} {body ts rest : List Token} {w : Walk α} {o : Outcome α}

theorem Walk.bind_at (w : Walk α) (k : α → Walk β) (i : Nat) :
    (w >>= k) i = match w i with
      | some (.ok a, j) => k a j
      | some (.error e, j) => some (.error e, j)
      | none => none := by
  change (w i).bind _ = _
  cases w i with
  | none => rfl
  | some r =>
    obtain ⟨r, j⟩ := r
    cases r <;> rfl

theorem Walk.then_at {k : α → Walk β} {a : α} {i j : Nat} (hw : w i = some (.ok a, j)) : (w >>= k) i = k a j := by
  rw [Walk.bind_at, hw]

theorem Tracks.bind {k : α → Walk β} {r : α → List Token → Outcome β} (h : Tracks body w ts o)
    (hk : ∀ a rest, o = .ok a rest → Tracks body (k a) rest (r a rest)) :
    Tracks body (w >>= k) ts (o.bind r) := by
  intro i hi hts
  obtain ⟨j, hj, hw, hrest⟩ := h i hi hts
  rw [Walk.bind_at, hw]
  cases o with
  | ok a rest => exact hk a rest rfl j hj hrest
  | fail e rest => exact ⟨j, hj, rfl, hrest⟩

/-- After a walk that makes a value goes the next one. -/
theorem Tracks.then {a : α} {k : α → Walk β} {o : Outcome β} (h : Tracks body w ts (.ok a rest))
    (hk : Tracks body (k a) rest o) : Tracks body (w >>= k) ts o := by
  intro i hi hts
  obtain ⟨j, hj, hw, hrest⟩ := h i hi hts
  rw [Walk.then_at hw]
  exact hk j hj hrest

theorem tracks_pure (a : α) (ts : List Token) : Tracks body (pure a) ts (.ok a ts) :=
  fun i hi hts => ⟨i, hi, rfl, hts⟩

theorem tracks_throw (e : ParseError) (ts : List Token) : Tracks body (throw e : Walk α) ts (.fail e ts) :=
  fun i hi hts => ⟨i, hi, rfl, hts⟩

/-- A walk that ends with a value made of another one's. -/
theorem Tracks.map (h : Tracks body w ts o) (f : α → β) :
    Tracks body (w >>= fun a => pure (f a)) ts (o.bind fun a rest => .ok (f a) rest) :=
  h.bind fun _ _ _ => tracks_pure _ _

variable (h : tape.Holds ctx body)
include h

theorem Tape.Holds.kind_finish : ctx.finish.kind = .endOfInput := by
  simpa [Token.isEnd] using h.finish

/-- There are more rounds than tokens left, and none of those is an end of input. -/
theorem Tape.Holds.tracks (hw : ts.length < tape.rounds → (∀ t ∈ ts, t.isEnd = false) → Tracks body w ts o) :
    Tracks body w ts o := by
  intro i hi hts
  obtain ⟨behind, htokens⟩ := h.tokens
  refine hw ?_ ?_ i hi hts
  · subst hts
    simp only [Tape.rounds, htokens, List.length_append, List.length_cons, List.length_drop]
    omega
  · subst hts
    exact fun t ht => h.inner t (List.mem_of_mem_drop ht)

theorem Tape.Holds.getElem? {i : Nat} (hi : i ≤ body.length) (n : Nat) :
    tape.tokens[i + n]? = (body.drop i ++ tape.tokens.drop body.length)[n]? := by
  obtain ⟨behind, htokens⟩ := h.tokens
  have hall : tape.tokens.drop i = body.drop i ++ tape.tokens.drop body.length := by
    rw [htokens, List.drop_left, List.drop_append_of_le_length hi]
  rw [← hall, List.getElem?_drop]

theorem token_at {i : Nat} (hi : i ≤ body.length) : tape.tokens[i]? = some (ctx.current (body.drop i)) := by
  obtain ⟨behind, htokens⟩ := h.tokens
  have := h.getElem? hi 0
  rw [Nat.add_zero] at this
  rw [this, htokens, List.drop_left]
  cases body.drop i <;> rfl

theorem current_at {i : Nat} (hi : i ≤ body.length) :
    tape.current i = some (.ok (ctx.current (body.drop i)), i) := by
  have hget : (get : Walk Nat) i = some (.ok i, i) := rfl
  rw [Tape.current, Walk.then_at hget, token_at h hi]
  rfl

theorem previous_at {i : Nat} (hi : i ≤ body.length) :
    tape.previous (i + 1) = some (.ok (ctx.current (body.drop i)), i + 1) := by
  have hget : (get : Walk Nat) (i + 1) = some (.ok (i + 1), i + 1) := rfl
  rw [Tape.previous, Walk.then_at hget, Nat.add_sub_cancel, token_at h hi]
  rfl

theorem tracks_current (ts : List Token) : Tracks body tape.current ts (.ok (ctx.current ts) ts) := by
  intro i hi hts
  subst hts
  exact ⟨i, hi, current_at h hi, rfl⟩

theorem tracks_ahead (ts : List Token) (n : Nat) :
    Tracks body (tape.ahead n) ts (.ok (ts ++ tape.tokens.drop body.length)[n]? ts) := by
  intro i hi hts
  refine ⟨i, hi, ?_, hts⟩
  change some (Except.ok tape.tokens[i + n]?, i) = _
  rw [h.getElem? hi n, hts]
  rfl

omit h in
theorem drop_succ {i : Nat} {t : Token} (hts : body.drop i = t :: ts) :
    i < body.length ∧ t ∈ body ∧ body.drop (i + 1) = ts := by
  refine ⟨Nat.lt_of_not_le fun hge => ?_, List.mem_of_mem_drop (hts ▸ List.mem_cons_self), ?_⟩
  · rw [List.drop_of_length_le hge] at hts
    simp at hts
  · rw [← List.tail_drop, hts]
    rfl

theorem advance_at {i : Nat} {t : Token} (hts : body.drop i = t :: ts) : tape.advance i = some (.ok (), i + 1) := by
  obtain ⟨hlt, hmem, -⟩ := drop_succ hts
  have ht : t.isEnd = false := h.inner t hmem
  have hcurrent := current_at h (Nat.le_of_lt hlt)
  rw [hts, Context.current, List.headD_cons] at hcurrent
  rw [Tape.advance, Walk.then_at hcurrent, ht]
  rfl

theorem tracks_advance (ts : List Token) : Tracks body tape.advance ts (.ok () ts.tail) := by
  intro i hi hts
  cases ts with
  | nil =>
    have hcurrent := current_at h hi
    rw [hts, Context.current, List.headD_nil] at hcurrent
    refine ⟨i, hi, ?_, hts⟩
    rw [Tape.advance, Walk.then_at hcurrent, h.finish]
    rfl
  | cons t ts =>
    obtain ⟨hlt, -, hdrop⟩ := drop_succ hts
    exact ⟨i + 1, hlt, advance_at h hts, hdrop⟩

theorem tracks_fault (f : Fault) (ts : List Token) :
    Tracks body (tape.fault f : Walk α) ts (ctx.fault f ts) :=
  (tracks_current h ts).then (tracks_throw _ ts)

/-! ## Trivia -/

omit h in
theorem Context.skipTrivia_true (ts : List Token) :
    Context.skipTrivia true ts = Context.skipTrivia false (ts.dropWhile fun t => !t.isNewline) := by
  induction ts with
  | nil => rfl
  | cons t ts ih =>
    rw [Context.skipTrivia, List.dropWhile_cons]
    by_cases hn : t.isNewline = true
    · simp [hn, Context.skipTrivia]
    · simpa [hn] using ih

theorem tracks_leaveLine {n : Nat} (hn : ts.length < n) :
    Tracks body (tape.leaveLine n) ts (.ok () (ts.dropWhile fun t => !t.isNewline)) := by
  induction n generalizing ts with
  | zero => omega
  | succ n ih =>
    rw [Tape.leaveLine]
    refine (tracks_current h ts).then ?_
    cases ts with
    | nil =>
      simp only [Context.current, List.headD_nil, h.finish, Bool.true_or, if_true]
      exact tracks_pure () []
    | cons t ts =>
      refine h.tracks fun _ hinner => ?_
      have ht : t.isEnd = false := hinner t List.mem_cons_self
      simp only [Context.current, List.headD_cons, ht, Bool.false_or]
      by_cases hnewline : t.isNewline = true
      · simp only [hnewline, if_true, List.dropWhile_cons, Bool.not_true, Bool.false_eq_true, if_false]
        exact tracks_pure () _
      · simp only [hnewline, Bool.false_eq_true, if_false, List.dropWhile_cons, Bool.not_false, if_true]
        rw [List.length_cons] at hn
        exact (tracks_advance h (t :: ts)).then (ih (Nat.lt_of_succ_lt_succ hn))

/-- What `skipComment` makes of the tokens. -/
def Context.dropComment (ctx : Context) (ts : List Token) : Outcome Bool :=
  if (ctx.current ts).isSymbol .hash then .ok true (ts.dropWhile fun t => !t.isNewline) else .ok false ts

theorem tracks_skipComment (ts : List Token) : Tracks body tape.skipComment ts (ctx.dropComment ts) := by
  refine (tracks_current h ts).then ?_
  rw [Context.dropComment]
  by_cases hhash : (ctx.current ts).isSymbol .hash = true
  · simp only [hhash, if_true]
    refine h.tracks fun hrounds _ => ?_
    exact (tracks_leaveLine h hrounds).then (tracks_pure true _)
  · simp only [hhash, Bool.false_eq_true, if_false]
    exact tracks_pure false ts

theorem tracks_skipTrivia {n : Nat} (hn : ts.length < n) :
    Tracks body (tape.skipTrivia n) ts (.ok () (Context.skipTrivia false ts)) := by
  induction n generalizing ts with
  | zero => omega
  | succ n ih =>
    rw [Tape.skipTrivia]
    refine (tracks_current h ts).then ?_
    have hcomment := tracks_skipComment h ts
    rw [Context.dropComment] at hcomment
    cases ts with
    | nil =>
      have hk := h.kind_finish
      simp only [Context.current, List.headD_nil, Token.isSymbol, Token.isNewline, hk, reduceCtorEq, beq_iff_eq,
        if_false] at hcomment ⊢
      exact hcomment.then (tracks_pure () [])
    | cons t ts =>
      rw [List.length_cons] at hn
      rw [Context.skipTrivia]
      simp only [Context.current, List.headD_cons] at hcomment ⊢
      by_cases hnewline : t.isNewline = true
      · simp only [hnewline, if_true]
        exact (tracks_advance h (t :: ts)).then (ih (Nat.lt_of_succ_lt_succ hn))
      · simp only [hnewline, Bool.false_eq_true, if_false, Bool.false_or]
        by_cases hhash : t.isSymbol .hash = true
        · simp only [hhash, if_true] at hcomment ⊢
          refine hcomment.then ?_
          have hline : (t :: ts).dropWhile (fun t => !t.isNewline) = ts.dropWhile fun t => !t.isNewline := by
            simp [hnewline]
          have hle := (List.dropWhile_sublist (l := ts) fun t => !t.isNewline).length_le
          rw [hline, Context.skipTrivia_true]
          exact ih (by omega)
        · simp only [hhash, Bool.false_eq_true, if_false] at hcomment ⊢
          exact hcomment.then (tracks_pure () _)

theorem tracks_trivia (ts : List Token) :
    Tracks body (tape.skipTrivia tape.rounds) ts (.ok () (Context.skipTrivia false ts)) :=
  h.tracks fun hrounds _ => tracks_skipTrivia h hrounds

/-! ## Values -/

theorem tracks_expectToken {test : Token → Option α} (htest : test ctx.finish = none) (what : String)
    (ts : List Token) : Tracks body (tape.expectToken test what) ts (ctx.expectToken test what ts) := by
  refine (tracks_current h ts).then ?_
  cases ts with
  | nil =>
    rw [Context.expectToken, Context.current, List.headD_nil, htest]
    exact tracks_throw _ []
  | cons t ts =>
    rw [Context.expectToken, Context.current, List.headD_cons]
    cases ht : test t with
    | none => exact tracks_throw _ _
    | some a => exact (tracks_advance h (t :: ts)).then (tracks_pure a ts)

theorem tracks_expectSymbol (s : Symbol) (what : String) (ts : List Token) :
    Tracks body (tape.expectSymbol s what) ts (ctx.expectSymbol s what ts) :=
  tracks_expectToken h (by simp [Token.isSymbol, h.kind_finish]) what ts

theorem tracks_expectIdentifier (what : String) (ts : List Token) :
    Tracks body (tape.expectIdentifier what) ts (ctx.expectIdentifier what ts) :=
  tracks_expectToken h (by simp [h.kind_finish]) what ts

theorem tracks_expectString (what : String) (ts : List Token) :
    Tracks body (tape.expectString what) ts (ctx.expectString what ts) :=
  tracks_expectToken h (by simp [h.kind_finish]) what ts

theorem tracks_expectStringOrWord (what : String) (ts : List Token) :
    Tracks body (tape.expectStringOrWord what) ts (ctx.expectStringOrWord what ts) :=
  tracks_expectToken h (by simp [Token.stringOrWord?, Token.word?, h.kind_finish]) what ts

theorem tracks_wordRounds {n : Nat} (ts : List Token) (hn : ts.length < n) (items : List String) :
    Tracks body (tape.wordRounds n items) ts
      ((ctx.wordItems ts).bind fun more rest => .ok (items ++ more) rest) := by
  induction n generalizing ts items with
  | zero => omega
  | succ n ih =>
    have hle := Context.length_skipTrivia false ts
    rw [Tape.wordRounds, Context.wordItems_eq]
    refine (tracks_trivia h ts).then ?_
    generalize Context.skipTrivia false ts = us at hle ⊢
    refine (tracks_current h us).then ?_
    cases us with
    | nil =>
      have hk := h.kind_finish
      simp only [Context.current, List.headD_nil, Token.isSymbol, h.finish, hk, reduceCtorEq, beq_iff_eq, if_false,
        if_true]
      exact tracks_fault h _ []
    | cons t rest =>
      refine h.tracks fun _ hinner => ?_
      have ht : t.isEnd = false := hinner t List.mem_cons_self
      simp only [Context.current, List.headD_cons, ht]
      by_cases hclose : t.isSymbol .closeBracket = true
      · simp only [hclose, if_true, Outcome.bind_ok, List.append_nil]
        exact (tracks_advance h (t :: rest)).then (tracks_pure items rest)
      · simp only [hclose, Bool.false_eq_true, if_false, Outcome.bind_assoc]
        refine (tracks_expectStringOrWord h _ (t :: rest)).bind fun item after hitem => ?_
        have hlt := Context.length_lt_of_expectToken ctx hitem
        have hle' := Context.length_skipTrivia false after
        have hskip := Context.skipTrivia_skipTrivia false after
        rw [Context.wordsAfter]
        refine (tracks_trivia h after).then ?_
        generalize Context.skipTrivia false after = us at hle' hskip ⊢
        refine (tracks_current h us).then ?_
        cases us with
        | nil =>
          have hk := h.kind_finish
          simp only [Context.current, List.headD_nil, Token.isSymbol, hk, reduceCtorEq, beq_iff_eq, if_false]
          exact tracks_fault h _ []
        | cons u tail =>
          rw [List.length_cons] at hle'
          simp only [Context.current, List.headD_cons]
          by_cases hcomma : u.isSymbol .comma = true
          · simp only [hcomma, if_true, Outcome.bind_assoc, Outcome.bind_ok]
            refine (tracks_advance h (u :: tail)).then ?_
            have hrec := ih tail (by omega) (items ++ [item])
            simpa only [List.append_assoc, List.singleton_append, List.tail_cons] using hrec
          · simp only [hcomma, Bool.false_eq_true, if_false]
            by_cases hlast : u.isSymbol .closeBracket = true
            · -- The next round begins at the closing bracket.
              have hrec := ih (u :: tail) (by rw [List.length_cons]; omega) (items ++ [item])
              rw [Context.wordItems_eq, hskip] at hrec
              simpa only [hlast, if_true, Outcome.bind_ok, List.append_nil] using hrec
            · simp only [hlast, Bool.false_eq_true, if_false]
              exact tracks_fault h _ _

theorem tracks_wordList (ts : List Token) : Tracks body tape.wordList ts (ctx.wordList ts) := by
  rw [Context.wordList_eq]
  refine (tracks_expectSymbol h _ _ ts).bind fun _ rest _ => ?_
  refine h.tracks fun hrounds _ => ?_
  have hitems := tracks_wordRounds h rest hrounds []
  cases hw : ctx.wordItems rest <;> simpa [hw] using hitems

theorem tracks_blockRounds {shape : BlockShape} {t : Token} {depth n : Nat} (ts : List Token) (hn : ts.length < n) :
    Tracks body (tape.blockRounds (Context.openSymbol shape) (Context.closeSymbol shape) t n (depth + 1)) ts
      (match Context.blockEnd (Context.openSymbol shape) (Context.closeSymbol shape) depth ts with
        | some (last, rest) => .ok ((slice? ctx.source t.span.stop last.span.start).getD []) rest
        | none => .fail ⟨.unterminatedBlock, t⟩ []) := by
  induction n generalizing ts depth with
  | zero => omega
  | succ n ih =>
    rw [Tape.blockRounds]
    refine (tracks_current h ts).then ?_
    cases ts with
    | nil =>
      simp only [Context.current, List.headD_nil, h.finish, if_true, Context.blockEnd]
      exact tracks_throw _ []
    | cons u us =>
      refine h.tracks fun _ hinner => ?_
      have hu : u.isEnd = false := hinner u List.mem_cons_self
      have hus : us.length < n := Nat.lt_of_succ_lt_succ hn
      have hgo := tracks_advance h (u :: us)
      simp only [Context.current, List.headD_cons, hu, Bool.false_eq_true, if_false, Context.blockEnd]
      by_cases hopen : u.isSymbol (Context.openSymbol shape) = true
      · simp only [hopen, if_true]
        exact hgo.then (ih us hus)
      · simp only [hopen, Bool.false_eq_true, if_false]
        by_cases hclose : u.isSymbol (Context.closeSymbol shape) = true
        · simp only [hclose, if_true]
          refine hgo.then ?_
          cases depth with
          | zero =>
            simp only [Nat.zero_add, Nat.sub_self, if_true, h.source]
            exact tracks_pure _ us
          | succ depth =>
            simp only [Nat.add_sub_cancel, Nat.succ_ne_zero, if_false]
            exact ih us hus
        · simp only [hclose, Bool.false_eq_true, if_false]
          exact hgo.then (ih us hus)

theorem tracks_blockText (shape : BlockShape) (t : Token) (ts : List Token) :
    Tracks body (tape.blockText shape) (t :: ts) (ctx.blockText shape t ts) := by
  refine (tracks_current h (t :: ts)).then ?_
  refine (tracks_advance h (t :: ts)).then ?_
  exact h.tracks fun hrounds _ => tracks_blockRounds h ts hrounds

theorem tracks_block (shape : BlockShape) (clause : String) (ts : List Token) :
    Tracks body (tape.block shape clause) ts (ctx.block shape clause ts) := by
  refine (tracks_current h ts).then ?_
  cases ts with
  | nil =>
    simp only [Context.current, List.headD_nil, Token.isSymbol, h.kind_finish, Context.block]
    rw [if_neg (by simp)]
    exact tracks_fault h _ []
  | cons t ts =>
    rw [Context.block, Context.current, List.headD_cons]
    by_cases hopen : t.isSymbol (Context.openSymbol shape) = true
    · rw [if_pos hopen, if_pos hopen]
      exact tracks_blockText h shape t ts
    · rw [if_neg hopen, if_neg hopen]
      exact tracks_fault h _ _

/-! ## Clauses -/

/-- The walks read the same clauses under the same words. -/
def Tape.ReadsClauses (body : List Token) (walks : Tape.Clauses σ) (clauses : Context.Clauses σ) : Prop :=
  List.Forall₂ (fun w c => w.1 = c.1 ∧ ∀ s ts, Tracks body (w.2 s) ts (c.2.read s ts)) walks clauses

omit h in
theorem Tape.ReadsClauses.nil : Tape.ReadsClauses body ([] : Tape.Clauses σ) [] := List.Forall₂.nil

omit h in
theorem Tape.ReadsClauses.cons {word : String} {read : σ → Walk σ} {clause : Context.Clause σ}
    {walks : Tape.Clauses σ} {clauses : Context.Clauses σ}
    (hread : ∀ s ts, Tracks body (read s) ts (clause.read s ts)) (hc : Tape.ReadsClauses body walks clauses) :
    Tape.ReadsClauses body ((word, read) :: walks) ((word, clause) :: clauses) :=
  List.Forall₂.cons ⟨rfl, hread⟩ hc

omit h in
theorem Tape.ReadsClauses.find? {walks : Tape.Clauses σ} {clauses : Context.Clauses σ}
    (hc : Tape.ReadsClauses body walks clauses) (word : List Char) :
    match clauses.find? word with
    | some c => ∃ read, (walks.find? fun w => w.1.toList == word).map (·.2) = some read ∧
        ∀ s ts, Tracks body (read s) ts (c.read s ts)
    | none => (walks.find? fun w => w.1.toList == word).map (·.2) = none := by
  induction hc with
  | nil => rfl
  | @cons w c walks clauses hwc _ ih =>
    obtain ⟨hname, hread⟩ := hwc
    simp only [Context.Clauses.find?, List.find?_cons, hname] at ih ⊢
    by_cases hword : (c.1.toList == word) = true
    · simp only [hword, Option.map_some]
      exact ⟨w.2, rfl, hread⟩
    · simpa only [hword] using ih

/-- Of the tokens ahead only those before the end of input can pass a test that it fails. -/
theorem any_ahead (test : Token → Bool) (htest : test ctx.finish = false) (ts : List Token) :
    (ts ++ tape.tokens.drop body.length)[0]?.any test = ts.head?.any test := by
  obtain ⟨behind, htokens⟩ := h.tokens
  rw [htokens, List.drop_left]
  cases ts with
  | nil => simpa using htest
  | cons t ts => rfl

theorem beginsArchetype_ahead (w : Token) (ts : List Token) :
    (w.kind == .keyword .archetype && ((ts ++ tape.tokens.drop body.length)[0]?.any Token.isIdentifier &&
      (ts ++ tape.tokens.drop body.length)[1]?.any (·.isSymbol .doubleColon))) = Context.beginsArchetype w ts := by
  have hk := h.kind_finish
  rw [any_ahead h _ (by simp [Token.isIdentifier, hk])]
  rcases ts with _ | ⟨name, _ | ⟨colons, rest⟩⟩
  · rfl
  · obtain ⟨behind, htokens⟩ := h.tokens
    simp [Context.beginsArchetype, htokens, Token.isSymbol, hk]
  · rfl

theorem begun?_ahead {walks : Tape.Clauses σ} {clauses : Context.Clauses σ}
    (hc : Tape.ReadsClauses body walks clauses) (ts : List Token) :
    match Context.nextClause clauses ts, walks.begun? (ctx.current ts) (ts ++ tape.tokens.drop body.length)[1]?
        (ts ++ tape.tokens.drop body.length)[2]? (ts ++ tape.tokens.drop body.length)[3]? with
    | some (c, rest), some read => ts.tail.tail = rest ∧ ∀ s us, Tracks body (read s) us (c.read s us)
    | none, none => True
    | _, _ => False := by
  have hk := h.kind_finish
  obtain ⟨behind, htokens⟩ := h.tokens
  rcases ts with _ | ⟨t, _ | ⟨w, rest⟩⟩
  · simp [Context.nextClause, Tape.Clauses.begun?, Context.current, Token.isSymbol, hk]
  · simp [Context.nextClause, Tape.Clauses.begun?, htokens, Token.word?, hk]
  · have hbegins := beginsArchetype_ahead h w rest
    simp only [Context.nextClause, Tape.Clauses.begun?, Context.current, List.headD_cons, List.cons_append,
      List.getElem?_cons_succ, List.getElem?_cons_zero, Option.any_some, Option.bind_some, hbegins]
    by_cases hsign : (t.isSymbol .at && !Context.beginsArchetype w rest) = true
    · simp only [hsign, if_true]
      cases hword : w.word? with
      | none => trivial
      | some word =>
        have hfind := hc.find? word
        simp only [Option.bind_some]
        cases hf : clauses.find? word with
        | none =>
          rw [hf] at hfind
          simp only [Option.map_none, hfind]
        | some c =>
          rw [hf] at hfind
          obtain ⟨read, hread, htracks⟩ := hfind
          simp only [Option.map_some, hread]
          exact ⟨rfl, htracks⟩
    · simp only [hsign, Bool.false_eq_true, if_false]

theorem tracks_nextClause {walks : Tape.Clauses σ} {clauses : Context.Clauses σ}
    (hc : Tape.ReadsClauses body walks clauses) (ts : List Token) :
    match Context.nextClause clauses (Context.skipTrivia false ts) with
    | some (c, rest) => ∃ read, Tracks body (tape.nextClause walks) ts (.ok (some read) rest) ∧
        ∀ s us, Tracks body (read s) us (c.read s us)
    | none => Tracks body (tape.nextClause walks) ts (.ok none (Context.skipTrivia false ts)) := by
  have htrivia := tracks_trivia h ts
  generalize Context.skipTrivia false ts = us at htrivia ⊢
  have hbegun := begun?_ahead h hc us
  have hstart {read? : Option (σ → Walk σ)} (hread : walks.begun? (ctx.current us)
      (us ++ tape.tokens.drop body.length)[1]? (us ++ tape.tokens.drop body.length)[2]?
      (us ++ tape.tokens.drop body.length)[3]? = read?) : Tracks body (tape.nextClause walks) ts
        (.ok read? (if read?.isSome then us.tail.tail else us)) := by
    refine htrivia.then ((tracks_current h us).then ((tracks_ahead h us 1).then ((tracks_ahead h us 2).then
      ((tracks_ahead h us 3).then ?_))))
    rw [hread]
    cases read? with
    | none => exact tracks_pure none us
    | some read => exact (tracks_advance h us).then ((tracks_advance h us.tail).then (tracks_pure (some read) _))
  split at hbegun
  · next c rest read hnext hread =>
    rw [hnext, ← hbegun.1]
    exact ⟨read, hstart hread, hbegun.2⟩
  · next hnext hread =>
    rw [hnext]
    exact hstart hread
  · exact hbegun.elim

theorem tracks_clauseRounds {walks : Tape.Clauses σ} {clauses : Context.Clauses σ}
    (hc : Tape.ReadsClauses body walks clauses) {n : Nat} (ts : List Token) (hn : ts.length < n) (s : σ) :
    Tracks body (tape.clauseRounds walks n s) ts (Context.readClauses clauses s ts) := by
  induction n generalizing ts s with
  | zero => omega
  | succ n ih =>
    have hle := Context.length_skipTrivia false ts
    have hnext := tracks_nextClause h hc ts
    rw [Tape.clauseRounds, Context.readClauses_eq]
    cases hfound : Context.nextClause clauses (Context.skipTrivia false ts) with
    | none =>
      rw [hfound] at hnext
      exact hnext.then (tracks_pure s _)
    | some found =>
      obtain ⟨c, rest⟩ := found
      have hlt := Context.length_nextClause hfound
      rw [hfound] at hnext
      obtain ⟨read, hread, hvalue⟩ := hnext
      refine hread.then ((hvalue s rest).bind fun next after hafter => ?_)
      have hwithin := c.within s rest
      rw [hafter] at hwithin
      have hlen : after.length ≤ rest.length := hwithin
      exact ih after (by omega) next

theorem tracks_clauses {walks : Tape.Clauses σ} {clauses : Context.Clauses σ}
    (hc : Tape.ReadsClauses body walks clauses) (ts : List Token) (s : σ) :
    Tracks body (tape.clauseRounds walks tape.rounds s) ts (Context.readClauses clauses s ts) :=
  h.tracks fun hrounds _ => tracks_clauseRounds h hc ts hrounds s

omit h in
/-- A clause is its value put in its place. -/
theorem tracks_clause {read : List Token → Outcome α} {within : ∀ ts, (read ts).Within ts}
    (hw : ∀ ts, Tracks body w ts (read ts)) (put : σ → α → σ) (s : σ) (ts : List Token) :
    Tracks body (w >>= fun a => pure (put s a)) ts ((Context.Clause.of read within put).read s ts) := by
  rw [Context.Clause.of_read]
  exact (hw ts).map (put s)

theorem tracks_textClause (what : String) (put : σ → String → σ) (s : σ) (ts : List Token) :
    Tracks body (tape.textClause what put s) ts ((ctx.stringClause what put).read s ts) :=
  tracks_clause (tracks_expectString h what) put s ts

theorem tracks_wordClause (what : String) (put : σ → String → σ) (s : σ) (ts : List Token) :
    Tracks body (tape.wordClause what put s) ts ((ctx.wordClause what put).read s ts) :=
  tracks_clause (tracks_expectStringOrWord h what) put s ts

theorem tracks_wordListClause (put : σ → List String → σ) (s : σ) (ts : List Token) :
    Tracks body (tape.wordListClause put s) ts ((ctx.wordListClause put).read s ts) :=
  tracks_clause (tracks_wordList h) put s ts

theorem tracks_mapClause (clause : String) (put : σ → Object → σ) (s : σ) (ts : List Token) :
    Tracks body (tape.mapClause clause put s) ts ((ctx.mapClause clause put).read s ts) :=
  tracks_clause (tracks_block h .map clause) (fun s inner => put s (decodeMap inner)) s ts

theorem tracks_sequenceClause (clause : String) (put : σ → List Json → σ) (s : σ) (ts : List Token) :
    Tracks body (tape.sequenceClause clause put s) ts ((ctx.sequenceClause clause put).read s ts) :=
  tracks_clause (tracks_block h .sequence clause) (fun s inner => put s (decodeSequence inner)) s ts

/-! ## Declarations -/

theorem reads_spellClauses : Tape.ReadsClauses body tape.spellClauses ctx.spellClauses := by
  refine .cons (tracks_textClause h _ _) ?_
  refine .cons (tracks_wordListClause h _) ?_
  refine .cons (tracks_wordListClause h _) ?_
  refine .cons (tracks_mapClause h _ _) ?_
  refine .cons (tracks_textClause h _ _) ?_
  exact .cons (tracks_textClause h _ _) .nil

theorem tracks_spell (ts : List Token) : Tracks body tape.spell ts (ctx.spell ts) := by
  rw [Context.spell_eq]
  refine (tracks_current h ts).then ?_
  refine (tracks_expectIdentifier h _ ts).bind fun name rest _ => ?_
  refine (tracks_clauses h (reads_spellClauses h) rest _).bind fun draft after _ => ?_
  rw [Context.finishSpell]
  cases draft.implementation? with
  | some implementation => exact tracks_pure _ after
  | none => exact tracks_throw _ after

theorem tracks_spellRounds {n : Nat} (ts : List Token) (hn : ts.length < n) (spells : List Spell) :
    Tracks body (tape.spellRounds n spells) ts
      ((ctx.spellItems ts).bind fun more rest => .ok (spells ++ more) rest) := by
  induction n generalizing ts spells with
  | zero => omega
  | succ n ih =>
    have hk := h.kind_finish
    have hle := Context.length_skipTrivia false ts
    rw [Tape.spellRounds, Context.spellItems_eq]
    refine (tracks_trivia h ts).then ?_
    generalize Context.skipTrivia false ts = us at hle ⊢
    refine (tracks_current h us).then ((tracks_ahead h us 1).then ?_)
    cases us with
    | nil =>
      simp only [Context.current, List.headD_nil, Token.isSymbol, hk, reduceCtorEq, beq_iff_eq, if_false,
        Bool.and_eq_true, false_and]
      exact tracks_fault h _ []
    | cons t rest =>
      rw [List.length_cons] at hle
      have hspell := any_ahead h (·.kind == .keyword .spell) (by simp [hk]) rest
      simp only [Context.current, List.headD_cons, List.cons_append, List.getElem?_cons_succ, hspell,
        Context.spellsFrom]
      by_cases hcomma : t.isSymbol .comma = true
      · simp only [hcomma, if_true]
        exact (tracks_advance h (t :: rest)).then (ih rest (by omega) spells)
      · simp only [hcomma, Bool.false_eq_true, if_false]
        by_cases hclose : t.isSymbol .closeBracket = true
        · simp only [hclose, if_true, Outcome.bind_ok, List.append_nil]
          exact (tracks_advance h (t :: rest)).then (tracks_pure spells rest)
        · simp only [hclose, Bool.false_eq_true, if_false]
          by_cases hat : (t.isSymbol .at && rest.head?.any (·.kind == .keyword .spell)) = true
          · simp only [hat, if_true, Outcome.bind_assoc, Outcome.bind_ok]
            refine (tracks_advance h (t :: rest)).then ((tracks_advance h rest).then ?_)
            refine (tracks_spell h rest.tail).bind fun s after hafter => ?_
            have hwithin := ctx.within_spell rest.tail
            rw [hafter] at hwithin
            have hlen : after.length ≤ rest.tail.length := hwithin
            have hfewer := (List.tail_suffix rest).length_le
            have hrec := ih after (by omega) (spells ++ [s])
            simpa only [List.append_assoc, List.singleton_append] using hrec
          · simp only [hat, Bool.false_eq_true, if_false]
            exact tracks_fault h _ _

theorem tracks_spellList (ts : List Token) : Tracks body tape.spellList ts (ctx.spellList ts) := by
  rw [Context.spellList_eq]
  refine (tracks_expectSymbol h _ _ ts).bind fun _ rest _ => ?_
  refine h.tracks fun hrounds _ => ?_
  have hitems := tracks_spellRounds h rest hrounds []
  cases hw : ctx.spellItems rest <;> simpa [hw] using hitems

theorem reads_characterClauses : Tape.ReadsClauses body tape.characterClauses ctx.characterClauses := by
  refine .cons (tracks_wordClause h _ _) ?_
  refine .cons (tracks_wordListClause h _) ?_
  refine .cons (tracks_wordListClause h _) ?_
  refine .cons (tracks_mapClause h _ _) ?_
  refine .cons (tracks_textClause h _ _) ?_
  refine .cons (tracks_sequenceClause h _ _) ?_
  exact .cons (tracks_clause (tracks_spellList h) _) .nil

theorem tracks_character (ts : List Token) : Tracks body tape.character ts (ctx.character ts) := by
  rw [Context.character, Context.declared_eq]
  refine (tracks_current h ts).then ?_
  refine (tracks_expectIdentifier h _ ts).bind fun name rest _ => ?_
  exact tracks_clauses h (reads_characterClauses h) rest _

theorem reads_worldClauses : Tape.ReadsClauses body tape.worldClauses ctx.worldClauses := by
  refine .cons (tracks_mapClause h _ _) ?_
  refine .cons (tracks_mapClause h _ _) ?_
  refine .cons (tracks_sequenceClause h _ _) ?_
  exact .cons (tracks_sequenceClause h _ _) .nil

theorem tracks_world (ts : List Token) : Tracks body tape.world ts (ctx.world ts) := by
  rw [Context.world, Context.declared_eq]
  refine (tracks_current h ts).then ?_
  refine (tracks_expectIdentifier h _ ts).bind fun name rest _ => ?_
  exact tracks_clauses h (reads_worldClauses h) rest _

theorem tracks_archetype (ts : List Token) : Tracks body tape.archetype ts (ctx.archetype ts) := by
  rw [Context.archetype_eq]
  refine (tracks_current h ts).then ?_
  refine (tracks_expectIdentifier h _ ts).bind fun name rest _ => ?_
  refine (tracks_expectSymbol h _ _ rest).bind fun _ after _ => ?_
  exact (tracks_expectString h _ after).map _

/-! ## Top level -/

theorem tracks_skipValue (ts : List Token) : Tracks body tape.skipValue ts (ctx.skipValue ts) := by
  refine (tracks_current h ts).then ?_
  cases ts with
  | nil =>
    simp only [Context.current, List.headD_nil, Token.isSymbol, Token.isNewline, Token.isEnd, h.kind_finish,
      reduceCtorEq, beq_iff_eq, if_false, beq_self_eq_true, Bool.or_true, if_true]
    exact tracks_pure none []
  | cons t rest =>
    refine h.tracks fun _ hinner => ?_
    have ht : t.isEnd = false := hinner t List.mem_cons_self
    rw [Context.skipValue_cons, Context.dropValue]
    simp only [Context.current, List.headD_cons, ht, Bool.or_false]
    by_cases hbrace : t.isSymbol .openBrace = true
    · simp only [hbrace, if_true]
      exact (tracks_blockText h .map t rest).map fun _ => none
    · simp only [hbrace, Bool.false_eq_true, if_false]
      by_cases hbracket : t.isSymbol .openBracket = true
      · simp only [hbracket, if_true]
        exact (tracks_blockText h .sequence t rest).map fun _ => none
      · simp only [hbracket, Bool.false_eq_true, if_false]
        by_cases hstop : (t.isSymbol .at || t.isNewline) = true
        · simp only [hstop, if_true]
          exact tracks_pure none _
        · simp only [hstop, Bool.false_eq_true, if_false]
          exact (tracks_advance h (t :: rest)).then (tracks_pure none rest)

theorem tracks_leftOver (t : Token) (rest : List Token) :
    Tracks body tape.leftOver (t :: rest) (ctx.leftOver t rest) := by
  refine (tracks_current h (t :: rest)).then ?_
  rw [Context.leftOver, Context.current, List.headD_cons]
  cases t.word? with
  | none => exact tracks_fault h _ _
  | some word =>
    by_cases hclause : Context.isClauseWord word = true
    · simp only [hclause, if_true]
      exact (tracks_advance h (t :: rest)).then (tracks_skipValue h rest)
    · simp only [hclause, Bool.false_eq_true, if_false]
      exact tracks_fault h _ _

theorem tracks_behind {read : List Token → Outcome α} (hw : ∀ ts, Tracks body w ts (read ts))
    (make : α → Declaration) (t : Token) (rest : List Token) :
    Tracks body (tape.behind w make) (t :: rest) (Context.Outcome.declare (read rest) make) := by
  rw [Context.declare_eq]
  exact (tracks_advance h (t :: rest)).then ((hw rest).map _)

theorem tracks_declaration (sign : Token) (ts : List Token) :
    Tracks body tape.declaration (sign :: ts) (ctx.declaration ts) := by
  have hk := h.kind_finish
  refine (tracks_advance h (sign :: ts)).then ((tracks_current h ts).then ((tracks_ahead h ts 1).then ?_))
  cases ts with
  | nil =>
    have hword : ctx.finish.word? = none := by simp [Token.word?, hk]
    simp only [Context.current, List.headD_nil, hk]
    refine (tracks_current h []).then ?_
    simp only [Context.current, List.headD_nil, hword]
    exact tracks_fault h _ []
  | cons t rest =>
    have hname := any_ahead h Token.isIdentifier (by simp [Token.isIdentifier, hk]) rest
    rw [Context.declaration_cons]
    simp only [Context.current, List.headD_cons, List.cons_append, List.getElem?_cons_succ, hname]
    cases hkind : t.kind with
    | keyword k =>
      cases k with
      | spell => exact tracks_behind h (tracks_spell h) _ t rest
      | character => exact tracks_behind h (tracks_character h) _ t rest
      | world => exact tracks_behind h (tracks_world h) _ t rest
      | archetype =>
        by_cases hname : rest.head?.any Token.isIdentifier = true
        · simp only [hname, if_true]
          exact tracks_behind h (tracks_archetype h) _ t rest
        · simp only [hname, Bool.false_eq_true, if_false]
          exact tracks_leftOver h t rest
      | primordial | modifier | direction | pattern => exact tracks_fault h _ _
      | _ => exact tracks_leftOver h t rest
    | _ => exact tracks_leftOver h t rest

/-- With the token `t` just passed, the rounds go on to where recovery goes on from it. -/
theorem resumeRounds_at {n i : Nat} {t : Token} (ts : List Token) (hn : ts.length < n)
    (hts : body.drop i = t :: ts) : ∃ j ≤ body.length, tape.resumeRounds n (i + 1) = some (.ok (), j) ∧
      body.drop j = if t.isNewline then ts else Context.resume ts := by
  induction n generalizing i t ts with
  | zero => omega
  | succ n ih =>
    obtain ⟨hlt, -, hdrop⟩ := drop_succ hts
    have hcurrent := current_at h hlt
    have hprevious := previous_at h (Nat.le_of_lt hlt)
    rw [hdrop] at hcurrent
    rw [hts, Context.current, List.headD_cons] at hprevious
    rw [Tape.resumeRounds, Walk.then_at hcurrent]
    cases ts with
    | nil =>
      rw [Context.current, List.headD_nil, if_pos h.finish]
      exact ⟨i + 1, hlt, rfl, by simpa [Context.resume] using hdrop⟩
    | cons u us =>
      obtain ⟨-, hmem, -⟩ := drop_succ hdrop
      have hu : ¬ u.isEnd = true := by simp [h.inner u hmem]
      rw [Context.current, List.headD_cons, if_neg hu, Walk.then_at hprevious]
      by_cases hnewline : t.isNewline = true
      · rw [if_pos (by simp [hnewline])]
        exact ⟨i + 1, hlt, rfl, by simpa [hnewline] using hdrop⟩
      · by_cases hat : u.isSymbol .at = true
        · rw [if_pos (by simp [hat])]
          exact ⟨i + 1, hlt, rfl, by simpa [hnewline, Context.resume, hat] using hdrop⟩
        · rw [if_neg (by simp [hnewline, hat]), Walk.then_at (advance_at h hdrop)]
          obtain ⟨j, hj, hrun, hstop⟩ := ih us (Nat.lt_of_succ_lt_succ hn) hdrop
          refine ⟨j, hj, hrun, ?_⟩
          simpa [hnewline, Context.resume, hat] using hstop

theorem tracks_resume (ts : List Token) : Tracks body tape.resume ts (.ok () (Context.resume ts)) := by
  refine h.tracks fun hrounds _ => (tracks_current h ts).then ?_
  cases ts with
  | nil =>
    have hat : ¬ ctx.finish.isSymbol .at = true := by simp [Token.isSymbol, h.kind_finish]
    rw [Context.current, List.headD_nil, if_neg hat]
    refine (tracks_advance h []).then ?_
    obtain ⟨n, hn⟩ : ∃ n, tape.rounds = n + 1 := ⟨tape.rounds - 1, by omega⟩
    rw [hn, Tape.resumeRounds]
    refine (tracks_current h []).then ?_
    rw [Context.current, List.headD_nil, if_pos h.finish]
    exact tracks_pure () []
  | cons t ts =>
    rw [Context.current, List.headD_cons, Context.resume]
    by_cases hat : t.isSymbol .at = true
    · rw [if_pos hat, if_pos hat]
      exact tracks_pure () _
    · rw [if_neg hat, if_neg hat]
      intro i hi hts
      rw [Walk.then_at (advance_at h hts)]
      exact resumeRounds_at h ts (Nat.lt_of_succ_lt hrounds) hts

omit h in
/-- What a walk makes is kept, a fault too. -/
theorem Tracks.attempt (hw : Tracks body w ts o) : Tracks body w.attempt ts (.ok o.result o.rest) := by
  intro i hi hts
  obtain ⟨j, hj, hrun, hrest⟩ := hw i hi hts
  refine ⟨j, hj, ?_, hrest⟩
  change (w i).bind (fun r => some (Except.ok r.1, r.2)) = _
  rw [hrun]
  rfl

omit h in
theorem ofTokens_comment {t : Token} (ts : List Token) (ht : t.isSymbol .hash = true) :
    Program.ofTokens ctx false (t :: ts) = Program.ofTokens ctx false (ts.dropWhile fun t => !t.isNewline) := by
  have hnewline : ¬ t.isNewline = true := by simp [Token.not_newline_of_symbol ht]
  rw [Program.ofTokens_cons, if_neg hnewline, if_pos (by simp [ht]), Program.ofTokens_skipTrivia,
    Context.skipTrivia_true, ← Program.ofTokens_skipTrivia]

theorem tracks_programRounds {n : Nat} (ts : List Token) (hn : ts.length < n) (p : Program) :
    Tracks body (tape.programRounds n p) ts (.ok (p.append (Program.ofTokens ctx false ts)) []) := by
  induction n generalizing ts p with
  | zero => omega
  | succ n ih =>
    rw [Tape.programRounds]
    refine (tracks_current h ts).then ?_
    cases ts with
    | nil =>
      rw [Context.current, List.headD_nil, if_pos h.finish, Program.ofTokens_nil, Program.append, List.append_nil,
        List.append_nil]
      exact tracks_pure p []
    | cons t rest =>
      rw [List.length_cons] at hn
      refine h.tracks fun _ hinner => ?_
      have ht : ¬ t.isEnd = true := by simp [hinner t List.mem_cons_self]
      have hcomment := tracks_skipComment h (t :: rest)
      rw [Context.dropComment, Context.current, List.headD_cons] at hcomment
      rw [Context.current, List.headD_cons, if_neg ht]
      by_cases hhash : t.isSymbol .hash = true
      · rw [if_pos hhash] at hcomment
        refine hcomment.then ?_
        have hline : (t :: rest).dropWhile (fun t => !t.isNewline) = rest.dropWhile fun t => !t.isNewline := by
          simp [Token.not_newline_of_symbol hhash]
        have hle := (List.dropWhile_sublist (l := rest) fun t => !t.isNewline).length_le
        rw [hline, ofTokens_comment rest hhash]
        exact ih _ (by omega) p
      · rw [if_neg hhash] at hcomment
        refine hcomment.then ?_
        rw [if_neg Bool.false_ne_true, Program.ofTokens_cons]
        by_cases hat : t.isSymbol .at = true
        · have hnewline : ¬ t.isNewline = true := by simp [Token.not_newline_of_symbol hat]
          have hwithin := ctx.within_declaration rest
          rw [if_pos hat, if_neg hnewline, if_neg (by simpa using hhash), if_pos hat]
          refine (tracks_declaration h t rest).attempt.then ?_
          cases hd : ctx.declaration rest with
          | ok d? after =>
            rw [hd] at hwithin
            have hlen : after.length ≤ rest.length := hwithin
            have hrec := ih after (by omega) ⟨p.declarations ++ d?.toList, p.errors⟩
            simpa [Program.after, Program.declare, Program.append, Outcome.result, Outcome.rest] using hrec
          | fail e after =>
            rw [hd] at hwithin
            have hlen : after.length ≤ rest.length := hwithin
            have hless := Context.length_resume after
            have hrec := ih (Context.resume after) (by omega) ⟨p.declarations, p.errors ++ [e]⟩
            refine (tracks_resume h after).then ?_
            simpa [Program.after, Program.append] using hrec
        · simp only [hat, hhash, Bool.or_self, Bool.false_eq_true, if_false, ite_self]
          exact (tracks_advance h (t :: rest)).then (ih rest (by omega) p)

end

/-! ## All tokens -/

theorem completed_split (source : List Char) (ts : List Token) :
    ∃ behind, completed source ts = ts.takeWhile (fun t => !t.isEnd) ++
      (ts.find? Token.isEnd).getD (endToken source ts) :: behind := by
  rw [completed]
  cases hfind : ts.find? Token.isEnd with
  | none =>
    have hnone : ∀ t ∈ ts, (!t.isEnd) = true := by simpa using hfind
    have hlast : ¬ ts.getLast?.any Token.isEnd = true := by
      rw [Option.any_eq_true]
      rintro ⟨t, hlast, ht⟩
      have := hnone t (List.mem_of_getLast? hlast)
      simp [ht] at this
    rw [if_neg hlast, List.takeWhile_eq_self_iff.2 hnone]
    exact ⟨[], rfl⟩
  | some e =>
    obtain ⟨he, front, behind, rfl, hfront⟩ := List.find?_eq_some_iff_append.1 hfind
    rw [List.takeWhile_append_of_pos hfront, List.takeWhile_cons_of_neg (by simp [he]), List.append_nil]
    split
    · exact ⟨behind, rfl⟩
    · exact ⟨behind ++ [endToken source (front ++ e :: behind)], by simp⟩

/-- The tokens up to the first end of input are those that are read. -/
theorem Tape.holds_completed (source : List Char) (ts : List Token) :
    Tape.Holds ⟨source, completed source ts⟩ ⟨source, (ts.find? Token.isEnd).getD (endToken source ts)⟩
      (ts.takeWhile fun t => !t.isEnd) where
  source := rfl
  tokens := completed_split source ts
  inner t ht := by simpa using List.all_eq_true.1 List.all_takeWhile t ht
  finish := by
    cases hfind : ts.find? Token.isEnd with
    | none => rfl
    | some t => exact List.find?_some hfind

/-- **No index is outside the tokens, and the rounds suffice**: the parser by index makes of a source and any
tokens what `parse` makes of them. -/
theorem parse?_eq (source : List Char) (ts : List Token) : parse? source ts = some (parse source ts) := by
  have hholds := Tape.holds_completed source ts
  obtain ⟨behind, hsplit⟩ := completed_split source ts
  have hrounds : (ts.takeWhile fun t => !t.isEnd).length < (completed source ts).length := by
    rw [hsplit, List.length_append, List.length_cons]
    omega
  obtain ⟨j, -, hrun, -⟩ := tracks_programRounds hholds _ hrounds ⟨[], []⟩ 0 (Nat.zero_le _) rfl
  rw [parse?, Tape.rounds, hrun]
  rfl

end Grimoire.Source
