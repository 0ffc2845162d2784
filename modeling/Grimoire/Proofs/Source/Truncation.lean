import Grimoire.Proofs.Source.Readers

/-!
# Tokens cut off

A reader that is given only the front of the tokens does what it does with all of them, or it uses the
front up: one token is left then at most, and no declaration begins in one token (`Outcome.Cut`). So the
front of any tokens declares what all of them declare first, and at most one thing more (`parse_take`).
-/
namespace Grimoire.Source

open Context

/-- `o` comes from the tokens before a cut, `o'` from these tokens and `us` behind them: the same value and the same
tokens left, a fault before the same tokens, or at most one token left before the cut. -/
inductive Outcome.Cut {α : Type} (us : List Token) : Outcome α → Outcome α → Prop
  | ok (a : α) (rest : List Token) : Cut us (.ok a rest) (.ok a (rest ++ us))
  | fail (e e' : ParseError) (rest : List Token) : Cut us (.fail e rest) (.fail e' (rest ++ us))
  | spent {o o' : Outcome α} (h : o.rest.length ≤ 1) : Cut us o o'

/-- The reader `r` before the cut and the reader `r'` of all tokens. -/
def Cuts {α : Type} (us : List Token) (r r' : List Token → Outcome α) : Prop := ∀ ts, (r ts).Cut us (r' (ts ++ us))

variable {α β σ : Type} {us ts rest : List Token} {t : Token} {near far : Context}

/-- One reader after another. -/
theorem Outcome.Cut.bind {o o' : Outcome α} {k k' : α → List Token → Outcome β} (h : o.Cut us o')
    (within : ∀ a rest, (k a rest).Within rest)
    (hk : ∀ a rest, o = .ok a rest → (k a rest).Cut us (k' a (rest ++ us))) : (o.bind k).Cut us (o'.bind k') := by
  cases h with
  | ok a rest => exact hk a rest rfl
  | fail e e' rest => exact .fail e e' rest
  | spent hrest =>
    have hwithin : (o.bind k).Within o.rest := Outcome.Within.bind (Nat.le_refl _) within
    exact .spent (Nat.le_trans hwithin hrest)

theorem cut_fault (f : Fault) : (near.fault f (t :: ts) : Outcome α).Cut us (far.fault f (t :: (ts ++ us))) :=
  .fail _ _ (t :: ts)

/-! ## Single tokens -/

theorem skipTrivia_append {b : Bool} (us : List Token) (h : skipTrivia b ts = t :: rest) :
    skipTrivia b (ts ++ us) = t :: (rest ++ us) := by
  induction ts generalizing b with
  | nil => cases h
  | cons u ts ih =>
    rw [skipTrivia] at h
    rw [List.cons_append, skipTrivia]
    split at h
    · next hnewline => rw [if_pos hnewline, ih h]
    · next hnewline =>
      rw [if_neg hnewline]
      split at h
      · next htrivia => rw [if_pos htrivia, ih h]
      · next htrivia =>
        obtain ⟨rfl, rfl⟩ := List.cons.inj h
        rw [if_neg htrivia]

theorem cuts_expectToken (test : Token → Option α) (what : String) :
    Cuts us (near.expectToken test what) (far.expectToken test what) := by
  intro ts
  cases ts with
  | nil => exact .spent (Nat.zero_le 1)
  | cons t ts =>
    simp only [List.cons_append, expectToken]
    cases test t with
    | some a => exact .ok a ts
    | none => exact cut_fault _

/-! ## Lists of words -/

theorem within_wordsAfter (ctx : Context) (item : String) (after : List Token) :
    (ctx.wordsAfter item after).Within after := by
  have hskip := length_skipTrivia false after
  unfold wordsAfter
  cases hafter : skipTrivia false after with
  | nil => exact Nat.zero_le _
  | cons u tail =>
    rw [hafter] at hskip
    dsimp only
    split
    · have hitems := (ctx.within_wordItems tail).bind (k := fun items rest => .ok (item :: items) rest)
        fun _ _ => Nat.le_refl _
      exact Nat.le_trans (Nat.le_succ_of_le hitems) hskip
    · split
      · exact Nat.le_trans (Nat.le_succ _) hskip
      · exact hskip

theorem cuts_wordItems : Cuts us near.wordItems far.wordItems := by
  intro ts
  induction hn : ts.length using Nat.strongRecOn generalizing ts with
  | ind n ih =>
    subst hn
    have hlen := length_skipTrivia false ts
    rw [near.wordItems_eq]
    cases hts : skipTrivia false ts with
    | nil => exact .spent (Nat.zero_le 1)
    | cons t rest =>
      rw [hts] at hlen
      rw [far.wordItems_eq, skipTrivia_append us hts]
      dsimp only
      by_cases hclose : t.isSymbol .closeBracket = true
      · rw [if_pos hclose, if_pos hclose]
        exact .ok [] rest
      · rw [if_neg hclose, if_neg hclose]
        refine (cuts_expectToken _ _ (t :: rest)).bind (within_wordsAfter near) ?_
        intro item after hitem
        have hlen' := near.length_lt_of_expectToken hitem
        have hlen'' := length_skipTrivia false after
        unfold wordsAfter
        cases hafter : skipTrivia false after with
        | nil => exact .spent (Nat.zero_le 1)
        | cons u tail =>
          rw [hafter] at hlen''
          rw [skipTrivia_append us hafter]
          dsimp only
          by_cases hcomma : u.isSymbol .comma = true
          · rw [if_pos hcomma, if_pos hcomma]
            have htail : tail.length < ts.length := by
              simp only [List.length_cons] at hlen hlen' hlen''
              omega
            exact (ih _ htail tail rfl).bind (fun _ _ => Nat.le_refl _) fun items rest _ => .ok (item :: items) rest
          · rw [if_neg hcomma, if_neg hcomma]
            by_cases hlast : u.isSymbol .closeBracket = true
            · rw [if_pos hlast, if_pos hlast]
              exact .ok [item] tail
            · rw [if_neg hlast, if_neg hlast]
              exact cut_fault _

theorem cuts_wordList : Cuts us near.wordList far.wordList := by
  intro ts
  rw [wordList_eq, wordList_eq]
  exact (cuts_expectToken _ _ ts).bind (fun _ => near.within_wordItems) fun _ rest _ => cuts_wordItems rest

/-! ## Blocks -/

theorem blockEnd_append {o c : Symbol} {n : Nat} (us : List Token) (h : blockEnd o c n ts = some (t, rest)) :
    blockEnd o c n (ts ++ us) = some (t, rest ++ us) := by
  induction ts generalizing n with
  | nil => cases h
  | cons u ts ih =>
    simp only [List.cons_append, blockEnd] at h ⊢
    by_cases ho : u.isSymbol o = true
    · rw [if_pos ho] at h ⊢
      exact ih h
    · rw [if_neg ho] at h ⊢
      by_cases hc : u.isSymbol c = true
      · rw [if_pos hc] at h ⊢
        cases n with
        | zero =>
          obtain ⟨rfl, rfl⟩ := Prod.mk.inj (Option.some.inj h)
          rfl
        | succ n => exact ih h
      · rw [if_neg hc] at h ⊢
        exact ih h

section
variable (hsource : far.source = near.source)
include hsource

/-- A block that does not end before the cut uses up all tokens. -/
theorem cut_blockText (shape : BlockShape) (t : Token) (ts : List Token) :
    (near.blockText shape t ts).Cut us (far.blockText shape t (ts ++ us)) := by
  unfold blockText
  cases hend : blockEnd (openSymbol shape) (closeSymbol shape) 0 ts with
  | none => exact .spent (Nat.zero_le 1)
  | some found =>
    obtain ⟨last, rest⟩ := found
    rw [blockEnd_append us hend, hsource]
    exact .ok _ rest

theorem cuts_block (shape : BlockShape) (clause : String) :
    Cuts us (near.block shape clause) (far.block shape clause) := by
  intro ts
  cases ts with
  | nil => exact .spent (Nat.zero_le 1)
  | cons t ts =>
    simp only [List.cons_append, block]
    split
    · exact cut_blockText hsource shape t ts
    · exact cut_fault _

end

/-! ## Clauses -/

/-- The same words in the same order, with readers that agree up to the cut. -/
def Clauses.Cut (us : List Token) (allowed allowed' : Clauses σ) : Prop :=
  List.Forall₂ (fun c c' => c.1 = c'.1 ∧ ∀ s, Cuts us (c.2.read s) (c'.2.read s)) allowed allowed'

theorem Clauses.Cut.cons {word : String} {c c' : Clause σ} {allowed allowed' : Clauses σ}
    (h : ∀ s, Cuts us (c.read s) (c'.read s)) (hs : Clauses.Cut us allowed allowed') :
    Clauses.Cut us ((word, c) :: allowed) ((word, c') :: allowed') := List.Forall₂.cons ⟨rfl, h⟩ hs

theorem Clauses.Cut.nil : Clauses.Cut us ([] : Clauses σ) [] := List.Forall₂.nil

theorem cuts_clause {r r' : List Token → Outcome α} (within : ∀ ts, (r ts).Within ts)
    (within' : ∀ ts, (r' ts).Within ts) (put : σ → α → σ) (h : Cuts us r r') (s : σ) :
    Cuts us ((Clause.of r within put).read s) ((Clause.of r' within' put).read s) := by
  intro ts
  rw [Clause.of_read, Clause.of_read]
  exact (h ts).bind (fun _ _ => Nat.le_refl _) fun a rest _ => .ok (put s a) rest

theorem cuts_stringClause (what : String) (put : σ → String → σ) (s : σ) :
    Cuts us ((near.stringClause what put).read s) ((far.stringClause what put).read s) :=
  cuts_clause (near.within_expectToken _ what) (far.within_expectToken _ what) put (cuts_expectToken _ what) s

theorem cuts_wordClause (what : String) (put : σ → String → σ) (s : σ) :
    Cuts us ((near.wordClause what put).read s) ((far.wordClause what put).read s) :=
  cuts_clause (near.within_expectToken _ what) (far.within_expectToken _ what) put (cuts_expectToken _ what) s

theorem cuts_wordListClause (put : σ → List String → σ) (s : σ) :
    Cuts us ((near.wordListClause put).read s) ((far.wordListClause put).read s) :=
  cuts_clause near.within_wordList far.within_wordList put cuts_wordList s

theorem cuts_mapClause (hsource : far.source = near.source) (clause : String) (put : σ → Object → σ) (s : σ) :
    Cuts us ((near.mapClause clause put).read s) ((far.mapClause clause put).read s) :=
  cuts_clause (near.within_block .map clause) (far.within_block .map clause) _ (cuts_block hsource .map clause) s

theorem cuts_sequenceClause (hsource : far.source = near.source) (clause : String) (put : σ → List Json → σ) (s : σ) :
    Cuts us ((near.sequenceClause clause put).read s) ((far.sequenceClause clause put).read s) :=
  cuts_clause (near.within_block .sequence clause) (far.within_block .sequence clause) _
    (cuts_block hsource .sequence clause) s

/-- The next clause is the same with all tokens, or at most one token is left for it. -/
theorem nextClause_append {allowed allowed' : Clauses σ} (hcut : Clauses.Cut us allowed allowed') (ts : List Token) :
    match nextClause allowed ts with
    | none => ts.length ≤ 1 ∨ nextClause allowed' (ts ++ us) = none
    | some (clause, rest) => rest.length ≤ 1 ∨ ∃ clause',
        nextClause allowed' (ts ++ us) = some (clause', rest ++ us) ∧ ∀ s, Cuts us (clause.read s) (clause'.read s) := by
  match ts with
  | [] => exact .inl (Nat.zero_le 1)
  | [t] => exact .inl (Nat.le_refl 1)
  | t :: word :: rest =>
    -- With at most one token behind the word, the cut may hide that an archetype begins.
    have harchetype : (rest.length ≤ 1 ∧ beginsArchetype word rest = false) ∨
        beginsArchetype word (rest ++ us) = beginsArchetype word rest := by
      match rest with
      | [] => exact .inl ⟨Nat.zero_le 1, Bool.and_false _⟩
      | [name] => exact .inl ⟨Nat.le_refl 1, Bool.and_false _⟩
      | name :: colons :: rest => exact .inr rfl
    simp only [List.cons_append, nextClause]
    cases hword : word.word? with
    | none => simp
    | some w =>
      have hfind := Clauses.find?_of_forall₂ (R := fun c c' => ∀ s, Cuts us (c.read s) (c'.read s)) hcut w
      simp only [Option.bind_some]
      cases hnear : allowed.find? w with
      | none =>
        rw [hnear] at hfind
        simp only [hfind, Option.map_none, ite_self]
        exact .inr trivial
      | some clause =>
        rw [hnear] at hfind
        obtain ⟨clause', hfar, hcuts⟩ := hfind
        simp only [hfar, Option.map_some]
        by_cases hat : t.isSymbol .at = true
        · rcases harchetype with ⟨hshort, hplain⟩ | hsame
          · simp only [hat, hplain, Bool.not_false, Bool.and_self, if_true]
            exact .inl hshort
          · rw [hat, hsame]
            cases beginsArchetype word rest with
            | true => exact .inr rfl
            | false => exact .inr ⟨clause', rfl, hcuts⟩
        · simp [hat]

theorem cuts_readClauses {allowed allowed' : Clauses σ} (hcut : Clauses.Cut us allowed allowed') (s : σ) :
    Cuts us (readClauses allowed s) (readClauses allowed' s) := by
  intro ts
  induction hn : ts.length using Nat.strongRecOn generalizing ts s with
  | ind n ih =>
    subst hn
    have hlen := length_skipTrivia false ts
    rw [readClauses_eq]
    cases hts : skipTrivia false ts with
    | nil => exact .spent (Nat.zero_le 1)
    | cons t rest =>
      rw [hts] at hlen
      rw [readClauses_eq, skipTrivia_append us hts]
      have hnext := nextClause_append hcut (t :: rest)
      cases hclause : nextClause allowed (t :: rest) with
      | none =>
        simp only [hclause] at hnext
        rcases hnext with hshort | hnone
        · exact .spent hshort
        · rw [List.cons_append] at hnone
          rw [hnone]
          exact .ok s (t :: rest)
      | some found =>
        obtain ⟨clause, after⟩ := found
        simp only [hclause] at hnext
        have hlen' := length_nextClause hclause
        rcases hnext with hshort | ⟨clause', hfar, hcuts⟩
        · have hwithin := (clause.within s after).bind (within_readClauses allowed)
          exact .spent (Nat.le_trans hwithin hshort)
        · rw [List.cons_append] at hfar
          rw [hfar]
          refine (hcuts s after).bind (within_readClauses allowed) ?_
          intro s' last hread
          have hwithin := clause.within s after
          rw [hread] at hwithin
          have hlt : last.length < ts.length := by
            simp only [Outcome.Within, Outcome.rest] at hwithin
            omega
          exact ih _ hlt s' last rfl

/-! ## Declarations -/

theorem current_append (h : ts ≠ []) : far.current (ts ++ us) = near.current ts := by
  obtain ⟨t, ts, rfl⟩ := List.exists_cons_of_ne_nil h
  rfl

/-- A declaration by its name and by what the body makes of the tokens behind it. -/
theorem cuts_declared {body body' : String → Token → List Token → Outcome α} (what : String)
    (within : ∀ name t ts, (body name t ts).Within ts) (h : ∀ name t, Cuts us (body name t) (body' name t)) :
    Cuts us (near.declared what body) (far.declared what body') := by
  intro ts
  rw [declared_eq, declared_eq]
  refine (cuts_expectToken _ _ ts).bind (fun name rest => within name _ rest) ?_
  intro name rest hname
  have hne : ts ≠ [] := by
    rintro rfl
    cases hname
  rw [current_append hne]
  exact h name _ rest

section
variable (hsource : far.source = near.source)
include hsource

theorem cut_spellClauses : Clauses.Cut us near.spellClauses far.spellClauses := by
  refine .cons (cuts_stringClause _ _) ?_
  refine .cons (cuts_wordListClause _) ?_
  refine .cons (cuts_wordListClause _) ?_
  refine .cons (cuts_mapClause hsource "@parameters" _) ?_
  refine .cons (cuts_stringClause _ _) ?_
  exact .cons (cuts_stringClause _ _) .nil

theorem cuts_spell : Cuts us near.spell far.spell := by
  intro ts
  have finish (name : String) (t : Token) (draft : SpellDraft) (rest : List Token) :
      (finishSpell name t draft rest).Within rest := by
    unfold finishSpell
    split <;> exact Nat.le_refl _
  rw [spell_eq, spell_eq]
  refine (cuts_expectToken _ _ ts).bind (fun name rest => (within_readClauses _ _ rest).bind (finish name _)) ?_
  intro name rest hname
  have hne : ts ≠ [] := by
    rintro rfl
    cases hname
  rw [current_append hne]
  refine (cuts_readClauses (cut_spellClauses hsource) _ rest).bind (finish name _) ?_
  intro draft after _
  unfold finishSpell
  cases draft.implementation? with
  | some implementation => exact .ok _ after
  | none => exact .fail _ _ after

theorem cuts_spellItems : Cuts us near.spellItems far.spellItems := by
  intro ts
  induction hn : ts.length using Nat.strongRecOn generalizing ts with
  | ind n ih =>
    subst hn
    have hlen := length_skipTrivia false ts
    rw [near.spellItems_eq]
    cases hts : skipTrivia false ts with
    | nil => exact .spent (Nat.zero_le 1)
    | cons t rest =>
      rw [hts] at hlen
      rw [far.spellItems_eq, skipTrivia_append us hts]
      simp only [spellsFrom]
      by_cases hcomma : t.isSymbol .comma = true
      · simp only [hcomma, if_true]
        exact ih rest.length hlen rest rfl
      · by_cases hclose : t.isSymbol .closeBracket = true
        · simp only [hcomma, hclose, Bool.false_eq_true, if_false, if_true]
          exact .ok [] rest
        · simp only [hcomma, hclose, Bool.false_eq_true, if_false]
          cases rest with
          | nil =>
            -- Only this token is left; the word behind a sign may be cut off.
            simp only [List.head?_nil, Option.any_none, Bool.and_false, Bool.false_eq_true, if_false]
            exact .spent (Nat.le_refl 1)
          | cons word rest =>
            simp only [List.cons_append, List.head?_cons, Option.any_some, List.tail_cons]
            by_cases hspell : (t.isSymbol .at && word.kind == .keyword .spell) = true
            · simp only [hspell, if_true]
              have more (s : Spell) (after : List Token) := (near.within_spellItems after).bind
                (k := fun more last => .ok (s :: more) last) fun _ _ => Nat.le_refl _
              refine (cuts_spell hsource rest).bind more ?_
              intro s after hs
              have hwithin := near.within_spell rest
              rw [hs] at hwithin
              have hlt : after.length < ts.length := by
                simp only [Outcome.Within, Outcome.rest, List.length_cons] at hwithin hlen
                omega
              exact (ih _ hlt after rfl).bind (fun _ _ => Nat.le_refl _) fun more last _ => .ok (s :: more) last
            · simp only [hspell, Bool.false_eq_true, if_false]
              exact cut_fault _

theorem cuts_spellList : Cuts us near.spellList far.spellList := by
  intro ts
  rw [spellList_eq, spellList_eq]
  exact (cuts_expectToken _ _ ts).bind (fun _ => near.within_spellItems) fun _ rest _ => cuts_spellItems hsource rest

theorem cut_characterClauses : Clauses.Cut us near.characterClauses far.characterClauses := by
  refine .cons (cuts_wordClause _ _) ?_
  refine .cons (cuts_wordListClause _) ?_
  refine .cons (cuts_wordListClause _) ?_
  refine .cons (cuts_mapClause hsource "@data" _) ?_
  refine .cons (cuts_stringClause _ _) ?_
  refine .cons (cuts_sequenceClause hsource "@relationships" _) ?_
  exact .cons (cuts_clause near.within_spellList far.within_spellList _ (cuts_spellList hsource)) .nil

theorem cuts_character : Cuts us near.character far.character :=
  cuts_declared _ (fun _ _ _ => within_readClauses ..) fun _ _ => cuts_readClauses (cut_characterClauses hsource) _

theorem cut_worldClauses : Clauses.Cut us near.worldClauses far.worldClauses := by
  refine .cons (cuts_mapClause hsource "@cosmology" _) ?_
  refine .cons (cuts_mapClause hsource "@geography" _) ?_
  refine .cons (cuts_sequenceClause hsource "@cultures" _) ?_
  exact .cons (cuts_sequenceClause hsource "@history" _) .nil

theorem cuts_world : Cuts us near.world far.world :=
  cuts_declared _ (fun _ _ _ => within_readClauses ..) fun _ _ => cuts_readClauses (cut_worldClauses hsource) _

omit hsource in
theorem cuts_archetype : Cuts us near.archetype far.archetype := by
  intro ts
  have description (name : String) (line : Nat) (rest : List Token) :=
    (near.within_expectToken _ "archetype description after '::'" rest : (near.expectString _ rest).Within rest).bind
      (k := fun description last => .ok ({ name, description, line } : Archetype) last) fun _ _ => Nat.le_refl _
  rw [archetype_eq, archetype_eq]
  refine (cuts_expectToken _ _ ts).bind (fun name rest =>
    (near.within_expectToken _ _ rest).bind fun _ => description name _) ?_
  intro name rest hname
  have hne : ts ≠ [] := by
    rintro rfl
    cases hname
  rw [current_append hne]
  refine (cuts_expectToken _ _ rest).bind (fun _ => description name _) ?_
  intro _ after _
  exact (cuts_expectToken _ _ after).bind (fun _ _ => Nat.le_refl _) fun text last _ => .ok _ last

/-! ## Top level -/

theorem cuts_skipValue : Cuts us near.skipValue far.skipValue := by
  intro ts
  cases ts with
  | nil => exact .spent (Nat.zero_le 1)
  | cons t ts =>
    have hblock (shape : BlockShape) : ((near.blockText shape t ts).bind fun _ rest => .ok none rest).Cut us
        ((far.blockText shape t (ts ++ us)).bind fun _ rest => .ok (none : Option Declaration) rest) :=
      (cut_blockText hsource shape t ts).bind (fun _ _ => Nat.le_refl _) fun _ rest _ => .ok none rest
    rw [List.cons_append, skipValue_cons, skipValue_cons]
    unfold dropValue
    split
    · exact hblock .map
    · split
      · exact hblock .sequence
      · split
        · exact .ok none (t :: ts)
        · exact .ok none ts

theorem cut_leftOver (t : Token) (ts : List Token) :
    (near.leftOver t ts).Cut us (far.leftOver t (ts ++ us)) := by
  unfold leftOver
  split
  · split
    · exact cuts_skipValue hsource ts
    · exact cut_fault _
  · exact cut_fault _

omit hsource in
theorem cut_declare {o o' : Outcome α} (h : o.Cut us o') (make : α → Declaration) :
    (Outcome.declare o make).Cut us (Outcome.declare o' make) := by
  rw [declare_eq, declare_eq]
  exact h.bind (fun _ _ => Nat.le_refl _) fun a rest _ => .ok (some (make a)) rest

theorem cuts_declaration : Cuts us near.declaration far.declaration := by
  intro ts
  match ts with
  | [] => exact .spent (Nat.zero_le 1)
  | [t] => exact .spent (near.within_declaration [t])
  | t :: u :: ts =>
    have hleft : (near.leftOver t (u :: ts)).Cut us (far.leftOver t (u :: ts ++ us)) := cut_leftOver hsource t _
    simp only [List.cons_append, declaration_cons]
    split
    · exact cut_declare (cuts_spell hsource (u :: ts)) _
    · exact cut_declare (cuts_character hsource (u :: ts)) _
    · exact cut_declare (cuts_world hsource (u :: ts)) _
    · by_cases hname : u.isIdentifier = true
      · simp only [List.head?_cons, Option.any_some, hname, if_true]
        exact cut_declare (cuts_archetype (u :: ts)) _
      · simp only [List.head?_cons, Option.any_some, hname, Bool.false_eq_true, if_false]
        exact hleft
    all_goals first | exact cut_fault _ | exact hleft

end

/-- Recovery goes on at the same place, or uses up what there is before the cut. -/
theorem resume_append (ts us : List Token) : resume ts = [] ∨ resume (ts ++ us) = resume ts ++ us := by
  induction ts with
  | nil => exact .inl rfl
  | cons t ts ih =>
    rw [List.cons_append, resume, resume]
    split
    · exact .inr rfl
    · split
      · exact .inr rfl
      · exact ih

/-! ## Programs -/

namespace Program

/-- One token declares nothing. -/
theorem declarations_of_short {b : Bool} (h : ts.length ≤ 1) : (ofTokens near b ts).declarations = [] := by
  match ts with
  | [] => rw [ofTokens_nil]
  | [t] =>
    rw [ofTokens_cons]
    split
    · rw [ofTokens_nil]
    · split
      · rw [ofTokens_nil]
      · split
        · simp [Context.declaration, Context.fault, after, resume, ofTokens_nil, append]
        · rw [ofTokens_nil]

/-- `p` declares what `q` declares first, and at most one thing more. -/
def Front (p q : Program) : Prop :=
  ∃ m ≤ q.declarations.length, ∃ d? : Option Declaration, p.declarations = q.declarations.take m ++ d?.toList

variable {p q : Program}

theorem front_of_single (d? : Option Declaration) (h : p.declarations = d?.toList) : p.Front q :=
  ⟨0, Nat.zero_le _, d?, h⟩

theorem Front.declare (h : p.Front q) (d? : Option Declaration) : (declare d? p).Front (declare d? q) := by
  obtain ⟨m, hm, last?, hp⟩ := h
  cases d? with
  | none => exact ⟨m, hm, last?, hp⟩
  | some d =>
    refine ⟨m + 1, Nat.succ_le_succ hm, last?, ?_⟩
    change d :: p.declarations = (d :: q.declarations).take (m + 1) ++ last?.toList
    rw [hp, List.take_succ_cons, List.cons_append]

/-- What is declared behind an `@`, with the tokens cut off and with all of them. -/
theorem front_after {o o' : Outcome (Option Declaration)} (h : o.Cut us o')
    (ih : ∀ rest : List Token, rest.length ≤ o.rest.length →
      (ofTokens near false rest).Front (ofTokens far false (rest ++ us))) : (after near o).Front (after far o') := by
  cases h with
  | ok d? rest => exact (ih rest (Nat.le_refl _)).declare d?
  | fail e e' rest =>
    rcases resume_append rest us with hnone | hsame
    · apply front_of_single none
      simp [after, hnone, ofTokens_nil, append]
    · obtain ⟨m, hm, d?, hd⟩ := ih (resume rest) (length_resume rest)
      rw [← hsame] at hm hd
      exact ⟨m, hm, d?, hd⟩
  | spent hshort =>
    cases o with
    | ok d? rest =>
      have hrest : (ofTokens near false rest).declarations = [] := declarations_of_short hshort
      apply front_of_single d?
      simp [after, Program.declare, hrest]
    | fail e rest =>
      have hresume : (ofTokens near false (resume rest)).declarations = [] :=
        declarations_of_short (Nat.le_trans (length_resume rest) hshort)
      apply front_of_single none
      simp [after, append, hresume]

/-- The tokens before a cut, in the same source, with the end of input where the cut is. -/
theorem front_ofTokens (hsource : far.source = near.source) (b : Bool) (ts us : List Token) :
    (ofTokens near b ts).Front (ofTokens far b (ts ++ us)) := by
  induction hn : ts.length using Nat.strongRecOn generalizing ts b with
  | ind n ih =>
    subst hn
    cases ts with
    | nil => exact front_of_single none (declarations_of_short (Nat.zero_le 1))
    | cons t ts =>
      have hnext (b : Bool) := ih ts.length (Nat.lt_succ_self _) b ts rfl
      rw [List.cons_append, ofTokens_cons, ofTokens_cons]
      by_cases hnewline : t.isNewline = true
      · rw [if_pos hnewline, if_pos hnewline]
        exact hnext false
      · rw [if_neg hnewline, if_neg hnewline]
        by_cases hcomment : (b || t.isSymbol .hash) = true
        · rw [if_pos hcomment, if_pos hcomment]
          exact hnext true
        · rw [if_neg hcomment, if_neg hcomment]
          by_cases hat : t.isSymbol .at = true
          · rw [if_pos hat, if_pos hat]
            apply front_after (cuts_declaration hsource ts)
            intro rest hrest
            exact ih _ (Nat.lt_succ_of_le (Nat.le_trans hrest (near.within_declaration ts))) false rest rfl
          · rw [if_neg hat, if_neg hat]
            exact hnext false

end Program

/-- **Any tokens, cut anywhere**: the first `k` of them declare what all of them declare first, for some number of
declarations, and then at most one thing more. -/
theorem parse_take (source : List Char) (ts : List Token) (k : Nat) :
    ∃ m ≤ (parse source ts).declarations.length, ∃ d? : Option Declaration,
      (parse source (ts.take k)).declarations = (parse source ts).declarations.take m ++ d?.toList := by
  let near : Context := ⟨source, ((ts.take k).find? Token.isEnd).getD (endToken source (ts.take k))⟩
  let far : Context := ⟨source, (ts.find? Token.isEnd).getD (endToken source ts)⟩
  let body := ts.takeWhile fun t => !t.isEnd
  have hsource : far.source = near.source := rfl
  have hfront := Program.front_ofTokens hsource false (body.take k) (body.drop k)
  rw [List.take_append_drop, List.take_takeWhile] at hfront
  exact hfront

end Grimoire.Source
