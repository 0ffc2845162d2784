import Grimoire.Proofs.Source.Nesting

/-!
# Where declarations and faults come from

Every reader leaves the last of the tokens it was given; the name and the line of what it declares are those of
an identifier among them; and the token of its fault stands among them or is the end of input, with nothing left
before it (`Outcome.Traced`). One lemma for each reader, by the recursion of the reader.
-/
namespace Grimoire.Source

open Context

variable {ctx : Context} {α β σ : Type} {ts us rest : List Token} {t : Token}

/-! ## Traced outcomes -/

/-- The reader leaves the last of these tokens, what it made has the property, and its fault stands at one of the
tokens or at their end; what is left then begins behind that token, or with it. -/
structure Outcome.Traced (ctx : Context) (o : Outcome α) (ts : List Token) (P : α → Prop) : Prop where
  leaves : o.rest <:+ ts
  made : ∀ a rest, o = .ok a rest → P a
  blamed : ∀ e rest, o = .fail e rest → ∃ us, e.token :: us <:+ ts ++ [ctx.finish] ∧
    (rest ++ [ctx.finish]).tail <:+ us

variable {o : Outcome α} {P : α → Prop} {Q : β → Prop}

theorem suffix_concat (h : us <:+ ts) (t : Token) : us ++ [t] <:+ ts ++ [t] := by
  obtain ⟨front, rfl⟩ := h
  exact ⟨front, (List.append_assoc front us [t]).symm⟩

theorem Outcome.Traced.ok {a : α} (h : rest <:+ ts) (ha : P a) : (Outcome.ok a rest).Traced ctx ts P := by
  refine ⟨h, fun _ _ heq => ?_, fun _ _ heq => (by cases heq)⟩
  obtain ⟨rfl, -⟩ := Outcome.ok.inj heq
  exact ha

/-- A fault at a token, with less left than stands behind it. -/
theorem Outcome.Traced.fail {f : Fault} (ht : t :: us <:+ ts) (hrest : rest <:+ us) :
    (Outcome.fail ⟨f, t⟩ rest : Outcome α).Traced ctx ts P := by
  refine ⟨hrest.trans ((List.suffix_cons t us).trans ht), fun _ _ heq => (by cases heq), fun e r heq => ?_⟩
  obtain ⟨rfl, rfl⟩ := Outcome.fail.inj heq
  exact ⟨us ++ [ctx.finish], suffix_concat ht _, (List.tail_suffix _).trans (suffix_concat hrest _)⟩

/-- A fault at the current token. -/
theorem traced_fault (f : Fault) (h : us <:+ ts) : (ctx.fault f us : Outcome α).Traced ctx ts P := by
  refine ⟨h, fun _ _ heq => (by cases heq), fun e r heq => ?_⟩
  obtain ⟨rfl, rfl⟩ := Outcome.fail.inj heq
  have hall := suffix_concat h ctx.finish
  cases us with
  | nil => exact ⟨[], hall, List.suffix_refl _⟩
  | cons t us => exact ⟨us ++ [ctx.finish], hall, List.suffix_refl _⟩

theorem Outcome.Traced.trans (h : o.Traced ctx us P) (hus : us <:+ ts) : o.Traced ctx ts P := by
  refine ⟨h.leaves.trans hus, h.made, fun e rest heq => ?_⟩
  obtain ⟨vs, hvs, hrest⟩ := h.blamed e rest heq
  exact ⟨vs, hvs.trans (suffix_concat hus _), hrest⟩

theorem Outcome.Traced.failed {e : ParseError} (h : (Outcome.fail e rest : Outcome α).Traced ctx ts P) :
    (Outcome.fail e rest : Outcome β).Traced ctx ts Q := by
  refine ⟨h.leaves, fun _ _ heq => (by cases heq), fun e' rest' heq => ?_⟩
  obtain ⟨rfl, rfl⟩ := Outcome.fail.inj heq
  exact h.blamed e rest rfl

theorem Outcome.Traced.bind {k : α → List Token → Outcome β} (h : o.Traced ctx ts P)
    (hk : ∀ a rest, P a → rest <:+ ts → (k a rest).Traced ctx rest Q) : (o.bind k).Traced ctx ts Q := by
  cases o with
  | ok a rest => exact (hk a rest (h.made a rest rfl) h.leaves).trans h.leaves
  | fail e rest => exact h.failed

theorem Outcome.Traced.mono (h : o.Traced ctx ts P) {P' : α → Prop} (hp : ∀ a, P a → P' a) : o.Traced ctx ts P' :=
  ⟨h.leaves, fun a rest heq => hp a (h.made a rest heq), h.blamed⟩

/-- Of a value that is no name only the tokens behind it matter. -/
abbrev Outcome.Leads (ctx : Context) (o : Outcome α) (ts : List Token) : Prop := o.Traced ctx ts fun _ => True

theorem suffix_skipTrivia (b : Bool) (ts : List Token) : skipTrivia b ts <:+ ts := by
  induction ts generalizing b with
  | nil => exact List.suffix_refl _
  | cons t ts ih =>
    rw [skipTrivia]
    split
    · exact (ih false).trans (List.suffix_cons t ts)
    · split
      · exact (ih true).trans (List.suffix_cons t ts)
      · exact List.suffix_refl _

/-! ## Values -/

theorem leads_expectToken {test : Token → Option α} (what : String) (ts : List Token) :
    (ctx.expectToken test what ts).Leads ctx ts := by
  cases ts with
  | nil => exact traced_fault _ (List.suffix_refl _)
  | cons t ts =>
    rw [expectToken]
    cases test t with
    | none => exact traced_fault _ (List.suffix_refl _)
    | some a => exact .ok (List.suffix_cons t ts) trivial

theorem leads_wordItems (ts : List Token) : (ctx.wordItems ts).Leads ctx ts := by
  induction hn : ts.length using Nat.strongRecOn generalizing ts with
  | ind n ih =>
    subst hn
    have hskip := suffix_skipTrivia false ts
    rw [wordItems_eq]
    split
    · exact traced_fault _ List.nil_suffix
    · next t rest hts =>
      rw [hts] at hskip
      by_cases hclose : t.isSymbol .closeBracket = true
      · simp only [hclose, if_true]
        exact .ok ((List.suffix_cons t rest).trans hskip) trivial
      · simp only [hclose, Bool.false_eq_true, if_false]
        refine Outcome.Traced.trans ?_ hskip
        have hword : (ctx.expectStringOrWord "list item" (t :: rest)).Leads ctx (t :: rest) := leads_expectToken _ _
        -- The items behind a comma are fewer, as the word took a token.
        cases hitem : ctx.expectStringOrWord "list item" (t :: rest) with
        | fail e after =>
          rw [hitem] at hword
          exact hword.failed
        | ok item after =>
          have hlt := length_lt_of_expectToken ctx hitem
          have hle := hskip.length_le
          rw [hitem] at hword
          have hafter := (suffix_skipTrivia false after).trans hword.leaves
          have hfewer := (suffix_skipTrivia false after).length_le
          rw [Outcome.bind_ok, wordsAfter]
          split
          · next u tail htail =>
            rw [htail] at hafter hfewer
            have hbehind := (List.suffix_cons u tail).trans hafter
            split
            · simp only [List.length_cons] at hlt hle hfewer
              refine ((ih tail.length (by omega) tail rfl).bind fun items rest _ _ => ?_).trans hbehind
              exact .ok (List.suffix_refl _) trivial
            · split
              · exact .ok hbehind trivial
              · exact traced_fault _ hafter
          · exact traced_fault _ List.nil_suffix

theorem leads_wordList (ts : List Token) : (ctx.wordList ts).Leads ctx ts := by
  rw [wordList_eq]
  have hopen : (ctx.expectSymbol .openBracket "'[' to open list" ts).Leads ctx ts := leads_expectToken _ _
  exact hopen.bind fun _ rest _ _ => leads_wordItems rest

/-- A block that does not end is blamed on the token that opens it. -/
theorem leads_blockText (shape : BlockShape) (t : Token) (ts : List Token) :
    (ctx.blockText shape t ts).Leads ctx (t :: ts) := by
  rw [blockText]
  split
  · next last rest h =>
    obtain ⟨pre, rfl⟩ := Placement.blockEnd_split h
    refine .ok ?_ trivial
    exact ((List.suffix_cons last rest).trans (List.suffix_append _ _)).trans (List.suffix_cons _ _)
  · exact .fail (List.suffix_refl _) List.nil_suffix

theorem leads_block (shape : BlockShape) (clause : String) (ts : List Token) :
    (ctx.block shape clause ts).Leads ctx ts := by
  unfold block
  split
  · split
    · exact leads_blockText shape _ _
    · exact traced_fault _ (List.suffix_refl _)
  · exact traced_fault _ (List.suffix_refl _)

/-! ## Clauses -/

theorem traced_clause {read : List Token → Outcome α} (within : ∀ ts, (read ts).Within ts)
    {put : σ → α → σ} {s : σ} {S : σ → Prop} (h : (read ts).Traced ctx ts P) (hput : ∀ a, P a → S (put s a)) :
    ((Clause.of read within put).read s ts).Traced ctx ts S := by
  rw [Clause.of_read]
  exact h.bind fun a rest ha _ => .ok (List.suffix_refl _) (hput a ha)

/-- Clauses that keep a property of the state, read from the last of these tokens. -/
def Context.Clauses.Keeping (ctx : Context) (allowed : Clauses σ) (ts : List Token) (S : σ → Prop) : Prop :=
  ∀ c ∈ allowed, ∀ s us, S s → us <:+ ts → (c.2.read s us).Traced ctx us S

theorem traced_readClauses {allowed : Clauses σ} {S : σ → Prop} (hk : allowed.Keeping ctx ts S) {s : σ} (hs : S s)
    (hus : us <:+ ts) : (readClauses allowed s us).Traced ctx us S := by
  induction hn : us.length using Nat.strongRecOn generalizing us s with
  | ind n ih =>
    subst hn
    have hskip := suffix_skipTrivia false us
    rw [readClauses_eq]
    cases hc : nextClause allowed (skipTrivia false us) with
    | none => exact .ok hskip hs
    | some found =>
      obtain ⟨c, rest⟩ := found
      obtain ⟨_, sign, word, hm, hts, -⟩ := nextClause_mem hc
      have hrest : rest <:+ skipTrivia false us := ⟨[sign, word], hts.symm⟩
      have hlt := length_nextClause hc
      have hle := hskip.length_le
      have hsuffix := hrest.trans hskip
      refine ((hk _ hm s rest hs (hsuffix.trans hus)).bind fun s' after hs' hafter => ?_).trans hsuffix
      have hfewer := hafter.length_le
      exact ih after.length (by omega) hs' ((hafter.trans hsuffix).trans hus) rfl

/-! ## Declarations -/

/-- The first of the tokens is an identifier with this name and this line. -/
def HeadedBy (ts : List Token) (name : String) (line : Nat) : Prop :=
  ∃ t ∈ ts.head?, t.kind = .identifier name.toList ∧ t.span.line = line

/-- One of the tokens is an identifier with this name. -/
def NamedIn (ts : List Token) (name : String) : Prop := ∃ t ∈ ts, t.kind = .identifier name.toList

theorem HeadedBy.namedIn {name : String} {line : Nat} (h : HeadedBy ts name line) : NamedIn ts name := by
  obtain ⟨t, ht, hkind, -⟩ := h
  exact ⟨t, List.mem_of_mem_head? ht, hkind⟩

theorem NamedIn.suffix {name : String} (h : NamedIn us name) (hus : us <:+ ts) : NamedIn ts name := by
  obtain ⟨t, ht, hkind⟩ := h
  exact ⟨t, hus.subset ht, hkind⟩

/-- What is read behind the identifier that names a declaration. -/
theorem traced_named {what : String} {k : String → List Token → Outcome β}
    (hk : ∀ name t us, ts = t :: us → HeadedBy ts name t.span.line → (k name us).Traced ctx ts Q) :
    ((ctx.expectIdentifier what ts).bind k).Traced ctx ts Q := by
  cases ts with
  | nil => exact traced_fault _ (List.suffix_refl _)
  | cons t us =>
    rw [expectIdentifier, expectToken]
    cases hkind : t.kind with
    | identifier word =>
      simp only [Outcome.bind_ok]
      exact hk _ t us rfl ⟨t, rfl, by rw [String.toList_ofList, hkind], rfl⟩
    | _ => exact traced_fault _ (List.suffix_refl _)

theorem keeping_spellClauses (ctx : Context) (ts : List Token) (name : String) (line : Nat) :
    ctx.spellClauses.Keeping ctx ts fun draft => draft.spell.name = name ∧ draft.spell.line = line := by
  intro c hc s us hs _
  simp only [spellClauses, List.mem_cons, List.not_mem_nil, or_false] at hc
  rcases hc with rfl | rfl | rfl | rfl | rfl | rfl
  · exact traced_clause (ctx.within_expectToken _ _) (leads_expectToken _ us) fun _ _ => hs
  · exact traced_clause ctx.within_wordList (leads_wordList us) fun _ _ => hs
  · exact traced_clause ctx.within_wordList (leads_wordList us) fun _ _ => hs
  · exact traced_clause (ctx.within_block _ _) (leads_block _ _ us) fun _ _ => hs
  · exact traced_clause (ctx.within_expectToken _ _) (leads_expectToken _ us) fun _ _ => hs
  · exact traced_clause (ctx.within_expectToken _ _) (leads_expectToken _ us) fun _ _ => hs

theorem traced_spell (ts : List Token) : (ctx.spell ts).Traced ctx ts fun s => HeadedBy ts s.name s.line := by
  rw [spell_eq]
  refine traced_named fun name t us hts hname => ?_
  have hbehind : us <:+ ts := hts ▸ List.suffix_cons t us
  have hcurrent : ctx.current ts = t := by rw [hts]; rfl
  have hclauses : (readClauses ctx.spellClauses { spell := { name, line := (ctx.current ts).span.line } } us).Traced ctx us
      fun draft => draft.spell.name = name ∧ draft.spell.line = t.span.line :=
    traced_readClauses (keeping_spellClauses ctx us name t.span.line) ⟨rfl, by rw [hcurrent]⟩ (List.suffix_refl _)
  -- A missing implementation is blamed on the name, in front of what the clauses leave.
  cases hread : readClauses ctx.spellClauses { spell := { name, line := (ctx.current ts).span.line } } us with
  | fail e rest =>
    rw [hread] at hclauses
    exact hclauses.failed.trans hbehind
  | ok draft rest =>
    rw [hread] at hclauses
    obtain ⟨hdraft, hline⟩ := hclauses.made draft rest rfl
    rw [Outcome.bind_ok, finishSpell]
    split
    · refine .ok (hclauses.leaves.trans hbehind) ?_
      dsimp only
      rw [hdraft, hline]
      exact hname
    · rw [hcurrent]
      exact .fail (hts ▸ List.suffix_refl _) hclauses.leaves

theorem traced_spellItems (ts : List Token) :
    (ctx.spellItems ts).Traced ctx ts fun spells => ∀ s ∈ spells, NamedIn ts s.name := by
  induction hn : ts.length using Nat.strongRecOn generalizing ts with
  | ind n ih =>
    subst hn
    have hskip := suffix_skipTrivia false ts
    have hle := hskip.length_le
    have named {vs : List Token} {spells : List Spell} (hvs : vs <:+ ts) (h : ∀ s ∈ spells, NamedIn vs s.name) :
        ∀ s ∈ spells, NamedIn ts s.name := fun s hs => (h s hs).suffix hvs
    rw [spellItems_eq]
    split
    · exact traced_fault _ List.nil_suffix
    · next t rest hts =>
      rw [hts] at hskip hle
      simp only [List.length_cons] at hle
      have hrest := (List.suffix_cons t rest).trans hskip
      unfold spellsFrom
      split
      · exact ((ih rest.length (by omega) rest rfl).mono fun spells => named hrest).trans hrest
      · split
        · exact .ok hrest (by simp)
        · split
          · have htail := (List.tail_suffix rest).trans hrest
            have hfewer := (List.tail_suffix rest).length_le
            refine ((traced_spell rest.tail).bind fun s after hs hafter => ?_).trans htail
            have hlen := hafter.length_le
            refine (ih after.length (by omega) after rfl).bind fun more last hmore _ => ?_
            refine .ok (List.suffix_refl _) (List.forall_mem_cons.2 ⟨hs.namedIn.suffix htail, ?_⟩)
            exact named (hafter.trans htail) hmore
          · exact traced_fault _ hskip

theorem traced_spellList (ts : List Token) :
    (ctx.spellList ts).Traced ctx ts fun spells => ∀ s ∈ spells, NamedIn ts s.name := by
  rw [spellList_eq]
  have hopen : (ctx.expectSymbol .openBracket "'[' after @arc_spells" ts).Leads ctx ts := leads_expectToken _ _
  refine hopen.bind fun _ rest _ hrest => (traced_spellItems rest).mono fun spells hspells => ?_
  exact fun s hs => (hspells s hs).suffix hrest

theorem keeping_characterClauses (ctx : Context) (ts : List Token) (name : String) (line : Nat) :
    ctx.characterClauses.Keeping ctx ts fun c => (c.name = name ∧ c.line = line) ∧ ∀ s ∈ c.spells, NamedIn ts s.name := by
  intro c hc s us hs hus
  simp only [characterClauses, List.mem_cons, List.not_mem_nil, or_false] at hc
  rcases hc with rfl | rfl | rfl | rfl | rfl | rfl | rfl
  · exact traced_clause (ctx.within_expectToken _ _) (leads_expectToken _ us) fun _ _ => hs
  · exact traced_clause ctx.within_wordList (leads_wordList us) fun _ _ => hs
  · exact traced_clause ctx.within_wordList (leads_wordList us) fun _ _ => hs
  · exact traced_clause (ctx.within_block _ _) (leads_block _ _ us) fun _ _ => hs
  · exact traced_clause (ctx.within_expectToken _ _) (leads_expectToken _ us) fun _ _ => hs
  · exact traced_clause (ctx.within_block _ _) (leads_block _ _ us) fun _ _ => hs
  · exact traced_clause ctx.within_spellList (traced_spellList us)
      fun spells hspells => ⟨hs.1, fun s hs => (hspells s hs).suffix hus⟩

theorem keeping_worldClauses (ctx : Context) (ts : List Token) (name : String) (line : Nat) :
    ctx.worldClauses.Keeping ctx ts fun w => w.name = name ∧ w.line = line := by
  intro c hc s us hs _
  simp only [worldClauses, List.mem_cons, List.not_mem_nil, or_false] at hc
  rcases hc with rfl | rfl | rfl | rfl
  all_goals exact traced_clause (ctx.within_block _ _) (leads_block _ _ us) fun _ _ => hs

theorem traced_character (ts : List Token) :
    (ctx.character ts).Traced ctx ts fun c => HeadedBy ts c.name c.line ∧ ∀ s ∈ c.spells, NamedIn ts s.name := by
  rw [character, declared_eq]
  refine traced_named fun name t us hts hname => ?_
  have hbehind : us <:+ ts := hts ▸ List.suffix_cons t us
  have hcurrent : ctx.current ts = t := by rw [hts]; rfl
  have hclauses := traced_readClauses (keeping_characterClauses ctx us name t.span.line)
    (s := { name, line := (ctx.current ts).span.line }) ⟨⟨rfl, by rw [hcurrent]⟩, by simp⟩ (List.suffix_refl _)
  refine (hclauses.mono fun c hc => ?_).trans hbehind
  obtain ⟨⟨hcname, hcline⟩, hspells⟩ := hc
  rw [hcname, hcline]
  exact ⟨hname, fun s hs => (hspells s hs).suffix hbehind⟩

theorem traced_world (ts : List Token) : (ctx.world ts).Traced ctx ts fun w => HeadedBy ts w.name w.line := by
  rw [world, declared_eq]
  refine traced_named fun name t us hts hname => ?_
  have hbehind : us <:+ ts := hts ▸ List.suffix_cons t us
  have hcurrent : ctx.current ts = t := by rw [hts]; rfl
  have hclauses := traced_readClauses (keeping_worldClauses ctx us name t.span.line)
    (s := { name, line := (ctx.current ts).span.line }) ⟨rfl, by rw [hcurrent]⟩ (List.suffix_refl _)
  refine (hclauses.mono fun w hw => ?_).trans hbehind
  rw [hw.1, hw.2]
  exact hname

theorem traced_archetype (ts : List Token) : (ctx.archetype ts).Traced ctx ts fun a => HeadedBy ts a.name a.line := by
  rw [archetype_eq]
  refine traced_named fun name t us hts hname => ?_
  have hcurrent : ctx.current ts = t := by rw [hts]; rfl
  refine Outcome.Traced.trans ?_ (hts ▸ List.suffix_cons t us : us <:+ ts)
  have hcolons : (ctx.expectSymbol .doubleColon "'::' after archetype name" us).Leads ctx us := leads_expectToken _ _
  refine hcolons.bind fun _ after _ _ => ?_
  have htext : (ctx.expectString "archetype description after '::'" after).Leads ctx after := leads_expectToken _ _
  refine htext.bind fun _ last _ _ => .ok (List.suffix_refl _) ?_
  dsimp only
  rw [hcurrent]
  exact hname

/-! ## Top level -/

/-- The keyword that introduces the declaration. -/
def Declaration.keyword : Declaration → Keyword
  | spell _ => .spell
  | character _ => .character
  | world _ => .world
  | archetype _ => .archetype

/-- The spells that the declaration has of its own. -/
def Declaration.spells : Declaration → List Spell
  | character c => c.spells
  | _ => []

/-- The tokens begin with the keyword of the declaration and its name, and hold the names of its own spells. -/
def Heads (ts : List Token) (d : Declaration) : Prop :=
  (∃ word rest, ts = word :: rest ∧ word.kind = .keyword d.keyword ∧ HeadedBy rest d.name d.line) ∧
    ∀ s ∈ d.spells, NamedIn ts s.name

theorem traced_declare {o : Outcome α} {make : α → Declaration} (h : o.Traced ctx ts P)
    (hp : ∀ a, P a → Heads (t :: ts) (make a)) :
    (Context.Outcome.declare o make).Traced ctx (t :: ts) fun d? => ∀ d ∈ d?, Heads (t :: ts) d := by
  rw [declare_eq]
  refine (h.bind fun a rest ha _ => .ok (List.suffix_refl _) fun d hd => ?_).trans (List.suffix_cons t ts)
  obtain rfl := Option.some.inj hd
  exact hp a ha

theorem leads_skipValue (ts : List Token) (S : Option Declaration → Prop) (hS : S none) :
    (ctx.skipValue ts).Traced ctx ts S := by
  cases ts with
  | nil => exact .ok List.nil_suffix hS
  | cons t rest =>
    have dropped (shape : BlockShape) : ((ctx.blockText shape t rest).bind fun _ rest => .ok none rest).Traced ctx
        (t :: rest) S := (leads_blockText shape t rest).bind fun _ last _ _ => .ok (List.suffix_refl _) hS
    rw [skipValue_cons]
    unfold dropValue
    split
    · exact dropped .map
    · split
      · exact dropped .sequence
      · split
        · exact .ok (List.suffix_refl _) hS
        · exact .ok (List.suffix_cons _ _) hS

theorem traced_leftOver (t : Token) (rest : List Token) (S : Option Declaration → Prop) (hS : S none) :
    (ctx.leftOver t rest).Traced ctx (t :: rest) S := by
  unfold leftOver
  split
  · split
    · exact (leads_skipValue rest S hS).trans (List.suffix_cons t rest)
    · exact traced_fault _ (List.suffix_refl _)
  · exact traced_fault _ (List.suffix_refl _)

/-- What follows `@`: a declaration has its keyword and name there. -/
theorem traced_declaration (ts : List Token) :
    (ctx.declaration ts).Traced ctx ts fun d? => ∀ d ∈ d?, Heads ts d := by
  cases ts with
  | nil => exact traced_fault _ (List.suffix_refl _)
  | cons t rest =>
    have heads {d : Declaration} (hk : t.kind = .keyword d.keyword) (hd : HeadedBy rest d.name d.line)
        (hs : ∀ s ∈ d.spells, NamedIn rest s.name) : Heads (t :: rest) d :=
      ⟨⟨t, rest, rfl, hk, hd⟩, fun s h => (hs s h).suffix (List.suffix_cons t rest)⟩
    rw [declaration_cons]
    split
    · next hk => exact traced_declare (traced_spell rest) fun s hs => heads hk hs (by simp [Declaration.spells])
    · next hk => exact traced_declare (traced_character rest) fun c hc => heads hk hc.1 hc.2
    · next hk => exact traced_declare (traced_world rest) fun w hw => heads hk hw (by simp [Declaration.spells])
    · next hk =>
      split
      · exact traced_declare (traced_archetype rest) fun a ha => heads hk ha (by simp [Declaration.spells])
      · exact traced_leftOver t rest _ (by simp)
    all_goals first
      | exact traced_fault _ (List.suffix_refl _)
      | exact traced_leftOver t rest _ (by simp)

theorem suffix_resume (ts : List Token) : resume ts <:+ ts := by
  induction ts with
  | nil => exact List.suffix_refl _
  | cons t ts ih =>
    rw [resume]
    split
    · exact List.suffix_refl _
    · split
      · exact List.suffix_cons t ts
      · exact ih.trans (List.suffix_cons t ts)

/-- Behind the token where it goes on, recovery keeps only what stood behind the fault. -/
theorem suffix_tail_resume (ts : List Token) (last : Token) : (resume ts ++ [last]).tail <:+ (ts ++ [last]).tail := by
  cases ts with
  | nil => exact List.suffix_refl _
  | cons t ts =>
    rw [resume]
    split
    · exact List.suffix_refl _
    · split
      · exact List.tail_suffix _
      · exact (List.tail_suffix _).trans (suffix_concat (suffix_resume ts) last)

end Grimoire.Source
