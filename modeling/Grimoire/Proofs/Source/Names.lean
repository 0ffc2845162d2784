import Grimoire.Proofs.Source.Appending
import Grimoire.Proofs.Source.Fragments
import Grimoire.Proofs.Source.Origins

/-!
# Names are words

The name of every declaration that a source declares is a word (`names_of_parseSource`), so it can be printed
bare: the name is that of an identifier among the tokens (`traced_declaration`), and the identifiers that a text
lexes to are words.
-/
namespace Grimoire.Source

open Context

/-! ## Identifiers -/

/-- The identifiers among the tokens are words. -/
def Worded (ts : List Token) : Prop := ∀ t ∈ ts, ∀ name, t.kind = .identifier name → isWord name = true

variable {ctx : Context} {mode : LexMode} {ts us : List Token}

theorem Worded.suffix (h : Worded ts) (hus : us <:+ ts) : Worded us := fun t ht => h t (hus.subset ht)

theorem isWord_of_readWord {c : Char} {cs lexeme rest name : List Char} (hc : startsWord c = true)
    (h : readWord (c :: cs) = .token (.identifier name) lexeme rest) : isWord name = true := by
  simp only [readWord, Reading.token.injEq] at h
  have hword : (c :: cs).takeWhile continuesWord = c :: cs.takeWhile continuesWord := by
    simp [continuesWord, hc]
  have hplain : isWord ((c :: cs).takeWhile continuesWord) = true := by
    rw [hword, isWord, hc, Bool.true_and, List.all_takeWhile]
  cases hk : Kind.ofReserved? ((c :: cs).takeWhile continuesWord) with
  | none =>
    obtain rfl : (c :: cs).takeWhile continuesWord = name := by simpa [hk] using h.1
    exact hplain
  | some k =>
    have hreserved : k = .identifier name := by simpa [hk] using h.1
    obtain ⟨e, he, rfl⟩ := Option.map_eq_some_iff.1 hk
    have hmem := List.mem_of_find?_eq_some he
    have hnone : ∀ e ∈ Kind.reserved, ∀ name, e.2 ≠ .identifier name := by
      simp [Kind.reserved]
    exact absurd hreserved (hnone e hmem name)

theorem isWord_of_readToken {c : Char} {cs lexeme rest name : List Char}
    (h : readToken c cs = .token (.identifier name) lexeme rest) : isWord name = true := by
  unfold readToken at h
  split at h
  all_goals try (simp at h; done)
  · split at h <;> simp at h
  · split at h <;> simp at h
  · split at h
    · split at h
      · simp [readNumber] at h
      · simp at h
    · simp at h
  · split at h
    · simp [readNumber] at h
    · split at h
      · next hc => exact isWord_of_readWord hc h
      · simp at h

theorem Lexes.worded {p : Position} {x : List Char} (h : Lexes mode p x ts) : Worded ts := by
  induction h with
  | done => simp [Worded]
  | separator _ _ ih => exact ih
  | skip _ _ _ _ ih => exact ih
  | token _ hr _ ih =>
    refine List.forall_mem_cons.2 ⟨fun name hname => ?_, ih⟩
    subst hname
    exact isWord_of_readToken hr

theorem Worded.namedIn {name : String} (h : Worded ts) (hname : NamedIn ts name) : isWord name.toList = true := by
  obtain ⟨t, ht, hkind⟩ := hname
  exact h t ht _ hkind

/-! ## Declarations -/

def Spell.Named (s : Spell) : Prop := isWord s.name.toList = true

def Character.Named (c : Character) : Prop := isWord c.name.toList = true ∧ ∀ s ∈ c.spells, s.Named

/-- The names of the declaration and of its own spells are words. -/
def Declaration.Named : Declaration → Prop
  | spell s => s.Named
  | character c => c.Named
  | world w => isWord w.name.toList = true
  | archetype a => isWord a.name.toList = true

theorem Worded.named {d : Declaration} (h : Worded ts) (hd : Heads ts d) : d.Named := by
  obtain ⟨⟨word, rest, rfl, -, hheaded⟩, hspells⟩ := hd
  have hname : isWord d.name.toList = true := h.namedIn (hheaded.namedIn.suffix (List.suffix_cons word rest))
  cases d with
  | character c => exact ⟨hname, fun s hs => h.namedIn (hspells s hs)⟩
  | _ => exact hname

theorem named_ofTokens (inComment : Bool) (h : Worded ts) :
    ∀ d ∈ (Program.ofTokens ctx inComment ts).declarations, d.Named := by
  induction hn : ts.length using Nat.strongRecOn generalizing ts inComment with
  | ind n ih =>
    subst hn
    cases ts with
    | nil => simp [Program.ofTokens_nil]
    | cons t rest =>
      have hlt : rest.length < (t :: rest).length := Nat.lt_succ_self _
      have hrest := h.suffix (List.suffix_cons t rest)
      rw [Program.ofTokens_cons]
      split
      · exact ih _ hlt false hrest rfl
      · split
        · exact ih _ hlt true hrest rfl
        · split
          · have htraced : (ctx.declaration rest).Traced ctx rest _ := traced_declaration rest
            cases hd : ctx.declaration rest with
            | ok d? after =>
              rw [hd] at htraced
              have hlen := htraced.leaves.length_le
              have hmore := ih after.length (Nat.lt_of_le_of_lt hlen hlt) false (hrest.suffix htraced.leaves) rfl
              intro d hmem
              rcases List.mem_append.1 hmem with hmem | hmem
              · exact hrest.named (htraced.made d? after rfl d (Option.mem_toList.1 hmem))
              · exact hmore d hmem
            | fail e after =>
              rw [hd] at htraced
              have hleft := (suffix_resume after).trans htraced.leaves
              exact ih _ (Nat.lt_of_le_of_lt hleft.length_le hlt) false (hrest.suffix hleft) rfl
          · exact ih _ hlt false hrest rfl

/-- **Declared names are words**, those of the spells of a character too, whatever faults the source has. -/
theorem names_of_parseSource {source : String} {program : Program} (h : parseSource mode source = .ok program) :
    ∀ d ∈ program.declarations, d.Named := by
  rw [parseSource] at h
  cases htokens : tokens mode source.toList with
  | error e => simp [htokens, Except.map] at h
  | ok ts =>
    rw [htokens] at h
    obtain rfl := Except.ok.inj h
    obtain ⟨us, rfl, hlexes⟩ := tokens_eq_ok.1 htokens
    rw [parse_eq hlexes]
    exact named_ofTokens false hlexes.worded

end Grimoire.Source
