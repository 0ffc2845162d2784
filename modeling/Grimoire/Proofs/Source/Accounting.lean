import Grimoire.Proofs.Source.Origins
import Grimoire.Proofs.Source.Tracking

/-!
# What a parse accounts for

Every declaration and every fault of a program begins with an `@` of its own. The declarations stand at their names,
one behind the other, and so do the faults at the tokens they are found at (`Strung`), which is kept from one `@` to
the next (`Accounts`).
-/
namespace Grimoire.Source

variable {α : Type} {ctx : Context} {ts us rest : List Token} {t : Token} {p : Program}

/-! ## One behind the other -/

/-- Each of the items stands at a token, with the items after it behind that token. -/
inductive Strung (P : List Token → α → Prop) : List Token → List α → Prop
  | nil (ts : List Token) : Strung P ts []
  | cons {t : Token} {us ts : List Token} {a : α} {as : List α} (hts : t :: us <:+ ts) (ha : P (t :: us) a)
      (has : Strung P us as) : Strung P ts (a :: as)

variable {P : List Token → α → Prop} {as : List α}

theorem Strung.suffix (h : Strung P us as) (hus : us <:+ ts) : Strung P ts as := by
  cases h with
  | nil => exact .nil ts
  | cons hsuffix ha has => exact .cons (hsuffix.trans hus) ha has

theorem drop_of_suffix (h : us <:+ ts) : ∃ k, us = ts.drop k ∧ k + us.length = ts.length := by
  obtain ⟨front, rfl⟩ := h
  exact ⟨front.length, by simp⟩

theorem Strung.positions (h : Strung P ts as) :
    ∃ is : List Nat, is.Pairwise (· < ·) ∧
      List.Forall₂ (fun i a => i < ts.length ∧ P (ts.drop i) a) is as := by
  induction h with
  | nil ts => exact ⟨[], .nil, .nil⟩
  | @cons t us ts a as hts ha _ ih =>
    obtain ⟨is, hincreasing, hat⟩ := ih
    obtain ⟨k, hk, hlen⟩ := drop_of_suffix hts
    have hus : us = ts.drop (k + 1) := by
      rw [← List.tail_drop, ← hk]
      rfl
    rw [List.length_cons] at hlen
    refine ⟨k :: is.map (k + 1 + ·), ?_, .cons ⟨by omega, hk ▸ ha⟩ ?_⟩
    · rw [List.pairwise_cons, List.pairwise_map]
      constructor
      · intro i hi
        obtain ⟨j, -, rfl⟩ := List.mem_map.1 hi
        omega
      · apply hincreasing.imp
        omega
    · rw [List.forall₂_map_left_iff]
      apply hat.imp
      rintro i a ⟨hi, ha⟩
      rw [hus, List.drop_drop] at ha
      exact ⟨by omega, ha⟩

/-! ## Programs -/

/-- The tokens begin with `@`, the keyword of the declaration and its name. -/
def Introduced (ts : List Token) (d : Declaration) : Prop :=
  ∃ sign rest, ts = sign :: rest ∧ sign.isSymbol .at = true ∧ Heads rest d

/-- The tokens begin with the one that the fault was found at. -/
def Blamed (ts : List Token) (e : ParseError) : Prop := ts.head? = some e.token

/-- What is read of the tokens has an `@` each. No fault is found at the first token, but one may be at the end. -/
structure Accounts (ctx : Context) (ts : List Token) (p : Program) : Prop where
  few : p.declarations.length + p.errors.length ≤ ts.countP (·.isSymbol .at)
  declared : Strung Introduced ts p.declarations
  blamed : Strung Blamed (ts ++ [ctx.finish]).tail p.errors

theorem Accounts.skip (h : Accounts ctx rest p) : Accounts ctx (t :: rest) p := by
  refine ⟨?_, h.declared.suffix (List.suffix_cons t rest), h.blamed.suffix ?_⟩
  · have := h.few
    rw [List.countP_cons]
    omega
  · exact List.tail_suffix _

theorem Accounts.declare (ht : t.isSymbol .at = true) {d? : Option Declaration}
    (htraced : (Outcome.ok d? us).Traced ctx rest fun d? => ∀ d ∈ d?, Heads rest d) (h : Accounts ctx us p) :
    Accounts ctx (t :: rest) (p.declare d?) := by
  have hleaves : us <:+ rest := htraced.leaves
  have hfewer := hleaves.sublist.countP_le (p := (·.isSymbol .at))
  have hfew := h.few
  refine ⟨?_, ?_, h.blamed.suffix ?_⟩
  · cases d? with
    | none =>
      simp only [Program.declare, Option.toList_none, List.nil_append, List.countP_cons]
      omega
    | some d =>
      simp only [Program.declare, Option.toList_some, List.singleton_append, List.length_cons, List.countP_cons, ht,
        if_true]
      omega
  · cases d? with
    | none => exact h.declared.suffix (hleaves.trans (List.suffix_cons t rest))
    | some d =>
      have hheads : Heads rest d := htraced.made _ us rfl d rfl
      exact .cons (List.suffix_refl _) ⟨t, rest, rfl, ht, hheads⟩ (h.declared.suffix hleaves)
  · exact (List.tail_suffix _).trans (suffix_concat hleaves ctx.finish)

theorem Accounts.fail (ht : t.isSymbol .at = true) {e : ParseError} {S : Option Declaration → Prop}
    (htraced : (Outcome.fail e us : Outcome (Option Declaration)).Traced ctx rest S)
    (h : Accounts ctx (Context.resume us) p) :
    Accounts ctx (t :: rest) (Program.append ⟨[], [e]⟩ p) := by
  have hleaves : Context.resume us <:+ rest := (suffix_resume us).trans htraced.leaves
  have hfewer := hleaves.sublist.countP_le (p := (·.isSymbol .at))
  have hfew := h.few
  refine ⟨?_, h.declared.suffix (hleaves.trans (List.suffix_cons t rest)), ?_⟩
  · simp only [Program.append, List.nil_append, List.singleton_append, List.length_cons, List.countP_cons, ht, if_true]
    omega
  · obtain ⟨behind, hblamed, hrest⟩ := htraced.blamed e us rfl
    exact .cons hblamed rfl (h.blamed.suffix ((suffix_tail_resume us ctx.finish).trans hrest))

theorem accounts_ofTokens (b : Bool) (ts : List Token) : Accounts ctx ts (Program.ofTokens ctx b ts) := by
  induction hn : ts.length using Nat.strongRecOn generalizing ts b with
  | ind n ih =>
    subst hn
    cases ts with
    | nil =>
      rw [Program.ofTokens_nil]
      exact ⟨Nat.le_refl _, .nil _, .nil _⟩
    | cons t rest =>
      have hlt : rest.length < (t :: rest).length := Nat.lt_succ_self _
      rw [Program.ofTokens_cons]
      split
      · exact (ih _ hlt false rest rfl).skip
      · split
        · exact (ih _ hlt true rest rfl).skip
        · split
          · next hat =>
            have htraced : (ctx.declaration rest).Traced ctx rest _ := traced_declaration rest
            cases hd : ctx.declaration rest with
            | ok d? after =>
              rw [hd] at htraced
              have hlen := htraced.leaves.length_le
              exact .declare hat htraced (ih _ (Nat.lt_of_le_of_lt hlen hlt) false after rfl)
            | fail e after =>
              rw [hd] at htraced
              have hlen := ((suffix_resume after).trans htraced.leaves).length_le
              exact .fail hat htraced (ih _ (Nat.lt_of_le_of_lt hlen hlt) false _ rfl)
          · exact (ih _ hlt false rest rfl).skip

/-! ## Places in the list of tokens -/

/-- At this index stands an identifier with the name and the line of the declaration, behind its keyword and `@`. -/
def DeclaredAt (ts : List Token) (i : Nat) (d : Declaration) : Prop :=
  ∃ j sign word name, i = j + 2 ∧ ts[j]? = some sign ∧ ts[j + 1]? = some word ∧ ts[i]? = some name ∧
    sign.isSymbol .at = true ∧ word.kind = .keyword d.keyword ∧ name.kind = .identifier d.name.toList ∧
    name.span.line = d.line

/-- At this index stands the token of the fault. -/
def BlamedAt (ts : List Token) (i : Nat) (e : ParseError) : Prop := ts[i]? = some e.token

theorem Introduced.declaredAt {i : Nat} {d : Declaration} (h : Introduced (ts.drop i) d) : DeclaredAt ts (i + 2) d := by
  obtain ⟨sign, _, hdrop, hat, ⟨word, rest, rfl, hword, name, hname, hkind, hline⟩, -⟩ := h
  obtain ⟨rest, rfl⟩ : ∃ behind, rest = name :: behind := List.head?_eq_some_iff.1 hname
  have hget (n : Nat) : ts[i + n]? = (sign :: word :: name :: rest)[n]? := by
    rw [← hdrop, List.getElem?_drop]
  exact ⟨i, sign, word, name, rfl, hget 0, hget 1, hget 2, hat, hword, hkind, hline⟩

theorem getElem?_of_prefix {i : Nat} (h : us <+: ts) (ht : us[i]? = some t) : ts[i]? = some t := by
  obtain ⟨behind, rfl⟩ := h
  obtain ⟨hi, -⟩ := List.getElem?_eq_some_iff.1 ht
  rw [List.getElem?_append_left hi, ht]

theorem DeclaredAt.of_prefix {i : Nat} {d : Declaration} (h : DeclaredAt us i d) (hus : us <+: ts) :
    DeclaredAt ts i d := by
  obtain ⟨j, sign, word, name, hi, hsign, hword, hname, hshape⟩ := h
  exact ⟨j, sign, word, name, hi, getElem?_of_prefix hus hsign, getElem?_of_prefix hus hword,
    getElem?_of_prefix hus hname, hshape⟩

/-- **Parsing ends and accounts for every `@`.** For any source and any tokens, of that source or not, with an end of
input or without, the parser by index never leaves the tokens and makes the program; its declarations and faults are
together no more than the `@` among the tokens; the declarations stand at increasing places of their names; and the
faults carry tokens at increasing places. -/
theorem parse_accounts (source : List Char) (ts : List Token) :
    parse? source ts = some (parse source ts) ∧
    (parse source ts).declarations.length + (parse source ts).errors.length ≤ ts.countP (·.isSymbol .at) ∧
    (∃ is : List Nat, is.Pairwise (· < ·) ∧ List.Forall₂ (DeclaredAt ts) is (parse source ts).declarations) ∧
    ∃ is : List Nat, is.Pairwise (· < ·) ∧
      List.Forall₂ (BlamedAt (completed source ts)) is (parse source ts).errors := by
  obtain ⟨behind, hsplit⟩ := completed_split source ts
  have hbody : (ts.takeWhile fun t => !t.isEnd) <+: ts := List.takeWhile_prefix _
  have haccounts : Accounts ⟨source, (ts.find? Token.isEnd).getD (endToken source ts)⟩
      (ts.takeWhile fun t => !t.isEnd) (parse source ts) := accounts_ofTokens false _
  refine ⟨parse?_eq source ts, ?_, ?_, ?_⟩
  · exact Nat.le_trans haccounts.few hbody.sublist.countP_le
  · obtain ⟨is, hincreasing, hat⟩ := haccounts.declared.positions
    refine ⟨is.map (· + 2), ?_, ?_⟩
    · rw [List.pairwise_map]
      apply hincreasing.imp
      omega
    · rw [List.forall₂_map_left_iff]
      apply hat.imp
      rintro i d ⟨-, hd⟩
      exact hd.declaredAt.of_prefix hbody
  · obtain ⟨is, hincreasing, hat⟩ := (haccounts.blamed.suffix (List.tail_suffix _)).positions
    refine ⟨is, hincreasing, ?_⟩
    apply hat.imp
    rintro i e ⟨-, he⟩
    rw [Blamed, List.head?_drop] at he
    refine getElem?_of_prefix ⟨behind, ?_⟩ he
    rw [hsplit, List.append_assoc, List.singleton_append]

end Grimoire.Source
