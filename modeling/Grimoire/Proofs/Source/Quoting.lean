import Grimoire.Proofs.Source.Joining
import Grimoire.Proofs.Source.Places

/-!
# Quoted text in front of any text

A quoted text is one string token, whatever stands behind it, and the text behind it has the tokens that it has
alone, its places counted on from the closing quote (`tokensFrom_quote`). For that, tokens and faults of a text
depend on where it stands by their places only (`tokensFrom_eq_lexedAt`).
-/
namespace Grimoire.Source

variable {x : List Char}

/-! ## Escaping as replacements -/

/-- The text with `w` for each occurrence of a character. -/
def replaced (d : Char) (w cs : List Char) : List Char := cs.flatMap fun c => if c = d then w else [c]

/-- One pass over the characters does what five replacements do one after another, the one of the backslash first. -/
theorem escape_eq_replaced (cs : List Char) :
    escape cs = replaced '\r' ['\\', 'r'] (replaced '\t' ['\\', 't'] (replaced '\n' ['\\', 'n']
      (replaced '"' ['\\', '"'] (replaced '\\' ['\\', '\\'] cs)))) := by
  have one (c : Char) : escapeChar c = replaced '\r' ['\\', 'r'] (replaced '\t' ['\\', 't'] (replaced '\n' ['\\', 'n']
      (replaced '"' ['\\', '"'] (if c = '\\' then ['\\', '\\'] else [c])))) := by
    unfold escapeChar
    split_ifs with hslash hquote hnewline htab hreturn
    · rfl
    all_goals simp [replaced, *]
  induction cs with
  | nil => rfl
  | cons c cs ih =>
    rw [escape, List.flatMap_cons, ← escape, ih, one]
    simp only [replaced, List.flatMap_cons, List.flatMap_append]

/-- An escaped text stays on its line. -/
theorem newline_not_mem_escape (cs : List Char) : '\n' ∉ escape cs := by
  intro h
  obtain ⟨c, -, hc⟩ := List.mem_flatMap.1 h
  by_cases hnewline : c = '\n'
  · subst hnewline
    exact absurd hc (by decide)
  · unfold escapeChar at hc
    split_ifs at hc
    all_goals simp [Ne.symm hnewline] at hc

/-- A text without newlines moves the place along its line. -/
theorem Position.advanceAll_line (p : Position) (h : '\n' ∉ x) :
    p.advanceAll x = ⟨p.byte + Text.byteLength x, p.line, p.column + x.length⟩ := by
  induction x generalizing p with
  | nil => rfl
  | cons c cs ih =>
    obtain ⟨hc, hcs⟩ := not_or.1 (List.mem_cons.not.1 h)
    rw [Position.advanceAll_cons, ih _ hcs, Position.advance, if_neg (Ne.symm hc), byteLength_cons, List.length_cons]
    simp only [Nat.add_assoc, Nat.add_comm 1]

/-! ## Quoted text -/

/-- **Reading takes back what escaping did, whatever stands behind.** Wherever it is read from, a quoted text is one
string token with the text as its value, from the opening quote to the closing one on the same line, and what follows
has the tokens, or the fault, that it has alone. Escaping replaces five characters one after another and leaves no
newline. -/
theorem tokensFrom_quote (mode : LexMode) (p : Position) (s : String) (r : List Char) :
    let after : Position := ⟨p.byte + Text.byteLength (quote s), p.line, p.column + (quote s).length⟩
    let token : Token := ⟨.string s.toList, quote s, ⟨p.byte, after.byte, p.line, p.column⟩⟩
    tokensFrom mode p (quote s ++ r) = (lexedAt after (tokens mode r)).map (fun ts => token :: ts) ∧
      quote s = '"' :: (escape s.toList ++ ['"']) ∧ '\n' ∉ escape s.toList ∧
      escape s.toList = replaced '\r' ['\\', 'r'] (replaced '\t' ['\\', 't'] (replaced '\n' ['\\', 'n']
        (replaced '"' ['\\', '"'] (replaced '\\' ['\\', '\\'] s.toList)))) := by
  intro after token
  have hline : '\n' ∉ escape s.toList := newline_not_mem_escape s.toList
  have hafter : p.advanceAll (quote s) = after := p.advanceAll_line (by simp [quote, hline])
  have hread : readToken '"' (escape s.toList ++ ['"'] ++ r) = .token (.string s.toList) (quote s) r := by
    rw [List.append_assoc, List.singleton_append]
    simp only [readToken, readQuoted_escape]
    rfl
  have htoken : Token.at p (.string s.toList) (quote s) = token := by
    rw [Token.at, hafter]
  have hrest : tokensFrom mode after r = lexedAt after (tokens mode r) :=
    tokensFrom_eq_lexedAt after r
  refine ⟨?_, rfl, hline, escape_eq_replaced s.toList⟩
  rw [quote, List.cons_append, tokensFrom_token (by decide) hread, hafter, htoken, hrest]

-- Backslashes before a quote, before letters that an escape could mean, and at the end.
example : escape "\\\"\\n\n\\".toList = "\\\\\\\"\\\\n\\n\\\\".toList := by decide +kernel

end Grimoire.Source
