import Grimoire.Proofs.Decimal.Magnitude
import Grimoire.Proofs.Source.Joining
import Grimoire.Proofs.Source.Names
import Grimoire.Proofs.Source.Numerals
import Grimoire.Proofs.Source.RoundTrip

/-!
# Printed text in the strict mode

Every printed text has tokens in the strict mode, with one exception: a double of at least `10 ^ 16` is written
with a power of ten, and the plus sign of the power starts no token. So the source printed from the
declarations of another source has tokens exactly if no such double is in their data, and otherwise a plus
sign is the unexpected character (`tokens_printAll`).
-/
namespace Grimoire

/-! ## Large doubles -/

/-- A double of at least `10 ^ 16`, its sign apart. -/
def Number.isLarge : Number → Bool
  | .whole _ => false
  | .float x =>
    match Decimal.Shape.ofFloat x with
    | .finite d => d.atLeast (10 ^ 16)
    | _ => false

namespace Json

mutual

/-- Is there a large double in the data? -/
def hasLarge : Json → Bool
  | .null | .bool _ | .string _ => false
  | .number n => n.isLarge
  | .array items => hasLargeItems items
  | .object members => hasLargeMembers members
termination_by structural j => j

def hasLargeItems : List Json → Bool
  | [] => false
  | item :: items => item.hasLarge || hasLargeItems items
termination_by structural items => items

def hasLargeMembers : List (String × Json) → Bool
  | [] => false
  | (_, value) :: members => value.hasLarge || hasLargeMembers members
termination_by structural members => members

end

end Json

namespace Source

/-- All data of a declaration, that of its own spells too. -/
def Declaration.data : Declaration → List Json
  | spell s => [.object s.parameters]
  | character c => .object c.data :: .array c.relationships :: c.spells.map fun s => .object s.parameters
  | world w => [.object w.cosmology, .object w.geography, .array w.cultures, .array w.history]
  | archetype _ => []

def Declaration.hasLarge (d : Declaration) : Bool := d.data.any Json.hasLarge

/-! ## Text before a plus sign -/

/-- At every place the text has tokens in the strict mode. -/
def Lexable (x : List Char) : Prop := ∀ p, ∃ ts, Fragment .strict p x ts

/-- All of the text has tokens, or what stands before its first plus sign has; whether there is such a sign. -/
inductive Spelled : Bool → List Char → Prop
  | clear {x : List Char} (tokens : Lexable x) : Spelled false x
  | broken {front back : List Char} (tokens : Lexable front) (begun : front ≠ []) : Spelled true (front ++ '+' :: back)

variable {a b : Bool} {c : Char} {x y : List Char}

theorem Level.lexable (h : Level .strict x) : Lexable x := by
  intro p
  obtain ⟨ts, hts, -⟩ := h p
  exact ⟨ts, hts⟩

namespace Lexable

theorem nil : Lexable [] := fun _ => ⟨[], .nil⟩

theorem append (hx : Lexable x) (hy : Lexable y) (hend : EndsWord y) : Lexable (x ++ y) := by
  intro p
  obtain ⟨ts, hts⟩ := hx p
  obtain ⟨us, hus⟩ := hy (p.advanceAll x)
  exact ⟨ts ++ us, hts.append hus hend⟩

theorem quote (s : String) : Lexable (Source.quote s) := fun _ => ⟨_, fragment_quote s⟩

end Lexable

namespace Spelled

/-- A character that makes no other tokens of the text behind it. -/
theorem cons (hc : ∀ x, Lexable x → Lexable (c :: x)) (h : Spelled a x) : Spelled a (c :: x) := by
  cases h with
  | clear htokens => exact .clear (hc _ htokens)
  | broken htokens _ =>
    rw [← List.cons_append]
    exact .broken (hc _ htokens) (by simp)

theorem sign {kind : Kind} (hc : isSeparator c = false) (hread : ∀ y, readToken c y = .token kind [c] y)
    (h : Spelled a x) : Spelled a (c :: x) := by
  refine h.cons fun x hx p => ?_
  obtain ⟨ts, hts⟩ := hx (p.advance c)
  exact ⟨_, .sign hc hread hts⟩

theorem blank (hc : isSeparator c = true) (h : Spelled a x) : Spelled a (c :: x) := by
  refine h.cons fun x hx p => ?_
  obtain ⟨ts, hts⟩ := hx (p.advance c)
  exact ⟨_, .blank hc hts⟩

/-- A colon before a text that begins with another sign. -/
theorem colon (hc : c ≠ ':') (h : Spelled a (c :: x)) : Spelled a (':' :: c :: x) := by
  have one {x : List Char} (hx : Lexable (c :: x)) : Lexable (':' :: c :: x) := by
    intro p
    obtain ⟨ts, hts⟩ := hx (p.advance ':')
    exact ⟨_, .colon hc hts⟩
  generalize htext : c :: x = text at h
  cases h with
  | clear htokens =>
    subst htext
    exact .clear (one htokens)
  | @broken front back htokens hbegun =>
    cases front with
    | nil => exact absurd rfl hbegun
    | cons d front =>
      obtain ⟨rfl, rfl⟩ := List.cons.inj htext
      show Spelled true (':' :: c :: front ++ '+' :: back)
      exact .broken (one htokens) (by simp)

theorem append (hx : Spelled a x) (hy : Spelled b y) (hend : EndsWord y) : Spelled (a || b) (x ++ y) := by
  cases hx with
  | broken htokens hbegun =>
    rw [List.append_assoc, List.cons_append, Bool.true_or]
    exact .broken htokens hbegun
  | clear hx =>
    rw [Bool.false_or]
    cases hy with
    | clear hy => exact .clear (hx.append hy hend)
    | @broken front back hfront hbegun =>
      have hends : EndsWord front := by
        cases front with
        | nil => exact .nil
        | cons d front => exact .cons (hend d rfl) front
      rw [← List.append_assoc]
      exact .broken (hx.append hfront hends) (by simp [hbegun])

end Spelled

/-! ## Numbers -/

section
open Decimal

theorem AllDigits.append (hx : AllDigits x) (hy : y.all isAsciiDigit = true) : AllDigits (x ++ y) :=
  ⟨by simp [hx.1], by rw [List.all_append, hx.2, hy]; rfl⟩

theorem all_zeros (n : Nat) : (List.replicate n '0').all isAsciiDigit = true := by
  simp [List.all_replicate, show isAsciiDigit '0' = true by decide]

/-- Digits written by their places have no power of ten. -/
theorem numeralText_positional {ds : List Char} (hds : AllDigits ds) (point : Int) :
    NumeralText false (Layout.json.positional ds point) := by
  obtain ⟨hne, hall⟩ := hds
  have hzero : AllDigits ['0'] := ⟨by simp, rfl⟩
  unfold Layout.positional
  split
  · have hfraction : AllDigits (List.replicate (-point).toNat '0' ++ ds) :=
      ⟨by simp [hne], by rw [List.all_append, all_zeros, hall]; rfl⟩
    have htext := NumeralText.mk hzero (.point hfraction) .none
    simpa using htext
  · split
    · have htext := NumeralText.mk (AllDigits.append ⟨hne, hall⟩ (all_zeros (point.toNat - ds.length)))
        (.point hzero) .none
      simpa [Layout.json] using htext
    · next hpositive hlonger =>
      have hwhole : AllDigits (ds.take point.toNat) :=
        ⟨by simp [hne]; omega, List.all_eq_true.2 fun d hd => List.all_eq_true.1 hall d (List.mem_of_mem_take hd)⟩
      have hfraction : AllDigits (ds.drop point.toNat) :=
        ⟨by simpa using hlonger, List.all_eq_true.2 fun d hd => List.all_eq_true.1 hall d (List.mem_of_mem_drop hd)⟩
      have htext := NumeralText.mk hwhole (.point hfraction) .none
      simpa using htext

/-- Digits written with a power of ten, which has a plus sign unless it is negative. -/
theorem numeralText_scientific {ds : List Char} (hds : AllDigits ds) (power : Int) :
    NumeralText (decide (0 ≤ power)) (scientific ds power) := by
  obtain ⟨d, more, rfl, hd, hmore⟩ := hds.cons
  have hfirst : AllDigits [d] := ⟨by simp, by simp [hd]⟩
  have hraised : PowerText (decide (0 ≤ power))
      ('e' :: (if power < 0 then '-' else '+') :: numeral power.natAbs) := by
    by_cases h : power < 0
    · rw [if_pos h, decide_eq_false (by omega)]
      exact .minus (.inl rfl) (allDigits_numeral _)
    · rw [if_neg h, decide_eq_true (by omega)]
      exact .plus (.inl rfl) (allDigits_numeral _)
  cases more with
  | nil => exact .mk hfirst .none hraised
  | cons d' more => exact .mk hfirst (.point ⟨by simp, hmore⟩) hraised

/-- Only raised digits are written with a plus sign. -/
theorem numeralText_writeDigits (ds : Digits) :
    ∃ plus, NumeralText plus (Layout.json.writeDigits ds) ∧ (plus = true ↔ ds.IsRaised) := by
  unfold Layout.writeDigits
  split
  · next hzero =>
    have hdigit : AllDigits ['0'] := ⟨by simp, rfl⟩
    exact ⟨false, .mk hdigit (.point hdigit) .none, by simp [Digits.IsRaised, hzero]⟩
  · next hne =>
    dsimp only
    have hdigits := allDigits_numeral ds.digits
    have hpoint : ((numeral ds.digits).length : Int) + ds.exponent = ds.point := rfl
    rw [hpoint]
    by_cases hwindow : Layout.json.isPositional ds.point = true
    · rw [if_pos hwindow]
      refine ⟨false, numeralText_positional hdigits _, ?_⟩
      simp only [Layout.isPositional, Layout.json, Bool.and_eq_true, decide_eq_true_eq] at hwindow
      simp [Digits.IsRaised, hwindow.2]
    · rw [if_neg hwindow]
      refine ⟨_, numeralText_scientific hdigits _, ?_⟩
      simp only [Layout.isPositional, Layout.json, Bool.and_eq_true, decide_eq_true_eq] at hwindow
      rw [decide_eq_true_eq, Digits.IsRaised]
      omega

theorem NumeralText.spelled {plus : Bool} {sign : List Char} (h : NumeralText plus x) (hs : SignText sign) :
    Spelled plus (sign ++ x) := by
  cases plus with
  | false => exact .clear (h.level hs (by simp)).lexable
  | true =>
    obtain ⟨front, back, heq, hbegun, hfront⟩ := h.broken hs
    rw [heq]
    exact .broken hfront.lexable hbegun

/-- The text of a number is a numeral, or a word where there is no number. -/
theorem numberText_cases (n : Number) : (Json.numberText n = ['n', 'u', 'l', 'l'] ∧ n.isLarge = false) ∨
    ∃ sign w, Json.numberText n = sign ++ w ∧ SignText sign ∧ NumeralText n.isLarge w := by
  cases n with
  | whole n =>
    have htext := NumeralText.mk (allDigits_numeral n.val.natAbs) .none .none
    rw [List.append_nil, List.append_nil] at htext
    rw [Json.numberText, numeralInt]
    split
    · exact .inr ⟨['-'], _, rfl, .inr rfl, htext⟩
    · exact .inr ⟨[], _, rfl, .inl rfl, htext⟩
  | float x =>
    rw [Json.numberText, isFinite, Number.isLarge, Layout.write]
    cases hshape : Shape.ofFloat x with
    | infinite negative => exact .inl ⟨rfl, rfl⟩
    | notANumber => exact .inl ⟨rfl, rfl⟩
    | finite d =>
      obtain ⟨plus, htext, hplus⟩ := numeralText_writeDigits (Digits.ofDyadic d)
      rw [isRaised_ofDyadic (isDouble_ofBits hshape), ← Bool.eq_iff_iff] at hplus
      subst hplus
      refine .inr ⟨_, _, rfl, ?_, htext⟩
      split
      · exact .inr rfl
      · exact .inl rfl

/-- **A numeral breaks off exactly if it is that of a large double.** -/
theorem spelled_numberText (n : Number) : Spelled n.isLarge (Json.numberText n) := by
  rcases numberText_cases n with ⟨htext, hlarge⟩ | ⟨sign, w, htext, hs, hw⟩
  · rw [htext, hlarge]
    exact .clear (Level.word (by decide)).lexable
  · rw [htext]
    exact hw.spelled hs

end

/-! ## Data -/

/-- No value begins with a colon. -/
theorem compact_front (j : Json) : ∃ c cs, j.compact = c :: cs ∧ c ≠ ':' := by
  match j with
  | .null => exact ⟨'n', _, rfl, by decide⟩
  | .bool true => exact ⟨'t', _, rfl, by decide⟩
  | .bool false => exact ⟨'f', _, rfl, by decide⟩
  | .string s => exact ⟨'"', _, rfl, by decide⟩
  | .array items => exact ⟨'[', _, Json.compact_array items, by decide⟩
  | .object members => exact ⟨'\x7b', _, Json.compact_object members, by decide⟩
  | .number n =>
    rw [Json.compact]
    rcases numberText_cases n with ⟨htext, -⟩ | ⟨sign, w, htext, hs, hdigits, -, -⟩
    · exact ⟨'n', _, htext, by decide⟩
    · rw [htext]
      obtain ⟨c, cs, rfl, hc, -⟩ := hdigits.cons
      rcases hs with rfl | rfl
      · refine ⟨c, _, rfl, ?_⟩
        rintro rfl
        exact absurd hc (by decide)
      · exact ⟨'-', _, rfl, by decide⟩

theorem spelled_memberText (key : String) {value : Json} (h : Spelled value.hasLarge value.compact) :
    Spelled value.hasLarge (Json.memberText (key, value)) := by
  obtain ⟨c, cs, hcs, hc⟩ := compact_front value
  rw [hcs] at h
  have hall := (Spelled.clear (Level.quoted key.toList).lexable).append (.colon hc h) (.cons (by decide) _)
  rw [Json.memberText, hcs]
  exact hall

theorem Spelled.comma (h : Spelled a x) : Spelled a (',' :: x) := h.sign (by decide) fun _ => rfl

/-- A closing sign behind a text. -/
theorem Spelled.closed {kind : Kind} (h : Spelled a x) (hc : isSeparator c = false)
    (hread : ∀ y, readToken c y = .token kind [c] y) (hend : continuesWord c = false ∧ c ≠ '.') :
    Spelled a (x ++ [c]) := by
  have hclose : Spelled false [c] := .sign hc hread (.clear .nil)
  have hall := h.append hclose (.cons hend [])
  rwa [Bool.or_false] at hall

mutual

/-- **The compact text of data breaks off exactly at a large double.** -/
theorem spelled_compact : ∀ j : Json, Spelled j.hasLarge j.compact
  | .null => .clear (Level.word (by decide)).lexable
  | .bool true => .clear (Level.word (by decide)).lexable
  | .bool false => .clear (Level.word (by decide)).lexable
  | .string s => .clear (Level.quoted s.toList).lexable
  | .number n => spelled_numberText n
  | .array items => by
    rw [Json.compact_array]
    exact .sign (by decide) (fun _ => rfl)
      ((spelled_itemsText items).closed (by decide) (fun _ => rfl) (by decide))
  | .object members => by
    rw [Json.compact_object]
    exact .sign (by decide) (fun _ => rfl)
      ((spelled_membersText members).closed (by decide) (fun _ => rfl) (by decide))

theorem spelled_itemsText : ∀ items : List Json, Spelled (Json.hasLargeItems items) (Json.itemsText items)
  | [] => .clear .nil
  | item :: items => (spelled_compact item).append (spelled_items items) (endsWord_commaed _ _)

theorem spelled_items : ∀ items : List Json, Spelled (Json.hasLargeItems items) (Json.commaed Json.compact items)
  | [] => .clear .nil
  | item :: items => (spelled_compact item).comma.append (spelled_items items) (endsWord_commaed _ _)

theorem spelled_membersText : ∀ members : List (String × Json),
    Spelled (Json.hasLargeMembers members) (Json.membersText members)
  | [] => .clear .nil
  | (key, value) :: members =>
    (spelled_memberText key (spelled_compact value)).append (spelled_members members) (endsWord_commaed _ _)

theorem spelled_members : ∀ members : List (String × Json),
    Spelled (Json.hasLargeMembers members) (Json.commaed Json.memberText members)
  | [] => .clear .nil
  | (key, value) :: members =>
    (spelled_memberText key (spelled_compact value)).comma.append (spelled_members members) (endsWord_commaed _ _)

end

/-! ## Lines -/

/-- A spelled text that makes no word before it longer. -/
structure Piece (a : Bool) (x : List Char) : Prop where
  spelled : Spelled a x
  ends : EndsWord x

theorem Piece.nil : Piece false [] := ⟨.clear .nil, .nil⟩

theorem Piece.append (hx : Piece a x) (hy : Piece b y) : Piece (a || b) (x ++ y) :=
  ⟨hx.spelled.append hy.spelled hy.ends, hx.ends.append hy.ends⟩

theorem Piece.congr (h : Piece a x) (hab : a = b) : Piece b x := hab ▸ h

theorem Spelled.word (h : isWord x = true) : Spelled false x := .clear (Level.word h).lexable

theorem piece_clauseLine {indent : Nat} {word : String} {value : List Char} (hword : isWord word.toList = true)
    (h : Spelled a value) : Piece a (clauseLine indent word value) := by
  have hnewline : Spelled a (value ++ ['\n']) := h.closed (by decide) (fun _ => rfl) (by decide)
  have hvalue : Spelled a (word.toList ++ ' ' :: (value ++ ['\n'])) := by
    have hall := (Spelled.word hword).append (.blank (c := ' ') (by decide) hnewline) (.cons (by decide) _)
    rwa [Bool.false_or] at hall
  have hclause : Spelled a ('@' :: (word.toList ++ ' ' :: (value ++ ['\n']))) := hvalue.sign (by decide) fun _ => rfl
  rw [clauseLine]
  induction indent with
  | zero => exact ⟨hclause, .cons (by decide) _⟩
  | succ indent ih => exact ⟨ih.spelled.blank (by decide), .cons (by decide) _⟩

theorem piece_clauseUnless {empty : Bool} {indent : Nat} {word : String} {value : List Char}
    (hword : isWord word.toList = true) (hempty : empty = true → a = false) (h : Spelled a value) :
    Piece a (clauseUnless empty indent word value) := by
  unfold clauseUnless
  split
  · next he =>
    rw [hempty he]
    exact .nil
  · exact piece_clauseLine hword h

theorem piece_textClause {indent : Nat} {word text : String} (hword : isWord word.toList = true) :
    Piece false (textClause indent word text) :=
  piece_clauseUnless hword (fun _ => rfl) (.clear (.quote text))

theorem lexable_printWords (words : List String) : Lexable (printWords words) := by
  intro p
  have htakes : Takes .strict p (printWords words) (Context.wordList ⟨[], endOf []⟩) words := takes_words _ words
  obtain ⟨t, ts, hfragment, -⟩ := htakes
  exact ⟨_, hfragment⟩

theorem piece_wordsClause {indent : Nat} {word : String} {words : List String} (hword : isWord word.toList = true) :
    Piece false (wordsClause indent word words) :=
  piece_clauseUnless hword (fun _ => rfl) (.clear (lexable_printWords words))

theorem piece_mapClause {indent : Nat} {word : String} {members : Object} (hword : isWord word.toList = true) :
    Piece (Json.object members).hasLarge (mapClause indent word members) := by
  refine piece_clauseUnless hword (fun hempty => ?_) (spelled_compact (.object members))
  rw [List.isEmpty_iff.1 hempty]
  rfl

theorem piece_sequenceClause {indent : Nat} {word : String} {items : List Json} (hword : isWord word.toList = true) :
    Piece (Json.array items).hasLarge (sequenceClause indent word items) := by
  refine piece_clauseUnless hword (fun hempty => ?_) (spelled_compact (.array items))
  rw [List.isEmpty_iff.1 hempty]
  rfl

/-! ## Declarations -/

theorem piece_spell {s : Spell} (h : s.Named) (indent : Nat) :
    Piece (Json.object s.parameters).hasLarge (s.print indent) := by
  have hhead : Piece false (clauseLine indent "spell" s.name.toList) := piece_clauseLine (by decide) (.word h)
  have hlast : Piece false (clauseLine (indent + 2) "implementation" (quote s.implementation)) :=
    piece_clauseLine (by decide) (.clear (.quote _))
  refine .congr (((((hhead.append (piece_textClause (by decide))).append (piece_wordsClause (by decide))).append
    (piece_mapClause (by decide))).append (piece_textClause (by decide))).append hlast) ?_
  simp

/-- The lines of spells, in the order of the spells. -/
theorem piece_spells {spells : List Spell} (h : ∀ s ∈ spells, s.Named) :
    Piece (spells.any fun s => (Json.object s.parameters).hasLarge) (spells.flatMap (·.print 4)) := by
  induction spells with
  | nil => exact .nil
  | cons s spells ih =>
    exact (piece_spell (h s (by simp)) 4).append (ih fun t ht => h t (by simp [ht]))

theorem spelled_printSpells {spells : List Spell} (h : ∀ s ∈ spells, s.Named) :
    Spelled (spells.any fun s => (Json.object s.parameters).hasLarge) (printSpells spells) := by
  have hclose : Spelled false [']'] := .sign (by decide) (fun _ => rfl) (.clear .nil)
  have hend : Piece false [' ', ' ', ']'] :=
    ⟨.blank (by decide) (.blank (by decide) hclose), .cons (by decide) _⟩
  have hlines := (piece_spells h).append hend
  rw [Bool.or_false] at hlines
  exact .sign (by decide) (fun _ => rfl) (.sign (by decide) (fun _ => rfl) hlines.spelled)

theorem piece_character {c : Character} (h : c.Named) :
    Piece (Declaration.character c).hasLarge c.print := by
  have hhead : Piece false (clauseLine 0 "character" c.name.toList) := piece_clauseLine (by decide) (.word h.1)
  have hspells : Piece (c.spells.any fun s => (Json.object s.parameters).hasLarge)
      (clauseUnless c.spells.isEmpty 2 "arc_spells" (printSpells c.spells)) := by
    refine piece_clauseUnless (by decide) (fun hempty => ?_) (spelled_printSpells h.2)
    rw [List.isEmpty_iff.1 hempty]
    rfl
  refine .congr ((((((hhead.append (piece_textClause (by decide))).append (piece_wordsClause (by decide))).append
    (piece_mapClause (by decide))).append (piece_textClause (by decide))).append
    (piece_sequenceClause (by decide))).append hspells) ?_
  simp [Declaration.hasLarge, Declaration.data, Bool.or_assoc, Function.comp_def]

theorem piece_world {w : World} (h : isWord w.name.toList = true) :
    Piece (Declaration.world w).hasLarge w.print := by
  have hhead : Piece false (clauseLine 0 "world" w.name.toList) := piece_clauseLine (by decide) (.word h)
  refine .congr ((((hhead.append (piece_mapClause (by decide))).append (piece_mapClause (by decide))).append
    (piece_sequenceClause (by decide))).append (piece_sequenceClause (by decide))) ?_
  simp [Declaration.hasLarge, Declaration.data, Bool.or_assoc]

theorem piece_archetype {a : Archetype} (h : isWord a.name.toList = true) : Piece false a.print := by
  have hcolons : Lexable (':' :: ':' :: ' ' :: quote a.description) := by
    intro p
    obtain ⟨ts, hts⟩ := Lexable.quote a.description (((p.advance ':').advance ':').advance ' ')
    exact ⟨_, .doubleColon (.blank (by decide) hts)⟩
  have hvalue : Spelled false (a.name.toList ++ ' ' :: (':' :: ':' :: ' ' :: quote a.description)) :=
    (Spelled.word h).append (.blank (by decide) (.clear hcolons)) (.cons (by decide) _)
  have hline : Piece false (clauseLine 0 "archetype"
      (a.name.toList ++ ' ' :: (':' :: ':' :: ' ' :: quote a.description))) := piece_clauseLine (by decide) hvalue
  simpa [Archetype.print] using hline

theorem piece_print {d : Declaration} (h : d.Named) : Piece d.hasLarge d.print := by
  cases d with
  | spell s => exact (piece_spell h 0).congr (by simp [Declaration.hasLarge, Declaration.data])
  | character c => exact piece_character h
  | world w => exact piece_world h
  | archetype a => exact piece_archetype h

theorem piece_printAll {ds : List Declaration} (h : ∀ d ∈ ds, d.Named) :
    Piece (ds.any Declaration.hasLarge) (printAll ds) := by
  induction ds with
  | nil => exact .nil
  | cons d ds ih =>
    have hrest := ih fun e he => h e (by simp [he])
    have hbehind : Piece (ds.any Declaration.hasLarge) (if ds.isEmpty then [] else '\n' :: printAll ds) := by
      by_cases hempty : ds.isEmpty = true
      · rw [if_pos hempty, List.isEmpty_iff.1 hempty]
        exact .nil
      · rw [if_neg hempty]
        exact ⟨hrest.spelled.sign (by decide) fun _ => rfl, .cons (by decide) _⟩
    rw [printAll_cons]
    exact (piece_print (h d (by simp))).append hbehind

/-! ## The strict mode -/

/-- A spelled text has tokens in the strict mode, or its first plus sign is the unexpected character. -/
theorem Spelled.tokens (h : Spelled a x) : if a then
    ∃ line column, tokens .strict x = .error (.unexpectedCharacter '+' line column)
    else ∃ ts, tokens .strict x = .ok ts := by
  cases h with
  | clear htokens =>
    obtain ⟨ts, hts⟩ := htokens .start
    exact ⟨_, tokens_eq_ok.2 ⟨ts, rfl, hts.lexes⟩⟩
  | @broken front back htokens _ =>
    obtain ⟨ts, hts⟩ := htokens .start
    let p := Position.start.advanceAll front
    have hplus : tokensFrom .strict p ('+' :: back) = .error (.unexpectedCharacter '+' p.line p.column) :=
      tokensFrom_unexpected (by decide) rfl
    have happend := hts.lexes.tokensFrom_append (y := '+' :: back) (.cons (by decide) back)
    rw [hplus] at happend
    exact ⟨p.line, p.column, happend⟩

/-- **The printer stays inside the strict alphabet, but for the plus sign of large doubles.** The source printed
from what any source declares has tokens in the strict mode exactly if no double of at least `10 ^ 16` is in the
data of the declarations; if one is, a plus sign is the unexpected character. -/
theorem tokens_printAll {mode : LexMode} {source : String} {program : Program}
    (h : parseSource mode source = .ok program) :
    ((∃ ts, tokens .strict (printAll program.declarations) = .ok ts) ↔
      ∀ d ∈ program.declarations, ∀ j ∈ d.data, j.hasLarge = false) ∧
    ((∃ d ∈ program.declarations, ∃ j ∈ d.data, j.hasLarge = true) → ∃ line column,
      tokens .strict (printAll program.declarations) = .error (.unexpectedCharacter '+' line column)) := by
  have hspelled := (piece_printAll (names_of_parseSource h)).spelled.tokens
  have hlarge : program.declarations.any Declaration.hasLarge = true ↔
      ∃ d ∈ program.declarations, ∃ j ∈ d.data, j.hasLarge = true := by
    simp [Declaration.hasLarge]
  have hclear : program.declarations.any Declaration.hasLarge = false ↔
      ∀ d ∈ program.declarations, ∀ j ∈ d.data, j.hasLarge = false := by
    simp [Declaration.hasLarge]
  rw [← hlarge, ← hclear]
  cases hany : program.declarations.any Declaration.hasLarge with
  | false =>
    rw [hany] at hspelled
    exact ⟨iff_of_true hspelled rfl, by simp⟩
  | true =>
    rw [hany] at hspelled
    refine ⟨iff_of_false ?_ (by decide), fun _ => hspelled⟩
    rintro ⟨ts, hts⟩
    obtain ⟨line, column, herror⟩ := hspelled
    rw [hts] at herror
    cases herror

/-- Small powers, the last double below the bound and the largest whole number; and a double beyond all of them. -/
theorem tokens_printAll_numbers :
    (∃ program, parseSource .strict
        "@spell A\n@parameters \x7b\"n\": [1.5e-7, 9999999999999998.0, 18446744073709551615]\x7d\n@implementation \"x\"" =
        .ok program ∧ ∃ ts, tokens .strict (printAll program.declarations) = .ok ts) ∧
    ∃ program, parseSource .strict "@world W\n@history [\"+\", -123456789012345678901]" = .ok program ∧
      ∃ line column, tokens .strict (printAll program.declarations) = .error (.unexpectedCharacter '+' line column) := by
  obtain ⟨small, hsmall, hclear⟩ : ∃ program, parseSource .strict
      "@spell A\n@parameters \x7b\"n\": [1.5e-7, 9999999999999998.0, 18446744073709551615]\x7d\n@implementation \"x\"" =
      .ok program ∧ (program.declarations.all fun d => d.data.all fun j => !j.hasLarge) = true :=
    exists_ok (by decide +kernel)
  obtain ⟨large, hlarge, hbroken⟩ : ∃ program,
      parseSource .strict "@world W\n@history [\"+\", -123456789012345678901]" = .ok program ∧
      (program.declarations.any fun d => d.data.any fun j => j.hasLarge) = true := exists_ok (by decide +kernel)
  refine ⟨⟨small, hsmall, (tokens_printAll hsmall).1.2 (by simpa using hclear)⟩, large, hlarge, ?_⟩
  exact (tokens_printAll hlarge).2 (by simpa using hbroken)

/-- The smallest large double, in a source without faults. -/
theorem large_double_unexpected : ∃ program,
    parseSource .strict "@character C\n@data \x7b\"a\": 1e16\x7d\n" = .ok program ∧ program.errors.length = 0 ∧
      tokens .strict (printAll program.declarations) = .error (.unexpectedCharacter '+' 2 16) := by
  obtain ⟨program, hparse, h⟩ : ∃ program,
      parseSource .strict "@character C\n@data \x7b\"a\": 1e16\x7d\n" = .ok program ∧
      (program.isClean && match tokens .strict (printAll program.declarations) with
        | .error e => decide (e = .unexpectedCharacter '+' 2 16)
        | .ok _ => false) = true := exists_ok (by decide +kernel)
  obtain ⟨hclean, hbroken⟩ := Bool.and_eq_true_iff.1 h
  refine ⟨program, hparse, by simpa [Program.isClean] using hclean, ?_⟩
  cases htokens : tokens .strict (printAll program.declarations) with
  | error e => rw [htokens] at hbroken; rw [of_decide_eq_true hbroken]
  | ok ts => rw [htokens] at hbroken; cases hbroken

end Source

end Grimoire
