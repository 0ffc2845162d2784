import Grimoire.Json.Reader
import Grimoire.Json.Printer
import Grimoire.Proofs.Decimal.Words

/-!
# Compact text reads back

`read?_compact`: data without doubles and without repeated keys is what its compact text reads as,
as long as no more than `maxDepth` containers stand inside each other. Numerals, strings and values
each have the lemma that their reader takes them from the front of a longer text.
-/
namespace Grimoire

namespace Json

/-- What may follow a value: nothing that would make its numeral longer. -/
def EndsValue (rest : List Char) : Prop :=
  ∀ c, rest.head? = some c → c.isDigit = false ∧ c ≠ '.' ∧ c ≠ 'e' ∧ c ≠ 'E'

theorem EndsValue.nil : EndsValue [] := by
  intro c hc
  simp at hc

theorem EndsValue.digits {rest : List Char} (h : EndsValue rest) : Decimal.EndsDigits rest :=
  fun c hc => (h c hc).1

theorem readWhole_numeral (n : Nat) {rest : List Char} (h : EndsValue rest) :
    readWhole (Decimal.numeral n ++ rest) =
      some ((Decimal.numeral n).map fun c => c.toNat - '0'.toNat, rest) := by
  have htake := Decimal.takeDigits_append (Decimal.isDigit_numeral n) h.digits
  by_cases hn : n = 0
  · subst hn
    have hrest := Decimal.takeDigits_of_endsDigits h.digits
    simp [Decimal.numeral, readWhole, hrest]
  · have hhead := Decimal.head_numeral hn
    obtain ⟨c, cs, hcs⟩ := List.exists_cons_of_ne_nil (Nat.toDigits_ne_nil (n := n) (b := 10))
    rw [show Decimal.numeral n = c :: cs from hcs] at hhead htake ⊢
    have hc : c ≠ '0' := by simpa using hhead
    rw [List.cons_append] at htake ⊢
    unfold readWhole
    split
    · next heq => exact absurd (List.cons.inj heq).1 hc
    · rw [htake]
      rfl

theorem readFraction_of_endsValue {rest : List Char} (h : EndsValue rest) :
    readFraction rest = some (none, rest) := by
  unfold readFraction
  split
  · exact absurd rfl (h '.' rfl).2.1
  · rfl

theorem readPower_of_endsValue {rest : List Char} (h : EndsValue rest) : readPower rest = some (none, rest) := by
  unfold readPower
  split
  · exact absurd rfl (h 'e' rfl).2.2.1
  · exact absurd rfl (h 'E' rfl).2.2.2
  · rfl

/-- The numeral of a number of 64 bits without its sign. -/
theorem readNumber_numeral (negative : Bool) {n : Nat} {w : Whole} {rest : List Char}
    (hval : w.val = if negative then -(n : Int) else n) (hzero : negative = true → n ≠ 0)
    (h : EndsValue rest) :
    readNumber negative (Decimal.numeral n ++ rest) = some (.number (.whole w), rest) := by
  have hw : Whole.ofInt? (if negative then -(n : Int) else n) = some w := by
    rw [← hval, Whole.ofInt?, dif_pos ⟨w.lower, w.upper⟩]
  have hnum : ofNumeral? negative ((Decimal.numeral n).map fun c => c.toNat - '0'.toNat) none none =
      some (.whole w) := by
    simp only [ofNumeral?, Decimal.ofDigits_numeral]
    rw [if_neg]
    · rw [hw]
    · intro hboth
      obtain ⟨hneg, hn⟩ := Bool.and_eq_true_iff.1 hboth
      exact hzero hneg (by simpa using hn)
  simp only [readNumber, readWhole_numeral n h, Option.bind_eq_bind, Option.bind_some,
    readFraction_of_endsValue h, readPower_of_endsValue h, hnum]
  rfl

/-! ## Strings -/

theorem unit?_hexDigit : ∀ n < 32, unit? '0' '0' (hexDigit (n / 16)) (hexDigit (n % 16)) = some n := by
  decide

/-- One character of a string, escaped or not. -/
theorem readString_escapeChar (c : Char) (rest : List Char) :
    readString (escapeChar c ++ rest) = (readString rest).map fun (cs, r) => (c :: cs, r) := by
  unfold escapeChar
  split
  · next h => subst h; rfl
  split
  · next h => subst h; rfl
  split
  · next h => subst h; rfl
  split
  · next h => subst h; rfl
  split
  · next h => subst h; rfl
  split
  · next h => subst h; rfl
  split
  · next h => subst h; rfl
  split
  · next h =>
    have hunit := unit?_hexDigit c.toNat h
    have hhigh : isHighHalf c.toNat = false := by simp [isHighHalf]; omega
    have hlow : isLowHalf c.toNat = false := by simp [isLowHalf]; omega
    have hc : Char.ofNat c.toNat = c := Char.ofNat_toNat c
    simp only [List.cons_append, List.nil_append]
    rw [readString.eq_def]
    simp [hunit, hhigh, hlow, hc]
  · next hquote hslash _ _ _ _ _ hcontrol =>
    simp only [List.cons_append, List.nil_append]
    rw [readString.eq_def]
    split
    · next heq => simp at heq
    · next heq => exact absurd (List.cons.inj heq).1 hquote
    · next heq => exact absurd (List.cons.inj heq).1 hslash
    · next heq => exact absurd (List.cons.inj heq).1 hslash
    · next heq =>
      obtain ⟨rfl, rfl⟩ := List.cons.inj heq
      rw [if_neg]
      simp [hcontrol, hslash]

theorem readString_quote (cs rest : List Char) :
    readString (cs.flatMap escapeChar ++ '"' :: rest) = some (cs, rest) := by
  induction cs with
  | nil => rfl
  | cons c cs ih =>
    rw [List.flatMap_cons, List.append_assoc, readString_escapeChar, ih]
    rfl

/-! ## Values -/

mutual

/-- Data that its text determines: no doubles, and no key twice in an object. -/
def isExact : Json → Bool
  | .null | .bool _ | .string _ | .number (.whole _) => true
  | .number (.float _) => false
  | .array items => isExactItems items
  | .object members => isExactMembers members && decide (Object.keys members).Nodup
termination_by structural j => j

def isExactItems : List Json → Bool
  | [] => true
  | item :: items => item.isExact && isExactItems items
termination_by structural items => items

def isExactMembers : List (String × Json) → Bool
  | [] => true
  | (_, value) :: members => value.isExact && isExactMembers members
termination_by structural members => members

end

mutual

/-- How many containers stand inside each other, the outermost included. -/
def depth : Json → Nat
  | .null | .bool _ | .number _ | .string _ => 0
  | .array items => depthItems items + 1
  | .object members => depthMembers members + 1
termination_by structural j => j

def depthItems : List Json → Nat
  | [] => 0
  | item :: items => max item.depth (depthItems items)
termination_by structural items => items

def depthMembers : List (String × Json) → Nat
  | [] => 0
  | (_, value) :: members => max value.depth (depthMembers members)
termination_by structural members => members

end

section
variable {item value : Json} {items : List Json} {key : String} {members : List (String × Json)} {d : Nat}

theorem isExactItems_cons :
    isExactItems (item :: items) = true ↔ item.isExact = true ∧ isExactItems items = true := by
  simp [isExactItems]

theorem isExactMembers_cons :
    isExactMembers ((key, value) :: members) = true ↔ value.isExact = true ∧ isExactMembers members = true := by
  simp [isExactMembers]

theorem isExact_object :
    (object members).isExact = true ↔ isExactMembers members = true ∧ (Object.keys members).Nodup := by
  simp [isExact]

theorem depthItems_cons : depthItems (item :: items) ≤ d ↔ item.depth ≤ d ∧ depthItems items ≤ d := by
  rw [depthItems, Nat.max_le]

theorem depthMembers_cons :
    depthMembers ((key, value) :: members) ≤ d ↔ value.depth ≤ d ∧ depthMembers members ≤ d := by
  rw [depthMembers, Nat.max_le]

end

theorem isBlank_of_isDigit {c : Char} (h : c.isDigit = true) : isBlank c = false := by
  have hne : ∀ d : Char, d.isDigit = false → c ≠ d := by
    rintro d hd rfl
    simp [hd] at h
  simp [isBlank, hne ' ' (by decide), hne '\n' (by decide), hne '\t' (by decide), hne '\r' (by decide)]

/-- What the text of exact data begins with: no blank and no sign that stands behind a value. -/
structure Leads (c : Char) : Prop where
  solid : isBlank c = false
  noEnd : c ≠ ']'
  noColon : c ≠ ':'

theorem compact_cons {j : Json} (hj : j.isExact = true) : ∃ c cs, j.compact = c :: cs ∧ Leads c := by
  have leads {c : Char} {cs : List Char} (hc : isBlank c = false ∧ c ≠ ']' ∧ c ≠ ':') :
      ∃ c' cs', c :: cs = c' :: cs' ∧ Leads c' := ⟨c, cs, rfl, hc.1, hc.2.1, hc.2.2⟩
  match j with
  | .null => exact leads (by decide)
  | .bool true => exact leads (by decide)
  | .bool false => exact leads (by decide)
  | .string s => exact leads (by decide)
  | .array [] => exact leads (by decide)
  | .array (item :: items) => exact leads (by decide)
  | .object [] => exact leads (by decide)
  | .object ((key, value) :: members) => exact leads (by decide)
  | .number (.float x) => simp [isExact] at hj
  | .number (.whole w) =>
    rw [compact, numberText, Decimal.numeralInt]
    split
    · exact leads (by decide)
    · obtain ⟨c, cs, hcs⟩ := List.exists_cons_of_ne_nil (Nat.toDigits_ne_nil (n := w.val.natAbs) (b := 10))
      have hdigit := Decimal.isDigit_numeral w.val.natAbs c
      rw [Decimal.numeral, hcs] at hdigit ⊢
      have hc : c.isDigit = true := hdigit (by simp)
      refine leads ⟨isBlank_of_isDigit hc, ?_, ?_⟩
      · rintro rfl
        exact absurd hc (by decide)
      · rintro rfl
        exact absurd hc (by decide)

theorem skipBlanks_solid {c : Char} (cs : List Char) (h : isBlank c = false) : skipBlanks (c :: cs) = c :: cs := by
  simp [skipBlanks, h]

theorem length_compact_pos {j : Json} (hj : j.isExact = true) : 0 < j.compact.length := by
  obtain ⟨c, cs, hcs, _⟩ := compact_cons hj
  rw [hcs]
  exact Nat.succ_pos _

/-! ## Objects -/

theorem insert_of_absent {o : Object} {key : String} {value : Json} (h : key ∉ Object.keys o) :
    Object.insert o key value = o ++ [(key, value)] := by
  induction o with
  | nil => rfl
  | cons m o ih =>
    obtain ⟨k, v⟩ := m
    have hk : ¬ key = k ∧ key ∉ Object.keys o := by simpa [Object.keys] using h
    have hne : (k == key) = false := by simpa using fun heq => hk.1 heq.symm
    simp [Object.insert, hne, ih hk.2]

/-- Members without a repeated key are inserted in their order. -/
theorem ofList_of_nodup {members : Object} (h : (Object.keys members).Nodup) : Object.ofList members = members := by
  have insertAll : ∀ (ms o : Object), (Object.keys (o ++ ms)).Nodup →
      ms.foldl (fun o m => Object.insert o m.1 m.2) o = o ++ ms := by
    intro ms
    induction ms with
    | nil => simp
    | cons m ms ih =>
      intro o ho
      have habsent : m.1 ∉ Object.keys o := by
        intro hmem
        simp only [Object.keys, List.map_append, List.map_cons] at ho
        exact (List.nodup_append.1 ho).2.2 m.1 hmem m.1 (by simp) rfl
      rw [List.foldl_cons, insert_of_absent habsent]
      simpa using ih (o ++ [m]) (by simpa using ho)
  exact insertAll members [] (by simpa using h)

/-! ## Reading values back -/

theorem endsValue_of_comma (rest : List Char) : EndsValue (',' :: rest) := by
  intro c hc
  obtain rfl : ',' = c := by simpa using hc
  decide

theorem endsValue_compactItems (items : List Json) (rest : List Char) :
    EndsValue (compactItems items ++ rest) := by
  cases items with
  | nil =>
    intro c hc
    obtain rfl : ']' = c := by simpa [compactItems] using hc
    decide
  | cons item items => exact endsValue_of_comma _

theorem endsValue_compactMembers (members : Object) (rest : List Char) :
    EndsValue (compactMembers members ++ rest) := by
  cases members with
  | nil =>
    intro c hc
    obtain rfl : '}' = c := by simpa [compactMembers] using hc
    decide
  | cons m members => exact endsValue_of_comma _

theorem readValue_digit {c : Char} (d fuel : Nat) (cs : List Char) (h : c.isDigit = true) :
    readValue d (fuel + 1) (c :: cs) = readNumber false (c :: cs) := by
  have hblank : skipBlanks (c :: cs) = c :: cs := by simp [skipBlanks, isBlank_of_isDigit h]
  rw [readValue, hblank]
  split
  all_goals first
    | rfl
    | next heq =>
      obtain ⟨rfl, _⟩ := List.cons.inj heq
      exact absurd h (by decide)

theorem readValue_items {c : Char} (d fuel : Nat) (cs : List Char) (hsolid : isBlank c = false) (hend : c ≠ ']') :
    readValue (d + 1) (fuel + 1) ('[' :: c :: cs) =
      (readItems d fuel (c :: cs)).map fun (items, rest) => (.array items, rest) := by
  rw [readValue]
  simp only [skipBlanks_solid (c := '[') _ (by decide), skipBlanks_solid cs hsolid]
  split
  · next heq => exact absurd (List.cons.inj heq).1 hend
  · rfl

theorem readValue_members {c : Char} (d fuel : Nat) (cs : List Char) (hsolid : isBlank c = false) (hend : c ≠ '}') :
    readValue (d + 1) (fuel + 1) ('{' :: c :: cs) =
      (readMembers d fuel (c :: cs)).map fun (ms, rest) => (.object (Object.ofList ms), rest) := by
  rw [readValue]
  simp only [skipBlanks_solid (c := '{') _ (by decide), skipBlanks_solid cs hsolid]
  split
  · next heq => exact absurd (List.cons.inj heq).1 hend
  · rfl

section
variable {key : String} {value : Json} {d fuel : Nat} {cs rest : List Char}

theorem readMembers_last (h : readValue d fuel cs = some (value, '}' :: rest)) :
    readMembers d (fuel + 1) (quote key.toList ++ ':' :: cs) = some ([(key, value)], rest) := by
  have hkey := readString_quote key.toList (':' :: cs)
  rw [quote, List.cons_append, List.append_assoc, List.singleton_append, readMembers]
  simp only [skipBlanks_solid (c := '"') _ (by decide), hkey]
  have hcolon : skipBlanks (':' :: cs) = ':' :: cs := rfl
  have hbrace : skipBlanks ('}' :: rest) = '}' :: rest := rfl
  simp only [hcolon, h, hbrace, String.ofList_toList]

theorem readMembers_more {more : List (String × Json)} {last : List Char}
    (h : readValue d fuel cs = some (value, ',' :: rest)) (hmore : readMembers d fuel rest = some (more, last)) :
    readMembers d (fuel + 1) (quote key.toList ++ ':' :: cs) = some ((key, value) :: more, last) := by
  have hkey := readString_quote key.toList (':' :: cs)
  rw [quote, List.cons_append, List.append_assoc, List.singleton_append, readMembers]
  simp only [skipBlanks_solid (c := '"') _ (by decide), hkey]
  have hcolon : skipBlanks (':' :: cs) = ':' :: cs := rfl
  have hcomma : skipBlanks (',' :: rest) = ',' :: rest := rfl
  simp only [hcolon, h, hcomma, hmore, Option.map_some, String.ofList_toList]

end

mutual

/-- The compact text of exact data is read back, whatever follows it. -/
theorem readValue_compact : ∀ (j : Json) (d fuel : Nat) (rest : List Char), j.isExact = true → j.depth ≤ d →
    j.compact.length ≤ fuel → EndsValue rest → readValue d fuel (j.compact ++ rest) = some (j, rest)
  | .null, d, fuel + 1, rest, _, _, _, _ => rfl
  | .bool true, d, fuel + 1, rest, _, _, _, _ => rfl
  | .bool false, d, fuel + 1, rest, _, _, _, _ => rfl
  | .number (.whole w), d, 0, rest, hj, _, hfuel, _ => absurd (length_compact_pos hj) (by omega)
  | .number (.whole w), d, fuel + 1, rest, _, _, _, hrest => by
    rw [compact, numberText, Decimal.numeralInt]
    by_cases hneg : w.val < 0
    · rw [if_pos hneg]
      have hval : w.val = if true then -(w.val.natAbs : Int) else w.val.natAbs := by
        rw [if_pos rfl]
        omega
      exact readNumber_numeral true hval (by omega) hrest
    · rw [if_neg hneg]
      obtain ⟨c, cs, hcs⟩ := List.exists_cons_of_ne_nil (Nat.toDigits_ne_nil (n := w.val.natAbs) (b := 10))
      have hdigit := Decimal.isDigit_numeral w.val.natAbs c
      have hval : w.val = if false then -(w.val.natAbs : Int) else w.val.natAbs := by
        rw [if_neg Bool.false_ne_true]
        omega
      have hread := readNumber_numeral false hval (by simp) hrest
      rw [Decimal.numeral, hcs] at hdigit hread ⊢
      rw [List.cons_append] at hread ⊢
      rw [readValue_digit d fuel _ (hdigit (by simp)), hread]
  | .string s, d, fuel + 1, rest, _, _, _, _ => by
    have h := readString_quote s.toList rest
    rw [compact, quote, List.cons_append, List.append_assoc]
    change (readString (s.toList.flatMap escapeChar ++ '"' :: rest)).map _ = _
    rw [h]
    simp
  | .array [], d + 1, fuel + 1, rest, _, _, _, _ => rfl
  | .array (item :: items), d + 1, fuel + 1, rest, hj, hd, hfuel, _ => by
    have hitem := isExactItems_cons.1 hj
    have hdepth := depthItems_cons.1 (Nat.le_of_succ_le_succ hd)
    have hlength : (item.compact ++ compactItems items).length ≤ fuel := by simpa [compact] using hfuel
    obtain ⟨c, cs, hcs, hc⟩ := compact_cons hitem.1
    have hread := readItems_compact item items d fuel rest hitem.1 hitem.2 hdepth.1 hdepth.2 hlength
    rw [hcs] at hread
    simp only [compact, hcs, List.cons_append] at hread ⊢
    rw [readValue_items d fuel _ hc.solid hc.noEnd, hread]
    rfl
  | .object [], d + 1, fuel + 1, rest, _, _, _, _ => rfl
  | .object ((key, value) :: members), d + 1, fuel + 1, rest, hj, hd, hfuel, _ => by
    obtain ⟨hexact, hkeys⟩ := isExact_object.1 hj
    have hmembers := isExactMembers_cons.1 hexact
    have hdepth := depthMembers_cons.1 (Nat.le_of_succ_le_succ hd)
    have hlength : (quote key.toList ++ ':' :: (value.compact ++ compactMembers members)).length ≤ fuel := by
      simpa [compact] using hfuel
    have hread := readMembers_compact key value members d fuel rest hmembers.1 hmembers.2 hdepth.1 hdepth.2
      hlength
    simp only [compact, quote, List.cons_append] at hread ⊢
    rw [readValue_members _ _ _ (by decide) (by decide), hread, Option.map_some]
    dsimp only
    rw [ofList_of_nodup hkeys]

theorem readItems_compact : ∀ (item : Json) (items : List Json) (d fuel : Nat) (rest : List Char),
    item.isExact = true → isExactItems items = true → item.depth ≤ d → depthItems items ≤ d →
    (item.compact ++ compactItems items).length ≤ fuel →
    readItems d fuel (item.compact ++ compactItems items ++ rest) = some (item :: items, rest)
  | item, items, d, 0, rest, hitem, _, _, _, hfuel => by
    have hpos := length_compact_pos hitem
    rw [List.length_append] at hfuel
    omega
  | item, [], d, fuel + 1, rest, hitem, _, hd, _, hfuel => by
    have hfirst : item.compact.length ≤ fuel := by
      rw [List.length_append, compactItems, List.length_singleton] at hfuel
      omega
    have hread := readValue_compact item d fuel (']' :: rest) hitem hd hfirst (endsValue_compactItems [] rest)
    rw [compactItems, List.append_assoc, readItems, List.singleton_append, hread]
    rfl
  | item, next :: items, d, fuel + 1, rest, hitem, hitems, hd, hds, hfuel => by
    obtain ⟨hnext, hmore⟩ := isExactItems_cons.1 hitems
    obtain ⟨hdnext, hdmore⟩ := depthItems_cons.1 hds
    have hpos := length_compact_pos hitem
    have hlengths : item.compact.length ≤ fuel ∧ (next.compact ++ compactItems items).length ≤ fuel := by
      rw [List.length_append, compactItems, List.length_cons] at hfuel
      omega
    have hread := readValue_compact item d fuel _ hitem hd hlengths.1
      (endsValue_compactItems (next :: items) rest)
    have hnexts := readItems_compact next items d fuel rest hnext hmore hdnext hdmore hlengths.2
    rw [List.append_assoc, readItems, hread]
    simp only [compactItems, List.cons_append, skipBlanks_solid (c := ',') _ (by decide)]
    rw [hnexts]
    rfl

theorem readMembers_compact : ∀ (key : String) (value : Json) (members : List (String × Json)) (d fuel : Nat)
    (rest : List Char), value.isExact = true → isExactMembers members = true → value.depth ≤ d →
    depthMembers members ≤ d →
    (quote key.toList ++ ':' :: (value.compact ++ compactMembers members)).length ≤ fuel →
    readMembers d fuel (quote key.toList ++ ':' :: (value.compact ++ compactMembers members) ++ rest) =
      some ((key, value) :: members, rest)
  | key, value, members, d, 0, rest, _, _, _, _, hfuel => by simp [quote] at hfuel
  | key, value, [], d, fuel + 1, rest, hvalue, _, hd, _, hfuel => by
    have hfirst : value.compact.length ≤ fuel := by
      simp only [quote, compactMembers, List.length_append, List.length_cons] at hfuel
      omega
    have hread := readValue_compact value d fuel ('}' :: rest) hvalue hd hfirst (endsValue_compactMembers [] rest)
    simp only [compactMembers, List.append_assoc, List.cons_append, List.nil_append]
    exact readMembers_last hread
  | key, value, (k, v) :: members, d, fuel + 1, rest, hvalue, hmembers, hd, hds, hfuel => by
    obtain ⟨hv, hmore⟩ := isExactMembers_cons.1 hmembers
    obtain ⟨hdv, hdmore⟩ := depthMembers_cons.1 hds
    have hlengths : value.compact.length ≤ fuel ∧
        (quote k.toList ++ ':' :: (v.compact ++ compactMembers members)).length ≤ fuel := by
      rw [List.length_append, List.length_cons, List.length_append, compactMembers, List.length_cons] at hfuel
      omega
    have hread := readValue_compact value d fuel _ hvalue hd hlengths.1
      (endsValue_compactMembers ((k, v) :: members) rest)
    have hnexts := readMembers_compact k v members d fuel rest hv hmore hdv hdmore hlengths.2
    rw [List.append_assoc, List.cons_append, List.append_assoc]
    exact readMembers_more hread hnexts

end

/-- **Compact text reads back**: exact data with few enough containers inside each other is read from its
own text. -/
theorem read?_compact {j : Json} (hj : j.isExact = true) (hd : j.depth ≤ maxDepth) : read? j.compact = some j := by
  have h := readValue_compact j maxDepth (j.compact.length + 1) [] hj hd (Nat.le_succ _) .nil
  rw [List.append_nil] at h
  rw [read?, h]
  rfl

/-! ## Text between delimiters -/

/-- Texts with a comma before each. -/
def commaed {α : Type} (text : α → List Char) (as : List α) : List Char := as.flatMap fun a => ',' :: text a

def memberText (m : String × Json) : List Char := quote m.1.toList ++ ':' :: m.2.compact

/-- What stands between the brackets of a list. -/
def itemsText : List Json → List Char
  | [] => []
  | item :: items => item.compact ++ commaed compact items

/-- What stands between the braces of an object. -/
def membersText : List (String × Json) → List Char
  | [] => []
  | m :: members => memberText m ++ commaed memberText members

theorem compactItems_eq (items : List Json) : compactItems items = commaed compact items ++ [']'] := by
  induction items with
  | nil => rfl
  | cons item items ih => simp [compactItems, commaed, ih]

theorem compactMembers_eq (members : List (String × Json)) :
    compactMembers members = commaed memberText members ++ ['}'] := by
  induction members with
  | nil => rfl
  | cons m members ih => simp [compactMembers, commaed, memberText, ih]

theorem compact_array (items : List Json) : (array items).compact = '[' :: (itemsText items ++ [']']) := by
  cases items with
  | nil => rfl
  | cons item items => rw [compact, compactItems_eq, itemsText, List.append_assoc]

theorem compact_object (members : Object) : (object members).compact = '{' :: (membersText members ++ ['}']) := by
  cases members with
  | nil => rfl
  | cons m members =>
    obtain ⟨key, value⟩ := m
    rw [compact, compactMembers_eq, membersText, memberText]
    simp

/-! ## Equality as data -/

theorem get?_of_nodup {o : Object} {key : String} {value : Json} (h : (Object.keys o).Nodup)
    (hmem : (key, value) ∈ o) : Object.get? o key = some value := by
  induction o with
  | nil => simp at hmem
  | cons m o ih =>
    obtain ⟨k, v⟩ := m
    obtain ⟨hk, ho⟩ : k ∉ Object.keys o ∧ (Object.keys o).Nodup := List.nodup_cons.1 h
    rcases List.mem_cons.1 hmem with heq | hmem
    · obtain ⟨rfl, rfl⟩ := Prod.mk.inj heq
      simp [Object.get?]
    · have hne : (k == key) = false := by
        refine beq_eq_false_iff_ne.2 ?_
        rintro rfl
        exact hk (List.mem_map_of_mem (f := Prod.fst) hmem)
      have hrest := ih ho hmem
      simpa [Object.get?, hne] using hrest

mutual

/-- Exact data is the same as itself. -/
theorem same_self : ∀ j : Json, j.isExact = true → j.same j = true
  | .null, _ => rfl
  | .bool b, _ => by simp [same]
  | .number (.whole w), _ => by simp [same, Number.same]
  | .string s, _ => by simp [same]
  | .array items, h => sameItems_self items h
  | .object members, h => by
    obtain ⟨hexact, hkeys⟩ := isExact_object.1 h
    have hsame := sameMembers_self members members hexact hkeys fun m hm => hm
    simpa [same] using hsame

theorem sameItems_self : ∀ items : List Json, isExactItems items = true → sameItems items items = true
  | [], _ => rfl
  | item :: items, h => by
    obtain ⟨hitem, hitems⟩ := isExactItems_cons.1 h
    simp [sameItems, same_self item hitem, sameItems_self items hitems]

theorem sameMembers_self : ∀ (members o : List (String × Json)), isExactMembers members = true →
    (Object.keys o).Nodup → (∀ m ∈ members, m ∈ o) → sameMembers members o = true
  | [], _, _, _, _ => rfl
  | (key, value) :: members, o, h, hkeys, hmem => by
    obtain ⟨hvalue, hmembers⟩ := isExactMembers_cons.1 h
    have hget := get?_of_nodup hkeys (hmem (key, value) (by simp))
    have hrest := sameMembers_self members o hmembers hkeys fun m hm => hmem m (by simp [hm])
    simp [sameMembers, hget, same_self value hvalue, hrest]

end

end Json

end Grimoire
