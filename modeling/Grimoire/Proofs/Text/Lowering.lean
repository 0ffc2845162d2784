import Grimoire.Text.Lowercase
import Mathlib.Data.List.Infix

/-!
# Lower case of a part of a text

In lower case a text keeps its parts, but for one letter: the form of a capital sigma depends on the letters around
it. So a part stands in the lower-case text as it is when the text around it is lower-cased too
(`lower_append`), and that is its own lower-case form in every text exactly if no sigma of it is loose, that is
if its own letters settle each sigma (`lower_isInfix_iff`).
-/
namespace Grimoire.Text

/-! ## Parts of a text -/

theorem occursIn_iff {part cs : List Char} : occursIn part cs = true ↔ part <:+: cs := by
  induction cs with
  | nil => rw [occursIn, List.isEmpty_iff, List.infix_nil]
  | cons c cs ih => rw [occursIn, Bool.or_eq_true, List.isPrefixOf_iff_prefix, ih, List.infix_cons_iff]

/-! ## The form of a sigma -/

/-- Is a capital sigma between these texts the last letter of a word? -/
def endsWord (before after : List Char) : Bool := startsCased before && !startsCased after

/-- The lower-case form of a sigma between these texts. -/
def lowerSigma (before after : List Char) : Char := if endsWord before after then 'ς' else 'σ'

/-- The lower-case form of a part of a text between the texts around it, the one before it turned about. -/
def lowerWithin (before after : List Char) : List Char → List Char
  | [] => []
  | c :: cs =>
    (if c = 'Σ' then [lowerSigma before (cs ++ after)] else lowerChar c) ++ lowerWithin (c :: before) after cs

variable {before after before' after' x y k : List Char} {c : Char}

theorem lowerAfter_append (before x y : List Char) :
    lowerAfter before (x ++ y) = lowerWithin before y x ++ lowerAfter (x.reverse ++ before) y := by
  induction x generalizing before with
  | nil => rfl
  | cons c x ih =>
    have hsigma : (if startsCased before && !startsCased (x ++ y) then ['ς'] else ['σ']) =
        [lowerSigma before (x ++ y)] := by
      rw [lowerSigma, endsWord]
      split <;> rfl
    rw [List.cons_append, lowerAfter, lowerWithin, ih, hsigma, List.reverse_cons, List.append_assoc,
      List.append_assoc, List.singleton_append]

theorem lower_eq (cs : List Char) : lower cs = lowerWithin [] [] cs := by
  have h := lowerAfter_append [] cs []
  rwa [List.append_nil, lowerAfter, List.append_nil] at h

/-- What becomes of a part in the middle of a text. -/
theorem lower_append (x k y : List Char) :
    lower (x ++ (k ++ y)) =
      lowerWithin [] (k ++ y) x ++ (lowerWithin x.reverse y k ++ lowerAfter (k.reverse ++ x.reverse) y) := by
  rw [lower, lowerAfter_append, List.append_nil, lowerAfter_append]

theorem lowerWithin_append (before after x y : List Char) :
    lowerWithin before after (x ++ y) =
      lowerWithin before (y ++ after) x ++ lowerWithin (x.reverse ++ before) after y := by
  induction x generalizing before with
  | nil => rfl
  | cons c x ih =>
    rw [List.cons_append, lowerWithin, lowerWithin, ih, List.append_assoc, List.reverse_cons, List.append_assoc,
      List.append_assoc, List.singleton_append]

/-- Two contexts give a part the same lower-case form when they give each sigma of it the same. -/
theorem lowerWithin_congr
    (h : ∀ x y, k = x ++ 'Σ' :: y →
      endsWord (x.reverse ++ before) (y ++ after) = endsWord (x.reverse ++ before') (y ++ after')) :
    lowerWithin before after k = lowerWithin before' after' k := by
  induction k generalizing before before' with
  | nil => rfl
  | cons c k ih =>
    have htail : lowerWithin (c :: before) after k = lowerWithin (c :: before') after' k := by
      refine ih fun x y hk => ?_
      have hc := h (c :: x) y (by rw [hk, List.cons_append])
      simpa only [List.reverse_cons, List.append_assoc, List.singleton_append] using hc
    have hhead : c = 'Σ' → lowerSigma before (k ++ after) = lowerSigma before' (k ++ after') := by
      rintro rfl
      have hc := h [] k rfl
      rw [List.reverse_nil, List.nil_append, List.nil_append] at hc
      rw [lowerSigma, lowerSigma, hc]
    rw [lowerWithin, lowerWithin, htail]
    by_cases hc : c = 'Σ'
    · rw [if_pos hc, if_pos hc, hhead hc]
    · rw [if_neg hc, if_neg hc]

/-! ## Characters that case ignores -/

theorem isCaseIgnorable_sigma : isCaseIgnorable 'Σ' = false := by decide +kernel

theorem startsCased_cons (c : Char) (cs : List Char) :
    startsCased (c :: cs) = if isCaseIgnorable c then startsCased cs else isCased c := by
  cases h : isCaseIgnorable c <;> simp [startsCased, h]

/-- Only a text that case ignores as a whole lets the text behind it decide. -/
theorem startsCased_append (x y : List Char) :
    startsCased (x ++ y) = if x.all isCaseIgnorable then startsCased y else startsCased x := by
  induction x with
  | nil => rfl
  | cons c x ih =>
    rw [List.cons_append, startsCased_cons, startsCased_cons, ih, List.all_cons]
    cases isCaseIgnorable c <;> simp

theorem startsCased_of_all (h : x.all isCaseIgnorable = true) : startsCased x = false := by
  have happend := startsCased_append x []
  rw [List.append_nil, if_pos h] at happend
  exact happend

/-- A text whose first letter is not cased changes nothing behind another text. -/
theorem startsCased_append_of_not (h : startsCased y = false) : startsCased (x ++ y) = startsCased x := by
  rw [startsCased_append]
  split
  · next hx => rw [h, startsCased_of_all hx]
  · rfl

theorem startsCased_append_sigma (x y y' : List Char) :
    startsCased (x ++ 'Σ' :: y) = startsCased (x ++ 'Σ' :: y') := by
  rw [startsCased_append, startsCased_append, startsCased_cons, startsCased_cons, isCaseIgnorable_sigma]
  rfl

/-! ## Loose sigmas -/

/-- What stands behind the first character that case does not ignore, if it is a capital sigma. -/
def behindSigma? : List Char → Option (List Char)
  | [] => none
  | c :: cs => if c = 'Σ' then some cs else if isCaseIgnorable c then behindSigma? cs else none

/-- The text begins with a sigma that no cased letter follows: it ends a word if the text before does not. -/
def looseAtFront (k : List Char) : Bool := (behindSigma? k).any fun rest => !startsCased rest

/-- The text ends with a sigma that follows a cased letter: it ends a word if the text behind does not go on. -/
def looseAtBack (k : List Char) : Bool := (behindSigma? k.reverse).any startsCased

/-- The text itself settles the form of each sigma in it. -/
def isSettled (k : List Char) : Bool := !looseAtFront k && !looseAtBack k

theorem behindSigma?_append (h : x.all isCaseIgnorable = true) (y : List Char) :
    behindSigma? (x ++ 'Σ' :: y) = some y := by
  induction x with
  | nil => rw [List.nil_append, behindSigma?, if_pos rfl]
  | cons c x ih =>
    rw [List.all_cons, Bool.and_eq_true] at h
    have hc : c ≠ 'Σ' := by
      rintro rfl
      rw [isCaseIgnorable_sigma] at h
      cases h.1
    rw [List.cons_append, behindSigma?, if_neg hc, if_pos h.1, ih h.2]

theorem exists_of_behindSigma? {rest : List Char} (h : behindSigma? k = some rest) :
    ∃ x, x.all isCaseIgnorable = true ∧ k = x ++ 'Σ' :: rest := by
  induction k with
  | nil => cases h
  | cons c k ih =>
    rw [behindSigma?] at h
    split at h
    · next hc =>
      obtain rfl := Option.some.inj h
      exact ⟨[], rfl, by rw [hc, List.nil_append]⟩
    · split at h
      · next hignorable =>
        obtain ⟨x, hx, rfl⟩ := ih h
        exact ⟨c :: x, by rw [List.all_cons, hignorable, hx]; rfl, rfl⟩
      · cases h

theorem looseAtFront_iff : looseAtFront k = true ↔
    ∃ x y, k = x ++ 'Σ' :: y ∧ x.all isCaseIgnorable = true ∧ startsCased y = false := by
  rw [looseAtFront]
  constructor
  · intro h
    cases hrest : behindSigma? k with
    | none => simp [hrest] at h
    | some y =>
      obtain ⟨x, hx, hk⟩ := exists_of_behindSigma? hrest
      exact ⟨x, y, hk, hx, by simpa [hrest] using h⟩
  · rintro ⟨x, y, rfl, hx, hy⟩
    rw [behindSigma?_append hx, Option.any_some, hy]
    rfl

theorem looseAtBack_iff : looseAtBack k = true ↔
    ∃ x y, k = x ++ 'Σ' :: y ∧ y.all isCaseIgnorable = true ∧ startsCased x.reverse = true := by
  have hreverse (x y : List Char) : (x ++ 'Σ' :: y).reverse = y.reverse ++ 'Σ' :: x.reverse := by simp
  rw [looseAtBack]
  constructor
  · intro h
    cases hrest : behindSigma? k.reverse with
    | none => simp [hrest] at h
    | some x =>
      obtain ⟨y, hy, hk⟩ := exists_of_behindSigma? hrest
      refine ⟨x.reverse, y.reverse, ?_, by rw [List.all_reverse, hy], by simpa [hrest] using h⟩
      rw [← List.reverse_reverse k, hk, List.reverse_append, List.reverse_cons, List.append_assoc,
        List.singleton_append]
  · rintro ⟨x, y, rfl, hy, hx⟩
    rw [hreverse, behindSigma?_append (by rw [List.all_reverse, hy]), Option.any_some, hx]

/-- In a settled text each sigma has the same form whatever stands around. -/
theorem endsWord_of_isSettled (hk : isSettled (x ++ 'Σ' :: y) = true) (before after : List Char) :
    endsWord (x.reverse ++ before) (y ++ after) = endsWord x.reverse y := by
  rw [isSettled, Bool.and_eq_true, Bool.not_eq_true', Bool.not_eq_true', ← Bool.not_eq_true, ← Bool.not_eq_true,
    looseAtFront_iff, looseAtBack_iff] at hk
  obtain ⟨hfront, hback⟩ := hk
  rw [endsWord, endsWord, startsCased_append x.reverse, startsCased_append y, List.all_reverse]
  by_cases hx : x.all isCaseIgnorable = true
  · -- the first letter: a cased one follows, so that it ends no word
    have hy : startsCased y = true := Bool.not_eq_false _ ▸ fun h => hfront ⟨x, y, rfl, hx, h⟩
    have hall : ¬ y.all isCaseIgnorable = true := fun h => by
      rw [startsCased_of_all h] at hy
      cases hy
    rw [if_neg hall, hy, Bool.not_true, Bool.and_false, Bool.and_false]
  · rw [if_neg hx]
    by_cases hy : y.all isCaseIgnorable = true
    · -- the last letter: no cased one precedes
      have hx' : startsCased x.reverse = false := Bool.eq_false_iff.2 fun h => hback ⟨x, y, rfl, hy, h⟩
      rw [hx', Bool.false_and, Bool.false_and]
    · rw [if_neg hy]

theorem lowerWithin_of_isSettled (hk : isSettled k = true) (before after : List Char) :
    lowerWithin before after k = lower k := by
  rw [lower_eq]
  refine lowerWithin_congr fun x y h => ?_
  subst h
  rw [endsWord_of_isSettled hk, List.append_nil, List.append_nil]

/-- Between texts that neither end nor begin with a cased letter, any part has its own lower-case form. -/
theorem lowerWithin_of_uncased (hbefore : startsCased before = false) (hafter : startsCased after = false) :
    lowerWithin before after k = lower k := by
  rw [lower_eq]
  refine lowerWithin_congr fun x y _ => ?_
  rw [endsWord, startsCased_append_of_not hbefore, startsCased_append_of_not hafter, endsWord, List.append_nil,
    List.append_nil]

/-! ## Texts that change a loose sigma -/

theorem lowerWithin_of_notMem (h : 'Σ' ∉ k) (before after before' after' : List Char) :
    lowerWithin before after k = lowerWithin before' after' k := by
  refine lowerWithin_congr fun x y hk => ?_
  subst hk
  exact absurd (by simp) h

theorem sigma_notMem (h : k.all isCaseIgnorable = true) : 'Σ' ∉ k := fun hmem => by
  have hsigma := List.all_eq_true.1 h _ hmem
  rw [isCaseIgnorable_sigma] at hsigma
  cases hsigma

/-- The parts on either side of a sigma do not see what stands beyond it. -/
theorem lowerWithin_before_sigma (before after after' x : List Char) :
    lowerWithin before ('Σ' :: after) x = lowerWithin before ('Σ' :: after') x := by
  refine lowerWithin_congr fun x' z _ => ?_
  rw [endsWord, endsWord, startsCased_append_sigma z after after']

theorem lowerWithin_after_sigma (before before' after y : List Char) :
    lowerWithin ('Σ' :: before) after y = lowerWithin ('Σ' :: before') after y := by
  refine lowerWithin_congr fun z y' _ => ?_
  rw [endsWord, endsWord, startsCased_append_sigma z.reverse before before']

theorem lowerWithin_sigma (before after x y : List Char) :
    lowerWithin before after (x ++ 'Σ' :: y) =
      lowerWithin before ('Σ' :: (y ++ after)) x ++
        lowerSigma (x.reverse ++ before) (y ++ after) :: lowerWithin ('Σ' :: (x.reverse ++ before)) after y := by
  rw [lowerWithin_append, lowerWithin, if_pos rfl, List.singleton_append, List.cons_append]

theorem lowerWithin_A (before after : List Char) : lowerWithin before after ['A'] = ['a'] := by
  rw [lowerWithin, if_neg (by decide)]
  rfl

theorem startsCased_A : startsCased ['A'] = true := by decide +kernel

/-- A text with one sigma less than the part has no room for it. -/
theorem not_isInfix_of_count {part cs : List Char} (h : cs.count c < part.count c) : ¬ part <:+: cs :=
  fun hpart => absurd (hpart.sublist.count_le c) (Nat.not_le.2 h)

/-- Behind a cased letter, a sigma at the front that no cased letter follows ends a word. -/
theorem not_isInfix_of_looseAtFront (h : looseAtFront k = true) : ¬ lower k <:+: lower ('A' :: k) := by
  obtain ⟨x, y, rfl, hx, hy⟩ := looseAtFront_iff.1 h
  have halone : lowerSigma (x.reverse ++ []) (y ++ []) = 'σ' := by
    rw [lowerSigma, endsWord, List.append_nil, startsCased_of_all (by rw [List.all_reverse, hx])]
    rfl
  have hbehind : lowerSigma (x.reverse ++ ['A']) (y ++ []) = 'ς' := by
    rw [lowerSigma, endsWord, List.append_nil, hy, startsCased_append, List.all_reverse, if_pos hx, startsCased_A]
    rfl
  have hsame (before : List Char) : lowerWithin before [] (x ++ 'Σ' :: y) = lowerWithin [] [] x ++
      lowerSigma (x.reverse ++ before) (y ++ []) :: lowerWithin ['Σ'] [] y := by
    rw [lowerWithin_sigma, lowerWithin_of_notMem (sigma_notMem hx) before _ [] [], lowerWithin_after_sigma _ []]
  refine not_isInfix_of_count (c := 'σ') ?_
  rw [lower_eq, lower_eq, ← List.singleton_append, lowerWithin_append, lowerWithin_A, hsame, hsame, halone,
    List.reverse_singleton, List.append_nil, hbehind]
  simp

/-- Before a cased letter, a sigma at the back that follows a cased letter ends no word. -/
theorem not_isInfix_of_looseAtBack (h : looseAtBack k = true) : ¬ lower k <:+: lower (k ++ ['A']) := by
  obtain ⟨x, y, rfl, hy, hx⟩ := looseAtBack_iff.1 h
  have halone : lowerSigma (x.reverse ++ []) (y ++ []) = 'ς' := by
    rw [lowerSigma, endsWord, List.append_nil, List.append_nil, hx, startsCased_of_all hy]
    rfl
  have hahead : lowerSigma (x.reverse ++ []) (y ++ ['A']) = 'σ' := by
    rw [lowerSigma, endsWord, startsCased_append y, if_pos hy, startsCased_A, Bool.not_true, Bool.and_false]
    rfl
  have hsame (after : List Char) : lowerWithin [] after (x ++ 'Σ' :: y) = lowerWithin [] ['Σ'] x ++
      lowerSigma (x.reverse ++ []) (y ++ after) :: lowerWithin ['Σ'] [] y := by
    rw [lowerWithin_sigma, lowerWithin_before_sigma [] _ [], lowerWithin_of_notMem (sigma_notMem hy) _ after ['Σ'] []]
  refine not_isInfix_of_count (c := 'ς') ?_
  rw [lower_eq, lower_eq, lowerWithin_append, lowerWithin_A, List.append_nil, hsame, hsame, halone, hahead]
  simp

/-- **Which parts keep their lower-case form**: those that settle each of their sigmas. -/
theorem lower_isInfix_iff (k : List Char) : (∀ cs, k <:+: cs → lower k <:+: lower cs) ↔ isSettled k = true := by
  constructor
  · intro h
    rw [isSettled, Bool.and_eq_true, Bool.not_eq_true', Bool.not_eq_true']
    refine ⟨Bool.eq_false_iff.2 fun hfront => ?_, Bool.eq_false_iff.2 fun hback => ?_⟩
    · exact not_isInfix_of_looseAtFront hfront (h _ (List.infix_cons (List.infix_refl k)))
    · exact not_isInfix_of_looseAtBack hback (h _ (List.prefix_append k ['A']).isInfix)
  · rintro hk cs ⟨x, y, rfl⟩
    rw [List.append_assoc, lower_append, lowerWithin_of_isSettled hk, ← List.append_assoc]
    exact List.infix_append _ _ _

end Grimoire.Text
