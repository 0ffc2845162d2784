import Grimoire.Pattern.Engine
import Grimoire.Trigger.Strategy
import Grimoire.Proofs.Text.Lowering
import Mathlib.Algebra.Order.Field.Basic
import Mathlib.Data.Rat.Cast.Order
import Mathlib.Tactic.Positivity

/-!
# Keyword triggers

A keyword trigger looks for the lower-case forms of its keywords in the lower-case text of a context. It reports
those it finds, and its confidence is the share of them in the list, scaled and capped (`keyword_confidence`).
A keyword that occurs in the text as it is written is found in every text exactly if its own letters settle each
of its sigmas, and in whole words always (`keyword_found_iff`).
-/
namespace Grimoire.Trigger

open Text (lower lowerString)
open Time (Instant)

/-- The keywords whose lower-case form is a part of the lower-case text, in the order of the list. -/
def keywordsIn (keywords : List String) (text : String) : List String :=
  keywords.filter fun k => lower k.toList <:+: lower text.toList

theorem mem_keywordsIn {keywords : List String} {text k : String} :
    k ∈ keywordsIn keywords text ↔ k ∈ keywords ∧ lower k.toList <:+: lower text.toList := by
  rw [keywordsIn, List.mem_filter, decide_eq_true_eq]

/-- The matcher that a keyword strategy is compiled to. -/
def keywordMatcher (keywords : List String) : Matcher := .keyword (keywords.map fun k => lower k.toList)

theorem compile_keyword [RegexEngine] (keywords : List String) :
    (Strategy.keyword keywords).compile = .ok (keywordMatcher keywords) := rfl

section

variable {α : Type} [Degree α]

/-- What a keyword trigger answers. -/
theorem outcome?_keyword (keywords : List String) (context : Json) (base : α) (t : Instant) :
    (keywordMatcher keywords).outcome? context base t =
      if (keywordsIn keywords (contextText context)).isEmpty then none
      else some
        { confidence := Degree.cap (Degree.scale base
            (Degree.share (keywordsIn keywords (contextText context)).length keywords.length))
          matched := (keywordsIn keywords (contextText context)).map lowerString } := by
  have hfound : ((keywords.map fun k => lower k.toList).filter
      fun k => Text.occursIn k (lower (contextText context).toList)) =
        (keywordsIn keywords (contextText context)).map fun k => lower k.toList := by
    rw [List.filter_map, keywordsIn]
    congr 1
    refine List.filter_congr fun k _ => ?_
    rw [Function.comp_apply, Bool.eq_iff_iff, Text.occursIn_iff, decide_eq_true_eq]
  simp only [keywordMatcher, Matcher.outcome?, matchKeywords, hfound, List.isEmpty_map, List.length_map, List.map_map]
  rfl

/-- Every text is that of a context. -/
theorem contextText_text (text : String) : contextText (.object [("text", .string text)]) = text := rfl

/-! ## Keywords as they are written -/

/-- The trigger on these keywords matches, and the lower-case form of the keyword is among its matches. -/
def FindsKeyword [RegexEngine] (keywords : List String) (k : String) (context : Json) (base : α) (t : Instant) : Prop :=
  ∃ m o, (Strategy.keyword keywords).compile = .ok m ∧ m.outcome? context base t = some o ∧
    lowerString k ∈ o.matched

theorem findsKeyword_iff [RegexEngine] {keywords : List String} {k : String} (hk : k ∈ keywords) (context : Json)
    (base : α) (t : Instant) :
    FindsKeyword keywords k context base t ↔ lower k.toList <:+: lower (contextText context).toList := by
  simp only [FindsKeyword, compile_keyword, Except.ok.injEq, exists_eq_left', exists_and_left, outcome?_keyword]
  constructor
  · rintro ⟨o, ho, hmatched⟩
    split at ho
    · cases ho
    · obtain rfl := Option.some.inj ho
      obtain ⟨k', hk', hsame⟩ := List.mem_map.1 hmatched
      rw [← String.ofList_inj.1 hsame]
      exact (mem_keywordsIn.1 hk').2
  · intro h
    have hmem := mem_keywordsIn.2 ⟨hk, h⟩
    rw [if_neg (by simpa using List.ne_nil_of_mem hmem)]
    exact ⟨_, rfl, List.mem_map_of_mem hmem⟩

/-- **Which keywords are found wherever they occur**: exactly those that settle their sigmas, whatever the other
keywords are. Any keyword is found between texts that neither end nor begin with a cased letter. -/
theorem keyword_found_iff [RegexEngine] (k : String) (base : α) (t : Instant) :
    ((∀ keywords context, k ∈ keywords → k.toList <:+: (contextText context).toList →
        FindsKeyword keywords k context base t) ↔ Text.isSettled k.toList = true) ∧
      ∀ keywords context before after, k ∈ keywords →
        (contextText context).toList = before ++ (k.toList ++ after) →
        Text.startsCased before.reverse = false → Text.startsCased after = false →
          FindsKeyword keywords k context base t := by
  refine ⟨⟨fun h => ?_, fun hk keywords context hmem hoccurs => ?_⟩, ?_⟩
  · refine (Text.lower_isInfix_iff k.toList).1 fun cs hcs => ?_
    have hfound := h [k] (.object [("text", .string (String.ofList cs))]) List.mem_cons_self
    rw [findsKeyword_iff List.mem_cons_self, contextText_text, String.toList_ofList] at hfound
    exact hfound hcs
  · exact (findsKeyword_iff hmem context base t).2 ((Text.lower_isInfix_iff k.toList).2 hk _ hoccurs)
  · intro keywords context before after hmem hsplit hbefore hafter
    rw [findsKeyword_iff hmem, hsplit, Text.lower_append, Text.lowerWithin_of_uncased hbefore hafter]
    exact ⟨_, _, List.append_assoc _ _ _⟩

end

/-- A keyword with a sigma at its end, as a word of a text. -/
theorem road_found : FindsKeyword ["ΟΔΟΣ"] "ΟΔΟΣ" (.object [("text", .string "Η ΟΔΟΣ ΕΔΩ")]) (1 : Rat) ⟨0, 0⟩ :=
  (keyword_found_iff "ΟΔΟΣ" (1 : Rat) ⟨0, 0⟩).2 _ _ "Η ".toList " ΕΔΩ".toList List.mem_cons_self (by decide +kernel)
    (by decide +kernel) (by decide +kernel)

/-- The same keyword at the front of a longer word is not found. -/
theorem road_not_found :
    "ΟΔΟΣ".toList <:+: (contextText (.object [("text", .string "ΟΔΟΣΗΜΟ")])).toList ∧
      ¬ FindsKeyword ["ΟΔΟΣ"] "ΟΔΟΣ" (.object [("text", .string "ΟΔΟΣΗΜΟ")]) (1 : Rat) ⟨0, 0⟩ := by
  refine ⟨by decide +kernel, ?_⟩
  rw [findsKeyword_iff List.mem_cons_self]
  decide +kernel

/-! ## Confidence -/

/-- **The laws of confidence** of a matcher for these keywords, in exact arithmetic. -/
structure ConfidenceLaws (keywords : List String) (base : Rat) (m : Matcher) (t : Instant) : Prop where
  /-- There is a context for every text. -/
  text : ∀ text, contextText (.object [("text", .string text)]) = text
  /-- The trigger matches if some keyword is in the text. -/
  isSome_iff : ∀ context, (m.outcome? context base t).isSome ↔
    0 < (keywordsIn keywords (contextText context)).length
  /-- It reports the keywords in the text, and its confidence is their share of the base, one at most. -/
  reports : ∀ context o, m.outcome? context base t = some o →
    o.matched = (keywordsIn keywords (contextText context)).map lowerString ∧
      o.confidence = min 1 (base * (keywordsIn keywords (contextText context)).length / keywords.length)
  /-- Where no keyword is lost, neither is the match, and the confidence does not fall. -/
  grows : ∀ context context' o,
    (∀ k ∈ keywordsIn keywords (contextText context), k ∈ keywordsIn keywords (contextText context')) →
      m.outcome? context base t = some o → ∃ o', m.outcome? context' base t = some o' ∧ o.confidence ≤ o'.confidence
  /-- With all keywords in the text the confidence is the base, one at most. -/
  full : ∀ context, (∀ k ∈ keywords, k ∈ keywordsIn keywords (contextText context)) →
    ∃ o, m.outcome? context base t = some o ∧ o.confidence = min 1 base
  le_one : ∀ context o, m.outcome? context base t = some o → o.confidence ≤ 1

theorem cap_eq_min (a : Rat) : Degree.cap a = min 1 a := by
  have h : Degree.cap a = if decide (a ≤ 1) then a else 1 := rfl
  rw [h]
  by_cases ha : a ≤ 1
  · rw [if_pos (by simpa using ha), min_eq_right ha]
  · rw [if_neg (by simpa using ha), min_eq_left (not_le.1 ha).le]

/-- The confidence when `n` keywords of the list are in the text. -/
def shareOf (keywords : List String) (base : Rat) (n : Nat) : Rat := min 1 (base * n / keywords.length)

theorem shareOf_le_one (keywords : List String) (base : Rat) (n : Nat) : shareOf keywords base n ≤ 1 := min_le_left _ _

theorem shareOf_mono (keywords : List String) {base : Rat} (hbase : 0 ≤ base) {n n' : Nat} (h : n ≤ n') :
    shareOf keywords base n ≤ shareOf keywords base n' := by
  have hcast : (n : Rat) ≤ n' := Nat.cast_le.2 h
  refine min_le_min_left 1 ?_
  gcongr

theorem shareOf_length {keywords : List String} (h : keywords ≠ []) (base : Rat) :
    shareOf keywords base keywords.length = min 1 base := by
  have hlength : (keywords.length : Rat) ≠ 0 := Nat.cast_ne_zero.2 (by simpa using h)
  rw [shareOf, mul_div_assoc, div_self hlength, mul_one]

/-- A keyword trigger in exact arithmetic: the cases of its outcome. -/
theorem outcome?_keyword_rat (keywords : List String) (context : Json) (base : Rat) (t : Instant) :
    (keywordMatcher keywords).outcome? context base t =
      if (keywordsIn keywords (contextText context)).isEmpty then none
      else some
        { confidence := shareOf keywords base (keywordsIn keywords (contextText context)).length
          matched := (keywordsIn keywords (contextText context)).map lowerString } := by
  have hshare (n : Nat) : Degree.cap (Degree.scale base (Degree.share n keywords.length)) = shareOf keywords base n := by
    rw [cap_eq_min, shareOf, mul_div_assoc]
    rfl
  rw [outcome?_keyword, hshare]

theorem length_keywordsIn_le {keywords : List String} {text text' : String}
    (h : ∀ k ∈ keywordsIn keywords text, k ∈ keywordsIn keywords text') :
    (keywordsIn keywords text).length ≤ (keywordsIn keywords text').length := by
  rw [keywordsIn, keywordsIn, ← List.countP_eq_length_filter, ← List.countP_eq_length_filter]
  refine List.countP_mono_left fun k hk hin => ?_
  rw [decide_eq_true_eq] at hin ⊢
  exact (mem_keywordsIn.1 (h k (mem_keywordsIn.2 ⟨hk, hin⟩))).2

/-- **The confidence of keyword triggers** follows the share of the keywords in the text. -/
theorem keyword_confidence [RegexEngine] {keywords : List String} {base : Rat} (hne : keywords ≠ []) (hbase : 0 ≤ base)
    (t : Instant) :
    ∃ m, (Strategy.keyword keywords).compile = .ok m ∧ ConfidenceLaws keywords base m t := by
  refine ⟨_, compile_keyword keywords, ?_⟩
  have hsome (context : Json) (h : keywordsIn keywords (contextText context) ≠ []) :
      (keywordMatcher keywords).outcome? context base t = some
        { confidence := shareOf keywords base (keywordsIn keywords (contextText context)).length
          matched := (keywordsIn keywords (contextText context)).map lowerString } := by
    rw [outcome?_keyword_rat, if_neg (by simpa using h)]
  have hout {context : Json} {o : Outcome Rat} (ho : (keywordMatcher keywords).outcome? context base t = some o) :
      keywordsIn keywords (contextText context) ≠ [] ∧
        o = { confidence := shareOf keywords base (keywordsIn keywords (contextText context)).length
              matched := (keywordsIn keywords (contextText context)).map lowerString } := by
    rw [outcome?_keyword_rat] at ho
    split at ho
    · cases ho
    · next h => exact ⟨by simpa using h, (Option.some.inj ho).symm⟩
  constructor
  case text => exact contextText_text
  case isSome_iff =>
    intro context
    rw [List.length_pos_iff]
    refine ⟨fun h => ?_, fun h => by rw [hsome context h]; rfl⟩
    obtain ⟨o, ho⟩ := Option.isSome_iff_exists.1 h
    exact (hout ho).1
  case reports =>
    intro context o ho
    obtain ⟨-, rfl⟩ := hout ho
    exact ⟨rfl, rfl⟩
  case grows =>
    intro context context' o hmore ho
    obtain ⟨hin, rfl⟩ := hout ho
    obtain ⟨k, hk⟩ := List.exists_mem_of_ne_nil _ hin
    exact ⟨_, hsome context' (List.ne_nil_of_mem (hmore k hk)), shareOf_mono keywords hbase (length_keywordsIn_le hmore)⟩
  case full =>
    intro context hall
    have heq : keywordsIn keywords (contextText context) = keywords :=
      List.filter_eq_self.2 fun k hk => decide_eq_true_iff.2 (mem_keywordsIn.1 (hall k hk)).2
    have hout := hsome context (heq.symm ▸ hne)
    exact ⟨_, hout, by rw [heq]; exact shareOf_length hne base⟩
  case le_one =>
    intro context o ho
    obtain ⟨-, rfl⟩ := hout ho
    exact shareOf_le_one _ _ _

/-- Two of three keywords are in the text, with the base confidence 0.85. -/
theorem stuck_confidence :
    ∃ m o, (Strategy.keyword ["stuck", "Blocked", "fire"]).compile = .ok m ∧
      ConfidenceLaws ["stuck", "Blocked", "fire"] (17 / 20) m ⟨0, 0⟩ ∧
      m.outcome? (.object [("text", .string "STUCK again: the road is blocked")]) (17 / 20 : Rat) ⟨0, 0⟩ = some o ∧
      o.matched = ["stuck", "blocked"] ∧ o.confidence = 17 / 30 := by
  have hne : ["stuck", "Blocked", "fire"] ≠ [] := by decide
  have hbase : (0 : Rat) ≤ 17 / 20 := by decide +kernel
  obtain ⟨m, hm, laws⟩ := keyword_confidence hne hbase ⟨0, 0⟩
  have hin : keywordsIn ["stuck", "Blocked", "fire"] "STUCK again: the road is blocked" = ["stuck", "Blocked"] := by
    decide +kernel
  have hsome := (laws.isSome_iff (.object [("text", .string "STUCK again: the road is blocked")])).2
  rw [laws.text, hin] at hsome
  obtain ⟨o, ho⟩ := Option.isSome_iff_exists.1 (hsome Nat.two_pos)
  obtain ⟨hmatched, hconfidence⟩ := laws.reports _ o ho
  rw [laws.text, hin] at hmatched hconfidence
  exact ⟨m, o, hm, laws, ho, hmatched.trans (by decide +kernel), hconfidence.trans (by decide +kernel)⟩

end Grimoire.Trigger
