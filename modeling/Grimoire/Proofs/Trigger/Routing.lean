import Grimoire.Trigger.Router
import Mathlib.Data.List.Nodup
import Mathlib.Data.List.Induction

/-!
# The guardian with the best score

A text is routed in one pass over the table of guardians, which keeps the best so far. What it keeps is the
first of the best among the guardians it has seen (`Leads`), so the guardian of a text is the first with the
highest score in the table of scores, or the fallback when nobody scores (`select_first_best`).
-/
namespace Grimoire.Trigger.Router

/-- The highest score. -/
def topScore (entries : List (String × Nat)) : Nat := (entries.map (·.2)).foldr max 0

/-- The first guardian with the highest score. -/
def firstBest? (entries : List (String × Nat)) : Option String :=
  (entries.find? (·.2 = topScore entries)).map (·.1)

/-- Who leads after these entries: the earlier ones score less, the later ones no more. Nobody leads while
nobody has scored. -/
def Leads (entries : List (String × Nat)) : Option (String × Nat) → Prop
  | none => ∀ e ∈ entries, e.2 = 0
  | some best => 0 < best.2 ∧ ∃ before after, entries = before ++ best :: after ∧
      (∀ e ∈ before, e.2 < best.2) ∧ ∀ e ∈ after, e.2 ≤ best.2

section
variable {text : List Char} {entries : List (String × Nat)} {best : String × Nat}

/-! ## The pass over the table -/

theorem better_of_lt {best? : Option (String × Nat)} {entry : String × List String}
    (hpos : 0 < score text entry.2) (h : ∀ best ∈ best?, best.2 < score text entry.2) :
    better text best? entry = some (entry.1, score text entry.2) := by
  have hall : best?.all (fun best => decide (score text entry.2 > best.2)) = true := by
    cases best? with
    | none => rfl
    | some best => exact decide_eq_true (h best rfl)
  simp only [Router.better, hall, Bool.and_true, gt_iff_lt, decide_eq_true_eq]
  exact if_pos hpos

theorem better_of_le {entry : String × List String} (h : score text entry.2 ≤ best.2) :
    better text (some best) entry = some best := by
  refine if_neg ?_
  simpa using fun _ => h

/-- Another guardian takes the lead if it scores more than all before. -/
theorem Leads.better {best? : Option (String × Nat)} (h : Leads entries best?) (entry : String × List String) :
    Leads (entries ++ [(entry.1, score text entry.2)]) (better text best? entry) := by
  cases best? with
  | none =>
    rcases Nat.eq_zero_or_pos (score text entry.2) with hs | hs
    · have hkeep : Router.better text none entry = none := if_neg (by simp [hs])
      rw [hkeep, hs]
      intro e he
      rcases List.mem_append.1 he with he | he
      · exact h e he
      · rw [List.mem_singleton.1 he]
    · rw [better_of_lt hs (by simp)]
      refine ⟨hs, entries, [], rfl, fun e he => ?_, fun e he => nomatch he⟩
      rw [h e he]
      exact hs
  | some best =>
    obtain ⟨hpos, before, after, rfl, hbefore, hafter⟩ := h
    by_cases hs : best.2 < score text entry.2
    · rw [better_of_lt (Nat.lt_trans hpos hs) fun _ hbest => Option.some.inj hbest ▸ hs]
      refine ⟨Nat.lt_trans hpos hs, _, [], rfl, fun e he => ?_, fun e he => nomatch he⟩
      rcases List.mem_append.1 he with he | he
      · exact Nat.lt_trans (hbefore e he) hs
      · rcases List.mem_cons.1 he with rfl | he
        · exact hs
        · exact Nat.lt_of_le_of_lt (hafter e he) hs
    · rw [better_of_le (Nat.not_lt.1 hs)]
      refine ⟨hpos, before, after ++ [(entry.1, score text entry.2)], by simp, hbefore, fun e he => ?_⟩
      rcases List.mem_append.1 he with he | he
      · exact hafter e he
      · rw [List.mem_singleton.1 he]
        exact Nat.not_lt.1 hs

/-- Who leads after the whole table. -/
theorem leads_foldl (text : List Char) (entries : List (String × List String)) :
    Leads (entries.map fun (guardian, keywords) => (guardian, score text keywords))
      (entries.foldl (better text) none) := by
  -- From the end, as the pass has seen an initial part of the table.
  induction entries using List.reverseRecOn with
  | nil => exact fun e he => nomatch he
  | append_singleton entries entry ih =>
    rw [List.map_append, List.foldl_append]
    exact ih.better entry

/-! ## The highest score -/

theorem topScore_le_iff {bound : Nat} : topScore entries ≤ bound ↔ ∀ e ∈ entries, e.2 ≤ bound := by
  induction entries with
  | nil => simp [topScore]
  | cons e entries ih =>
    rw [List.forall_mem_cons, ← ih]
    exact Nat.max_le

theorem le_topScore {e : String × Nat} (he : e ∈ entries) : e.2 ≤ topScore entries :=
  topScore_le_iff.1 (Nat.le_refl _) e he

theorem Leads.topScore_eq_zero (h : Leads entries none) : topScore entries = 0 :=
  Nat.le_zero.1 (topScore_le_iff.2 fun e he => Nat.le_of_eq (h e he))

theorem Leads.topScore_eq (h : Leads entries (some best)) : topScore entries = best.2 := by
  obtain ⟨-, before, after, rfl, hbefore, hafter⟩ := h
  refine Nat.le_antisymm (topScore_le_iff.2 fun e he => ?_) (le_topScore (by simp))
  rcases List.mem_append.1 he with he | he
  · exact Nat.le_of_lt (hbefore e he)
  · rcases List.mem_cons.1 he with rfl | he
    · exact Nat.le_refl _
    · exact hafter e he

theorem Leads.firstBest?_eq (h : Leads entries (some best)) : firstBest? entries = some best.1 := by
  have htop := h.topScore_eq
  obtain ⟨-, before, after, rfl, hbefore, -⟩ := h
  rw [firstBest?, htop, List.find?_append, List.find?_eq_none.2 fun e he => by simpa using Nat.ne_of_lt (hbefore e he),
    List.find?_cons_of_pos (by simp)]
  rfl

/-- Of guardians with different names, the leader stands in one place only. -/
theorem Leads.around (h : Leads entries (some best)) (hnames : (entries.map (·.1)).Nodup) {n : Nat}
    {before after : List (String × Nat)} (hsplit : entries = before ++ (best.1, n) :: after) :
    (∀ e ∈ before, e.2 < n) ∧ ∀ e ∈ after, e.2 ≤ n := by
  obtain ⟨-, before', after', rfl, hbefore, hafter⟩ := h
  have hbest : (best.1, n) = best := List.inj_on_of_nodup_map hnames (by simp [hsplit]) (by simp) rfl
  rw [hbest] at hsplit
  obtain ⟨-, hcons, hdisjoint⟩ := List.nodup_append.1 hnames.of_map
  have hbefore' : best ∉ before' := fun hmem => hdisjoint best hmem best List.mem_cons_self rfl
  obtain ⟨rfl, -, rfl⟩ := (List.append_cons_inj_of_notMem hbefore' (List.nodup_cons.1 hcons).1).1 hsplit
  rw [← hbest] at hbefore hafter
  exact ⟨hbefore, hafter⟩

end

/-! ## The guardian of a text -/

theorem map_fst_scores (text : String) : (scores text).map (·.1) = guardians := rfl

theorem nodup_guardians : guardians.Nodup := by decide

theorem fallback_notMem : fallback ∉ guardians := by decide

/-- **The guardian of a text** is the first with the highest score, and the fallback when nobody scores. Those
that stand earlier in the table than the guardian chosen score less, and those that stand later no more. -/
theorem select_first_best (text : String) :
    (0 < topScore (scores text) → firstBest? (scores text) = some (select text)) ∧
      (topScore (scores text) = 0 → select text = fallback) ∧
      ∀ before n after, scores text = before ++ (select text, n) :: after →
        (∀ e ∈ before, e.2 < n) ∧ ∀ e ∈ after, e.2 ≤ n := by
  have hlead : Leads (scores text) (table.foldl (better (Text.lower text.toList)) none) := leads_foldl _ table
  unfold select
  cases hbest : table.foldl (better (Text.lower text.toList)) none with
  | none =>
    rw [hbest] at hlead
    have htop := hlead.topScore_eq_zero
    refine ⟨fun h => absurd htop (Nat.ne_of_gt h), fun _ => rfl, fun before n after hsplit => ?_⟩
    have hmem : fallback ∈ (scores text).map (·.1) := by
      rw [hsplit]
      simp
    rw [map_fst_scores] at hmem
    exact absurd hmem fallback_notMem
  | some best =>
    rw [hbest] at hlead
    refine ⟨fun _ => hlead.firstBest?_eq, fun h => ?_, fun before n after hsplit => ?_⟩
    · rw [hlead.topScore_eq] at h
      exact absurd h (Nat.ne_of_gt hlead.1)
    · exact hlead.around (map_fst_scores text ▸ nodup_guardians) hsplit

/-- Two guardians have two keywords each, one of them in common; `rebuild` holds a keyword of another guardian. -/
theorem foundation_first_best :
    let text := "Rebuild the CORE foundation"
    let before := [("dragon-forge", 0), ("phoenix-artisan", 1), ("volcano-sculptor", 0)]
    let after := [("mountain-builder", 2), ("river-storyteller", 0), ("ocean-memory", 0), ("whisper-messenger", 0),
      ("void-gazer", 0)]
    scores text = before ++ (select text, 2) :: after ∧ firstBest? (scores text) = some (select text) ∧
      (∀ e ∈ before, e.2 < 2) ∧ ∀ e ∈ after, e.2 ≤ 2 := by
  have hsplit : scores "Rebuild the CORE foundation" =
      [("dragon-forge", 0), ("phoenix-artisan", 1), ("volcano-sculptor", 0)] ++
        (select "Rebuild the CORE foundation", 2) :: [("mountain-builder", 2), ("river-storyteller", 0),
          ("ocean-memory", 0), ("whisper-messenger", 0), ("void-gazer", 0)] := by decide +kernel
  have hbest := select_first_best "Rebuild the CORE foundation"
  exact ⟨hsplit, hbest.1 (by decide +kernel), hbest.2.2 _ _ _ hsplit⟩

end Grimoire.Trigger.Router
