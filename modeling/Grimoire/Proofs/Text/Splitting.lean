import Grimoire.Text.Basic
import Mathlib.Data.List.TakeWhile

/-!
# Split and trimmed text

What the parts of a text are: between separators (`split_eq_splitOn`), around the first separator
(`splitOnce_eq_some`), in words (`words_eq_iff`), and without the blanks at its ends, which changes no words
(`words_trim`).
-/
namespace Grimoire.Text

/-! ## Separators -/

theorem split_eq_splitOn (separator : Char) (cs : List Char) : split separator cs = cs.splitOn separator := by
  induction cs with
  | nil => rfl
  | cons c cs ih =>
    have hcons := List.splitOnP_cons_eq_if_modifyHead (p := (· == separator)) c cs
    rw [split, ih]
    by_cases h : c = separator
    · rw [if_pos h, List.splitOn, List.splitOn, hcons, if_pos (by simpa using h)]
    · rw [if_neg h, List.splitOn, List.splitOn, hcons, if_neg (by simpa using h)]
      cases hparts : List.splitOnP (· == separator) cs with
      | nil => exact absurd hparts (List.splitOnP_ne_nil _ _)
      | cons part parts => rfl

theorem split_ne_nil (separator : Char) (cs : List Char) : split separator cs ≠ [] := by
  rw [split_eq_splitOn]
  exact List.splitOnP_ne_nil _ _

/-- The parts on either side of a separator. -/
theorem split_append (separator : Char) (cs rest : List Char) :
    split separator (cs ++ separator :: rest) = split separator cs ++ split separator rest := by
  induction cs with
  | nil => simp [split]
  | cons c cs ih =>
    rw [List.cons_append, split, split, ih]
    by_cases hc : c = separator
    · rw [if_pos hc, if_pos hc, List.cons_append]
    · rw [if_neg hc, if_neg hc]
      cases hparts : split separator cs with
      | nil => exact absurd hparts (split_ne_nil separator cs)
      | cons part parts => rfl

theorem split_of_notMem {separator : Char} {cs : List Char} (h : separator ∉ cs) : split separator cs = [cs] := by
  induction cs with
  | nil => rfl
  | cons c cs ih =>
    rw [List.mem_cons, not_or] at h
    rw [split, if_neg (Ne.symm h.1), ih h.2]

theorem splitOnce_eq_none {separator : Char} {cs : List Char} : splitOnce separator cs = none ↔ separator ∉ cs := by
  induction cs with
  | nil => simp [splitOnce]
  | cons c cs ih =>
    by_cases h : c = separator
    · simp [splitOnce, h]
    · simp [splitOnce, h, ih, Ne.symm h]

theorem splitOnce_append {separator : Char} {head : List Char} (h : separator ∉ head) (tail : List Char) :
    splitOnce separator (head ++ separator :: tail) = some (head, tail) := by
  induction head with
  | nil => simp [splitOnce]
  | cons c head ih =>
    rw [List.mem_cons, not_or] at h
    simp [splitOnce, Ne.symm h.1, ih h.2]

theorem splitOnce_eq_some {separator : Char} {cs head tail : List Char} :
    splitOnce separator cs = some (head, tail) ↔ cs = head ++ separator :: tail ∧ separator ∉ head := by
  constructor
  · intro h
    induction cs generalizing head with
    | nil => cases h
    | cons c cs ih =>
      by_cases hc : c = separator
      · simp only [splitOnce, if_pos hc, Option.some.injEq, Prod.mk.injEq] at h
        obtain ⟨rfl, rfl⟩ := h
        simp [hc]
      · simp only [splitOnce, if_neg hc, Option.map_eq_some_iff, Prod.mk.injEq] at h
        obtain ⟨⟨front, rest⟩, hfront, rfl, rfl⟩ := h
        obtain ⟨rfl, hnot⟩ := ih hfront
        exact ⟨rfl, by simp [hnot, Ne.symm hc]⟩
  · rintro ⟨rfl, h⟩
    exact splitOnce_append h tail

/-! ## Words -/

/-- The words of a text: as long as they can be, with any characters of the class around them. -/
inductive InWords (separates : Char → Bool) : List Char → List (List Char) → Prop
  | nil : InWords separates [] []
  | separator {c : Char} {cs : List Char} {ws : List (List Char)} :
    separates c = true → InWords separates cs ws → InWords separates (c :: cs) ws
  | word {w rest : List Char} {ws : List (List Char)} :
    w ≠ [] → (∀ c ∈ w, separates c = false) → (∀ c, rest.head? = some c → separates c = true) →
      InWords separates rest ws → InWords separates (w ++ rest) (w :: ws)

section

variable {separates : Char → Bool}

theorem words_separator {c : Char} (hc : separates c = true) (cs : List Char) :
    words separates (c :: cs) = words separates cs := by
  cases cs <;> simp [words, hc]

theorem words_cons {c : Char} (hc : separates c = false) (cs : List Char) :
    words separates (c :: cs) =
      match cs with
      | [] => [[c]]
      | d :: _ =>
        if separates d then [c] :: words separates cs
        else match words separates cs with
          | [] => [[c]]
          | word :: rest => (c :: word) :: rest := by
  have h := words.eq_def separates (c :: cs)
  simp only [hc, Bool.false_eq_true, if_false] at h
  exact h

theorem words_append {w rest : List Char} (hne : w ≠ []) (hw : ∀ c ∈ w, separates c = false)
    (hrest : ∀ c, rest.head? = some c → separates c = true) :
    words separates (w ++ rest) = w :: words separates rest := by
  induction w with
  | nil => exact absurd rfl hne
  | cons c w ih =>
    have hc : separates c = false := hw c List.mem_cons_self
    cases w with
    | nil =>
      cases rest with
      | nil => exact words_cons hc []
      | cons d rest =>
        rw [List.singleton_append, words_cons hc]
        exact if_pos (hrest d rfl)
    | cons d w =>
      have hd : separates d = false := hw d (by simp)
      have htail := ih (List.cons_ne_nil d w) fun x hx => hw x (List.mem_cons_of_mem c hx)
      simp only [List.cons_append] at htail ⊢
      simp only [words_cons hc, hd, Bool.false_eq_true, if_false, htail]

theorem InWords.words_eq {cs : List Char} {ws : List (List Char)} (h : InWords separates cs ws) :
    words separates cs = ws := by
  induction h with
  | nil => rfl
  | separator hc _ ih => rw [words_separator hc, ih]
  | word hne hw hrest _ ih => rw [words_append hne hw hrest, ih]

/-- A text that begins with a character of a word begins with a word. -/
theorem InWords.exists_word {c : Char} {cs : List Char} {ws : List (List Char)} (h : InWords separates (c :: cs) ws)
    (hc : separates c = false) :
    ∃ w rest ws', c :: cs = w ++ rest ∧ ws = w :: ws' ∧ (∀ c ∈ w, separates c = false) ∧
      (∀ c, rest.head? = some c → separates c = true) ∧ InWords separates rest ws' := by
  generalize htext : c :: cs = text at h
  cases h with
  | nil => cases htext
  | separator hd _ =>
    cases htext
    rw [hc] at hd
    cases hd
  | word _ hw hrest h => exact ⟨_, _, _, rfl, rfl, hw, hrest, h⟩

theorem inWords_words (separates : Char → Bool) (cs : List Char) : InWords separates cs (words separates cs) := by
  induction cs with
  | nil => exact .nil
  | cons c cs ih =>
    cases hc : separates c
    · rw [words_cons hc]
      have hone : ∀ d ∈ [c], separates d = false := by simpa using hc
      cases cs with
      | nil => exact .word (w := [c]) (List.cons_ne_nil c []) hone (fun _ h => by cases h) .nil
      | cons d cs =>
        cases hd : separates d
        · -- the character goes to the front of the first word
          obtain ⟨w, rest, ws, hcs, hws, hw, hrest, h⟩ := ih.exists_word hd
          simp only [hd, Bool.false_eq_true, if_false, hws]
          rw [hcs]
          refine .word (w := c :: w) (List.cons_ne_nil c w) (fun x hx => ?_) hrest h
          rcases List.mem_cons.1 hx with rfl | hx
          · exact hc
          · exact hw x hx
        · simp only [hd, if_true]
          exact .word (w := [c]) (List.cons_ne_nil c []) hone (fun x hx => by cases hx; exact hd) ih
    · rw [words_separator hc]
      exact .separator hc ih

/-- **Words** are unique. -/
theorem words_eq_iff {cs : List Char} {ws : List (List Char)} : words separates cs = ws ↔ InWords separates cs ws :=
  ⟨fun h => h ▸ inWords_words separates cs, InWords.words_eq⟩

theorem InWords.prepend {cs before : List Char} {ws : List (List Char)} (h : InWords separates cs ws)
    (hbefore : ∀ c ∈ before, separates c = true) : InWords separates (before ++ cs) ws := by
  induction before with
  | nil => exact h
  | cons c before ih =>
    exact .separator (hbefore c List.mem_cons_self) (ih fun d hd => hbefore d (List.mem_cons_of_mem c hd))

theorem InWords.append {cs after : List Char} {ws : List (List Char)} (h : InWords separates cs ws)
    (hafter : ∀ c ∈ after, separates c = true) : InWords separates (cs ++ after) ws := by
  induction h with
  | nil => simpa using InWords.nil.prepend hafter
  | separator hc _ ih => exact .separator hc ih
  | @word w rest ws hne hw hrest _ ih =>
    rw [List.append_assoc]
    refine .word hne hw (fun c hc => ?_) ih
    cases rest with
    | nil => exact hafter c (List.mem_of_mem_head? hc)
    | cons d rest => exact hrest c hc

end

/-! ## Blanks at the ends -/

/-- No blank stands at the front. -/
theorem head_trimLeft {cs : List Char} {c : Char} (h : (trimLeft cs).head? = some c) : isBlank c = false := by
  have := List.head?_dropWhile_not isBlank cs
  rw [trimLeft] at h
  rw [h] at this
  simpa using this

theorem trimLeft_eq_self {cs : List Char} (h : ∀ c, cs.head? = some c → isBlank c = false) : trimLeft cs = cs := by
  cases cs with
  | nil => rfl
  | cons c cs => rw [trimLeft, List.dropWhile_cons, h c rfl]; rfl

theorem trimLeft_split (cs : List Char) : ∃ before, cs = before ++ trimLeft cs ∧ ∀ c ∈ before, isBlank c = true :=
  ⟨cs.takeWhile isBlank, (List.takeWhile_append_dropWhile ..).symm, fun _ h => List.mem_takeWhile_imp h⟩

theorem trimLeft_eq_trim (cs : List Char) :
    ∃ after, trimLeft cs = trim cs ++ after ∧ ∀ c ∈ after, isBlank c = true := by
  obtain ⟨after, hrest, hafter⟩ := trimLeft_split (trimLeft cs).reverse
  refine ⟨after.reverse, ?_, fun c hc => hafter c (List.mem_reverse.1 hc)⟩
  rw [trim, ← List.reverse_append, ← hrest, List.reverse_reverse]

theorem trim_split (cs : List Char) :
    ∃ before after, cs = before ++ (trim cs ++ after) ∧ (∀ c ∈ before, isBlank c = true) ∧
      ∀ c ∈ after, isBlank c = true := by
  obtain ⟨before, hcs, hbefore⟩ := trimLeft_split cs
  obtain ⟨after, hrest, hafter⟩ := trimLeft_eq_trim cs
  exact ⟨before, after, hrest ▸ hcs, hbefore, hafter⟩

@[simp] theorem trim_trim (cs : List Char) : trim (trim cs) = trim cs := by
  have hfirst : trimLeft (trim cs) = trim cs := by
    refine trimLeft_eq_self fun c hc => ?_
    obtain ⟨after, hrest, -⟩ := trimLeft_eq_trim cs
    have hhead : (trimLeft cs).head? = some c := by rw [hrest, List.head?_append, hc, Option.some_or]
    exact head_trimLeft hhead
  have hlast : trimLeft (trim cs).reverse = (trim cs).reverse := by
    rw [trim, List.reverse_reverse]
    exact trimLeft_eq_self fun c hc => head_trimLeft hc
  rw [trim, hfirst, hlast, List.reverse_reverse]

@[simp] theorem words_trim (cs : List Char) : words isBlank (trim cs) = words isBlank cs := by
  obtain ⟨before, after, hcs, hbefore, hafter⟩ := trim_split cs
  have h := ((inWords_words isBlank (trim cs)).append hafter).prepend hbefore
  rw [← hcs] at h
  exact h.words_eq.symm

end Grimoire.Text
