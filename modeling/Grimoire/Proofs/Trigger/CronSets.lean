import Grimoire.Trigger.Cron
import Grimoire.Proofs.Decimal.Words
import Grimoire.Proofs.Text.Splitting
import Mathlib.Data.List.Forall2

/-!
# What a cron expression selects

An `Item` is what a part of a field says, in one of six forms, and it stands for a set of values
(`Item.Selects`). An expression is five fields in words, each the texts of its items with commas between them
(`Reads`). Reading fills the sets of bits by loops; it always ends, it succeeds exactly for the expressions that
are so made up of items, and the schedule is due exactly when each value of the instant is in the union of the
sets of its field (`parse_sets`).
-/
namespace Grimoire.Trigger.Cron

open Time (Instant)

/-! ## Items -/

/-- The text of a number: digits, maybe behind a plus sign, and the number is a word of 32 bits. -/
def Numeral (cs : List Char) (n : Nat) : Prop :=
  ∃ digits, (cs = digits ∨ cs = '+' :: digits) ∧ digits ≠ [] ∧ (∀ c ∈ digits, c.isDigit = true) ∧
    n = Nat.ofDigitChars 10 digits 0 ∧ n < 4294967296

def Field.Allows (field : Field) (v : Nat) : Prop := field.least ≤ v ∧ v ≤ field.most

/-- What a part of a field says. -/
inductive Item
  /-- `*` -/
  | all
  /-- `n` -/
  | value (n : Nat)
  /-- `a-b` -/
  | range (a b : Nat)
  /-- `*/s` -/
  | allBy (s : Nat)
  /-- `a-b/s` -/
  | rangeBy (a b s : Nat)
  /-- `n/s` -/
  | multiples (n s : Nat)

namespace Item

inductive Spelled : Item → List Char → Prop
  | all : Spelled .all ['*']
  | value {cs : List Char} {n : Nat} : Numeral cs n → Spelled (.value n) cs
  | range {as bs : List Char} {a b : Nat} : Numeral as a → Numeral bs b → Spelled (.range a b) (as ++ '-' :: bs)
  | allBy {ss : List Char} {s : Nat} : Numeral ss s → Spelled (.allBy s) (['*'] ++ '/' :: ss)
  | rangeBy {as bs ss : List Char} {a b s : Nat} : Numeral as a → Numeral bs b → Numeral ss s →
    Spelled (.rangeBy a b s) ((as ++ '-' :: bs) ++ '/' :: ss)
  | multiples {cs ss : List Char} {n s : Nat} : Numeral cs n → Numeral ss s →
    Spelled (.multiples n s) (cs ++ '/' :: ss)

/-- The values are in the range of the field and in order, and the step is positive. -/
def Fits (field : Field) : Item → Prop
  | all => True
  | value n => field.Allows n
  | range a b => field.Allows a ∧ field.Allows b ∧ a ≤ b
  | allBy s => 1 ≤ s
  | rangeBy a b s => (field.Allows a ∧ field.Allows b ∧ a ≤ b) ∧ 1 ≤ s
  | multiples n s => field.Allows n ∧ 1 ≤ s

/-- The set an item stands for. -/
def Selects (field : Field) : Item → Nat → Prop
  | all, v => field.Allows v
  | value n, v => v = n
  | range a b, v => a ≤ v ∧ v ≤ b
  | allBy s, v => v ≤ field.most ∧ ∃ k, v = field.least + k * s
  | rangeBy a b s, v => v ≤ b ∧ ∃ k, v = a + k * s
  | multiples n s, v => n ≤ v ∧ s ∣ v

end Item

/-! ## Expressions -/

/-- The text of a field: the texts of its items with commas between them. -/
def ReadsField (field : Field) (cs : List Char) (items : List Item) : Prop :=
  ∃ texts, cs = [','].intercalate texts ∧ texts ≠ [] ∧ List.Forall₂ Item.Spelled items texts ∧
    ∀ item ∈ items, item.Fits field

/-- The five fields of an expression. -/
def Reads (expression : String) (items : Field → List Item) : Prop :=
  ∃ texts : Field → List Char,
    Text.InWords Text.isBlank expression.toList
      [texts .minute, texts .hour, texts .dayOfMonth, texts .month, texts .dayOfWeek] ∧
    ∀ field, ReadsField field (texts field) (items field)

/-- The value of an instant in a field. -/
def Field.valueAt (t : Instant) : Field → Nat
  | minute => t.minute
  | hour => t.hour
  | dayOfMonth => t.date.day
  | month => t.date.month
  | dayOfWeek => t.weekday

/-- The value is in the union of the sets; 7 is Sunday, like 0. -/
def Selected (field : Field) (items : List Item) (v : Nat) : Prop :=
  ∃ item ∈ items, item.Selects field v ∨ field = .dayOfWeek ∧ v = 0 ∧ item.Selects field 7

/-! ## Numbers -/

theorem readNumber?_eq_some {cs : List Char} {n : Nat} : readNumber? cs = some n ↔ Numeral cs n :=
  Decimal.readWord?_eq_some

theorem readValue_eq_ok {field : Field} {cs : List Char} {v : Nat} :
    readValue field cs = .ok v ↔ Numeral cs v ∧ field.Allows v := by
  rw [readValue, ← readNumber?_eq_some, Field.Allows]
  cases hn : readNumber? cs with
  | none => simp
  | some n =>
    by_cases h : n < field.least ∨ field.most < n
    · simp only [if_pos h, reduceCtorEq, Option.some.injEq, false_iff]
      omega
    · simp only [if_neg h, Except.ok.injEq, Option.some.injEq]
      omega

theorem readStep_eq_ok {field : Field} {cs : List Char} {s : Nat} :
    readStep field cs = .ok s ↔ Numeral cs s ∧ 1 ≤ s := by
  rw [readStep, ← readNumber?_eq_some]
  cases hn : readNumber? cs with
  | none => simp
  | some n =>
    cases n with
    | zero => simp; omega
    | succ n => simp; omega

theorem Numeral.not_mem {cs : List Char} {n : Nat} (h : Numeral cs n) {c : Char} (hdigit : c.isDigit = false)
    (hplus : c ≠ '+') : c ∉ cs := by
  obtain ⟨digits, hcs, -, hdigits, -⟩ := h
  have hnot : c ∉ digits := fun hc => by simp [hdigits c hc] at hdigit
  rcases hcs with rfl | rfl
  · exact hnot
  · exact fun hc => (List.mem_cons.1 hc).elim hplus hnot

theorem Numeral.ne_star {cs : List Char} {n : Nat} (h : Numeral cs n) : cs ≠ ['*'] := by
  rintro rfl
  exact h.not_mem (c := '*') rfl (by decide) List.mem_cons_self

/-! ## Ranges -/

theorem readRange_star (field : Field) : readRange field ['*'] = .ok (field.least, field.most) := if_pos rfl

theorem readRange_value {field : Field} {cs : List Char} {n : Nat} (hcs : Numeral cs n) (h : field.Allows n) :
    readRange field cs = .ok (n, n) := by
  have hsplit : Text.splitOnce '-' cs = none := Text.splitOnce_eq_none.2 (hcs.not_mem rfl (by decide))
  rw [readRange, if_neg hcs.ne_star, hsplit, readValue_eq_ok.2 ⟨hcs, h⟩]
  rfl

theorem readRange_pair {field : Field} {as bs : List Char} {a b : Nat} (has : Numeral as a) (hbs : Numeral bs b)
    (ha : field.Allows a) (hb : field.Allows b) (hle : a ≤ b) :
    readRange field (as ++ '-' :: bs) = .ok (a, b) := by
  have hsplit : Text.splitOnce '-' (as ++ '-' :: bs) = some (as, bs) :=
    Text.splitOnce_append (has.not_mem rfl (by decide)) bs
  have hstar : as ++ '-' :: bs ≠ ['*'] := by
    intro h
    have : '-' ∈ ['*'] := h ▸ List.mem_append_right as List.mem_cons_self
    simp at this
  rw [readRange, if_neg hstar, hsplit]
  simp only [readValue_eq_ok.2 ⟨has, ha⟩, readValue_eq_ok.2 ⟨hbs, hb⟩]
  exact if_neg (Nat.not_lt.2 hle)

/-- A range is of one of these three forms. -/
theorem range_cases {field : Field} {cs : List Char} {a b : Nat} (h : readRange field cs = .ok (a, b)) :
    cs = ['*'] ∨ ('-' ∉ cs ∧ Numeral cs a ∧ field.Allows a) ∨
      ∃ as bs, cs = as ++ '-' :: bs ∧ Numeral as a ∧ Numeral bs b ∧ field.Allows a ∧ field.Allows b ∧ a ≤ b := by
  rw [readRange] at h
  by_cases hstar : cs = ['*']
  · exact .inl hstar
  · rw [if_neg hstar] at h
    cases hsplit : Text.splitOnce '-' cs with
    | none =>
      simp only [hsplit] at h
      cases hv : readValue field cs with
      | error fault =>
        rw [hv] at h
        cases h
      | ok v =>
        rw [hv] at h
        cases h
        exact .inr (.inl ⟨Text.splitOnce_eq_none.1 hsplit, readValue_eq_ok.1 hv⟩)
    | some parts =>
      obtain ⟨as, bs⟩ := parts
      simp only [hsplit] at h
      obtain ⟨v, hv, h⟩ := bind_eq_ok.1 h
      obtain ⟨w, hw, h⟩ := bind_eq_ok.1 h
      have hv := readValue_eq_ok.1 hv
      have hw := readValue_eq_ok.1 hw
      by_cases hle : w < v
      · rw [if_pos hle] at h
        cases h
      · rw [if_neg hle] at h
        cases h
        exact .inr (.inr ⟨as, bs, (Text.splitOnce_eq_some.1 hsplit).1, hv.1, hw.1, hv.2, hw.2, Nat.not_lt.1 hle⟩)

/-! ## Parts -/

theorem readPart_range {field : Field} {cs : List Char} {a b : Nat} (hslash : '/' ∉ cs)
    (hrange : readRange field cs = .ok (a, b)) (s : ValueSet) :
    ∃ s', (readPart field s cs).run = some (.ok s') ∧ s.Adds s' fun v => v ≤ b ∧ ∃ k, v = a + k * 1 := by
  have hlast := Nat.lt_of_le_of_lt (le_most_of_readRange hrange) field.most_lt
  obtain ⟨s', hs', hadds⟩ := ValueSet.insertEvery?_adds hlast Nat.one_pos a s
  refine ⟨s', ?_, hadds⟩
  rw [readPart, Text.splitOnce_eq_none.2 hslash]
  simp only [hrange]
  show (Except.ok <$> ValueSet.insertEvery? b 1 a s : Option (Except Fault ValueSet)) = _
  rw [hs']
  rfl

theorem readPart_steps {field : Field} {cs ss : List Char} {a b step : Nat} (hslash : '/' ∉ cs)
    (hform : cs = ['*'] ∨ '-' ∈ cs) (hrange : readRange field cs = .ok (a, b)) (hss : Numeral ss step)
    (hstep : 1 ≤ step) (s : ValueSet) :
    ∃ s', (readPart field s (cs ++ '/' :: ss)).run = some (.ok s') ∧
      s.Adds s' fun v => v ≤ b ∧ ∃ k, v = a + k * step := by
  have hlast := Nat.lt_of_le_of_lt (le_most_of_readRange hrange) field.most_lt
  obtain ⟨s', hs', hadds⟩ := ValueSet.insertEvery?_adds hlast hstep a s
  refine ⟨s', ?_, hadds⟩
  rw [readPart, Text.splitOnce_append hslash]
  simp only [readStep_eq_ok.2 ⟨hss, hstep⟩, hrange, if_pos hform]
  show (Except.ok <$> ValueSet.insertEvery? b step a s : Option (Except Fault ValueSet)) = _
  rw [hs']
  rfl

theorem readPart_multiples {field : Field} {cs ss : List Char} {n step : Nat} (hcs : Numeral cs n)
    (hn : field.Allows n) (hss : Numeral ss step) (hstep : 1 ≤ step) (s : ValueSet) :
    ∃ s', (readPart field s (cs ++ '/' :: ss)).run = some (.ok s') ∧
      s.Adds s' fun v => (n ≤ v ∧ v ≤ field.most) ∧ v % step = 0 := by
  obtain ⟨s', hs', hadds⟩ := ValueSet.insertMultiples?_adds field.most_lt n step s
  have hform : ¬ (cs = ['*'] ∨ '-' ∈ cs) := not_or.2 ⟨hcs.ne_star, hcs.not_mem rfl (by decide)⟩
  refine ⟨s', ?_, hadds⟩
  rw [readPart, Text.splitOnce_append (hcs.not_mem rfl (by decide))]
  simp only [readStep_eq_ok.2 ⟨hss, hstep⟩, readValue_eq_ok.2 ⟨hcs, hn⟩, if_neg hform]
  show (Except.ok <$> ValueSet.insertMultiples? n field.most step s : Option (Except Fault ValueSet)) = _
  rw [hs']
  rfl

theorem Numeral.slash_not_mem {as bs : List Char} {a b : Nat} (has : Numeral as a) (hbs : Numeral bs b) :
    '/' ∉ as ++ '-' :: bs := by
  have ha : '/' ∉ as := has.not_mem rfl (by decide)
  have hb : '/' ∉ bs := hbs.not_mem rfl (by decide)
  simp [ha, hb]

/-- Steps of one are all values from the first one on. -/
theorem exists_step_one {a v : Nat} : (∃ k, v = a + k * 1) ↔ a ≤ v :=
  ⟨fun ⟨k, hk⟩ => by omega, fun h => ⟨v - a, by omega⟩⟩

/-- **A part adds the set of its item.** -/
theorem Item.Spelled.readPart {field : Field} {item : Item} {cs : List Char} (h : item.Spelled cs)
    (hfits : item.Fits field) (s : ValueSet) :
    ∃ s', (Cron.readPart field s cs).run = some (.ok s') ∧
      s.Adds s' fun v => v ≤ field.most ∧ item.Selects field v := by
  cases h with
  | all =>
    obtain ⟨s', hs', hadds⟩ := readPart_range (by decide) (readRange_star field) s
    refine ⟨s', hs', hadds.congr fun v => ?_⟩
    rw [exists_step_one, Item.Selects, Field.Allows]
    omega
  | value hcs =>
    obtain ⟨s', hs', hadds⟩ := readPart_range (hcs.not_mem rfl (by decide)) (readRange_value hcs hfits) s
    refine ⟨s', hs', hadds.congr fun v => ?_⟩
    have hmost := hfits.2
    rw [exists_step_one, Item.Selects]
    omega
  | range has hbs =>
    obtain ⟨ha, hb, hle⟩ := hfits
    obtain ⟨s', hs', hadds⟩ := readPart_range (has.slash_not_mem hbs) (readRange_pair has hbs ha hb hle) s
    refine ⟨s', hs', hadds.congr fun v => ?_⟩
    have hmost := hb.2
    rw [exists_step_one, Item.Selects]
    omega
  | allBy hss =>
    obtain ⟨s', hs', hadds⟩ := readPart_steps (by decide) (.inl rfl) (readRange_star field) hss hfits s
    refine ⟨s', hs', hadds.congr fun v => ?_⟩
    rw [Item.Selects, and_self_left]
  | rangeBy has hbs hss =>
    obtain ⟨⟨ha, hb, hle⟩, hstep⟩ := hfits
    obtain ⟨s', hs', hadds⟩ := readPart_steps (has.slash_not_mem hbs) (.inr (by simp))
      (readRange_pair has hbs ha hb hle) hss hstep s
    refine ⟨s', hs', hadds.congr fun v => ?_⟩
    rw [Item.Selects, and_iff_right_of_imp fun h => Nat.le_trans h.1 hb.2]
  | multiples hcs hss =>
    obtain ⟨s', hs', hadds⟩ := readPart_multiples hcs hfits.1 hss hfits.2 s
    refine ⟨s', hs', hadds.congr fun v => ?_⟩
    rw [Item.Selects, Nat.dvd_iff_mod_eq_zero, ← and_assoc, and_comm (a := v ≤ field.most)]

/-! ## Which parts are read -/

theorem Reading.bind_eq_ok {α β : Type} {x : Reading α} {f : α → Reading β} {b : β} :
    (x >>= f).run = some (.ok b) ↔ ∃ a, x.run = some (.ok a) ∧ (f a).run = some (.ok b) := by
  rw [ExceptT.run_bind]
  rcases x.run with _ | fault | a
  · simp
  · simp
  · simp

/-- **A part that is read** spells an item that fits. -/
theorem exists_item {field : Field} {s s' : ValueSet} {cs : List Char}
    (h : (Cron.readPart field s cs).run = some (.ok s')) : ∃ item : Item, item.Spelled cs ∧ item.Fits field := by
  rw [Cron.readPart] at h
  cases hslash : Text.splitOnce '/' cs with
  | none =>
    simp only [hslash] at h
    obtain ⟨⟨a, b⟩, hrange, -⟩ := Reading.bind_eq_ok.1 h
    have hrange : readRange field cs = .ok (a, b) := Option.some.inj hrange
    rcases range_cases hrange with rfl | ⟨-, hcs, ha⟩ | ⟨as, bs, rfl, has, hbs, hfits⟩
    · exact ⟨.all, .all, trivial⟩
    · exact ⟨.value a, .value hcs, ha⟩
    · exact ⟨.range a b, .range has hbs, hfits⟩
  | some parts =>
    obtain ⟨range, ss⟩ := parts
    simp only [hslash] at h
    obtain ⟨rfl, -⟩ := Text.splitOnce_eq_some.1 hslash
    obtain ⟨step, hstep, h⟩ := Reading.bind_eq_ok.1 h
    have hstep : readStep field ss = .ok step := Option.some.inj hstep
    obtain ⟨hss, hpos⟩ := readStep_eq_ok.1 hstep
    by_cases hform : range = ['*'] ∨ '-' ∈ range
    · rw [if_pos hform] at h
      obtain ⟨⟨a, b⟩, hrange, -⟩ := Reading.bind_eq_ok.1 h
      have hrange : readRange field range = .ok (a, b) := Option.some.inj hrange
      rcases range_cases hrange with rfl | ⟨hnot, hcs, -⟩ | ⟨as, bs, rfl, has, hbs, hfits⟩
      · exact ⟨.allBy step, .allBy hss, hpos⟩
      · exact (hform.elim hcs.ne_star hnot).elim
      · exact ⟨.rangeBy a b step, .rangeBy has hbs hss, hfits, hpos⟩
    · rw [if_neg hform] at h
      obtain ⟨n, hvalue, -⟩ := Reading.bind_eq_ok.1 h
      have hvalue : readValue field range = .ok n := Option.some.inj hvalue
      obtain ⟨hcs, hn⟩ := readValue_eq_ok.1 hvalue
      exact ⟨.multiples n step, .multiples hcs hss, hn, hpos⟩

/-! ## Fields -/

theorem Item.Spelled.comma_not_mem {item : Item} {cs : List Char} (h : item.Spelled cs) : ',' ∉ cs := by
  have hno {cs : List Char} {n : Nat} (h : Numeral cs n) : ',' ∉ cs := h.not_mem rfl (by decide)
  cases h with
  | all => decide
  | value hcs => exact hno hcs
  | range has hbs => simp [hno has, hno hbs]
  | allBy hss => simp [hno hss]
  | rangeBy has hbs hss => simp [hno has, hno hbs, hno hss]
  | multiples hcs hss => simp [hno hcs, hno hss]

/-- The parts of a field, one after another. -/
theorem foldlM_readPart {field : Field} {items : List Item} {texts : List (List Char)}
    (h : List.Forall₂ Item.Spelled items texts) (hfits : ∀ item ∈ items, item.Fits field) : ∀ s : ValueSet,
    ∃ s', (texts.foldlM (readPart field) s).run = some (.ok s') ∧
      s.Adds s' fun v => v ≤ field.most ∧ ∃ item ∈ items, item.Selects field v := by
  induction h with
  | nil => exact fun s => ⟨s, rfl, ValueSet.Adds.refl fun v h => by simp at h⟩
  | @cons item text items texts hitem _ ih =>
    intro s
    obtain ⟨s₁, hs₁, hadds⟩ := hitem.readPart (hfits item List.mem_cons_self) s
    obtain ⟨s₂, hs₂, hmore⟩ := ih (fun item h => hfits item (List.mem_cons_of_mem _ h)) s₁
    refine ⟨s₂, ?_, hadds.trans hmore fun v => ?_⟩
    · rw [List.foldlM_cons]
      exact Reading.bind_eq_ok.2 ⟨s₁, hs₁, hs₂⟩
    · rw [List.exists_mem_cons_iff, and_or_left]

theorem exists_items {field : Field} {texts : List (List Char)} : ∀ {s s' : ValueSet},
    (texts.foldlM (readPart field) s).run = some (.ok s') →
      ∃ items, List.Forall₂ Item.Spelled items texts ∧ ∀ item ∈ items, item.Fits field := by
  induction texts with
  | nil => exact fun _ => ⟨[], .nil, by simp⟩
  | cons text texts ih =>
    intro s s' h
    rw [List.foldlM_cons] at h
    obtain ⟨s₁, hs₁, h⟩ := Reading.bind_eq_ok.1 h
    obtain ⟨item, hitem, hfits⟩ := exists_item hs₁
    obtain ⟨items, hitems, hall⟩ := ih h
    refine ⟨item :: items, .cons hitem hitems, fun other hother => ?_⟩
    rcases List.mem_cons.1 hother with rfl | hother
    · exact hfits
    · exact hall other hother

/-- **The bits of a field** are the union of the sets of its items. -/
theorem ReadsField.readField {field : Field} {cs : List Char} {items : List Item} (h : ReadsField field cs items) :
    ∃ s, (Cron.readField field cs).run = some (.ok s) ∧
      ∀ v, s.contains v = true ↔ v ≤ field.most ∧ ∃ item ∈ items, item.Selects field v := by
  obtain ⟨texts, rfl, hne, hitems, hfits⟩ := h
  have hcomma : ∀ text ∈ texts, ',' ∉ text := by
    clear hne hfits
    induction hitems with
    | nil => simp
    | cons hitem _ ih => exact List.forall_mem_cons.2 ⟨hitem.comma_not_mem, ih⟩
  obtain ⟨s, hs, hadds⟩ := foldlM_readPart hitems hfits .empty
  refine ⟨s, ?_, fun v => by rw [hadds v]; simp⟩
  rw [Cron.readField, Text.split_eq_splitOn, List.splitOn_intercalate ',' hcomma hne]
  exact hs

theorem exists_readsField {field : Field} {cs : List Char} {s : ValueSet}
    (h : (Cron.readField field cs).run = some (.ok s)) : ∃ items, ReadsField field cs items := by
  rw [Cron.readField, Text.split_eq_splitOn] at h
  obtain ⟨items, hitems, hfits⟩ := exists_items h
  refine ⟨items, _, (List.intercalate_splitOn ',').symm, List.splitOnP_ne_nil _ _, hitems, hfits⟩

/-! ## Instants -/

theorem day_le (days : Int) : (Time.Date.ofDays days).day ≤ 31 := by
  simp only [Time.Date.ofDays]
  omega

theorem month_le (days : Int) : (Time.Date.ofDays days).month ≤ 12 := by
  simp only [Time.Date.ofDays]
  split <;> omega

/-- No value of an instant is beyond its field. -/
theorem valueAt_le (field : Field) (t : Instant) : field.valueAt t ≤ field.most := by
  cases field with
  | minute => exact Nat.le_of_lt_succ (Nat.mod_lt _ (by decide))
  | hour =>
    show t.secondOfDay / 3600 ≤ 23
    rw [Instant.secondOfDay]
    omega
  | dayOfMonth => exact day_le t.days
  | month => exact month_le t.days
  | dayOfWeek =>
    show ((t.days + 4) % 7).toNat ≤ 7
    omega

theorem weekday_lt (t : Instant) : t.weekday < 7 := by
  show ((t.days + 4) % 7).toNat < 7
  omega

/-! ## Schedules -/

/-- The values that a field of the schedule selects. -/
def values (c : Cron) : Field → ValueSet
  | .minute => c.minutes
  | .hour => c.hours
  | .dayOfMonth => c.daysOfMonth
  | .month => c.months
  | .dayOfWeek => c.daysOfWeek

theorem isDue_iff {c : Cron} {t : Instant} :
    c.isDue t = true ↔ ∀ field : Field, (c.values field).contains (field.valueAt t) = true := by
  constructor
  · intro h field
    simp only [isDue, Bool.and_eq_true] at h
    cases field
    · exact h.1.1.1.1
    · exact h.1.1.1.2
    · exact h.1.1.2
    · exact h.1.2
    · exact h.2
  · intro h
    simp only [isDue, Bool.and_eq_true]
    exact ⟨⟨⟨⟨h .minute, h .hour⟩, h .dayOfMonth⟩, h .month⟩, h .dayOfWeek⟩

/-- The schedule of an expression, given the bits of its fields. -/
theorem parse?_of_words {expression : String} {texts : Field → List Char}
    (hwords : Text.words Text.isBlank expression.toList =
      [texts .minute, texts .hour, texts .dayOfMonth, texts .month, texts .dayOfWeek])
    {sets : Field → ValueSet} (hsets : ∀ field, (readField field (texts field)).run = some (.ok (sets field))) :
    (parse? expression).run = some (.ok {
      source := String.ofList (Text.trim expression.toList)
      minutes := sets .minute
      hours := sets .hour
      daysOfMonth := sets .dayOfMonth
      months := sets .month
      daysOfWeek := (sets .dayOfWeek).withSunday }) := by
  rw [parse?, hwords]
  refine Reading.bind_eq_ok.2 ⟨_, hsets .dayOfWeek, ?_⟩
  refine Reading.bind_eq_ok.2 ⟨_, hsets .minute, ?_⟩
  refine Reading.bind_eq_ok.2 ⟨_, hsets .hour, ?_⟩
  refine Reading.bind_eq_ok.2 ⟨_, hsets .dayOfMonth, ?_⟩
  exact Reading.bind_eq_ok.2 ⟨_, hsets .month, rfl⟩

theorem selected_of_ne {field : Field} {items : List Item} {v : Nat} (h : field ≠ .dayOfWeek) :
    Selected field items v ↔ ∃ item ∈ items, item.Selects field v := by
  simp [Selected, h]

theorem selected_dayOfWeek {items : List Item} {day : Nat} :
    Selected .dayOfWeek items day ↔
      (∃ item ∈ items, item.Selects .dayOfWeek day) ∨ day = 0 ∧ ∃ item ∈ items, item.Selects .dayOfWeek 7 := by
  simp only [Selected, true_and, and_or_left, exists_or, and_left_comm (b := day = 0), exists_and_left]

/-- **A readable expression** gives a schedule that is due as its items say. -/
theorem Reads.parse? {expression : String} {items : Field → List Item} (h : Reads expression items) :
    ∃ c, (Cron.parse? expression).run = some (.ok c) ∧
      ∀ t, c.isDue t = true ↔ ∀ field : Field, Selected field (items field) (field.valueAt t) := by
  obtain ⟨texts, hwords, hfields⟩ := h
  choose sets hsets hmem using fun field => (hfields field).readField
  refine ⟨_, parse?_of_words hwords.words_eq hsets, fun t => isDue_iff.trans (forall_congr' fun field => ?_)⟩
  have hcontains (field : Field) : (sets field).contains (field.valueAt t) = true ↔
      ∃ item ∈ items field, item.Selects field (field.valueAt t) := by
    rw [hmem, and_iff_right (valueAt_le field t)]
  cases field with
  | minute => exact (hcontains .minute).trans (selected_of_ne (by decide)).symm
  | hour => exact (hcontains .hour).trans (selected_of_ne (by decide)).symm
  | dayOfMonth => exact (hcontains .dayOfMonth).trans (selected_of_ne (by decide)).symm
  | month => exact (hcontains .month).trans (selected_of_ne (by decide)).symm
  | dayOfWeek =>
    have hseven : (sets .dayOfWeek).contains 7 = true ↔
        ∃ item ∈ items .dayOfWeek, item.Selects .dayOfWeek 7 := by
      rw [hmem, and_iff_right (by decide : 7 ≤ Field.most .dayOfWeek)]
    rw [selected_dayOfWeek, ← hcontains, ← hseven]
    exact ValueSet.contains_withSunday _ (weekday_lt t)

theorem exists_reads {expression : String} {c : Cron} (h : (Cron.parse? expression).run = some (.ok c)) :
    ∃ items, Reads expression items := by
  rw [Cron.parse?] at h
  split at h
  · next minute hour dayOfMonth month dayOfWeek hwords =>
    obtain ⟨_, hdayOfWeek, h⟩ := Reading.bind_eq_ok.1 h
    obtain ⟨_, hminute, h⟩ := Reading.bind_eq_ok.1 h
    obtain ⟨_, hhour, h⟩ := Reading.bind_eq_ok.1 h
    obtain ⟨_, hdayOfMonth, h⟩ := Reading.bind_eq_ok.1 h
    obtain ⟨_, hmonth, -⟩ := Reading.bind_eq_ok.1 h
    let texts : Field → List Char
      | .minute => minute
      | .hour => hour
      | .dayOfMonth => dayOfMonth
      | .month => month
      | .dayOfWeek => dayOfWeek
    have hfields (field : Field) : ∃ items, ReadsField field (texts field) items := by
      cases field with
      | minute => exact exists_readsField hminute
      | hour => exact exists_readsField hhour
      | dayOfMonth => exact exists_readsField hdayOfMonth
      | month => exact exists_readsField hmonth
      | dayOfWeek => exact exists_readsField hdayOfWeek
    choose items hitems using hfields
    exact ⟨items, texts, Text.words_eq_iff.1 hwords, hitems⟩
  · cases h

theorem run_parse? (expression : String) : (Cron.parse? expression).run = some (parse expression) :=
  (Option.some_get _).symm

theorem parse_eq_ok {expression : String} {c : Cron} :
    parse expression = .ok c ↔ (Cron.parse? expression).run = some (.ok c) := by
  rw [run_parse?, Option.some.injEq]

/-- Blanks at the ends change nothing, as the source of a schedule has none. -/
theorem parse?_trim (expression : String) :
    Cron.parse? (String.ofList (Text.trim expression.toList)) = Cron.parse? expression := by
  rw [Cron.parse?, Cron.parse?, String.toList_ofList, Text.words_trim, Text.trim_trim]

theorem source_of_parse? {expression : String} {c : Cron} (h : (Cron.parse? expression).run = some (.ok c)) :
    c.source = String.ofList (Text.trim expression.toList) := by
  rw [Cron.parse?] at h
  split at h
  · obtain ⟨_, -, h⟩ := Reading.bind_eq_ok.1 h
    obtain ⟨_, -, h⟩ := Reading.bind_eq_ok.1 h
    obtain ⟨_, -, h⟩ := Reading.bind_eq_ok.1 h
    obtain ⟨_, -, h⟩ := Reading.bind_eq_ok.1 h
    obtain ⟨_, -, h⟩ := Reading.bind_eq_ok.1 h
    cases h
    rfl
  · cases h

/-- **Cron expressions are sets of values.** Reading any expression ends, and no bit is shifted out of its word. It
gives a schedule exactly if the expression is five fields of items that fit. The schedule is due at an instant
exactly if each field selects the value of the instant, and its source reads as the same schedule. -/
theorem parse_sets (expression : String) :
    (Cron.parse? expression).run = some (parse expression) ∧
    ((∃ c, parse expression = .ok c) ↔ ∃ items, Reads expression items) ∧
    ∀ c, parse expression = .ok c →
      (∀ items, Reads expression items →
        ∀ t, c.isDue t = true ↔ ∀ field : Field, Selected field (items field) (field.valueAt t)) ∧
      parse c.source = .ok c := by
  refine ⟨run_parse? expression, ⟨?_, ?_⟩, fun c hc => ⟨fun items hitems => ?_, ?_⟩⟩
  · rintro ⟨c, hc⟩
    exact exists_reads (parse_eq_ok.1 hc)
  · rintro ⟨items, hitems⟩
    obtain ⟨c, hc, -⟩ := hitems.parse?
    exact ⟨c, parse_eq_ok.2 hc⟩
  · obtain ⟨d, hd, hdue⟩ := hitems.parse?
    have hsame : parse expression = .ok d := parse_eq_ok.2 hd
    rw [hc] at hsame
    cases hsame
    exact hdue
  · have hsource := source_of_parse? (parse_eq_ok.1 hc)
    rw [parse_eq_ok, hsource, parse?_trim]
    exact parse_eq_ok.1 hc

end Grimoire.Trigger.Cron
