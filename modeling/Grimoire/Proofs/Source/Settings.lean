import Grimoire.Proofs.Source.Recovery

/-!
# Clauses as settings of fields

A clause sets a field of its declaration, and a declaration is what the last settings of its fields are
(`Composite.declare`). So it stays the same when settings of different fields change places and when a setting
goes that a later one overwrites (`Rearranged.declare_eq`).
-/
namespace Grimoire.Source

/-! ## Fields -/

/-- What a clause of the form says. -/
@[reducible] def Form.Datum : Form → Type
  | text _ => String
  | word _ => String
  | words => List String
  | block .map _ => Object
  | block .sequence _ => List Json
  | spells => List Spell

def Form.empty : (form : Form) → form.Datum
  | text _ => ""
  | word _ => ""
  | words => []
  | block .map _ => []
  | block .sequence _ => []
  | spells => []

/-- The fields of spells, characters and worlds. -/
inductive Field
  | description | archetypes | parameters | usage | implementation
  | archetype | elements | data | backstory | relationships | spells
  | cosmology | geography | cultures | history
deriving DecidableEq

@[reducible] def Field.form : Field → Form
  | description => .text "description string"
  | archetypes => .words
  | parameters => .block .map "@parameters"
  | usage => .text "example string"
  | implementation => .text "implementation string"
  | archetype => .word "archetype name"
  | elements => .words
  | data => .block .map "@data"
  | backstory => .text "backstory string"
  | relationships => .block .sequence "@relationships"
  | spells => .spells
  | cosmology => .block .map "@cosmology"
  | geography => .block .map "@geography"
  | cultures => .block .sequence "@cultures"
  | history => .block .sequence "@history"

/-- The words of the clauses and the fields they set. -/
def Composite.fields : Composite → List (String × Field)
  | spell =>
    [("description", .description), ("archetype", .archetypes), ("archetypes", .archetypes),
     ("parameters", .parameters), ("example", .usage), ("implementation", .implementation)]
  | character =>
    [("archetype", .archetype), ("elements", .elements), ("elemental_alignment", .elements), ("data", .data),
     ("backstory", .backstory), ("relationships", .relationships), ("arc_spells", .spells)]
  | world =>
    [("cosmology", .cosmology), ("geography", .geography), ("cultures", .cultures), ("history", .history)]

/-! ## Settings -/

/-- A field and what a clause sets it to. -/
abbrev Setting := (f : Field) × f.form.Datum

/-- What the setting says about a field. -/
def Setting.get? (s : Setting) (f : Field) : Option f.form.Datum :=
  if h : s.1 = f then some (h ▸ s.2) else none

@[simp] theorem Setting.get?_self (f : Field) (v : f.form.Datum) : Setting.get? ⟨f, v⟩ f = some v := dif_pos rfl

theorem Setting.get?_of_ne {s : Setting} {f : Field} (h : s.1 ≠ f) : s.get? f = none := dif_neg h

namespace Field

variable {f g : Field}

/-- What the last setting of the field says. -/
def last? (f : Field) (settings : List Setting) : Option f.form.Datum := (settings.filterMap (·.get? f)).getLast?

/-- The field after these settings: empty if none sets it. -/
def value (f : Field) (settings : List Setting) : f.form.Datum := (f.last? settings).getD f.form.empty

theorem last?_append (f : Field) (before after : List Setting) :
    f.last? (before ++ after) = (f.last? after).or (f.last? before) := by
  rw [last?, List.filterMap_append, List.getLast?_append]
  rfl

theorem last?_single (f : Field) (s : Setting) : f.last? [s] = s.get? f := by
  rw [last?, List.filterMap_cons, List.filterMap_nil]
  cases s.get? f <;> rfl

theorem last?_cons (f : Field) (s : Setting) (settings : List Setting) :
    f.last? (s :: settings) = (f.last? settings).or (s.get? f) := by
  rw [← List.singleton_append, last?_append, last?_single]

@[simp] theorem last?_concat_self (f : Field) (settings : List Setting) (v : f.form.Datum) :
    f.last? (settings ++ [⟨f, v⟩]) = some v := by
  rw [last?_append, last?_single, Setting.get?_self, Option.some_or]

@[simp] theorem last?_concat_of_ne (settings : List Setting) (v : g.form.Datum) (h : g ≠ f) :
    f.last? (settings ++ [⟨g, v⟩]) = f.last? settings := by
  rw [last?_append, last?_single, Setting.get?_of_ne h, Option.none_or]

theorem exists_last? {settings : List Setting} (h : ∃ s ∈ settings, s.1 = f) : ∃ v, f.last? settings = some v := by
  obtain ⟨⟨g, v⟩, hs, rfl⟩ := h
  have hmem : v ∈ settings.filterMap (·.get? g) := List.mem_filterMap.2 ⟨_, hs, Setting.get?_self g v⟩
  exact ⟨_, List.getLast?_eq_some_getLast (List.ne_nil_of_mem hmem)⟩

@[simp] theorem value_concat_self (f : Field) (settings : List Setting) (v : f.form.Datum) :
    f.value (settings ++ [⟨f, v⟩]) = v := by
  rw [value, last?_concat_self, Option.getD_some]

@[simp] theorem value_concat_of_ne (settings : List Setting) (v : g.form.Datum) (h : g ≠ f) :
    f.value (settings ++ [⟨g, v⟩]) = f.value settings := by
  rw [value, last?_concat_of_ne settings v h, value]

end Field

/-! ## Declarations -/

def Spell.ofSettings (name : String) (line : Nat) (settings : List Setting) : Spell where
  name := name
  description := Field.description.value settings
  archetypes := Field.archetypes.value settings
  parameters := Field.parameters.value settings
  usage := Field.usage.value settings
  implementation := Field.implementation.value settings
  line := line

def Character.ofSettings (name : String) (line : Nat) (settings : List Setting) : Character where
  name := name
  archetype := Field.archetype.value settings
  elements := Field.elements.value settings
  data := Field.data.value settings
  backstory := Field.backstory.value settings
  relationships := Field.relationships.value settings
  spells := Field.spells.value settings
  line := line

def World.ofSettings (name : String) (line : Nat) (settings : List Setting) : World where
  name := name
  cosmology := Field.cosmology.value settings
  geography := Field.geography.value settings
  cultures := Field.cultures.value settings
  history := Field.history.value settings
  line := line

/-- The declaration with this name whose fields are what the last settings of them say. -/
def Composite.declare : Composite → String → Nat → List Setting → Declaration
  | spell, name, line, settings => .spell (.ofSettings name line settings)
  | character, name, line, settings => .character (.ofSettings name line settings)
  | world, name, line, settings => .world (.ofSettings name line settings)

theorem Composite.declare_congr {settings settings' : List Setting}
    (h : ∀ f : Field, f.last? settings = f.last? settings') (composite : Composite) (name : String) (line : Nat) :
    composite.declare name line settings = composite.declare name line settings' := by
  have hvalue (f : Field) : f.value settings = f.value settings' := by rw [Field.value, Field.value, h]
  cases composite with
  | spell => simp only [declare, Spell.ofSettings, hvalue]
  | character => simp only [declare, Character.ofSettings, hvalue]
  | world => simp only [declare, World.ofSettings, hvalue]

/-! ## Rearranged settings -/

/-- Settings of different fields change places, and a setting goes when the field is set again behind it. -/
inductive Rearranged : List Setting → List Setting → Prop
  | refl (settings : List Setting) : Rearranged settings settings
  | swap (before after : List Setting) {s s' : Setting} (h : s.1 ≠ s'.1) :
    Rearranged (before ++ s :: s' :: after) (before ++ s' :: s :: after)
  | drop (before between after : List Setting) {s s' : Setting} (h : s.1 = s'.1) :
    Rearranged (before ++ s :: (between ++ s' :: after)) (before ++ (between ++ s' :: after))
  | trans {settings settings' settings'' : List Setting} :
    Rearranged settings settings' → Rearranged settings' settings'' → Rearranged settings settings''

/-- The last settings stay. -/
theorem Rearranged.last?_eq {settings settings' : List Setting} (h : Rearranged settings settings') (f : Field) :
    f.last? settings = f.last? settings' := by
  induction h with
  | refl => rfl
  | @swap before after s s' hne =>
    simp only [Field.last?_append, Field.last?_cons]
    by_cases hf : s.1 = f
    · have hf' : s'.1 ≠ f := fun h => hne (hf.trans h.symm)
      rw [Setting.get?_of_ne hf', Option.or_none, Option.or_none]
    · rw [Setting.get?_of_ne hf, Option.or_none, Option.or_none]
  | @drop before between after s s' hsame =>
    simp only [Field.last?_append, Field.last?_cons]
    by_cases hf : s.1 = f
    · -- the later setting is of the field, too
      obtain ⟨g, v⟩ := s'
      obtain rfl : g = f := hsame.symm.trans hf
      rw [Setting.get?_self]
      cases g.last? after <;> rfl
    · rw [Setting.get?_of_ne hf, Option.or_none]
  | trans _ _ ih ih' => exact ih.trans ih'

theorem Rearranged.declare_eq {settings settings' : List Setting} (h : Rearranged settings settings')
    (composite : Composite) (name : String) (line : Nat) :
    composite.declare name line settings = composite.declare name line settings' :=
  composite.declare_congr h.last?_eq name line

/-! ## Lines -/

/-- What a clause says with the lines of spells forgotten. -/
def Form.withoutLines : (form : Form) → form.Datum → form.Datum
  | text _, v => v
  | word _, v => v
  | words, v => v
  | block .map _, v => v
  | block .sequence _, v => v
  | spells, v => v.map fun s => { s with line := 0 }

def Setting.withoutLines (s : Setting) : Setting := ⟨s.1, s.1.form.withoutLines s.2⟩

theorem Setting.get?_withoutLines (s : Setting) (f : Field) :
    s.withoutLines.get? f = (s.get? f).map f.form.withoutLines := by
  obtain ⟨g, v⟩ := s
  by_cases h : g = f
  · subst h
    rw [withoutLines, get?_self, get?_self, Option.map_some]
  · rw [withoutLines, get?_of_ne h, get?_of_ne h, Option.map_none]

theorem Field.last?_withoutLines (f : Field) (settings : List Setting) :
    f.last? (settings.map Setting.withoutLines) = (f.last? settings).map f.form.withoutLines := by
  induction settings with
  | nil => rfl
  | cons s settings ih =>
    rw [List.map_cons, last?_cons, last?_cons, ih, Setting.get?_withoutLines, Option.map_or]

theorem Field.value_withoutLines (f : Field) (settings : List Setting) :
    f.value (settings.map Setting.withoutLines) = f.form.withoutLines (f.value settings) := by
  have hempty : f.form.empty = f.form.withoutLines f.form.empty := by cases f <;> rfl
  rw [value, value, last?_withoutLines]
  cases f.last? settings with
  | none => exact hempty
  | some v => rfl

/-- A declaration without its lines is that of settings without lines. -/
theorem Composite.declare_withoutLines (composite : Composite) (name : String) (line : Nat) (settings : List Setting) :
    (composite.declare name line settings).withoutLines =
      composite.declare name 0 (settings.map Setting.withoutLines) := by
  cases composite with
  | spell => simp only [declare, Declaration.withoutLines, Spell.ofSettings, Field.value_withoutLines]; rfl
  | character => simp only [declare, Declaration.withoutLines, Character.ofSettings, Field.value_withoutLines]; rfl
  | world => simp only [declare, Declaration.withoutLines, World.ofSettings, Field.value_withoutLines]; rfl

end Grimoire.Source
