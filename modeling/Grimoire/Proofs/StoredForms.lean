import Grimoire.Source.Codec
import Grimoire.Trigger.Strategy
import Grimoire.Workflow.Definition

/-!
# Stored forms

Declarations, match strategies and workflow definitions are stored as data and read again, by the names of
their members and by the tags of their kinds. The readers give back what was written, whatever data stands
inside, as long as the whole numbers fit a word of 64 bits (`stored_forms_read_back`).
-/
namespace Grimoire

/-- Whole numbers that a word of 64 bits holds. -/
abbrev FitWords (ns : List Nat) : Prop := ∀ n ∈ ns, n < Nat.pow 2 64

/-! ## Plain values -/

theorem mapM_map_of_inverse {α β : Type} {write : α → β} {read? : β → Option α} {xs : List α}
    (h : ∀ x ∈ xs, read? (write x) = some x) : (xs.map write).mapM read? = some xs := by
  induction xs with
  | nil => rfl
  | cons x xs ih =>
    rw [List.map_cons, List.mapM_cons, h x List.mem_cons_self, ih fun y hy => h y (List.mem_cons_of_mem x hy)]
    rfl

namespace Json

theorem asNat?_ofNat {n : Nat} (h : n < Nat.pow 2 64) : (ofNat n).asNat? (Nat.pow 2 64) = some n := by
  have hword : n < 18446744073709551616 := h
  have hmin : (Whole.ofNat n).val = n := Int.min_eq_left (by omega)
  have hrange : 0 ≤ (Whole.ofNat n).val ∧ (Whole.ofNat n).val < (Nat.pow 2 64 : Nat) := by
    rw [hmin]
    exact ⟨Int.natCast_nonneg n, Int.ofNat_lt.2 h⟩
  rw [ofNat, asNat?, if_pos hrange, hmin, Int.toNat_natCast]

theorem asList?_strings (texts : List String) : (strings texts).asList? asString? = some texts :=
  mapM_map_of_inverse fun _ _ => rfl

theorem asList?_some (items : List Json) : (array items).asList? some = some items := by
  have h := @mapM_map_of_inverse _ _ id some items fun _ _ => rfl
  rwa [List.map_id] at h

theorem asOption?_optionText (text? : Option String) :
    (Workflow.optionText text?).asOption? asString? = some text? := by
  cases text? <;> rfl

theorem asOption?_ofNat {n? : Option Nat} (h : ∀ n ∈ n?, n < Nat.pow 2 64) :
    (ofOption (n?.map ofNat)).asOption? (asNat? (Nat.pow 2 64)) = some n? := by
  cases n? with
  | none => rfl
  | some n =>
    have hn : (ofNat n).asOption? (asNat? (Nat.pow 2 64)) = ((ofNat n).asNat? (Nat.pow 2 64)).map some := rfl
    rw [Option.map_some, ofOption, Option.getD_some, hn, asNat?_ofNat (h n rfl), Option.map_some]

end Json

/-! ## Records -/

/-- The record has these members, by their names. -/
def Record.Holds (r : Record) (members : Object) : Prop := ∀ m ∈ members, ∀ place, r.find? place m.1 = some m.2

theorem Object.get?_of_mem {o : Object} (h : (Object.keys o).Nodup) {m : String × Json} (hm : m ∈ o) :
    Object.get? o m.1 = some m.2 := by
  induction o with
  | nil => nomatch hm
  | cons first o ih =>
    have hnodup : first.1 ∉ Object.keys o ∧ (Object.keys o).Nodup := List.nodup_cons.1 h
    rcases List.mem_cons.1 hm with rfl | hm
    · simp [Object.get?]
    · have hne : first.1 ≠ m.1 := fun heq => hnodup.1 (heq ▸ List.mem_map_of_mem hm)
      rw [← ih hnodup.2 hm]
      simp [Object.get?, hne]

/-- Members with different names are found among any others with yet other names. -/
theorem Record.holds_named {o members : Object} (h : (Object.keys o).Nodup) (hsub : members ⊆ o) :
    (Record.named o).Holds members :=
  fun _ hm _ => Object.get?_of_mem h (hsub hm)

section
variable {α : Type} {r : Record} {place : Nat} {name : String} {j : Json}

theorem Record.required_eq (h : r.find? place name = some j) (value? : Json → Option α) :
    r.required place name value? = value? j := by
  rw [Record.required, h, Option.bind_some]

theorem Record.optional_eq (h : r.find? place name = some j) (value? : Json → Option α) :
    r.optional place name value? = j.asOption? value? := by
  simp only [Record.optional, h]

end

/-! ## Declarations -/

namespace Source

/-- The lines that a declaration remembers. -/
def Declaration.lines : Declaration → List Nat
  | spell s => [s.line]
  | character c => c.line :: c.spells.map (·.line)
  | world w => [w.line]
  | archetype a => [a.line]

theorem Spell.ofRecord?_of_holds {s : Spell} {r : Record} (h : r.Holds s.members) (hline : s.line < Nat.pow 2 64) :
    Spell.ofRecord? r = some s := by
  simp only [Record.Holds, Spell.members, List.forall_mem_cons] at h
  simp [Spell.ofRecord?, Record.required, h, Json.asString?, Json.asObject?, Json.asList?_strings, wordBound,
    Json.asNat?_ofNat hline]

theorem Character.ofRecord?_of_holds {c : Character} {r : Record} (h : r.Holds c.members)
    (hline : c.line < Nat.pow 2 64) (hspells : ∀ s ∈ c.spells, s.line < Nat.pow 2 64) :
    Character.ofRecord? r = some c := by
  have hread : (Json.array (c.spells.map fun s => .object s.members)).asList? Spell.ofJson? = some c.spells :=
    mapM_map_of_inverse fun s hs =>
      Spell.ofRecord?_of_holds (Record.holds_named (by simp [Object.keys, Spell.members]) (List.Subset.refl _))
        (hspells s hs)
  simp only [Record.Holds, Character.members, List.forall_mem_cons] at h
  simp [Character.ofRecord?, Record.required, h, Json.asString?, Json.asObject?, Json.asList?_strings,
    Json.asList?_some, hread, wordBound, Json.asNat?_ofNat hline]

theorem World.ofRecord?_of_holds {w : World} {r : Record} (h : r.Holds w.members) (hline : w.line < Nat.pow 2 64) :
    World.ofRecord? r = some w := by
  simp only [Record.Holds, World.members, List.forall_mem_cons] at h
  simp [World.ofRecord?, Record.required, h, Json.asString?, Json.asObject?, Json.asList?_some, wordBound,
    Json.asNat?_ofNat hline]

theorem Archetype.ofRecord?_of_holds {a : Archetype} {r : Record} (h : r.Holds a.members)
    (hline : a.line < Nat.pow 2 64) : Archetype.ofRecord? r = some a := by
  simp only [Record.Holds, Archetype.members, List.forall_mem_cons] at h
  simp [Archetype.ofRecord?, Record.required, h, Json.asString?, wordBound, Json.asNat?_ofNat hline]

namespace Declaration

/-- The member that names the kind of a declaration comes before its fields, and none of them has its name. -/
theorem holds_tagged {members : Object} (kind : String) (h : (Object.keys (("type", .string kind) :: members)).Nodup) :
    (Record.named (("type", .string kind) :: members)).Holds members :=
  Record.holds_named h (List.subset_cons_self _ _)

theorem ofJson?_toJson {d : Declaration} (h : FitWords d.lines) : ofJson? d.toJson = some d := by
  have hline : d.line < Nat.pow 2 64 := by cases d <;> exact h _ List.mem_cons_self
  cases d with
  | spell s =>
    have hs : Spell.ofJson? (.object (("type", .string "Spell") :: s.members)) = some s :=
      Spell.ofRecord?_of_holds (holds_tagged _ (by simp [Object.keys, Spell.members])) hline
    exact congrArg (Option.map spell) hs
  | character c =>
    have hspells : ∀ s ∈ c.spells, s.line < Nat.pow 2 64 := fun s hs =>
      h _ (List.mem_cons_of_mem _ (List.mem_map_of_mem hs))
    have hc : Character.ofJson? (.object (("type", .string "Character") :: c.members)) = some c :=
      Character.ofRecord?_of_holds (holds_tagged _ (by simp [Object.keys, Character.members])) hline hspells
    exact congrArg (Option.map character) hc
  | world w =>
    have hw : World.ofJson? (.object (("type", .string "World") :: w.members)) = some w :=
      World.ofRecord?_of_holds (holds_tagged _ (by simp [Object.keys, World.members])) hline
    exact congrArg (Option.map world) hw
  | archetype a =>
    have ha : Archetype.ofJson? (.object (("type", .string "Archetype") :: a.members)) = some a :=
      Archetype.ofRecord?_of_holds (holds_tagged _ (by simp [Object.keys, Archetype.members])) hline
    exact congrArg (Option.map archetype) ha

end Declaration

end Source

/-! ## Match strategies -/

namespace Trigger

theorem Condition.ofJson?_toJson (c : Condition) : Condition.ofJson? c.toJson = some c := by
  obtain ⟨field, operator, value⟩ := c
  cases operator <;> rfl

namespace Expression

mutual

theorem ofJson?_toJson : ∀ e : Expression, ofJson? e.toJson = some e
  | condition c => by rw [toJson, ofJson?, Condition.ofJson?_toJson, Option.map_some]
  | all operands => by rw [toJson, ofJson?, ofItems?_toItems, Option.map_some]
  | any operands => by rw [toJson, ofJson?, ofItems?_toItems, Option.map_some]
  | not operand => by rw [toJson, ofJson?, ofJson?_toJson, Option.map_some]

theorem ofItems?_toItems : ∀ es : List Expression, ofItems? (toItems es) = some es
  | [] => rfl
  | e :: es => by
    rw [toItems, ofItems?, ofJson?_toJson, ofItems?_toItems]
    rfl

end

end Expression

/-- The lengths of the intervals. -/
def Schedule.intervals : Schedule → List Nat
  | cron _ => []
  | interval millis => [millis]

def Strategy.intervals : Strategy → List Nat
  | scheduled schedule => schedule.intervals
  | _ => []

theorem Schedule.ofJson?_toJson {s : Schedule} (h : FitWords s.intervals) : Schedule.ofJson? s.toJson = some s := by
  cases s with
  | cron expression => rfl
  | interval millis =>
    have hmillis : (Record.named [("interval_ms", Json.ofNat millis)]).required 0 "interval_ms"
        (Json.asNat? (Nat.pow 2 64)) = some millis := Json.asNat?_ofNat (h millis List.mem_cons_self)
    simp [Schedule.ofJson?, Schedule.toJson, Json.asAlternative?, Record.of?, hmillis]

theorem Strategy.ofJson?_toJson {s : Strategy} (h : FitWords s.intervals) : Strategy.ofJson? s.toJson = some s := by
  have htagged : Record.tagged? "type" s.toJson = some (s.kind, .named (("type", .string s.kind) :: s.members)) := rfl
  have hrecord : Record.of? 1 (Record.named (("type", .string s.kind) :: s.members)).data =
      some (.named (("type", .string s.kind) :: s.members)) := rfl
  have hholds : (Record.named (("type", .string s.kind) :: s.members)).Holds s.members :=
    Record.holds_named (by cases s <;> simp [Object.keys, Strategy.members]) (List.subset_cons_self _ _)
  simp only [Strategy.ofJson?, htagged, Option.bind_eq_bind, Option.bind_some, hrecord]
  generalize Record.named (("type", .string s.kind) :: s.members) = r at hholds
  cases s with
  | keyword keywords =>
    have hfield := hholds _ List.mem_cons_self 0
    simp [Strategy.kind, Record.required, hfield, Json.asList?_strings]
  | pattern patterns =>
    have hfield := hholds _ List.mem_cons_self 0
    simp [Strategy.kind, Record.required, hfield, Json.asList?_strings]
  | semantic intent =>
    have hfield := hholds _ List.mem_cons_self 0
    simp [Strategy.kind, Record.required, hfield, Json.asString?]
  | conditional conditions =>
    have hfield := hholds _ List.mem_cons_self 0
    have hread : (Json.array (conditions.map Condition.toJson)).asList? Condition.ofJson? = some conditions :=
      mapM_map_of_inverse fun c _ => c.ofJson?_toJson
    simp [Strategy.kind, Record.defaulted, hfield, hread]
  | composite expression =>
    have hfield := hholds _ List.mem_cons_self 0
    simp [Strategy.kind, Record.required, hfield, Expression.ofJson?_toJson]
  | scheduled schedule =>
    have hfield := hholds _ List.mem_cons_self 0
    simp [Strategy.kind, Record.required, hfield, Schedule.ofJson?_toJson h]

end Trigger

/-! ## Workflow definitions -/

namespace Workflow

theorem PhaseAction.ofMembers?_of_holds {a : PhaseAction} {o : Object} (h : (Record.named o).Holds a.members) :
    PhaseAction.ofMembers? o = some a := by
  have hkind : (Record.named o).required 0 "action" PhaseAction.kind? = some a.kind :=
    Record.required_eq (h _ List.mem_cons_self 0) _
  simp only [PhaseAction.ofMembers?, hkind, Option.bind_eq_bind, Option.bind_some]
  cases a with
  | generate | enhance | validate => rfl
  | parallel guardians =>
    have hfield : (Record.named o).required 0 "guardians" (Json.asList? Json.asString?) = some guardians :=
      (Record.required_eq (h ("guardians", Json.strings guardians) (by simp [members]) 0) _).trans
        (Json.asList?_strings guardians)
    simp [PhaseAction.kind, hfield]
  | nested workflow =>
    have hfield : (Record.named o).required 0 "workflow_id" Json.asString? = some workflow :=
      Record.required_eq (h ("workflow_id", .string workflow) (by simp [members]) 0) _
    simp [PhaseAction.kind, hfield]

theorem Phase.nodup_keys (p : Phase) : (Object.keys p.members).Nodup := by
  cases h : p.action <;> simp [Phase.members, h, PhaseAction.members, Object.keys]

theorem Phase.ofJson?_toJson {p : Phase} (h : ∀ n ∈ p.timeout, n < Nat.pow 2 64) :
    Phase.ofJson? p.toJson = some p := by
  have hobject : p.toJson.asObject? = some p.members := rfl
  have haction : PhaseAction.ofMembers? p.members = some p.action :=
    PhaseAction.ofMembers?_of_holds (Record.holds_named p.nodup_keys fun _ hm =>
      List.mem_append_left _ (List.mem_append_right _ hm))
  have hholds : (Record.named p.members).Holds p.members := Record.holds_named p.nodup_keys (List.Subset.refl _)
  simp only [Phase.ofJson?, hobject, Option.bind_eq_bind, Option.bind_some, haction]
  generalize Record.named p.members = r at hholds
  simp only [Record.Holds, Phase.members, List.forall_mem_append, List.forall_mem_cons] at hholds
  simp [Record.required, Record.defaulted, Record.optional_eq, hholds, Json.asString?, Json.asObject?, Json.asBool?,
    Json.asList?_strings, Json.asOption?_optionText, Json.asOption?_ofNat h]

theorem Completion.asOption?_name (c? : Option Completion) :
    (optionText (c?.map Completion.name)).asOption? Completion.ofJson? = some c? := by
  cases c? with
  | none => rfl
  | some c => cases c <;> rfl

/-- The times that phases may take. -/
def Definition.timeouts (d : Definition) : List Nat := d.phases.filterMap (·.timeout)

theorem Definition.ofJson?_toJson {d : Definition} (h : FitWords d.timeouts) :
    Definition.ofJson? d.toJson = some d := by
  have hphases : (Json.array (d.phases.map Phase.toJson)).asList? Phase.ofJson? = some d.phases :=
    mapM_map_of_inverse fun p hp => Phase.ofJson?_toJson fun n hn => h n (List.mem_filterMap.2 ⟨p, hp, hn⟩)
  obtain ⟨members, hmembers⟩ : ∃ members, d.toJson = .object members := ⟨_, rfl⟩
  have hholds : (Record.named members).Holds members := by
    obtain rfl := Json.object.inj hmembers
    exact Record.holds_named (by simp [Object.keys]) (List.Subset.refl _)
  have hrecord : Record.of? 6 d.toJson = some (.named members) := hmembers ▸ rfl
  simp only [Definition.ofJson?, hrecord, Option.bind_eq_bind, Option.bind_some]
  generalize Record.named members = r at hholds
  obtain rfl := Json.object.inj hmembers
  simp only [Record.Holds, List.forall_mem_cons] at hholds
  simp [Record.required, Record.defaulted, hholds, Json.asString?, hphases, Completion.asOption?_name]

end Workflow

/-- **Stored forms read back.** Declarations, strategies with expressions of any depth, and workflow definitions
are read from what they are written to, with any data inside. -/
theorem stored_forms_read_back :
    (∀ d : Source.Declaration, FitWords d.lines → Source.Declaration.ofJson? d.toJson = some d) ∧
      (∀ s : Trigger.Strategy, FitWords s.intervals → Trigger.Strategy.ofJson? s.toJson = some s) ∧
      ∀ d : Workflow.Definition, FitWords d.timeouts → Workflow.Definition.ofJson? d.toJson = some d :=
  ⟨fun _ => Source.Declaration.ofJson?_toJson, fun _ => Trigger.Strategy.ofJson?_toJson,
    fun _ => Workflow.Definition.ofJson?_toJson⟩

/-- A character with a spell of its own. -/
def ashling : Source.Character where
  name := "Ember"
  elements := ["fire"]
  data := [("type", .string "Spell"), ("heat", .number (.float 0.5)), ("none", .null)]
  relationships := [.object [("with", .string "Ash")], .bool true]
  spells := [{ name := "Kindle", parameters := [("line", .array [])], line := 18446744073709551615 }]
  line := 3

/-- Neither is the mood grim, nor does anything else hold. -/
def calm : Trigger.Strategy :=
  .composite (.not (.any [.condition { field := "mood", operator := .regex, value := .object [("not", .null)] },
    .all [.not (.any [])]]))

/-- Phases of three kinds, with options and without. -/
def quest : Workflow.Definition where
  id := "quest"
  name := "Quest"
  orchestrator := "keeper"
  phases :=
    [{ id := "call", name := "Call", action := .generate, timeout := some 18446744073709551615 },
     { id := "trial", name := "Trial", guardian := some "river-storyteller"
       action := .parallel ["dragon-forge", "void-gazer"]
       parameters := [("action", .string "generate")], outputKey := some "trial", critical := false },
     { id := "return", name := "Return", action := .nested "home", inputs := ["trial.result"] }]
  onComplete := some .story

theorem quest_reads_back :
    Source.Declaration.ofJson? (Source.Declaration.character ashling).toJson = some (.character ashling) ∧
      Trigger.Strategy.ofJson? calm.toJson = some calm ∧
      Workflow.Definition.ofJson? quest.toJson = some quest :=
  ⟨stored_forms_read_back.1 (.character ashling) (by decide), stored_forms_read_back.2.1 calm (by decide),
    stored_forms_read_back.2.2 quest (by decide)⟩

end Grimoire
