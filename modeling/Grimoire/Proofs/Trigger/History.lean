import Grimoire.Pattern.Engine
import Grimoire.Proofs.Trigger.Bookkeeping
import Mathlib.Data.List.Induction

/-!
# The history of a trigger engine

Between requests an engine may be configured anew, with another length of its history. Whatever it is asked and
however it is configured, the history is the end of the list of all contexts processed so far, as long as the
length in force allows (`Recalls`). An entry is lost for good exactly when at some moment since there were more
entries than the history could hold, which says how many are left (`history_keeps_latest`).
-/
namespace Grimoire.Trigger

open Time (Instant)

/-! ## Engines that are configured anew -/

/-- A request, or another configuration. -/
inductive Change
  | request (r : Request)
  | configure (config : Config)

def Engine.apply [RegexEngine] (e : Engine) : Change → Engine
  | .request r => (e.serve r).2
  | .configure config => e.withConfig config

def Engine.applyAll [RegexEngine] (e : Engine) (changes : List Change) : Engine := changes.foldl Engine.apply e

/-- The context that is processed, with its instant. -/
def Change.processed? : Change → Option Processed
  | .request (.process context instant) => some { context, instant }
  | _ => none

def Change.config? : Change → Option Config
  | .configure config => some config
  | _ => none

/-- All contexts that are processed, with their instants, in order. -/
def processed (changes : List Change) : List Processed := changes.filterMap Change.processed?

/-- The configuration in force after the changes. -/
def inForce (start : Config) (changes : List Change) : Config := (changes.filterMap Change.config?).getLast?.getD start

/-! ## The last entries -/

namespace Engine

theorem latest_suffix (limit : Nat) (history : List Processed) : latest limit history <:+ history :=
  List.drop_suffix _ _

theorem length_latest (limit : Nat) (history : List Processed) :
    (latest limit history).length = min limit history.length := by
  rw [latest, List.length_drop]
  omega

theorem latest_of_le {limit : Nat} {history : List Processed} (h : history.length ≤ limit) :
    latest limit history = history := by
  rw [latest, Nat.sub_eq_zero_of_le h, List.drop_zero]

/-! ## One change -/

theorem config_fire (context : Json) (instant : Instant) : ∀ (rs : List Registered) (s : Setting),
    (fire context instant rs s).2.2.config = s.config
  | [], _ => rfl
  | r :: rs, s => by
    unfold fire
    split
    · exact config_fire context instant rs s
    · exact (config_fire context instant rs _).trans (Setting.config_execute ..)

/-- A context that is processed is remembered; no other request touches the history or the configuration. -/
theorem serve_history [RegexEngine] (e : Engine) (r : Request) :
    (e.serve r).2.config = e.config ∧
      (e.serve r).2.history = match (Change.request r).processed? with
        | some p => latest e.config.maxHistory (e.history ++ [p])
        | none => e.history := by
  cases r with
  | register t =>
    simp only [Engine.serve, Engine.register, Engine.named]
    split
    · exact ⟨rfl, rfl⟩
    · split <;> exact ⟨rfl, rfl⟩
  | unregister id =>
    simp only [Engine.serve, Engine.unregister]
    split <;> exact ⟨rfl, rfl⟩
  | setEnabled id enabled =>
    simp only [Engine.serve, Engine.setEnabled]
    split <;> exact ⟨rfl, rfl⟩
  | process context instant => exact ⟨config_fire .., rfl⟩

/-- Every change puts what it processes at the end of the history and cuts it to the length then in force. -/
theorem apply_eq [RegexEngine] {e : Engine} (h : e.history.length ≤ e.config.maxHistory) (x : Change) :
    (e.apply x).config = x.config?.getD e.config ∧
      (e.apply x).history = latest (e.apply x).config.maxHistory (e.history ++ x.processed?.toList) := by
  cases x with
  | configure config =>
    refine ⟨rfl, ?_⟩
    have hnone : (Change.configure config).processed? = none := rfl
    rw [hnone, Option.toList_none, List.append_nil]
    rfl
  | request r =>
    obtain ⟨hconfig, hhistory⟩ := e.serve_history r
    refine ⟨hconfig, ?_⟩
    have hbound : (e.apply (.request r)).config.maxHistory = e.config.maxHistory := congrArg _ hconfig
    rw [hbound]
    refine hhistory.trans ?_
    cases (Change.request r).processed? with
    | some p => rfl
    | none => rw [Option.toList_none, List.append_nil, latest_of_le h]

end Engine

/-! ## Any changes -/

section
variable {start : Config} {changes : List Change} {e : Engine}

theorem processed_append (earlier later : List Change) :
    processed (earlier ++ later) = processed earlier ++ processed later := List.filterMap_append

theorem processed_singleton (x : Change) : processed [x] = x.processed?.toList := by
  rw [processed, List.filterMap_cons]
  cases x.processed? <;> rfl

theorem inForce_concat (start : Config) (changes : List Change) (x : Change) :
    inForce start (changes ++ [x]) = x.config?.getD (inForce start changes) := by
  rw [inForce, List.filterMap_append, List.filterMap_cons, List.filterMap_nil]
  cases x.config? with
  | none => rw [List.append_nil]; rfl
  | some config => rw [List.getLast?_concat]; rfl

/-- The moments of a longer run are those of the shorter one, and its end. -/
theorem forall_moments_concat {P : List Change → List Change → Prop} {x : Change} :
    (∀ earlier later, changes ++ [x] = earlier ++ later → P earlier later) ↔
      P (changes ++ [x]) [] ∧ ∀ earlier later, changes = earlier ++ later → P earlier (later ++ [x]) := by
  constructor
  · intro h
    refine ⟨h _ _ (List.append_nil _).symm, fun earlier later hsplit => h _ _ ?_⟩
    rw [hsplit, List.append_assoc]
  · rintro ⟨hend, h⟩ earlier later hsplit
    induction later using List.reverseRecOn with
    | nil => exact (List.append_nil earlier ▸ hsplit) ▸ hend
    | append_singleton later y _ =>
      rw [← List.append_assoc] at hsplit
      obtain ⟨hinit, rfl⟩ := List.append_singleton_inj.1 hsplit
      exact h _ _ hinit

/-- The history after the changes: how long it may be, and what it holds. -/
structure Recalls (start : Config) (changes : List Change) (e : Engine) : Prop where
  config : e.config = inForce start changes
  suffix : e.history <:+ processed changes
  /-- So many entries are left if there were so many, and at every moment no more than the history could hold came
  after them. -/
  kept : ∀ k, k ≤ e.history.length ↔ k ≤ (processed changes).length ∧
    ∀ earlier later, changes = earlier ++ later →
      k ≤ (inForce start earlier).maxHistory + (processed later).length

theorem Recalls.length_le (h : Recalls start changes e) : e.history.length ≤ e.config.maxHistory := by
  rw [h.config]
  exact ((h.kept _).1 (Nat.le_refl _)).2 changes [] (List.append_nil _).symm

theorem Recalls.apply [RegexEngine] (h : Recalls start changes e) (x : Change) : Recalls start (changes ++ [x]) (e.apply x) := by
  obtain ⟨hconfig, hhistory⟩ := Engine.apply_eq h.length_le x
  have hforce : (e.apply x).config = inForce start (changes ++ [x]) := by
    rw [hconfig, h.config, inForce_concat]
  refine ⟨hforce, ?_, fun k => ?_⟩
  case refine_1 =>
    rw [hhistory, processed_append, processed_singleton]
    refine (Engine.latest_suffix _ _).trans ?_
    obtain ⟨lost, hlost⟩ := h.suffix
    exact ⟨lost, by rw [← hlost, List.append_assoc]⟩
  case refine_2 =>
    -- What the change processes comes after every earlier moment, so it counts once on both sides.
    have hkept := h.kept (k - (processed [x]).length)
    simp only [Nat.sub_le_iff_le_add] at hkept
    rw [hhistory, Engine.length_latest, Nat.le_min, List.length_append, ← processed_singleton, hkept, hforce,
      forall_moments_concat]
    simp only [processed_append, List.length_append, Nat.add_assoc]
    exact and_left_comm

theorem Recalls.applyAll [RegexEngine] (h : Recalls start [] e) (changes : List Change) :
    Recalls start changes (e.applyAll changes) := by
  induction changes using List.reverseRecOn with
  | nil => exact h
  | append_singleton changes x ih =>
    rw [Engine.applyAll, List.foldl_append]
    exact ih.apply x

theorem Recalls.new (setting : Setting) : Recalls setting.config [] { toSetting := setting } where
  config := rfl
  suffix := List.suffix_refl _
  kept k := by
    refine ⟨fun hk => ⟨hk, fun _ _ _ => ?_⟩, And.left⟩
    rw [Nat.le_zero.1 hk]
    exact Nat.zero_le _

/-- With one length from the start the history has that length, or holds all that was processed. -/
theorem Recalls.length_eq (h : Recalls start changes e)
    (hsame : ∀ config, .configure config ∈ changes → config.maxHistory = start.maxHistory) :
    e.history.length = min start.maxHistory (processed changes).length := by
  have hforce (earlier later : List Change) (hsplit : changes = earlier ++ later) :
      (inForce start earlier).maxHistory = start.maxHistory := by
    cases hlast : (earlier.filterMap Change.config?).getLast? with
    | none => rw [inForce, hlast]; rfl
    | some config =>
      obtain ⟨x, hx, hconfig⟩ := List.mem_filterMap.1 (List.mem_of_getLast? hlast)
      cases x with
      | request r => cases hconfig
      | configure config' =>
        obtain rfl := Option.some.inj hconfig
        rw [inForce, hlast]
        exact hsame config' (hsplit ▸ List.mem_append_left later hx)
  have hall : e.history.length ≤ (processed changes).length := ((h.kept _).1 (Nat.le_refl _)).1
  refine Nat.le_antisymm (Nat.le_min.2 ⟨?_, hall⟩) ((h.kept _).2 ⟨Nat.min_le_right _ _, ?_⟩)
  · rw [← hforce changes [] (List.append_nil _).symm, ← h.config]
    exact h.length_le
  · intro earlier later hsplit
    rw [hforce earlier later hsplit]
    exact Nat.le_trans (Nat.min_le_left _ _) (Nat.le_add_right _ _)

end

/-- **The history of an engine** after any changes is the end of all that was processed, in order, and no longer
than the length in force. How much is left is said by the lengths in force since: with one length from the start,
so many entries or all of them. A query gives the last entries, as many as it asks for or all of them. -/
theorem history_keeps_latest [RegexEngine] (setting : Setting) (changes : List Change) :
    let e := Engine.applyAll { toSetting := setting } changes
    e.config = inForce setting.config changes ∧
      e.history <:+ processed changes ∧
      e.history.length ≤ e.config.maxHistory ∧
      (∀ k, k ≤ e.history.length ↔ k ≤ (processed changes).length ∧
        ∀ earlier later, changes = earlier ++ later →
          k ≤ (inForce setting.config earlier).maxHistory + (processed later).length) ∧
      ((∀ config, .configure config ∈ changes → config.maxHistory = setting.config.maxHistory) →
        e.history.length = min setting.config.maxHistory (processed changes).length) ∧
      ∀ limit, Engine.latest limit e.history <:+ e.history ∧
        (Engine.latest limit e.history).length = min limit e.history.length := by
  have h := (Recalls.new setting).applyAll changes
  exact ⟨h.config, h.suffix, h.length_le, h.kept, h.length_eq,
    fun limit => ⟨Engine.latest_suffix _ _, Engine.length_latest _ _⟩⟩

/-- A setting whose engines remember two contexts. -/
def vigil : Setting := { config := { maxHistory := 2 }, host := { provider := Provider.Script.toProvider {} } }

/-- A context comes at a second. -/
def comes (text : String) (second : Int) : Change := .request (.process (.string text) ⟨second, 0⟩)

/-- Of three contexts the last two are left, though the engine was configured anew with the same length. -/
theorem vigil_keeps_latest :
    let changes := [.request (.register (watch "dawn")), comes "first" 1, comes "second" 2,
      .configure { maxHistory := 2, textProvider := "oracle" }, comes "third" 3]
    let e := Engine.applyAll { toSetting := vigil } changes
    e.history = [⟨.string "second", ⟨2, 0⟩⟩, ⟨.string "third", ⟨3, 0⟩⟩] ∧
      (∀ config, .configure config ∈ changes → config.maxHistory = vigil.config.maxHistory) ∧
      e.history.length = min vigil.config.maxHistory (processed changes).length := by
  intro changes e
  have hsame : ∀ config, .configure config ∈ changes → config.maxHistory = vigil.config.maxHistory := by
    intro config hconfig
    have hmem : config ∈ changes.filterMap Change.config? := List.mem_filterMap.2 ⟨_, hconfig, rfl⟩
    rw [List.mem_singleton.1 hmem]
    rfl
  exact ⟨rfl, hsame, (history_keeps_latest vigil changes).2.2.2.2.1 hsame⟩

/-- What a shorter history has lost does not come back with a longer one. -/
example : (Engine.applyAll { toSetting := vigil }
    [comes "first" 1, comes "second" 2, .configure { maxHistory := 0 }, comes "third" 3, .configure { maxHistory := 3 },
      comes "fourth" 4]).history = [⟨.string "fourth", ⟨4, 0⟩⟩] := by
  rfl

end Grimoire.Trigger
