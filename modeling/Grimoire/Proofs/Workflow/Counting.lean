import Grimoire.Proofs.Workflow.Stacks
import Mathlib.Algebra.GroupWithZero.Nat

/-!
# Which runs are counted

A run is counted when it starts, and once more when it ends. A run that a timeout drops does not end,
so its start stays without an outcome: in every reachable system the started runs are those counted
at their end, those under way, and those dropped so far (`System.Counted`). The counters of a system
at rest balance exactly when no timeout had a run to drop (`counters_balance_iff`); three runs inside
one another with a timeout of the outermost do not (`counters_do_not_balance`).
-/
namespace Grimoire.Workflow

open Event (InstanceId)

/-! ## Counters and instances of a stage -/

theorem counters_publish (o : Orchestrator) (run : Instance) : (o.publish run).counters = o.counters := by
  unfold Orchestrator.publish
  split <;> rfl

theorem counters_abandonRounds (now : Time.Instant) : ∀ (rounds : Nat) (ids : List InstanceId)
    (o : Orchestrator), (o.abandonRounds now rounds ids).counters = o.counters
  | 0, _, _ => rfl
  | rounds + 1, ids, o => by
    rw [Orchestrator.abandonRounds_succ]
    split
    · rfl
    · rw [counters_abandonRounds now rounds]
      rfl

/-- The runs that were counted at their end. -/
def Counters.ended (c : Counters) : Nat := c.completed + c.failed + c.cancelled

/-- Each instance was counted at its start, and all but `n` of them at their end. -/
structure Stage.Owes (s : Stage) (n : Nat) : Prop where
  started : s.orchestrator.counters.started = s.orchestrator.instances.length
  owed : s.orchestrator.counters.started = s.orchestrator.counters.ended + n

section
variable {s s' : Stage} {n : Nat}

/-- Nothing is counted and nothing starts. -/
theorem Stage.Owes.congr (h : s.Owes n) (hc : s'.orchestrator.counters = s.orchestrator.counters)
    (hl : s'.orchestrator.lineage = s.orchestrator.lineage) : s'.Owes n := by
  obtain ⟨hs, ho⟩ := h
  rw [← Orchestrator.length_lineage] at hs
  constructor
  · rw [hc, hs, ← hl, Orchestrator.length_lineage]
  · rw [hc, ho]

theorem Stage.Owes.begin (h : s.Owes n) (d : Definition) (context : Json) (parent : Option InstanceId) :
    (s.begin d context parent).1.Owes (n + 1) := by
  obtain ⟨hs, ho⟩ := h
  constructor
  · simp [Stage.begin, Stage.announce, hs]
  · simp only [Stage.begin, Stage.announce, Counters.ended] at ho ⊢
    omega

/-- A run is counted once at its end, whatever its outcome. -/
theorem Stage.Owes.conclude (h : s.Owes (n + 1)) (run : Instance) (duration : Nat) :
    (s.conclude run duration).Owes n := by
  obtain ⟨hs, ho⟩ := h
  unfold Counters.ended at ho
  unfold Stage.conclude
  split <;> constructor <;> simp only [Stage.announce, Counters.ended] <;> omega

theorem Stage.Owes.ended {f : Frame} {old : Instance} (h : s.Owes (n + 1)) (hn : s.orchestrator.Numbered)
    (hold : s.orchestrator.instance? f.run.id = some old) (hp : old.parent = f.run.parent) :
    (s.ended f).Owes n := by
  have hend : s.orchestrator.instance? (f.ending s).id = some old := hold
  refine Stage.Owes.conclude (h.congr ?_ ?_) _ _
  · exact counters_publish ..
  · exact Orchestrator.lineage_publish hn hend hp

end

/-! ## What each block counts -/

/-- **One block** counts the runs that start and end in it; those that a timeout drops stay owed. -/
theorem Work.owes {s s' : Stage} {f : Frame} {below others : List Frame} {late : Option Nat} {u : Task}
    {n : Nat} (h : Work s f below late s' u) (hf : Family s.orchestrator (f :: below ++ others))
    (ho : s.Owes (below.length + 1 + n)) : s'.Owes (u.frames.length + late.getD 0 + n) := by
  have hn := hf.numbered
  obtain ⟨old, hold, hp, _⟩ := hf.published f (by simp)
  cases h with
  | observe | ask | refuse | exhausted | hear | answer => exact ho.congr rfl rfl
  | @descend p w d context =>
    have hb := ho.begin d context (some f.run.id)
    simpa [Task.frames, Nat.add_right_comm _ 1 n] using hb
  | publish => exact ho.congr (counters_publish ..) (Orchestrator.lineage_publish hn hold hp)
  | conclude hc hout =>
    subst hout
    have ho' : s.Owes (n + 1) := by simpa [Nat.add_comm] using ho
    simpa [Task.frames] using ho'.ended hn hold hp
  | @deliver g outer u w hc hbelow =>
    subst hbelow
    have ho' : s.Owes (outer.length + 1 + n + 1) := by
      simpa [Nat.add_right_comm _ 1 n] using ho
    have hend : (s.ended f).Owes (outer.length + 1 + n) := ho'.ended hn hold hp
    exact hend.congr rfl rfl
  | @expire g outer dropped u e hsplit hu o hx =>
    have hlen : below.length + 1 = dropped.length + (outer.length + 1) := by
      simpa using congrArg List.length hsplit
    have ho' : s.Owes (outer.length + 1 + dropped.length + n) := by
      rwa [hlen, Nat.add_comm dropped.length] at ho
    have hsame : o.counters = s.orchestrator.counters ∧ o.lineage = s.orchestrator.lineage := by
      subst hx
      split
      · exact ⟨counters_abandonRounds .., Orchestrator.lineage_abandonRounds ..⟩
      · exact ⟨rfl, rfl⟩
    exact ho'.congr hsame.1 hsame.2

/-! ## Whole histories -/

/-- How many runs a timeout drops: all those inside the run whose phase is over. -/
def Happening.dropped (h : Happening) : Nat := h.level?.getD 0

def Task.hasReturned : Task → Bool
  | running .. => false
  | finished _ => true

/-- Every call has returned. -/
def System.AtRest (t : System) : Prop := ∀ u ∈ t.tasks, u.hasReturned = true

instance (t : System) : Decidable t.AtRest := inferInstanceAs (Decidable (∀ u ∈ t.tasks, u.hasReturned = true))

theorem System.AtRest.frames {t : System} (h : t.AtRest) : t.frames = [] := by
  refine List.flatMap_eq_nil_iff.2 fun u hu => ?_
  cases u with
  | running f below => simpa [Task.hasReturned] using h _ hu
  | finished outcome => rfl

/-- The runs that were not counted at their end are those under way and those that are lost. -/
def System.Counted (t : System) (lost : Nat) : Prop := t.toStage.Owes (t.frames.length + lost)

theorem Step.counted {s t : System} {h : Happening} {lost : Nat} (hst : Step s h t) (hs : s.Consistent)
    (hc : s.Counted lost) : t.Counted (lost + h.dropped) := by
  unfold System.Counted at hc ⊢
  cases hst with
  | unknown => simpa [System.frames, Task.frames, Happening.dropped, Happening.level?] using hc
  | @start w context d =>
    have hb := hc.begin d context none
    simpa [System.frames, Task.frames, Happening.dropped, Happening.level?, Nat.add_right_comm _ 1] using hb
  | @work _ task f below stage u on found work =>
    -- The frames of the task, and those of the other tasks.
    have hl : s.frames.length = below.length + 1 + (s.framesBeside task).length := by
      rw [(frames_perm found).length_eq, List.length_append]
      rfl
    have hl' := (frames_set_perm found stage u).length_eq
    rw [List.length_append] at hl'
    rw [hl, Nat.add_assoc] at hc
    have ho := work.owes (hs.at found).1 hc
    rw [hl', Happening.dropped]
    convert ho using 1
    omega
  | @cancel id =>
    refine Stage.Owes.congr (s := s.toStage) hc ?_ (lineage_cancel ..)
    unfold Stage.cancel
    split <;> rfl
  | wait => exact Stage.Owes.congr (s := s.toStage) hc rfl rfl

/-- The runs that the timeouts of a history drop. -/
def droppedIn (past : List Happening) : Nat := (past.map Happening.dropped).sum

theorem counted_of_run? {s : Stage} (hi : s.orchestrator.instances = []) (hc : s.orchestrator.counters = {})
    {past : List Happening} {t : System} (h : s.idle.run? past = some t) : t.Counted (droppedIn past) := by
  refine reachable_induction (P := fun past t => t.Counted (droppedIn past)) hi ?_ ?_ h
  · constructor <;> simp [Stage.idle, System.frames, droppedIn, Counters.ended, hi, hc]
  · intro past x t u _ hk ht hst
    simpa [droppedIn] using hst.counted hk.consistent ht

/-- **When the counters balance.** At rest, the started runs are those completed, failed or cancelled
and those that timeouts have dropped; so the counters balance exactly when every timeout was that of
the innermost run of its task. -/
theorem counters_balance_iff {s : Stage} (hi : s.orchestrator.instances = [])
    (hc : s.orchestrator.counters = {}) {past : List Happening} {t : System} (h : s.idle.run? past = some t)
    (hr : t.AtRest) :
    let c := t.orchestrator.metrics.counters
    c.started = t.orchestrator.instances.length ∧
      c.started = c.completed + c.failed + c.cancelled + droppedIn past ∧
      (c.started = c.completed + c.failed + c.cancelled ↔
        ∀ task level, .expire task level ∈ past → level = 0) := by
  obtain ⟨hstarted, howed⟩ := counted_of_run? hi hc h
  rw [hr.frames, List.length_nil, Nat.zero_add, Counters.ended] at howed
  refine ⟨hstarted, howed, ?_⟩
  have hnone : droppedIn past = 0 ↔ ∀ task level, .expire task level ∈ past → level = 0 := by
    rw [droppedIn, List.sum_eq_zero_iff_forall_eq_nat]
    constructor
    · intro hall task level hm
      exact hall level (List.mem_map.2 ⟨_, hm, rfl⟩)
    · intro hall n hn
      obtain ⟨x, hx, rfl⟩ := List.mem_map.1 hn
      cases x with
      | expire task level => exact hall task level hx
      | start | advance | answer | cancel | wait => rfl
  have hm : t.orchestrator.metrics.counters = t.orchestrator.counters := rfl
  rw [← hnone, hm]
  omega

/-- A provider that answers after 200 milliseconds. -/
def slowly : Provider where
  reply _ _ := .ok (.ok (.string "at last"))
  delay _ := 200
  note? _ := none

def ferry : Definition where
  id := "ferry"
  name := "Ferry"
  orchestrator := "keeper"
  phases := [{ id := "row", name := "Row", action := .generate }]

/-- Waits for the ferry, as long as it takes. -/
def crossing : Definition where
  id := "crossing"
  name := "Crossing"
  orchestrator := "keeper"
  phases := [{ id := "board", name := "Board", action := .nested "ferry" }]

/-- Waits 100 milliseconds for the crossing. -/
def pilgrimage : Definition where
  id := "pilgrimage"
  name := "Pilgrimage"
  orchestrator := "keeper"
  phases := [{ id := "cross", name := "Cross", action := .nested "crossing", timeout := some 100 }]

def pilgrimageStage : Stage :=
  { orchestrator := .ofDefinitions [ferry, crossing, pilgrimage], host := { provider := slowly } }

/-- The time of the pilgrimage is over while the ferry waits for its answer. -/
def pilgrimagePast : List Happening :=
  [.start "pilgrimage" .null, .advance 0, .advance 0, .advance 0, .wait 100, .expire 0 2, .advance 0,
   .advance 0]

/-- Three runs have started, and the outermost one has failed. -/
theorem pilgrimage_run : ∃ t, pilgrimageStage.idle.run? pilgrimagePast = some t ∧ t.AtRest ∧
    t.orchestrator.metrics.counters.started = 3 ∧ t.orchestrator.metrics.counters.completed = 0 ∧
    t.orchestrator.metrics.counters.failed = 1 ∧ t.orchestrator.metrics.counters.cancelled = 0 := by
  have hrun : (pilgrimageStage.idle.run? pilgrimagePast).any (fun t => t.AtRest ∧
      t.orchestrator.metrics.counters.started = 3 ∧ t.orchestrator.metrics.counters.completed = 0 ∧
      t.orchestrator.metrics.counters.failed = 1 ∧ t.orchestrator.metrics.counters.cancelled = 0) = true := by
    decide +kernel
  obtain ⟨t, ht, hp⟩ := (Option.any_eq_true _ _).1 hrun
  exact ⟨t, ht, of_decide_eq_true hp⟩

theorem pilgrimage_counters : ∃ t, pilgrimageStage.orchestrator.instances = [] ∧
    pilgrimageStage.orchestrator.counters = {} ∧ pilgrimageStage.idle.run? pilgrimagePast = some t ∧
    t.AtRest ∧
    (let c := t.orchestrator.metrics.counters
     c.started = t.orchestrator.instances.length ∧
      c.started = c.completed + c.failed + c.cancelled + droppedIn pilgrimagePast ∧
      (c.started = c.completed + c.failed + c.cancelled ↔
        ∀ task level, .expire task level ∈ pilgrimagePast → level = 0)) := by
  obtain ⟨t, ht, hr, _⟩ := pilgrimage_run
  exact ⟨t, rfl, rfl, ht, hr, counters_balance_iff rfl rfl ht hr⟩

/-- **Not every started run is counted at its end**: when the time of the pilgrimage is over, three
runs have started and one of them has failed. -/
theorem counters_do_not_balance : ¬ ∀ (s : Stage) (past : List Happening) (t : System),
    s.orchestrator.instances = [] → s.orchestrator.counters = {} → s.idle.run? past = some t → t.AtRest →
    t.orchestrator.metrics.counters.started = t.orchestrator.metrics.counters.completed +
      t.orchestrator.metrics.counters.failed + t.orchestrator.metrics.counters.cancelled := by
  intro hall
  obtain ⟨t, ht, hr, hs, hcomp, hfail, hcan⟩ := pilgrimage_run
  have hbalance := hall pilgrimageStage pilgrimagePast t rfl rfl ht hr
  omega

end Grimoire.Workflow
