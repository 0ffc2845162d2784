import Grimoire.Proofs.Workflow.Counting
import Grimoire.Proofs.Workflow.FinalStatus
import Grimoire.Proofs.Workflow.Turns

/-!
# Which runs are left behind

A timeout abandons the running children of the run that waited, their running children, and so on
(`Orchestrator.abandonChildren_spec`). It does not look below an instance that is not running. So a
dropped run stays running exactly when a run around it, dropped with it, was cancelled
(`System.Orphans`); nobody works on it any more, and only a request to cancel it ends its instance
(`left_behind_iff`).
-/
namespace Grimoire.Workflow

open Event (InstanceId)
open Time (Instant)

/-! ## Which instances a timeout abandons -/

namespace Orchestrator

/-- A running child of one of the instances, a running child of that one, and so on. -/
inductive RunsUnder (o : Orchestrator) (parents : List InstanceId) : InstanceId → Prop
  | child {id p : InstanceId} {i : Instance} (known : o.instance? id = some i) (running : i.status = .running)
      (parent : i.parent = some p) (start : p ∈ parents) : RunsUnder o parents id
  | further {id p : InstanceId} {i : Instance} (known : o.instance? id = some i) (running : i.status = .running)
      (parent : i.parent = some p) (under : RunsUnder o parents p) : RunsUnder o parents id

theorem RunsUnder.running {o : Orchestrator} {parents : List InstanceId} {id : InstanceId}
    (h : o.RunsUnder parents id) : ∃ i, o.instance? id = some i ∧ i.status = .running := by
  cases h with
  | child known running => exact ⟨_, known, running⟩
  | further known running => exact ⟨_, known, running⟩

section
variable {o : Orchestrator} {parents : List InstanceId} {id : InstanceId}

theorem Numbered.mem_runningChildren (h : o.Numbered) :
    id ∈ o.runningChildren parents ↔
      ∃ i p, o.instance? id = some i ∧ i.status = .running ∧ i.parent = some p ∧ p ∈ parents := by
  rw [Orchestrator.mem_runningChildren]
  constructor
  · rintro ⟨i, hi, hr, ⟨p, hp, hmem⟩, rfl⟩
    exact ⟨i, p, h.instance?_eq hi, hr, hp, hmem⟩
  · rintro ⟨i, p, hi, hr, hp, hmem⟩
    obtain ⟨hmi, rfl⟩ := instance?_some hi
    exact ⟨i, hmi, hr, ⟨p, hp, hmem⟩, rfl⟩

theorem instance?_abandoning (now : Instant) (children : List InstanceId) (id : InstanceId) :
    (o.mapInstances (abandoning now children)).instance? id =
      if id ∈ children then (o.instance? id).map (abandoned now) else o.instance? id := by
  rw [instance?_mapInstances o (abandoning_id now children)]
  cases hi : o.instance? id with
  | none => simp
  | some i =>
    obtain ⟨_, rfl⟩ := instance?_some hi
    by_cases hm : i.id ∈ children <;> simp [abandoning, hm]

/-- What runs under the parents is a running child, or runs under the running children once those have
been abandoned. -/
theorem runsUnder_iff_next (h : o.Numbered) (now : Instant) :
    o.RunsUnder parents id ↔ id ∈ o.runningChildren parents ∨
      (o.mapInstances (abandoning now (o.runningChildren parents))).RunsUnder (o.runningChildren parents) id := by
  have same {id : InstanceId} (hm : id ∉ o.runningChildren parents) :
      (o.mapInstances (abandoning now (o.runningChildren parents))).instance? id = o.instance? id := by
    rw [instance?_abandoning, if_neg hm]
  -- What is running after the round was running before it, and is no child.
  have before {id : InstanceId} {i : Instance} (hr : i.status = .running)
      (hi : (o.mapInstances (abandoning now (o.runningChildren parents))).instance? id = some i) :
      o.instance? id = some i := by
    rw [instance?_abandoning] at hi
    split at hi
    · obtain ⟨j, _, rfl⟩ := Option.map_eq_some_iff.1 hi
      simp [abandoned] at hr
    · exact hi
  constructor
  · intro hu
    induction hu with
    | child known running parent start =>
      exact .inl (h.mem_runningChildren.2 ⟨_, _, known, running, parent, start⟩)
    | @further id p i known running parent under ih =>
      by_cases hm : id ∈ o.runningChildren parents
      · exact .inl hm
      · have hknown := (same hm).trans known
        rcases ih with hp | hp
        · exact .inr (.child hknown running parent hp)
        · exact .inr (.further hknown running parent hp)
  · rintro (hm | hu)
    · obtain ⟨i, p, hi, hr, hp, hmem⟩ := h.mem_runningChildren.1 hm
      exact .child hi hr hp hmem
    · induction hu with
      | child known running parent start =>
        obtain ⟨j, q, hj, hr, hq, hmem⟩ := h.mem_runningChildren.1 start
        exact .further (before running known) running parent (.child hj hr hq hmem)
      | further known running parent _ ih => exact .further (before running known) running parent ih

/-- A round with children leaves fewer instances running. -/
theorem active_abandoning_lt (now : Instant) (h : o.runningChildren parents ≠ []) :
    (o.mapInstances (abandoning now (o.runningChildren parents))).active.length < o.active.length := by
  have hleft : (o.mapInstances (abandoning now (o.runningChildren parents))).active.length =
      (o.active.filter fun i => i.id ∉ o.runningChildren parents).length := by
    simp only [active, mapInstances, List.filter_map, List.length_map, List.filter_filter]
    refine congrArg List.length (List.filter_congr ?_)
    intro i _
    by_cases hm : i.id ∈ o.runningChildren parents <;> simp [abandoning, abandoned, hm]
  rw [hleft, List.length_filter_lt_length_iff_exists]
  obtain ⟨id, hid⟩ := List.exists_mem_of_ne_nil _ h
  obtain ⟨i, hi, hr, _, rfl⟩ := Orchestrator.mem_runningChildren.1 hid
  exact ⟨i, List.mem_filter.2 ⟨hi, by simp [hr]⟩, by simpa using hid⟩

end

/-- **Enough rounds** abandon all that runs under the parents, and nothing else. -/
theorem abandonRounds_spec (now : Instant) (id : InstanceId) : ∀ (rounds : Nat) (parents : List InstanceId)
    {o : Orchestrator}, o.Numbered → o.active.length ≤ rounds →
    (o.RunsUnder parents id → (o.abandonRounds now rounds parents).instance? id =
      (o.instance? id).map (abandoned now)) ∧
    (¬ o.RunsUnder parents id → (o.abandonRounds now rounds parents).instance? id = o.instance? id)
  | 0, parents, o, h, hr => by
    refine ⟨fun hu => ?_, fun _ => rfl⟩
    obtain ⟨i, hi, hrun⟩ := hu.running
    have hmem : i ∈ o.active := List.mem_filter.2 ⟨(instance?_some hi).1, by simp [hrun]⟩
    have hpos := List.length_pos_of_mem hmem
    omega
  | rounds + 1, parents, o, h, hr => by
    rw [abandonRounds_succ]
    by_cases hnil : o.runningChildren parents = []
    · rw [if_pos hnil]
      refine ⟨fun hu => ?_, fun _ => rfl⟩
      have hnone : ∀ id, ¬ o.RunsUnder parents id := by
        intro id hu
        induction hu with
        | child known running parent start =>
          have hm := h.mem_runningChildren.2 ⟨_, _, known, running, parent, start⟩
          simp [hnil] at hm
        | further _ _ _ _ ih => exact ih
      exact absurd hu (hnone id)
    · rw [if_neg hnil]
      have hlt := active_abandoning_lt now hnil
      have hnext : o.RunsUnder parents id ↔ _ := runsUnder_iff_next h now
      obtain ⟨hin, hout⟩ := abandonRounds_spec now id rounds (o.runningChildren parents)
        (h.mapInstances (abandoning_id now (o.runningChildren parents))) (by omega)
      have hround : (o.mapInstances (abandoning now (o.runningChildren parents))).instance? id = _ :=
        instance?_abandoning now (o.runningChildren parents) id
      by_cases hm : id ∈ o.runningChildren parents
      · -- It has failed in this round, so it runs under nothing in the rounds to come.
        rw [if_pos hm] at hround
        have hgone : ¬ (o.mapInstances (abandoning now (o.runningChildren parents))).RunsUnder
            (o.runningChildren parents) id := by
          intro hu
          obtain ⟨i, hi, hrun⟩ := hu.running
          rw [hround] at hi
          obtain ⟨j, _, rfl⟩ := Option.map_eq_some_iff.1 hi
          simp [abandoned] at hrun
        exact ⟨fun _ => (hout hgone).trans hround, fun hu => absurd (hnext.2 (.inl hm)) hu⟩
      · rw [if_neg hm] at hround
        rw [hround] at hin hout
        constructor
        · intro hu
          exact hin ((hnext.1 hu).resolve_left hm)
        · intro hu
          exact hout fun hx => hu (hnext.2 (.inr hx))

theorem abandonChildren_spec {o : Orchestrator} (h : o.Numbered) (now : Instant) (parent id : InstanceId) :
    (o.RunsUnder [parent] id → (o.abandonChildren now parent).instance? id =
      (o.instance? id).map (abandoned now)) ∧
    (¬ o.RunsUnder [parent] id → (o.abandonChildren now parent).instance? id = o.instance? id) :=
  abandonRounds_spec now id _ _ h (List.length_filter_le _ _)

end Orchestrator

/-! ## What a timeout leaves behind -/

theorem Orchestrator.runsUnder_iff {o : Orchestrator} {start id p : InstanceId} {i : Instance}
    (hi : o.instance? id = some i) (hp : i.parent = some p) :
    o.RunsUnder [start] id ↔ i.status = .running ∧ (p = start ∨ o.RunsUnder [start] p) := by
  constructor
  · rintro (⟨known, running, parent, hstart⟩ | ⟨known, running, parent, under⟩)
    · obtain rfl := Option.some.inj (hi.symm.trans known)
      obtain rfl := Option.some.inj (hp.symm.trans parent)
      exact ⟨running, .inl (List.mem_singleton.1 hstart)⟩
    · obtain rfl := Option.some.inj (hi.symm.trans known)
      obtain rfl := Option.some.inj (hp.symm.trans parent)
      exact ⟨running, .inr under⟩
  · rintro ⟨running, rfl | under⟩
    · exact .child hi running hp (by simp)
    · exact .further hi running hp under

theorem status?_running {t : System} {id : InstanceId} :
    t.status? id = some .running ↔ ∃ i, t.instance? id = some i ∧ i.status = .running := by
  rw [status?_eq, Option.map_eq_some_iff]
  rfl

/-- A dropped frame runs under the one that waited if it and all frames between them are running. -/
theorem runsUnder_dropped {t : System} {g : Frame} {outer others : List Frame} : ∀ {d : Frame} {ds : List Frame},
    Family t.orchestrator (d :: ds ++ g :: others) → Chained (d :: ds ++ g :: outer) →
    (t.orchestrator.RunsUnder [g.run.id] d.run.id ↔ ∀ k ∈ d :: ds, t.status? k.run.id = some .running)
  | d, [], hf, hc => by
    obtain ⟨i, hi, hp, _⟩ := hf.published d (by simp)
    have hparent : i.parent = some g.run.id := hp.trans hc.1
    have hst : t.status? d.run.id = some i.status := by rw [status?_eq, hi]; rfl
    rw [Orchestrator.runsUnder_iff hi hparent]
    simp [hst]
  | d, e :: es, hf, hc => by
    obtain ⟨i, hi, hp, _⟩ := hf.published d (by simp)
    have hparent : i.parent = some e.run.id := hp.trans hc.1
    have hst : t.status? d.run.id = some i.status := by rw [status?_eq, hi]; rfl
    have hrest : Family t.orchestrator (e :: es ++ g :: others) := hf.drop [d]
    have hne : e.run.id ≠ g.run.id := fun hx => hrest.ne_of_mem (g := g) (by simp) hx.symm
    rw [Orchestrator.runsUnder_iff hi hparent, runsUnder_dropped hrest hc.2]
    simp [hst, hne]

/-- The timeout drops the run of the instance, which is running, inside a cancelled run. -/
def System.Orphans (t : System) (task level : Nat) (id : InstanceId) : Prop :=
  ∃ u above f around, t.tasks[task]? = some u ∧ u.frames.take level = above ++ f :: around ∧
    f.run.id = id ∧ t.status? id = some .running ∧ ∃ g ∈ around, t.status? g.run.id = some .cancelled

/-- The instance is running, and no run works on it. -/
def System.Deserted (t : System) (id : InstanceId) : Prop :=
  t.frame? id = none ∧ t.status? id = some .running

/-- The parent of a deserted instance has no run either. -/
def System.Detached (t : System) : Prop :=
  ∀ id i, t.frame? id = none → t.instance? id = some i → i.status = .running →
    ∃ p, i.parent = some p ∧ t.frame? p = none ∧ ∃ j, t.instance? p = some j

section
variable {t u : System} {task level : Nat} {id : InstanceId} {x : Happening}

theorem System.Detached.not_runsUnder (hd : t.Detached) (hf : Family t.orchestrator t.frames) {g : Frame}
    (hg : g ∈ t.frames) (hnone : t.frame? id = none) : ¬ t.orchestrator.RunsUnder [g.run.id] id := by
  intro hu
  induction hu with
  | @child id p i known running parent hstart =>
    obtain ⟨q, hq, hqf, _⟩ := hd id i hnone known running
    obtain rfl : p = q := Option.some.inj (parent.symm.trans hq)
    obtain rfl := List.mem_singleton.1 hstart
    have hsome : t.frame? g.run.id = some g := hf.frameOf?_eq hg
    rw [hqf] at hsome
    cases hsome
  | @further id p i known running parent _ ih =>
    obtain ⟨q, hq, hqf, _⟩ := hd id i hnone known running
    obtain rfl : p = q := Option.some.inj (parent.symm.trans hq)
    exact ih hqf

/-- The parts of a timeout: the frames it drops, the one whose phase is over, and those around that. -/
structure System.TimesOut (t u : System) (task : Nat) (dropped : List Frame) (g g' : Frame) (outer : List Frame) :
    Prop where
  found : ∃ f below, t.tasks[task]? = some (.running f below) ∧ f :: below = dropped ++ g :: outer
  underway : g.underway?.isSome = true
  abandons : u.orchestrator = match g.control with
    | .nested _ => t.orchestrator.abandonChildren t.now g.run.id
    | _ => t.orchestrator
  same_id : g'.run.id = g.run.id
  tasks : u.tasks = t.tasks.set task (.running g' outer)

theorem Step.timesOut (hst : Step t (.expire task level) u) :
    ∃ dropped g g' outer, dropped.length = level ∧ t.TimesOut u task dropped g g' outer := by
  cases hst with
  | @work _ task' f below stage v on found work =>
    obtain rfl : task = task' := Option.some.inj on
    generalize hlate : (Happening.expire task level).level? = late at work
    cases work with
    | @expire g outer dropped w e hsplit hu o hx =>
      refine ⟨dropped, g, _, outer, (Option.some.inj hlate).symm, ⟨f, below, found, hsplit⟩, ?_, hx, ?_, rfl⟩
      · rw [hu]
        rfl
      · exact endPhase_id ..
    | _ => simp [Happening.level?] at hlate

section
variable {dropped outer : List Frame} {g g' : Frame}

theorem System.TimesOut.frames (h : t.TimesOut u task dropped g g' outer) :
    t.frames.Perm (dropped ++ (g :: (outer ++ t.framesBeside task))) ∧
      u.frames.Perm (g' :: (outer ++ t.framesBeside task)) := by
  obtain ⟨f, below, found, hsplit⟩ := h.found
  have hp := frames_perm found
  have hp' := frames_set_perm found u.toStage (.running g' outer)
  rw [← h.tasks] at hp'
  simp only [Task.frames, hsplit, List.append_assoc, List.cons_append] at hp hp'
  exact ⟨hp, hp'⟩

/-- The frames that a timeout takes away are those it drops. -/
theorem System.TimesOut.frame?_eq_none (h : t.TimesOut u task dropped g g' outer) (hk : t.Kept) :
    u.frame? id = none ↔ t.frame? id = none ∨ ∃ k ∈ dropped, k.run.id = id := by
  obtain ⟨hp, hp'⟩ := h.frames
  have hf := hk.consistent.family.perm hp
  have hd := hf.distinct
  rw [List.map_append, List.nodup_append] at hd
  have hleft : u.frame? id = none ↔ ∀ k ∈ g :: (outer ++ t.framesBeside task), k.run.id ≠ id := by
    rw [System.frame?, frameOf?_eq_none]
    constructor
    · intro hall k hk
      rcases List.mem_cons.1 hk with rfl | hk
      · exact h.same_id ▸ hall g' (hp'.mem_iff.2 (by simp))
      · exact hall k (hp'.mem_iff.2 (by simp [hk]))
    · intro hall k hk
      rcases List.mem_cons.1 (hp'.mem_iff.1 hk) with rfl | hk
      · exact h.same_id ▸ hall g (by simp)
      · exact hall k (by simp [hk])
  rw [hleft, System.frame?, frameOf?_eq_none]
  constructor
  · intro hall
    by_cases hx : ∃ k ∈ dropped, k.run.id = id
    · exact .inr hx
    · refine .inl fun k hk hid => ?_
      rcases List.mem_append.1 (hp.mem_iff.1 hk) with hk | hk
      · exact hx ⟨k, hk, hid⟩
      · exact hall k hk hid
  · rintro (hall | ⟨d, hdrop, rfl⟩) k hk
    · exact hall k (hp.mem_iff.2 (List.mem_append_right _ hk))
    · exact fun hx => hd.2.2 _ (List.mem_map_of_mem hdrop) _ (List.mem_map_of_mem hk) hx.symm

/-- A run that drops others waits for the workflow of its phase. -/
theorem System.TimesOut.waits (h : t.TimesOut u task dropped g g' outer) (hk : t.Kept) {k : Frame}
    (hmem : k ∈ dropped) : ∃ v, g.control = .nested v := by
  obtain ⟨f, below, found, hsplit⟩ := h.found
  have hbelow : g ∈ below := by
    cases dropped with
    | nil => simp at hmem
    | cons d ds =>
      obtain ⟨rfl, rfl⟩ := List.cons.inj hsplit
      simp
  obtain ⟨v, _, hv, _⟩ := hk.stacked _ (List.mem_of_getElem? found) g hbelow
  exact ⟨v, hv⟩

/-- What is still running after a timeout was running, and not under the run that waited. -/
theorem System.TimesOut.status? (h : t.TimesOut u task dropped g g' outer) (hk : t.Kept) {v : Underway}
    (hg : g.control = .nested v) :
    u.status? id = some .running ↔
      t.status? id = some .running ∧ ¬ t.orchestrator.RunsUnder [g.run.id] id := by
  have ho := h.abandons
  simp only [hg] at ho
  obtain ⟨hin, hout⟩ := Orchestrator.abandonChildren_spec hk.consistent.family.numbered t.now g.run.id id
  rw [status?_eq, status?_eq, ho]
  by_cases hu : t.orchestrator.RunsUnder [g.run.id] id
  · rw [hin hu]
    cases t.orchestrator.instance? id <;> simp [Orchestrator.abandoned, hu]
  · rw [hout hu]
    simp [hu]

/-- The frames around a dropped one wait, so they are published as running or as cancelled. -/
theorem System.TimesOut.around (h : t.TimesOut u task dropped g g' outer) (hk : t.Kept) {above around : List Frame}
    {f : Frame} (hsplit : dropped = above ++ f :: around) {k : Frame} (hmem : k ∈ around) :
    t.status? k.run.id = some .running ∨ t.status? k.run.id = some .cancelled := by
  obtain ⟨top, below, found, heq⟩ := h.found
  have hbelow : k ∈ below := by
    subst hsplit
    cases above with
    | nil =>
      obtain ⟨rfl, rfl⟩ := List.cons.inj heq
      simp [hmem]
    | cons a as =>
      obtain ⟨rfl, rfl⟩ := List.cons.inj heq
      simp [hmem]
  obtain ⟨v, _, hv, _⟩ := hk.stacked _ (List.mem_of_getElem? found) k hbelow
  obtain ⟨hf, _⟩ := hk.consistent.at found
  obtain ⟨i, hi, _, ha⟩ := hf.published k (by simp [hbelow])
  rw [Frame.agrees_of_ne_finish (by simp [hv])] at ha
  rw [status?_eq, hi]
  simpa using ha

/-- The orphans of a timeout, by their place among the dropped frames. -/
theorem System.TimesOut.orphans (h : t.TimesOut u task dropped g g' outer) :
    t.Orphans task dropped.length id ↔ ∃ above f around, dropped = above ++ f :: around ∧ f.run.id = id ∧
      t.status? id = some .running ∧ ∃ l ∈ around, t.status? l.run.id = some .cancelled := by
  obtain ⟨top, below, found, heq⟩ := h.found
  have htake : (Task.running top below).frames.take dropped.length = dropped := by
    rw [Task.frames, heq, List.take_left]
  constructor
  · rintro ⟨w, above, f, around, hw, hsplit, horphan⟩
    obtain rfl : Task.running top below = w := Option.some.inj (found.symm.trans hw)
    exact ⟨above, f, around, htake.symm.trans hsplit, horphan⟩
  · rintro ⟨above, f, around, hsplit, horphan⟩
    exact ⟨_, above, f, around, found, htake.trans hsplit, horphan⟩

/-- The dropped frames that are left running are those inside a cancelled one. -/
theorem System.TimesOut.orphans_iff (h : t.TimesOut u task dropped g g' outer) (hk : t.Kept) {k : Frame}
    (hmem : k ∈ dropped) :
    t.Orphans task dropped.length k.run.id ↔
      t.status? k.run.id = some .running ∧ ¬ t.orchestrator.RunsUnder [g.run.id] k.run.id := by
  obtain ⟨top, below, found, heq⟩ := h.found
  obtain ⟨hf, hc⟩ := hk.consistent.at found
  have hunder {above around : List Frame} {f : Frame} (hsplit : dropped = above ++ f :: around) :
      t.orchestrator.RunsUnder [g.run.id] f.run.id ↔ ∀ k ∈ f :: around, t.status? k.run.id = some .running := by
    rw [heq, hsplit, List.append_assoc, List.append_assoc] at hf
    rw [heq, hsplit, List.append_assoc] at hc
    exact runsUnder_dropped (hf.drop above) hc.drop
  rw [h.orphans]
  constructor
  · rintro ⟨above, f, around, hsplit, hid, hrun, l, hl, hcan⟩
    rw [← hid, hunder hsplit]
    refine ⟨hid ▸ hrun, fun hall => ?_⟩
    rw [hall l (by simp [hl])] at hcan
    cases hcan
  · rintro ⟨hrun, hnot⟩
    obtain ⟨above, around, hsplit⟩ := List.append_of_mem hmem
    refine ⟨above, k, around, hsplit, rfl, hrun, ?_⟩
    rw [hunder hsplit] at hnot
    by_contra hx
    refine hnot fun l hl => ?_
    rcases List.mem_cons.1 hl with rfl | hl
    · exact hrun
    · exact (h.around hk hsplit hl).resolve_right fun hcan => hx ⟨l, hl, hcan⟩

end

/-- **A timeout** leaves behind the orphans among the frames it drops, and what was deserted before. -/
theorem Step.deserted_expire (hst : Step t (.expire task level) u) (hk : t.Kept) (hd : t.Detached) :
    u.Deserted id ↔ t.Deserted id ∨ t.Orphans task level id := by
  obtain ⟨dropped, g, g', outer, rfl, h⟩ := hst.timesOut
  obtain ⟨hp, _⟩ := h.frames
  have hg : g ∈ t.frames := hp.mem_iff.2 (by simp)
  have horphan : t.Orphans task dropped.length id → ∃ k ∈ dropped, k.run.id = id := by
    intro ho
    obtain ⟨above, f, around, hsplit, hid, _⟩ := h.orphans.1 ho
    exact ⟨f, by simp [hsplit], hid⟩
  unfold System.Deserted
  rw [h.frame?_eq_none hk]
  by_cases hdrop : ∃ k ∈ dropped, k.run.id = id
  · obtain ⟨k, hmem, rfl⟩ := hdrop
    obtain ⟨v, hv⟩ := h.waits hk hmem
    have hsome : t.frame? k.run.id = some k := hk.consistent.family.frameOf?_eq (hp.mem_iff.2 (by simp [hmem]))
    rw [h.status? hk hv, h.orphans_iff hk hmem]
    simp only [hsome, reduceCtorEq, false_or, false_and]
    exact ⟨fun hx => hx.2, fun hx => ⟨⟨k, hmem, rfl⟩, hx⟩⟩
  · have hno : ¬ t.Orphans task dropped.length id := fun hx => hdrop (horphan hx)
    by_cases hnone : t.frame? id = none
    · have hsame : u.status? id = some .running ↔ t.status? id = some .running := by
        have hnot := hd.not_runsUnder hk.consistent.family hg hnone
        by_cases hv : ∃ v, g.control = .nested v
        · obtain ⟨v, hv⟩ := hv
          simp [h.status? hk hv, hnot]
        · have ho : u.orchestrator = t.orchestrator := by
            rw [h.abandons]
            split
            · next v hc => exact absurd ⟨v, hc⟩ hv
            · rfl
          rw [status?_eq, status?_eq, ho]
      simp [hnone, hno, hsame]
    · simp [hnone, hdrop, hno]

/-- **Any other happening** leaves no run behind, and a request to cancel ends the status of one that is. -/
theorem Step.deserted_other (hst : Step t x u) (hk : t.Kept) (hx : x.level? = none) :
    u.Deserted id ↔ t.Deserted id ∧ x ≠ .cancel id := by
  have hturn := hst.turn hk id
  simp only [System.Deserted, status?_running]
  constructor
  · rintro ⟨hnone, i', hi', hrun⟩
    rw [hnone, hi'] at hturn
    have hcancel : x ≠ .cancel id := by
      rintro rfl
      cases hst with
      | work on => simp [Happening.task?] at on
      | cancel =>
        rw [System.instance?, instance?_cancel, if_pos rfl] at hi'
        obtain ⟨i, _, rfl⟩ := Option.map_eq_some_iff.1 hi'
        exact i.stopAsked_ne_running _ hrun
    generalize t.frame? id = f?, t.instance? id = i? at hturn ⊢
    cases hturn with
    | rest => exact ⟨⟨rfl, i', rfl, hrun⟩, hcancel⟩
    | ending => exact absurd hrun (Frame.published_ending_ne_running _ _ _)
    | drop late => simp [hx] at late
    | abandon late => simp [hx] at late
    | cancel asked => exact absurd asked hcancel
  · rintro ⟨⟨hnone, i, hi, hrun⟩, hcancel⟩
    rw [hnone, hi] at hturn
    generalize u.frame? id = f'?, u.instance? id = i'? at hturn ⊢
    cases hturn with
    | rest => exact ⟨rfl, i, rfl, hrun⟩
    | abandon late => simp [hx] at late
    | cancel asked => exact absurd asked hcancel

/-- The parent of an orphan is dropped with it. -/
theorem Step.orphan_parent (hst : Step t (.expire task level) u) (hk : t.Kept) (ho : t.Orphans task level id) :
    ∃ i p, t.instance? id = some i ∧ i.parent = some p ∧ u.frame? p = none ∧ ∃ j, u.instance? p = some j := by
  obtain ⟨dropped, g, g', outer, rfl, h⟩ := hst.timesOut
  obtain ⟨above, f, around, rfl, rfl, _, l, hl, _⟩ := h.orphans.1 ho
  obtain ⟨top, below, found, heq⟩ := h.found
  obtain ⟨hf, hc⟩ := hk.consistent.at found
  rw [heq] at hf hc
  cases around with
  | nil => simp at hl
  | cons e es =>
    obtain ⟨i, hi, hp, _⟩ := hf.published f (by simp)
    obtain ⟨j, hj, _⟩ := hf.published e (by simp)
    rw [List.append_assoc] at hc
    have hturn := hst.turn hk e.run.id
    rw [show t.instance? e.run.id = some j from hj] at hturn
    refine ⟨i, e.run.id, hi, hp.trans hc.drop.1, ?_, hturn.published⟩
    exact (h.frame?_eq_none hk).2 (.inr ⟨e, by simp, rfl⟩)

theorem Step.detached (hst : Step t x u) (hk : t.Kept) (hd : t.Detached) : u.Detached := by
  intro id i' hnone hi' hrun
  have hturn := hst.turn hk id
  have hdes : u.Deserted id := ⟨hnone, status?_running.2 ⟨i', hi', hrun⟩⟩
  have hcases : t.Deserted id ∨ ∃ task level, x = .expire task level ∧ t.Orphans task level id := by
    cases x with
    | expire task level =>
      rcases (hst.deserted_expire hk hd).1 hdes with hold | hnew
      · exact .inl hold
      · exact .inr ⟨task, level, rfl, hnew⟩
    | start | advance | answer | cancel | wait => exact .inl ((hst.deserted_other hk rfl).1 hdes).1
  rcases hcases with ⟨hframe, hst'⟩ | ⟨task, level, rfl, ho⟩
  · -- It was deserted before: its parent had no run, and gets none.
    obtain ⟨i, hi, hr⟩ := status?_running.1 hst'
    obtain ⟨p, hp, hpf, j, hj⟩ := hd id i hframe hi hr
    have hpturn := hst.turn hk p
    rw [hpf, hj] at hpturn
    obtain ⟨hpf', j', hj', _⟩ := hpturn.settled
    rw [hframe, hi] at hturn
    obtain ⟨_, i'', hi'', _, hparent⟩ := hturn.settled
    obtain rfl : i' = i'' := Option.some.inj (hi'.symm.trans hi'')
    exact ⟨p, hparent.trans hp, hpf', j', hj'⟩
  · -- Its run is dropped here: its instance is as before.
    obtain ⟨i, p, hi, hp, hpf, hj⟩ := hst.orphan_parent hk ho
    rw [hnone, hi, hi'] at hturn
    have hparent : i' = i := by
      generalize t.frame? id = f? at hturn
      cases hturn with
      | rest | drop => rfl
      | ending => exact absurd hrun (Frame.published_ending_ne_running _ _ _)
      | abandon => simp [Orchestrator.abandoned] at hrun
      | cancel => exact absurd hrun (Instance.stopAsked_ne_running _ _)
    exact ⟨p, hparent ▸ hp, hpf, hj⟩

end

/-! ## Whole histories -/

/-- A timeout in the history orphans the instance, and no later request cancels it. -/
def Stage.LeftBehind (s : Stage) (past : List Happening) (id : InstanceId) : Prop :=
  ∃ before task level after v, past = before ++ .expire task level :: after ∧
    s.idle.run? before = some v ∧ v.Orphans task level id ∧ .cancel id ∉ after

theorem leftBehind_snoc {s : Stage} {past : List Happening} {t : System} (h : s.idle.run? past = some t)
    (x : Happening) (id : InstanceId) :
    s.LeftBehind (past ++ [x]) id ↔ s.LeftBehind past id ∧ x ≠ .cancel id ∨
      ∃ task level, x = .expire task level ∧ t.Orphans task level id := by
  constructor
  · rintro ⟨before, task, level, after, v, heq, hv, ho, hno⟩
    rcases List.eq_nil_or_concat' after with rfl | ⟨after', y, rfl⟩
    · obtain ⟨rfl, hx⟩ := List.append_inj' heq rfl
      obtain rfl : v = t := Option.some.inj (hv.symm.trans h)
      exact .inr ⟨task, level, List.singleton_inj.1 hx, ho⟩
    · rw [← List.cons_append, ← List.append_assoc] at heq
      obtain ⟨rfl, hx⟩ := List.append_inj' heq rfl
      obtain rfl := List.singleton_inj.1 hx
      simp only [List.mem_append, not_or, List.mem_singleton] at hno
      exact .inl ⟨⟨before, task, level, after', v, rfl, hv, ho, hno.1⟩, fun hxc => hno.2 hxc.symm⟩
  · rintro (⟨⟨before, task, level, after, v, rfl, hv, ho, hno⟩, hx⟩ | ⟨task, level, rfl, ho⟩)
    · refine ⟨before, task, level, after ++ [x], v, by simp, hv, ho, ?_⟩
      simp only [List.mem_append, List.mem_singleton, not_or]
      exact ⟨hno, fun hxc => hx hxc.symm⟩
    · exact ⟨past, task, level, [], t, rfl, h, ho, by simp⟩

theorem deserted_of_run? {s : Stage} (hs : s.orchestrator.instances = []) {past : List Happening} {t : System}
    (h : s.idle.run? past = some t) : t.Detached ∧ ∀ id, t.Deserted id ↔ s.LeftBehind past id := by
  refine reachable_induction (P := fun past t => t.Detached ∧ ∀ id, t.Deserted id ↔ s.LeftBehind past id)
    hs ?_ ?_ h
  · have hnone : ∀ id, s.idle.instance? id = none := by
      intro id
      simp [System.instance?, Stage.idle, Orchestrator.instance?, hs]
    constructor
    · intro id i _ hi
      simp [hnone] at hi
    · intro id
      constructor
      · rintro ⟨_, hst⟩
        simp [status?_running, hnone] at hst
      · rintro ⟨before, task, level, after, v, heq, _⟩
        simp at heq
  · rintro past x t u hrun hk ⟨hd, hiff⟩ hst
    refine ⟨hst.detached hk hd, fun id => ?_⟩
    rw [leftBehind_snoc hrun x id, ← hiff id]
    cases x with
    | expire task level =>
      rw [hst.deserted_expire hk hd]
      simp
    | start | advance | answer | cancel | wait =>
      rw [hst.deserted_other hk rfl]
      simp

/-- **Which runs are left behind.** An instance that no run works on is running exactly when a timeout
has dropped its run inside a cancelled one, and it was not cancelled itself since. So at rest there is
no active instance exactly when this has happened to none. -/
theorem left_behind_iff {s : Stage} (hs : s.orchestrator.instances = []) {past : List Happening} {t : System}
    (h : s.idle.run? past = some t) :
    (∀ id, (∀ f ∈ t.frames, f.run.id ≠ id) → (t.status? id = some .running ↔ s.LeftBehind past id)) ∧
    (t.AtRest →
      (t.activeReports = [] ↔ ∀ id, ¬ s.LeftBehind past id) ∧
      (t.orchestrator.metrics.active = 0 ↔ ∀ id, ¬ s.LeftBehind past id)) := by
  obtain ⟨_, hiff⟩ := deserted_of_run? hs h
  have hloose : ∀ id, (∀ f ∈ t.frames, f.run.id ≠ id) → (t.status? id = some .running ↔ s.LeftBehind past id) := by
    intro id hno
    rw [← hiff id, System.Deserted, System.frame?, frameOf?_eq_none]
    exact ⟨fun hst => ⟨hno, hst⟩, fun hst => hst.2⟩
  refine ⟨hloose, fun hrest => ?_⟩
  have hn := (kept_of_run? hs h).consistent.family.numbered
  have hactive : t.orchestrator.active = [] ↔ ∀ id, ¬ s.LeftBehind past id := by
    constructor
    · intro hnil id hleft
      obtain ⟨i, hi, hrun⟩ := status?_running.1 ((hloose id (by simp [hrest.frames])).2 hleft)
      have hmem : i ∈ t.orchestrator.active :=
        List.mem_filter.2 ⟨(Orchestrator.instance?_some hi).1, by simp [hrun]⟩
      simp [hnil] at hmem
    · intro hall
      refine List.filter_eq_nil_iff.2 fun i hi hrun => hall i.id ?_
      refine (hloose i.id (by simp [hrest.frames])).1 (status?_running.2 ⟨i, hn.instance?_eq hi, ?_⟩)
      simpa using hrun
  rw [← hactive, Stage.activeReports, Orchestrator.metrics, List.map_eq_nil_iff]
  exact ⟨Iff.rfl, List.length_eq_zero_iff⟩

/-- The crossing is cancelled while the ferry waits; then the time of the pilgrimage is over. -/
def pilgrimageCancelled : List Happening :=
  [.start "pilgrimage" .null, .advance 0, .advance 0, .advance 0, .wait 50, .cancel (.numbered 2), .wait 50,
   .expire 0 2, .advance 0, .advance 0]

/-- The call has returned, and the ferry is still running. -/
theorem pilgrimageCancelled_run : ∃ t, pilgrimageStage.idle.run? pilgrimageCancelled = some t ∧ t.AtRest ∧
    t.status? (.numbered 3) = some .running := by
  have hrun : (pilgrimageStage.idle.run? pilgrimageCancelled).any (fun t => t.AtRest ∧
      t.status? (.numbered 3) = some .running) = true := by
    decide +kernel
  obtain ⟨t, ht, hp⟩ := (Option.any_eq_true _ _).1 hrun
  exact ⟨t, ht, of_decide_eq_true hp⟩

theorem pilgrimage_left_behind : ∃ t, pilgrimageStage.orchestrator.instances = [] ∧
    pilgrimageStage.idle.run? pilgrimageCancelled = some t ∧ t.AtRest ∧
    t.status? (.numbered 3) = some .running ∧
    (∀ id, (∀ f ∈ t.frames, f.run.id ≠ id) →
      (t.status? id = some .running ↔ pilgrimageStage.LeftBehind pilgrimageCancelled id)) ∧
    (t.AtRest →
      (t.activeReports = [] ↔ ∀ id, ¬ pilgrimageStage.LeftBehind pilgrimageCancelled id) ∧
      (t.orchestrator.metrics.active = 0 ↔ ∀ id, ¬ pilgrimageStage.LeftBehind pilgrimageCancelled id)) := by
  obtain ⟨t, ht, hr, hst⟩ := pilgrimageCancelled_run
  exact ⟨t, rfl, ht, hr, hst, left_behind_iff rfl ht⟩

/-- **Not every run ends its instance**: the clean-up stops at the cancelled crossing and does not come
to the ferry. -/
theorem run_left_behind : ¬ ∀ (s : Stage) (past : List Happening) (t : System),
    s.orchestrator.instances = [] → s.idle.run? past = some t → t.AtRest → ∀ id, t.status? id ≠ some .running := by
  intro hall
  obtain ⟨t, ht, hr, hst⟩ := pilgrimageCancelled_run
  exact hall pilgrimageStage pilgrimageCancelled t rfl ht hr (.numbered 3) hst

end Grimoire.Workflow
