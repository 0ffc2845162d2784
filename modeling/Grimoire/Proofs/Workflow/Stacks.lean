import Grimoire.Proofs.Workflow.Published
import Mathlib.Data.List.Perm.Basic

/-!
# Runs and their published instances

In every reachable system the frames of all tasks have ids of their own, each frame has a published
instance that agrees with its view (`Frame.Agrees`), and each frame names the one below it as its
parent (`Chained`). `Work.family` shows that a block keeps this; the invariant of whole systems is
`System.Consistent`.
-/
namespace Grimoire.Workflow

open Event (InstanceId)

/-! ## Frames and parents -/

def Task.frames : Task → List Frame
  | running f below => f :: below
  | finished _ => []

def System.frames (s : System) : List Frame := s.tasks.flatMap Task.frames

/-- Each frame names the one below it as its parent, the last one names none. -/
def Chained : List Frame → Prop
  | [] => True
  | f :: below => f.run.parent = below.head?.map (·.run.id) ∧ Chained below

theorem Chained.parent : ∀ {f : Frame} {below : List Frame}, Chained (f :: below) →
    ∀ g ∈ f :: below, g.run.parent = none ∨ ∃ k ∈ below, g.run.parent = some k.run.id
  | f, below, ⟨hp, hb⟩, g, hg => by
    rcases List.mem_cons.1 hg with rfl | hg
    · cases below with
      | nil => exact .inl hp
      | cons k rest => exact .inr ⟨k, by simp, hp⟩
    · cases below with
      | nil => simp at hg
      | cons k rest =>
        rcases hb.parent g hg with h | ⟨l, hl, h⟩
        · exact .inl h
        · exact .inr ⟨l, by simp [hl], h⟩

theorem Chained.top {f f' : Frame} {below : List Frame} (h : Chained (f :: below))
    (hp : f'.run.parent = f.run.parent) : Chained (f' :: below) :=
  ⟨hp.trans h.1, h.2⟩

theorem Chained.drop : ∀ {dropped fs : List Frame}, Chained (dropped ++ fs) → Chained fs
  | [], _, h => h
  | _ :: _, _, h => Chained.drop h.2

/-! ## Agreement -/

/-- What the published status can be while the frame is there. A run that goes on is published as
running, or as cancelled when it has not looked yet. -/
def Frame.Agrees (f : Frame) (status : Status) : Prop :=
  match f.control, f.run.status with
  | .finish, .failed => status = .failed
  | .finish, .cancelled => status = .cancelled
  | _, _ => status = .running ∨ status = .cancelled

theorem Frame.agrees_of_ne_finish {f : Frame} (h : f.control ≠ .finish) (status : Status) :
    f.Agrees status ↔ status = .running ∨ status = .cancelled := by
  unfold Agrees
  split <;> simp_all

theorem Frame.agrees_of_running {f : Frame} (h : f.run.status = .running) (status : Status) :
    f.Agrees status ↔ status = .running ∨ status = .cancelled := by
  unfold Agrees
  split <;> simp_all

theorem Frame.Agrees.stopAsked {f : Frame} {i : Instance} (h : f.Agrees i.status) (now : Time.Instant) :
    f.Agrees (i.stopAsked now).status := by
  unfold Instance.stopAsked
  split
  · next hrun =>
    rw [hrun] at h
    unfold Agrees at h ⊢
    split <;> simp_all
  · exact h

/-- The published instance of a frame. -/
def Frame.Published (o : Orchestrator) (f : Frame) : Prop :=
  ∃ i, o.instance? f.run.id = some i ∧ i.parent = f.run.parent ∧ f.Agrees i.status

/-- Frames with ids of their own and with published instances. -/
structure Family (o : Orchestrator) (fs : List Frame) : Prop where
  numbered : o.Numbered
  distinct : (fs.map (·.run.id)).Nodup
  published : ∀ f ∈ fs, f.Published o

theorem Family.congr {o o' : Orchestrator} {fs : List Frame} (h : Family o fs)
    (ho : o'.instances = o.instances) : Family o' fs := by
  obtain ⟨hn, hd, hp⟩ := h
  refine ⟨fun k i hk => hn k i (ho ▸ hk), hd, ?_⟩
  intro f hf
  obtain ⟨i, hi, hrest⟩ := hp f hf
  exact ⟨i, by rw [← hi]; simp only [Orchestrator.instance?, ho], hrest⟩

theorem Family.perm {o : Orchestrator} {fs gs : List Frame} (h : Family o fs) (hp : fs.Perm gs) :
    Family o gs :=
  ⟨h.numbered, (hp.map _).nodup_iff.1 h.distinct, fun f hf => h.published f (hp.mem_iff.2 hf)⟩

theorem Family.drop {o : Orchestrator} {fs : List Frame} (dropped : List Frame) (h : Family o (dropped ++ fs)) :
    Family o fs := by
  refine ⟨h.numbered, ?_, fun f hf => h.published f (by simp [hf])⟩
  have := h.distinct
  rw [List.map_append] at this
  exact (List.nodup_append.1 this).2.1

/-- A frame in the place of the first, with its id and parent. -/
theorem Family.replace {o : Orchestrator} {f f' : Frame} {fs : List Frame} (h : Family o (f :: fs))
    (hid : f'.run.id = f.run.id) (hparent : f'.run.parent = f.run.parent)
    (hagree : ∀ i, o.instance? f.run.id = some i → f.Agrees i.status → f'.Agrees i.status) :
    Family o (f' :: fs) := by
  refine ⟨h.numbered, by simpa [hid] using h.distinct, ?_⟩
  intro g hg
  rcases List.mem_cons.1 hg with rfl | hg
  · obtain ⟨i, hi, hp, ha⟩ := h.published f (by simp)
    exact ⟨i, hid ▸ hi, hp.trans hparent.symm, hagree i hi ha⟩
  · exact h.published g (by simp [hg])

/-! ## What each block keeps -/

/-- Parents stay among the frames. -/
def ClosedUp (fs : List Frame) : Prop :=
  ∀ f ∈ fs, f.run.parent = none ∨ ∃ g ∈ fs, f.run.parent = some g.run.id

section
variable {s s' : Stage} {f : Frame} {below others : List Frame}

/-- The published instances of the frames are as before. -/
theorem Family.untouched {o o' : Orchestrator} {fs : List Frame} (h : Family o fs) (hn : o'.Numbered)
    (hs : ∀ f ∈ fs, o'.instance? f.run.id = o.instance? f.run.id) : Family o' fs := by
  refine ⟨hn, h.distinct, ?_⟩
  intro f hf
  obtain ⟨i, hi, hrest⟩ := h.published f hf
  exact ⟨i, (hs f hf).trans hi, hrest⟩

theorem Family.ne_of_mem {o : Orchestrator} {fs : List Frame} (h : Family o (f :: fs)) {g : Frame}
    (hg : g ∈ fs) : g.run.id ≠ f.run.id := by
  have hd := h.distinct
  rw [List.map_cons, List.nodup_cons] at hd
  exact fun hx => hd.1 (List.mem_map.2 ⟨g, hg, hx⟩)

/-- The frames beside one that publishes its view. -/
theorem Family.publish {o : Orchestrator} {fs : List Frame} (h : Family o (f :: fs)) (run : Instance)
    (hid : run.id = f.run.id) : Family (o.publish run) fs := by
  obtain ⟨old, hold, _⟩ := h.published f (by simp)
  have hfs : Family o fs := Family.drop [f] h
  refine hfs.untouched (h.numbered.publish run) ?_
  intro g hg
  rw [Orchestrator.instance?_publish o (hid ▸ hold), if_neg]
  exact hid ▸ h.ne_of_mem hg

/-- The frame that publishes its view goes on after it. -/
theorem Family.publish_self {o : Orchestrator} {fs : List Frame} (h : Family o (f :: fs)) {f' : Frame}
    (hrun : f'.run = f.run)
    (hagree : ∀ i, o.instance? f.run.id = some i → f'.Agrees (Orchestrator.published i f.run).status) :
    Family (o.publish f.run) (f' :: fs) := by
  have hrest := h.publish f.run rfl
  refine ⟨hrest.numbered, by simpa [hrun] using h.distinct, ?_⟩
  intro g hg
  rcases List.mem_cons.1 hg with rfl | hg
  · obtain ⟨i, hi, _, _⟩ := h.published f (by simp)
    refine ⟨Orchestrator.published i f.run, ?_, ?_, hagree i hi⟩
    · rw [hrun, Orchestrator.instance?_publish o hi, if_pos rfl]
    · rw [hrun]
      unfold Orchestrator.published
      split <;> rfl
  · exact hrest.published g hg

/-- The frames beside a run that has ended. -/
theorem Family.ended (h : Family s.orchestrator (f :: others)) : Family (s.ended f).orchestrator others :=
  (h.publish (f.ending s) rfl).congr (instances_ended s f)

/-- A run that starts beside the frames. -/
theorem Family.begin {fs : List Frame} (h : Family s.orchestrator fs) (d : Definition) (context : Json)
    (parent : Option InstanceId) :
    Family (s.begin d context parent).1.orchestrator ((s.begin d context parent).2 :: fs) := by
  have hnew : ∀ g ∈ fs, g.run.id ≠ (s.begin d context parent).2.run.id := by
    intro g hg hx
    obtain ⟨i, hi, _⟩ := h.published g hg
    rw [hx] at hi
    exact absurd (h.numbered.fresh.symm.trans hi) (by simp)
  have hn := numbered_begin h.numbered d context parent
  refine ⟨hn, ?_, fun g hg => ?_⟩
  · rw [List.map_cons, List.nodup_cons]
    refine ⟨fun hx => ?_, h.distinct⟩
    obtain ⟨g, hg, hid⟩ := List.mem_map.1 hx
    exact hnew g hg hid
  · rcases List.mem_cons.1 hg with rfl | hg
    · refine ⟨_, by rw [instance?_begin h.numbered, if_pos rfl], rfl, ?_⟩
      exact (Frame.agrees_of_running rfl _).2 (.inl rfl)
    · obtain ⟨i, hi, hrest⟩ := h.published g hg
      exact ⟨i, by rw [instance?_begin h.numbered, if_neg (hnew g hg), hi], hrest⟩

/-- The instances of the frames left when the phase of one is over are not abandoned. -/
theorem Family.instance?_left {o o' : Orchestrator} {g : Frame} {outer : List Frame} {now : Time.Instant}
    (h : Family o (g :: outer ++ others)) (hc : Chained (g :: outer)) (ho : ClosedUp others)
    (hx : o' = match g.control with
      | .nested _ => o.abandonChildren now g.run.id
      | _ => o) : ∀ k ∈ g :: outer ++ others, o'.instance? k.run.id = o.instance? k.run.id := by
  -- Parents of frames that are left are left too, and none of them is the frame whose phase is over.
  have closed : ∀ k ∈ g :: outer ++ others, k.run.parent = none ∨
      ∃ l ∈ outer ++ others, k.run.parent = some l.run.id := by
    intro k hk
    rcases List.mem_append.1 hk with hk | hk
    · rcases hc.parent k hk with hp | ⟨l, hl, hp⟩
      · exact .inl hp
      · exact .inr ⟨l, by simp [hl], hp⟩
    · rcases ho k hk with hp | ⟨l, hl, hp⟩
      · exact .inl hp
      · exact .inr ⟨l, by simp [hl], hp⟩
  have hne : ∀ l ∈ outer ++ others, l.run.id ≠ g.run.id := fun l hl => Family.ne_of_mem h hl
  intro k hk
  subst hx
  split
  · refine Orchestrator.abandonRounds_keeps now (fun id => ∃ k ∈ g :: outer ++ others, k.run.id = id) _ _ _
      (fun i hi hkept p hp => ?_) k.run.id ⟨k, hk, rfl⟩
    obtain ⟨m, hm, hid⟩ := hkept
    obtain ⟨j, hj, hjp, _⟩ := h.published m hm
    rw [hid, h.numbered.instance?_eq hi] at hj
    obtain rfl := Option.some.inj hj
    rcases closed m hm with hnone | ⟨l, hl, hsome⟩
    · rw [hjp, hnone] at hp
      cases hp
    · rw [hjp, hsome] at hp
      obtain rfl := Option.some.inj hp
      exact ⟨⟨l, by simpa using Or.inr (by simpa using hl), rfl⟩,
        fun hx => hne l hl (List.mem_singleton.1 hx)⟩
  · rfl

/-- The frames left when the phase of one is over stay published. -/
theorem Family.abandon {o o' : Orchestrator} {g : Frame} {outer : List Frame} (now : Time.Instant)
    (h : Family o (g :: outer ++ others)) (hc : Chained (g :: outer)) (ho : ClosedUp others)
    (hx : o' = match g.control with
      | .nested _ => o.abandonChildren now g.run.id
      | _ => o) : Family o' (g :: outer ++ others) := by
  refine h.untouched ?_ (h.instance?_left hc ho hx)
  subst hx
  split
  · exact h.numbered.abandonRounds _ _
  · exact h.numbered

@[simp] theorem endPhase_id (s : Stage) (g : Frame) (u : Underway) (outcome : Except WorkflowError Json) :
    (s.endPhase g u outcome).2.run.id = g.run.id := by
  simp only [Stage.endPhase]
  split <;> rfl

@[simp] theorem endPhase_parent (s : Stage) (g : Frame) (u : Underway) (outcome : Except WorkflowError Json) :
    (s.endPhase g u outcome).2.run.parent = g.run.parent := by
  simp only [Stage.endPhase]
  split <;> rfl

@[simp] theorem endPhase_phases (s : Stage) (g : Frame) (u : Underway) (outcome : Except WorkflowError Json) :
    (s.endPhase g u outcome).2.run.phases.length = g.run.phases.length + 1 := by
  simp only [Stage.endPhase]
  split <;> simp

@[simp] theorem endPhase_currentPhase (s : Stage) (g : Frame) (u : Underway)
    (outcome : Except WorkflowError Json) :
    (s.endPhase g u outcome).2.run.currentPhase = g.run.currentPhase := by
  simp only [Stage.endPhase]
  split <;> rfl

/-- A frame whose phase ends. -/
theorem Family.endPhase {g : Frame} {fs : List Frame} {u : Underway}
    (h : Family s.orchestrator (g :: fs)) (hg : g.control ≠ .finish) (outcome : Except WorkflowError Json) :
    Family (s.endPhase g u outcome).1.orchestrator ((s.endPhase g u outcome).2 :: fs) := by
  refine Family.replace (o := s.orchestrator) h (endPhase_id s g u outcome)
    (endPhase_parent s g u outcome) fun i _ ha => ?_
  rw [Frame.agrees_of_ne_finish hg] at ha
  rw [Frame.agrees_of_ne_finish (by simp [Stage.endPhase])]
  exact ha

/-- **One block** keeps the frames of its task, beside those of all others, published and chained. -/
theorem Work.family {late : Option Nat} {u : Task} (h : Work s f below late s' u)
    (hsound : ∀ g ∈ f :: below, g.Sound) (hf : Family s.orchestrator (f :: below ++ others))
    (hc : Chained (f :: below)) (ho : ClosedUp others) :
    Family s'.orchestrator (u.frames ++ others) ∧ Chained u.frames := by
  have hfs : f.Sound := hsound f (by simp)
  have hgo {g : Frame} {u : Underway} (hu : g.underway? = some u) : g.control ≠ .finish := by
    intro hx
    simp [Frame.underway?, hx] at hu
  cases h with
  | observe hcheck seen =>
    have he : Family s.orchestrator (f.stopped :: (below ++ others)) := by
      refine hf.replace rfl rfl ?_
      intro i hi _
      exact show i.status = .cancelled by simpa [Orchestrator.isCancelled, hi] using seen
    exact ⟨he, hc⟩
  | ask host calls hcheck =>
    refine ⟨hf.replace (f := f) rfl rfl fun i _ ha => ?_, hc⟩
    rw [Frame.agrees_of_ne_finish (by simp [hcheck])] at ha
    exact (Frame.agrees_of_ne_finish (by simp) _).2 ha
  | @refuse p e hcheck =>
    have he : Family s.orchestrator (f.entering :: (below ++ others)) :=
      hf.replace rfl rfl fun i _ ha => ha
    exact ⟨he.endPhase (by simp [Frame.entering, hcheck]) (.error e), hc.top (endPhase_parent ..)⟩
  | @descend p w d context hcheck =>
    have he : Family s.orchestrator
        (({ f.entering with control := .nested (s.underway f.entering p) } : Frame) :: (below ++ others)) := by
      refine hf.replace (f := f) rfl rfl ?_
      intro i _ ha
      rw [Frame.agrees_of_ne_finish (by simp [hcheck])] at ha
      exact (Frame.agrees_of_ne_finish (by simp) _).2 ha
    exact ⟨he.begin d context (some f.run.id), rfl, hc⟩
  | exhausted hcheck =>
    have hrun : f.run.status = .running := by
      have := hfs.placed
      simp only [Frame.Placed, hcheck] at this
      exact this.1
    refine ⟨hf.replace (f := f) rfl rfl fun i _ ha => ?_, hc⟩
    rw [Frame.agrees_of_running hrun] at ha
    exact (Frame.agrees_of_running (f := { f with control := .finish }) hrun _).2 ha
  | @publish stop hpub =>
    have hst : f.run.status = if stop then .failed else .running := by
      have := hfs.placed
      simpa only [Frame.Placed, hpub] using this
    refine ⟨hf.publish_self (f := f) rfl fun i _ => ?_, hc⟩
    cases stop with
    | true => simp [Frame.Agrees, hst, Orchestrator.published]
    | false =>
      rw [Frame.agrees_of_running (by exact hst)]
      by_cases hcan : i.status = .cancelled
      · simp [Orchestrator.published, hst, hcan]
      · simp [Orchestrator.published, hst, hcan]
  | conclude hfin hout =>
    subst hout
    exact ⟨Family.ended hf, trivial⟩
  | @deliver g outer u w hfin hbelow hg =>
    subst hbelow
    have he : Family (s.ended f).orchestrator (g :: (outer ++ others)) := Family.ended hf
    exact ⟨he.endPhase (by simp [hg]) _, hc.2.top (endPhase_parent ..)⟩
  | hear host calls' hcalls =>
    refine ⟨Family.congr (o := s.orchestrator) (hf.replace (f := f) rfl rfl fun i _ ha => ?_) rfl, hc⟩
    rw [Frame.agrees_of_ne_finish (by simp [hcalls])] at ha
    exact (Frame.agrees_of_ne_finish (by simp) _).2 ha
  | @answer u calls host outcome hcalls =>
    have he : Family ({ s with host } : Stage).orchestrator (f :: (below ++ others)) := hf
    exact ⟨he.endPhase (by simp [hcalls]) outcome, hc.top (endPhase_parent ..)⟩
  | @expire g outer dropped u e hsplit hu o hx =>
    rw [hsplit] at hf hc
    rw [List.append_assoc] at hf
    have he : Family o (g :: outer ++ others) := (hf.drop dropped).abandon s.now hc.drop ho hx
    exact ⟨Family.endPhase (s := { s with orchestrator := o }) he (hgo hu) (.error e),
      hc.drop.top (endPhase_parent ..)⟩

end

/-! ## Systems -/

/-- The frames of the other tasks. -/
def System.framesBeside (s : System) (task : Nat) : List Frame :=
  (s.tasks.eraseIdx task).flatMap Task.frames

structure System.Consistent (s : System) : Prop where
  family : Family s.orchestrator s.frames
  chained : ∀ u ∈ s.tasks, Chained u.frames

/-- The frames of one task, then those of the others. -/
theorem frames_perm {s : System} {task : Nat} {u : Task} (h : s.tasks[task]? = some u) :
    s.frames.Perm (u.frames ++ s.framesBeside task) := by
  obtain ⟨hlt, rfl⟩ := List.getElem?_eq_some_iff.1 h
  exact (List.getElem_cons_eraseIdx_perm hlt).symm.flatMap_right Task.frames

theorem frames_set_perm {s : System} {task : Nat} {u : Task} (h : s.tasks[task]? = some u) (stage : Stage)
    (v : Task) :
    ({ toStage := stage, tasks := s.tasks.set task v } : System).frames.Perm
      (v.frames ++ s.framesBeside task) :=
  (List.set_perm_cons_eraseIdx (List.getElem?_eq_some_iff.1 h).1 v).flatMap_right Task.frames

theorem System.Consistent.closedUp {s : System} (h : s.Consistent) (task : Nat) :
    ClosedUp (s.framesBeside task) := by
  intro f hf
  obtain ⟨u, hu, hfu⟩ := List.mem_flatMap.1 hf
  have hc := h.chained u (List.mem_of_mem_eraseIdx hu)
  cases u with
  | finished o => simp [Task.frames] at hfu
  | running g below =>
    rcases hc.parent f hfu with hp | ⟨k, hk, hp⟩
    · exact .inl hp
    · exact .inr ⟨k, List.mem_flatMap.2 ⟨_, hu, List.mem_cons_of_mem g hk⟩, hp⟩

/-- The frames of a task beside those of the others. -/
theorem System.Consistent.at {s : System} (h : s.Consistent) {task : Nat} {f : Frame} {below : List Frame}
    (hf : s.tasks[task]? = some (.running f below)) :
    Family s.orchestrator (f :: below ++ s.framesBeside task) ∧ Chained (f :: below) :=
  ⟨h.family.perm (frames_perm hf), h.chained _ (List.mem_of_getElem? hf)⟩

/-- All frames of the system are sound. -/
def System.Sound (s : System) : Prop := ∀ f ∈ s.frames, f.Sound

theorem System.Sound.at {s : System} (h : s.Sound) {task : Nat} {f : Frame} {below : List Frame}
    (hf : s.tasks[task]? = some (.running f below)) : ∀ g ∈ f :: below, g.Sound :=
  fun g hg => h g (List.mem_flatMap.2 ⟨_, List.mem_of_getElem? hf, hg⟩)

theorem System.Answers.sound {known : Catalog Definition} {past : List Happening} {s : System}
    (h : s.Answers known past) : s.Sound := by
  intro f hf
  obtain ⟨u, hu, hfu⟩ := List.mem_flatMap.1 hf
  obtain ⟨i, hi⟩ := List.getElem?_of_mem hu
  obtain ⟨w, _, _, ha⟩ := h.answers i u hi
  cases u with
  | finished o => simp [Task.frames] at hfu
  | running g below => exact ha.1 f hfu

theorem Step.consistent {s t : System} {h : Happening} (hst : Step s h t) (hsound : s.Sound)
    (hs : s.Consistent) : t.Consistent := by
  obtain ⟨hfam, hch⟩ := hs
  cases hst with
  | unknown =>
    refine ⟨by simpa [System.frames, Task.frames] using hfam, ?_⟩
    intro u hu
    rcases List.mem_append.1 hu with hu | hu
    · exact hch u hu
    · obtain rfl := List.mem_singleton.1 hu
      trivial
  | @start w context d =>
    refine ⟨?_, fun u hu => ?_⟩
    · refine (hfam.begin d context none).perm ?_
      simpa [System.frames, Task.frames] using (List.perm_append_singleton _ _).symm
    · rcases List.mem_append.1 hu with hu | hu
      · exact hch u hu
      · obtain rfl := List.mem_singleton.1 hu
        exact ⟨rfl, trivial⟩
  | @work _ task f below stage u on found work =>
    obtain ⟨hf, hc⟩ := System.Consistent.at ⟨hfam, hch⟩ found
    obtain ⟨hf', hc'⟩ := work.family (hsound.at found) hf hc (System.Consistent.closedUp ⟨hfam, hch⟩ task)
    refine ⟨hf'.perm (frames_set_perm found stage u).symm, ?_⟩
    intro v hv
    rcases List.mem_or_eq_of_mem_set hv with hv | rfl
    · exact hch v hv
    · exact hc'
  | @cancel id =>
    refine ⟨⟨numbered_cancel hfam.numbered id, hfam.distinct, fun f hf => ?_⟩, hch⟩
    obtain ⟨i, hi, hp, ha⟩ := hfam.published f hf
    by_cases hid : f.run.id = id
    · exact ⟨i.stopAsked s.now, by rw [instance?_cancel, if_pos hid, hi]; rfl,
        by rw [Instance.stopAsked_parent, hp], ha.stopAsked s.now⟩
    · exact ⟨i, by rw [instance?_cancel, if_neg hid, hi], hp, ha⟩
  | wait => exact ⟨hfam, hch⟩

/-! ## Reachable systems -/

/-- What every reachable system keeps. -/
structure System.Kept (t : System) : Prop where
  stacked : t.Stacked
  sound : t.Sound
  consistent : t.Consistent

theorem kept_of_run? {s : Stage} (hs : s.orchestrator.instances = []) {past : List Happening} {t : System}
    (h : s.idle.run? past = some t) : t.Kept := by
  have base : System.Answers s.orchestrator.definitions [] s.idle ∧ s.idle.Consistent := by
    have hn : s.orchestrator.Numbered := fun k i hk => by simp [hs] at hk
    refine ⟨⟨rfl, rfl, fun i u hu => absurd hu (by simp [Stage.idle])⟩, ⟨hn, List.nodup_nil, ?_⟩, ?_⟩
    · exact fun f hf => absurd hf (by simp [System.frames, Stage.idle])
    · exact fun u hu => absurd hu List.not_mem_nil
  have step : ∀ (past : List Happening) (h : Happening) (t u : System), t.Stacked →
      t.Answers s.orchestrator.definitions past ∧ t.Consistent → Step t h u →
      u.Answers s.orchestrator.definitions (past ++ [h]) ∧ u.Consistent := by
    rintro past h t u - ⟨ha, hc⟩ hst
    exact ⟨hst.answers ha, hst.consistent ha.sound hc⟩
  obtain ⟨hst, ha, hc⟩ := System.run_induction
    (P := fun past t => t.Answers s.orchestrator.definitions past ∧ t.Consistent) s.idle_stacked base step h
  exact ⟨hst, ha.sound, hc⟩

/-- **What holds at first and is kept by each step** of a reachable system holds after every history. -/
theorem reachable_induction {P : List Happening → System → Prop} {s : Stage}
    (hs : s.orchestrator.instances = []) (base : P [] s.idle)
    (step : ∀ past x t u, s.idle.run? past = some t → t.Kept → P past t → Step t x u → P (past ++ [x]) u)
    {past : List Happening} {t : System} (h : s.idle.run? past = some t) : P past t := by
  induction past using List.reverseRecOn generalizing t with
  | nil =>
    obtain rfl := Option.some.inj h
    exact base
  | append_singleton past x ih =>
    obtain ⟨r, hr, hx⟩ := System.run?_snoc_iff.1 h
    have hk := kept_of_run? hs hr
    exact step past x r t hr hk (ih hr) (step_of_step? hk.stacked hx)

/-- What holds of a reachable system and is kept by what happens then holds after it. -/
theorem along_induction {P : System → Prop} {s : Stage} (hs : s.orchestrator.instances = [])
    {past later : List Happening} {t u : System} (h : s.idle.run? past = some t) (hl : t.run? later = some u)
    (base : P t) (step : ∀ x ∈ later, ∀ v w, v.Kept → P v → Step v x w → P w) : P u := by
  induction later generalizing past t with
  | nil =>
    obtain rfl := Option.some.inj hl
    exact base
  | cons x later ih =>
    obtain ⟨r, hr, hl⟩ := System.run?_cons_iff.1 hl
    have hk := kept_of_run? hs h
    have hnext := step x (by simp) t r hk base (step_of_step? hk.stacked hr)
    exact ih (System.run?_snoc_iff.2 ⟨t, h, hr⟩) hl hnext fun y hy => step y (by simp [hy])

/-- What holds of a reachable system and is kept by each step holds ever after. -/
theorem later_induction {P : System → Prop} {s : Stage} (hs : s.orchestrator.instances = [])
    {past later : List Happening} {t u : System} (h : s.idle.run? past = some t) (hl : t.run? later = some u)
    (base : P t) (step : ∀ x v w, v.Kept → P v → Step v x w → P w) : P u :=
  along_induction hs h hl base fun x _ => step x

end Grimoire.Workflow
