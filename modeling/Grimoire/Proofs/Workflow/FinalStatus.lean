import Grimoire.Proofs.Workflow.Stacks

/-!
# Which statuses are final

A query of an instance reads what was published of it. Completed and failed are final. Cancelled is
final unless the run ends without another look at its instance: then its own end takes the place of
the cancellation (`terminal_stays_iff`), as in a workflow of one phase (`terminal_status_changes`).
-/
namespace Grimoire.Workflow

open Event (InstanceId)

/-! ## Queries -/

/-- The status that a query of an instance tells. -/
def System.status? (t : System) (id : InstanceId) : Option Status :=
  (t.toStage.report? id).map (·.status)

theorem status?_eq (t : System) (id : InstanceId) :
    t.status? id = (t.orchestrator.instance? id).map (·.status) := by
  simp only [System.status?, Stage.report?, Option.map_map]
  rfl

/-- The next block of the run publishes an end of its own, with no look at the instance before. -/
def Frame.EndsUnseen (f : Frame) : Prop :=
  f.control = .publish true ∨ f.control = .finish ∧ f.run.status = .running

/-- The innermost run of the task is that of the instance and ends unseen. -/
def System.EndsUnseen (t : System) (task : Nat) (id : InstanceId) : Prop :=
  ∃ f below, t.tasks[task]? = some (.running f below) ∧ f.run.id = id ∧ f.EndsUnseen

/-- What happens has a block in which the run of the instance ends unseen. -/
def System.Overwrites (t : System) (id : InstanceId) (later : List Happening) : Prop :=
  ∃ before task after v, later = before ++ .advance task :: after ∧ t.run? before = some v ∧
    v.EndsUnseen task id

/-! ## One block -/

section
variable {s s' : Stage} {f : Frame} {below : List Frame} {u : Task} {id : InstanceId} {i : Instance}

theorem Frame.Agrees.of_terminal {status : Status} (h : f.Agrees status) (ht : status.isTerminal = true)
    (hn : f.control ≠ .finish ∨ f.run.status = .running) : status = .cancelled := by
  have hrc : status = .running ∨ status = .cancelled := by
    rcases hn with hn | hn
    · exact (Frame.agrees_of_ne_finish hn status).1 h
    · exact (Frame.agrees_of_running hn status).1 h
  rcases hrc with rfl | rfl
  · simp [Status.isTerminal] at ht
  · rfl

/-- What a run publishes in the middle, over a terminal status. -/
theorem status_publish {stop : Bool} (hs : f.Sound) (hc : f.control = .publish stop)
    (ha : f.Agrees i.status) (ht : i.status.isTerminal = true) :
    (Orchestrator.published i f.run).status = i.status ∨ i.status = .cancelled ∧ f.EndsUnseen := by
  have hcan : i.status = .cancelled := ha.of_terminal ht (.inl (by simp [hc]))
  have hst : f.run.status = if stop then .failed else .running := by
    have := hs.placed
    simpa only [Frame.Placed, hc] using this
  cases stop with
  | true => exact .inr ⟨hcan, .inl hc⟩
  | false =>
    left
    simp [Orchestrator.published, hst, hcan]

/-- What a run publishes at its end, over a terminal status. -/
theorem status_ending (s : Stage) (hs : f.Sound) (hc : f.control = .finish) (ha : f.Agrees i.status)
    (ht : i.status.isTerminal = true) :
    (Orchestrator.published i (f.ending s)).status = i.status ∨ i.status = .cancelled ∧ f.EndsUnseen := by
  cases hst : f.run.status with
  | running => exact .inr ⟨ha.of_terminal ht (.inr hst), .inr ⟨hc, hst⟩⟩
  | completed =>
    have := hs.verdict
    simp [Instance.Verdict, hst] at this
  | failed =>
    left
    have hi : i.status = .failed := by simpa [Frame.Agrees, hc, hst] using ha
    simp [Orchestrator.published, Frame.ending, hst, hi]
  | cancelled =>
    left
    have hi : i.status = .cancelled := by simpa [Frame.Agrees, hc, hst] using ha
    simp [Orchestrator.published, Frame.ending, hst, hi]

/-- Abandoning changes no terminal status. -/
theorem instance?_abandon {o o' : Orchestrator} {g : Frame} (now : Time.Instant) (hn : o.Numbered)
    (hx : o' = match g.control with
      | .nested _ => o.abandonChildren now g.run.id
      | _ => o)
    (hi : o.instance? id = some i) (ht : i.status.isTerminal = true) : o'.instance? id = some i := by
  subst hx
  split
  · rcases Orchestrator.abandonRounds_cases now id o.instances.length [g.run.id] hn with
      hk | ⟨j, hj, hr, _⟩
    · exact hk.trans hi
    · rw [hi] at hj
      obtain rfl := Option.some.inj hj
      simp [Status.isTerminal, hr] at ht
  · exact hi

theorem instance?_expire {g : Frame} {outer : List Frame} (hn : s.orchestrator.Numbered)
    (h : s.expire? g outer = some (s', u)) (hi : s.orchestrator.instance? id = some i)
    (ht : i.status.isTerminal = true) : s'.orchestrator.instance? id = some i := by
  unfold Stage.expire? at h
  obtain ⟨v, _, h⟩ := Option.bind_eq_some_iff.1 h
  obtain ⟨millis, _, h⟩ := Option.bind_eq_some_iff.1 h
  dsimp only at h
  split at h
  · simp at h
  · cases h
    exact instance?_abandon s.now hn rfl hi ht

/-- **One block** changes a terminal status only from cancelled, and only where its run ends unseen. -/
theorem Work.status {late : Option Nat} (h : Work s f below late s' u) (hs : f.Sound) (hn : s.orchestrator.Numbered)
    (hp : f.Published s.orchestrator) (hi : s.orchestrator.instance? id = some i)
    (ht : i.status.isTerminal = true) :
    ∃ i', s'.orchestrator.instance? id = some i' ∧
      (i'.status = i.status ∨ i.status = .cancelled ∧ f.run.id = id ∧ f.EndsUnseen) := by
  obtain ⟨old, hold, _, ha⟩ := hp
  -- The instance after its run has published a view, and any other instance.
  have after (run : Instance) (hid : run.id = f.run.id)
      (hst : old.status.isTerminal = true → (Orchestrator.published old run).status = old.status ∨
        old.status = .cancelled ∧ f.EndsUnseen) :
      ∃ i', (s.orchestrator.publish run).instance? id = some i' ∧
        (i'.status = i.status ∨ i.status = .cancelled ∧ f.run.id = id ∧ f.EndsUnseen) := by
    rw [Orchestrator.instance?_publish s.orchestrator (hid ▸ hold), hid]
    by_cases hx : id = f.run.id
    · subst hx
      rw [hold] at hi
      obtain rfl := Option.some.inj hi
      rcases hst ht with hsame | ⟨hcan, hends⟩
      · exact ⟨_, if_pos rfl, .inl hsame⟩
      · exact ⟨_, if_pos rfl, .inr ⟨hcan, rfl, hends⟩⟩
    · exact ⟨i, by rw [if_neg hx, hi], .inl rfl⟩
  cases h with
  | observe | ask | refuse | exhausted | hear | answer => exact ⟨i, hi, .inl rfl⟩
  | @descend p w d context =>
    refine ⟨i, ?_, .inl rfl⟩
    rw [instance?_begin hn, if_neg]
    · exact hi
    · rintro rfl
      exact absurd (hn.fresh.symm.trans hi) (by simp)
  | publish hc => exact after f.run rfl fun ht => status_publish hs hc ha ht
  | conclude hc =>
    obtain ⟨i', hi', hst⟩ := after (f.ending s) rfl fun ht => status_ending s hs hc ha ht
    exact ⟨i', (instance?_congr (instances_ended s f) id).trans hi', hst⟩
  | deliver hc =>
    obtain ⟨i', hi', hst⟩ := after (f.ending s) rfl fun ht => status_ending s hs hc ha ht
    exact ⟨i', (instance?_congr (instances_ended s f) id).trans hi', hst⟩
  | @expire g outer dropped v e hsplit hu o ho =>
    exact ⟨i, instance?_abandon s.now hn ho hi ht, .inl rfl⟩

theorem orchestrator_deliver (s : Stage) (r : RunResult) (below : List Frame) :
    (s.deliver r below).1.orchestrator = s.orchestrator := by
  cases below with
  | nil => rfl
  | cons g outer =>
    simp only [Stage.deliver]
    split
    · split <;> rfl
    · rfl

/-- A run that ends unseen takes the place of a cancellation. -/
theorem status_overwritten (hs : f.Sound) (he : f.EndsUnseen) (h : s.advance? f below = some (s', u))
    (hi : s.orchestrator.instance? f.run.id = some i) :
    ∃ i', s'.orchestrator.instance? f.run.id = some i' ∧ (i'.status = .failed ∨ i'.status = .completed) := by
  unfold Stage.advance? at h
  rcases he with hc | ⟨hc, hrun⟩
  · have hst : f.run.status = .failed := by
      have := hs.placed
      simpa only [Frame.Placed, hc, if_true] using this
    rw [hc] at h
    cases h
    refine ⟨_, (Orchestrator.instance?_publish s.orchestrator hi f.run.id).trans (if_pos rfl), .inl ?_⟩
    simp [Orchestrator.published, hst]
  · rw [hc] at h
    have hpub : s'.orchestrator.instances = (s.orchestrator.publish (f.ending s)).instances := by
      rw [← instances_ended, ← orchestrator_deliver (s.ended f) (f.result s) below]
      exact congrArg (·.1.orchestrator.instances) (Option.some.inj h).symm
    have hi' : s.orchestrator.instance? (f.ending s).id = some i := hi
    refine ⟨_, (instance?_congr hpub _).trans ((Orchestrator.instance?_publish s.orchestrator hi' f.run.id).trans
      (if_pos rfl)), .inr ?_⟩
    simp [Orchestrator.published, Frame.ending, hrun]

end

/-! ## Whole histories -/

section
variable {t t' : System} {h : Happening} {id : InstanceId} {i : Instance}

/-- A happening in which the run of the instance ends unseen. -/
def Happening.Overwrites (h : Happening) (t : System) (id : InstanceId) : Prop :=
  ∃ task, h = .advance task ∧ t.EndsUnseen task id

theorem Step.terminal (hk : t.Kept) (hst : Step t h t') (hi : t.orchestrator.instance? id = some i)
    (ht : i.status.isTerminal = true) :
    ∃ i', t'.orchestrator.instance? id = some i' ∧
      (i'.status = i.status ∨ i.status = .cancelled ∧ ∃ task, h.task? = some task ∧ t.EndsUnseen task id) := by
  cases hst with
  | unknown => exact ⟨i, hi, .inl rfl⟩
  | @start w context d =>
    have hn := hk.consistent.family.numbered
    refine ⟨i, ?_, .inl rfl⟩
    rw [instance?_begin hn, if_neg]
    · exact hi
    · rintro rfl
      exact absurd (hn.fresh.symm.trans hi) (by simp)
  | @work _ task f below stage u on found work =>
    obtain ⟨hfam, _⟩ := hk.consistent.at found
    have hf : f.Sound := hk.sound.at found f (by simp)
    obtain ⟨i', hi', hst⟩ := work.status hf hfam.numbered (hfam.published f (by simp)) hi ht
    refine ⟨i', hi', hst.imp_right fun ⟨hcan, hid, he⟩ => ?_⟩
    exact ⟨hcan, task, on, f, below, found, hid, he⟩
  | @cancel id' =>
    by_cases hx : id = id'
    · have hsame : i.stopAsked t.now = i := by
        refine if_neg ?_
        intro hrun
        simp [Status.isTerminal, hrun] at ht
      exact ⟨i, by rw [instance?_cancel, if_pos hx, hi, Option.map_some, hsame], .inl rfl⟩
    · exact ⟨i, by rw [instance?_cancel, if_neg hx, hi], .inl rfl⟩
  | wait => exact ⟨i, hi, .inl rfl⟩

/-- A terminal status stays through all that can happen but a block in which the run ends unseen. -/
theorem terminal_stays (hk : t.Kept) (hst : t.step? h = some t') (hi : t.orchestrator.instance? id = some i)
    (ht : i.status.isTerminal = true) (hx : ¬ (i.status = .cancelled ∧ h.Overwrites t id)) :
    ∃ i', t'.orchestrator.instance? id = some i' ∧ i'.status = i.status := by
  obtain ⟨i', hi', hsame | ⟨hcan, task, htask, f, below, hf, hid, he⟩⟩ :=
    (step_of_step? hk.stacked hst).terminal hk hi ht
  · exact ⟨i', hi', hsame⟩
  · cases h with
    | start | cancel | wait => simp [Happening.task?] at htask
    | advance task' =>
      obtain rfl := Option.some.inj htask
      exact absurd ⟨hcan, task', rfl, f, below, hf, hid, he⟩ hx
    | answer task' call =>
      -- A run that ends waits for no answer.
      obtain rfl := Option.some.inj htask
      simp only [System.step?] at hst
      obtain ⟨f', below', stage, u, hf', hw, rfl⟩ := onTask?_some hst
      rw [hf] at hf'
      obtain ⟨rfl, rfl⟩ := Task.running.inj (Option.some.inj hf')
      unfold Stage.answer? at hw
      split at hw
      · next hc => rcases he with he | ⟨he, _⟩ <;> simp [hc] at he
      · simp at hw
    | expire task' level =>
      simp only [System.step?] at hst
      obtain ⟨f', below', stage, u, hf', hw, rfl⟩ := onTask?_some hst
      split at hw
      · exact ⟨i, instance?_expire hk.consistent.family.numbered hw hi ht, rfl⟩
      · simp at hw

/-- A cancellation goes with the block in which the run ends unseen. -/
theorem cancelled_goes (hk : t.Kept) (hst : t.step? h = some t') (hi : t.orchestrator.instance? id = some i)
    (hx : h.Overwrites t id) :
    ∃ i', t'.orchestrator.instance? id = some i' ∧ i'.status.isTerminal = true ∧ i'.status ≠ .cancelled := by
  obtain ⟨task, rfl, f, below, hf, rfl, he⟩ := hx
  simp only [System.step?] at hst
  obtain ⟨f', below', stage, u, hf', hw, rfl⟩ := onTask?_some hst
  rw [hf] at hf'
  obtain ⟨rfl, rfl⟩ := Task.running.inj (Option.some.inj hf')
  obtain ⟨i', hi', hst'⟩ := status_overwritten (hk.sound.at hf f (by simp)) he hw hi
  refine ⟨i', hi', ?_⟩
  rcases hst' with hst' | hst' <;> simp [hst', Status.isTerminal]

theorem overwrites_cons {later : List Happening} (hst : t.step? h = some t') :
    t.Overwrites id (h :: later) ↔ h.Overwrites t id ∨ t'.Overwrites id later := by
  constructor
  · rintro ⟨before, task, after, v, heq, hv, he⟩
    cases before with
    | nil =>
      obtain ⟨rfl, rfl⟩ := List.cons.inj heq
      obtain rfl := Option.some.inj hv
      exact .inl ⟨task, rfl, he⟩
    | cons x before =>
      obtain ⟨rfl, rfl⟩ := List.cons.inj heq
      rw [System.run?_cons, hst] at hv
      exact .inr ⟨before, task, after, v, rfl, hv, he⟩
  · rintro (⟨task, rfl, he⟩ | ⟨before, task, after, v, rfl, hv, he⟩)
    · exact ⟨[], task, later, t, rfl, rfl, he⟩
    · refine ⟨h :: before, task, after, v, rfl, ?_, he⟩
      rw [System.run?_cons, hst]
      exact hv

end

/-- **Which terminal statuses stay.** In every history of starts, blocks, answers, timeouts and
cancellations, a terminal status that a query has told is told by every later query, with the one
exception of a cancelled instance whose run ends unseen. -/
theorem terminal_stays_iff {s : Stage} (hs : s.orchestrator.instances = []) {past later : List Happening}
    {t u : System} (h : s.idle.run? past = some t) (hl : t.run? later = some u) {id : InstanceId} {st : Status}
    (hst : t.status? id = some st) (ht : st.isTerminal = true) :
    u.status? id = some st ↔ ¬ (st = .cancelled ∧ t.Overwrites id later) := by
  rw [status?_eq] at hst ⊢
  induction later generalizing past t st with
  | nil =>
    obtain rfl := Option.some.inj hl
    have hno : ¬ t.Overwrites id [] := by
      rintro ⟨before, task, after, v, heq, _⟩
      simp at heq
    simp [hst, hno]
  | cons x later ih =>
    rw [System.run?_cons] at hl
    obtain ⟨r, hr, hl⟩ := Option.bind_eq_some_iff.1 hl
    obtain ⟨i, hi, rfl⟩ := Option.map_eq_some_iff.1 hst
    have hk := kept_of_run? hs h
    have h' : s.idle.run? (past ++ [x]) = some r := by
      rw [System.run?_append, h]
      simpa [System.run?_cons] using hr
    rw [overwrites_cons hr]
    by_cases hx : i.status = .cancelled ∧ x.Overwrites t id
    · -- The status changes here to one that stays, whatever comes.
      obtain ⟨i', hi', ht', hne⟩ := cancelled_goes hk hr hi hx.2
      have hlast := (ih h' hl (by rw [hi']; rfl) ht').2 fun hc => hne hc.1
      rw [hlast]
      simp [hx.1, hx.2, hne]
    · obtain ⟨i', hi', hsame⟩ := terminal_stays hk hr hi ht hx
      rw [ih h' hl (by rw [hi', Option.map_some, hsame]) ht]
      constructor
      · rintro hno ⟨hc, hov | hov⟩
        · exact hx ⟨hc, hov⟩
        · exact hno ⟨hc, hov⟩
      · exact fun hno hc => hno ⟨hc.1, .inr hc.2⟩

/-- The relay is cancelled while its first phase waits for the answer. -/
def relayCancelled : List Happening := [.start "relay" .null, .advance 0, .cancel (.numbered 1)]

/-- The answer comes, and the run sees the cancellation before its second phase. -/
def relayStops : List Happening := [.answer 0 0, .advance 0, .advance 0, .advance 0]

theorem relay_terminal_stays : ∃ t u, relayStage.orchestrator.instances = [] ∧
    relayStage.idle.run? relayCancelled = some t ∧ t.run? relayStops = some u ∧
    t.status? (.numbered 1) = some .cancelled ∧ Status.isTerminal .cancelled = true ∧
    (u.status? (.numbered 1) = some .cancelled ↔
      ¬ (Status.cancelled = .cancelled ∧ t.Overwrites (.numbered 1) relayStops)) := by
  have hpast : relayStage.idle.run? relayCancelled = some _ := rfl
  refine ⟨_, _, rfl, hpast, rfl, rfl, rfl, ?_⟩
  exact terminal_stays_iff (s := relayStage) rfl hpast rfl rfl rfl

/-- A workflow with nothing after its only phase. -/
def oath : Definition where
  id := "oath"
  name := "Oath"
  orchestrator := "keeper"
  phases := [{ id := "swear", name := "Swear", action := .generate }]

def oathStage : Stage := { orchestrator := .ofDefinitions [oath], host := { provider := answersOnce } }

/-- **Not every terminal status stays**: cancelled in its only phase, the oath is complete with the
answer. -/
theorem terminal_status_changes : ¬ ∀ (s : Stage) (past later : List Happening) (t u : System)
    (id : InstanceId) (st : Status), s.orchestrator.instances = [] → s.idle.run? past = some t →
    t.run? later = some u → t.status? id = some st → st.isTerminal = true → u.status? id = some st := by
  intro hall
  have hstays := hall oathStage [.start "oath" .null, .advance 0, .cancel (.numbered 1)]
    [.answer 0 0, .advance 0, .advance 0] _ _ (.numbered 1) .cancelled rfl rfl rfl rfl rfl
  have hchanged : some Status.completed = some .cancelled := hstays
  cases hchanged

end Grimoire.Workflow
