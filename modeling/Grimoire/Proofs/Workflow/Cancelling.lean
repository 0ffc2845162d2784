import Grimoire.Proofs.Workflow.FinalStatus
import Grimoire.Proofs.Workflow.Turns

/-!
# What a cancellation does to a run

While a run goes on, its own view is ahead of what is published by one phase at most (`Instance.Behind`).
So a run that is cancelled when `k` of its phases are published can only be in the phase with number
`k`; it publishes that phase and looks at its instance before the next one (`Halting`, kept by every
turn). `cancel_stops` puts together what follows for the run, its result, and later requests.
-/
namespace Grimoire.Workflow

open Event (InstanceId)

/-! ## A view and what is published of it -/

/-- How many phases of a run in this place are not published. -/
def Control.unpublished : Control → Nat
  | .publish _ => 1
  | .check | .calling .. | .nested _ | .finish => 0

theorem endPhase_control (s : Stage) (f : Frame) (u : Underway) (outcome : Except WorkflowError Json) :
    ∃ stop, (s.endPhase f u outcome).2.control = .publish stop := ⟨_, rfl⟩

theorem Frame.unpublished_of_underway {f : Frame} {u : Underway} (h : f.underway? = some u) :
    f.control.unpublished = 0 := by
  unfold Frame.underway? at h
  cases hc : f.control with
  | publish stop => simp [hc] at h
  | check | calling | nested | finish => rfl

theorem Frame.unpublished_between (f : Frame) : f.between.unpublished = 0 := by
  rcases f.between_cases with h | h <;> rw [h] <;> rfl

/-- The published instance is behind its run by the phases that are not published, and neither has
started a phase beyond the published ones. -/
structure Instance.Behind (i : Instance) (f? : Option Frame) : Prop where
  own : i.currentPhase ≤ i.phases.length
  phases : ∀ f, f? = some f → f.run.phases.length = i.phases.length + f.control.unpublished
  started : ∀ f, f? = some f → f.run.currentPhase ≤ i.phases.length

section
variable {s : Stage} {x : Happening} {id : InstanceId} {f f' : Frame} {i : Instance} {f? f'? : Option Frame}
  {i? i'? : Option Instance}

theorem Instance.Behind.of_run (own : i.currentPhase ≤ i.phases.length)
    (phases : f.run.phases.length = i.phases.length + f.control.unpublished)
    (started : f.run.currentPhase ≤ i.phases.length) : i.Behind (some f) := by
  refine ⟨own, ?_, ?_⟩
  · rintro _ ⟨⟩
    exact phases
  · rintro _ ⟨⟩
    exact started

theorem Instance.Behind.gone (own : i.currentPhase ≤ i.phases.length) : i.Behind none :=
  ⟨own, fun _ h => (by cases h), fun _ h => (by cases h)⟩

theorem Move.behind (m : Move s i f f') (h : i.Behind (some f)) : i.Behind (some f') := by
  have hp := h.phases f rfl
  have hs := h.started f rfl
  cases m with
  | observe hc =>
    simp only [hc, Control.unpublished] at hp
    exact .of_run h.own hp hs
  | @enter p c hc _ _ hw =>
    simp only [hc, Control.unpublished] at hp
    exact .of_run h.own (hp.trans (by simp [Frame.unpublished_of_underway hw])) (Nat.le_of_eq hp)
  | refuse e hc =>
    simp only [hc, Control.unpublished] at hp
    exact .of_run h.own (by rw [endPhase_phases]; exact congrArg (· + 1) hp)
      (by rw [endPhase_currentPhase]; exact Nat.le_of_eq hp)
  | exhausted hc =>
    simp only [hc, Control.unpublished] at hp
    exact .of_run h.own hp hs
  | hear calls' hc =>
    simp only [hc, Control.unpublished] at hp
    exact .of_run h.own hp hs
  | endPhase at_end outcome hu =>
    rw [Frame.unpublished_of_underway hu] at hp
    exact .of_run h.own (by rw [endPhase_phases]; exact congrArg (· + 1) hp)
      (by rw [endPhase_currentPhase]; exact hs)

/-- **One turn** keeps an instance behind its run. -/
theorem Turn.behind (h : Turn s x id f? i? f'? i'?) (hb : ∀ i, i? = some i → i.Behind f?) :
    ∀ i', i'? = some i' → i'.Behind f'? := by
  cases h with
  | rest => exact hb
  | start context parent =>
    rintro _ ⟨⟩
    refine .of_run (Nat.le_refl 0) ?_ (Nat.le_refl 0)
    simp only [Stage.begin]
    split <;> rfl
  | move m =>
    rintro _ ⟨⟩
    exact m.behind (hb _ rfl)
  | @publish f i stop hc =>
    rintro _ ⟨⟩
    have hs := (hb i rfl).started f rfl
    have hp := (hb i rfl).phases f rfl
    have hle : f.run.currentPhase ≤ f.run.phases.length := by omega
    refine .of_run (by simpa using hle) ?_ (by simpa using hle)
    cases stop with
    | true => simp [Control.unpublished]
    | false => simp [Frame.unpublished_between]
  | @ending f i hc =>
    rintro _ ⟨⟩
    have hs := (hb i rfl).started f rfl
    have hp := (hb i rfl).phases f rfl
    refine .gone ?_
    simp only [Orchestrator.published_currentPhase, Orchestrator.published_phases, Frame.ending]
    omega
  | drop =>
    rintro _ ⟨⟩
    exact .gone (hb _ rfl).own
  | abandon =>
    rintro _ ⟨⟩
    exact .gone (hb _ rfl).own
  | cancel =>
    rintro _ ⟨⟩
    have h := hb _ rfl
    exact ⟨by simpa using h.own, by simpa using h.phases, by simpa using h.started⟩

/-! ## After a cancellation -/

/-- An instance that stops: no status of it is running, and its run is in the phase with number `k` at
most and comes to no other. -/
structure Halting (k : Nat) (f? : Option Frame) (i : Instance) : Prop where
  status : i.status ≠ .running
  phases : i.phases.length ≤ k + 1
  current : i.currentPhase ≤ k
  run : ∀ f, f? = some f → f.run.phases.length ≤ k + 1 ∧ f.run.currentPhase ≤ k
  underway : ∀ f, f? = some f → f.underway?.isSome = true → f.run.phases.length ≤ k
  seen : ∀ f, f? = some f → f.control = .check → i.status = .cancelled

theorem Halting.of_run {k : Nat} (status : i.status ≠ .running) (phases : i.phases.length ≤ k + 1)
    (current : i.currentPhase ≤ k) (run : f.run.phases.length ≤ k + 1 ∧ f.run.currentPhase ≤ k)
    (underway : f.underway?.isSome = true → f.run.phases.length ≤ k)
    (seen : f.control = .check → i.status = .cancelled) : Halting k (some f) i := by
  refine ⟨status, phases, current, ?_, ?_, ?_⟩
  · rintro _ ⟨⟩
    exact run
  · rintro _ ⟨⟩
    exact underway
  · rintro _ ⟨⟩
    exact seen

theorem Halting.gone {k : Nat} (status : i.status ≠ .running) (phases : i.phases.length ≤ k + 1)
    (current : i.currentPhase ≤ k) : Halting k none i :=
  ⟨status, phases, current, fun _ h => (by cases h), fun _ h => (by cases h), fun _ h => (by cases h)⟩

theorem Move.halting {k : Nat} (m : Move s i f f') (h : Halting k (some f) i) : Halting k (some f') i := by
  obtain ⟨hst, hph, hcur, hrun, hun, hseen⟩ := h
  have hrun := hrun f rfl
  cases m with
  | observe => exact .of_run hst hph hcur hrun (by simp [Frame.stopped, Frame.underway?]) (by simp [Frame.stopped])
  | enter hc unseen => exact absurd (hseen f rfl hc) unseen
  | refuse e hc unseen => exact absurd (hseen f rfl hc) unseen
  | exhausted => exact .of_run hst hph hcur hrun (by simp [Frame.underway?]) (by simp)
  | hear calls' hc =>
    have hk := hun f rfl (by simp [Frame.underway?, hc])
    exact .of_run hst hph hcur hrun (fun _ => hk) (by simp)
  | @endPhase u at_end outcome hu =>
    have hk := hun f rfl (by simp [hu])
    obtain ⟨stop, hc⟩ := endPhase_control at_end f u outcome
    refine .of_run hst hph hcur ⟨?_, ?_⟩ (by simp [Frame.underway?, hc]) (by simp [hc])
    · rw [endPhase_phases]
      omega
    · rw [endPhase_currentPhase]
      exact hrun.2

/-- **One turn** of an instance that stops. Where the run publishes the phase that it was in, the
cancellation stays visible unless the run has failed; either way no phase follows. -/
theorem Turn.halting {k : Nat} (h : Turn s x id f? (some i) f'? i'?)
    (hf : ∀ f, f? = some f → f.Sound ∧ f.Agrees i.status) (hh : Halting k f? i) :
    ∃ i', i'? = some i' ∧ Halting k f'? i' := by
  cases h with
  | rest => exact ⟨i, rfl, hh⟩
  | move m => exact ⟨i, rfl, m.halting hh⟩
  | @publish f i stop hc =>
    obtain ⟨hsound, hagrees⟩ := hf f rfl
    have hrun := hh.run f rfl
    have hplaced : f.run.status = if stop then .failed else .running := by
      have := hsound.placed
      simpa only [Frame.Placed, hc] using this
    refine ⟨_, rfl, ?_⟩
    cases stop with
    | true =>
      have hst : (Orchestrator.published i f.run).status = .failed := by
        simp [Orchestrator.published, hplaced]
      exact .of_run (by simp [hst]) (by simpa using hrun.1) (by simpa using hrun.2) hrun
        (by simp [Frame.underway?]) (by simp)
    | false =>
      have hcan : i.status = .cancelled := by
        rcases (Frame.agrees_of_ne_finish (by simp [hc]) _).1 hagrees with hx | hx
        · exact absurd hx hh.status
        · exact hx
      have hst : (Orchestrator.published i f.run).status = .cancelled := by
        simp [Orchestrator.published, hplaced, hcan]
      refine .of_run (by simp [hst]) (by simpa using hrun.1) (by simpa using hrun.2) hrun ?_ fun _ => hst
      rcases f.between_cases with hb | hb <;> simp [Frame.underway?, hb]
  | @ending f i hc =>
    have hrun := hh.run f rfl
    have hst := Frame.published_ending_ne_running s f i
    exact ⟨_, rfl, .gone hst (by simpa [Frame.ending] using hrun.1) (by simpa [Frame.ending] using hrun.2)⟩
  | drop => exact ⟨i, rfl, .gone hh.status hh.phases hh.current⟩
  | abandon _ hrun => exact absurd hrun hh.status
  | cancel =>
    have hsame : i.stopAsked s.now = i := if_neg hh.status
    exact ⟨i, by rw [hsame], hh⟩

end

/-! ## Whole histories -/

theorem System.Kept.frame? {t : System} (hk : t.Kept) {id : InstanceId} {i : Instance}
    (hi : t.instance? id = some i) : ∀ f, t.frame? id = some f → f.Sound ∧ f.Agrees i.status := by
  intro f hf
  obtain ⟨hmem, rfl⟩ := frameOf?_some hf
  obtain ⟨j, hj, _, ha⟩ := hk.consistent.family.published f hmem
  obtain rfl : i = j := Option.some.inj (hi.symm.trans hj)
  exact ⟨hk.sound f hmem, ha⟩

theorem behind_of_run? {s : Stage} (hs : s.orchestrator.instances = []) {past : List Happening} {t : System}
    (h : s.idle.run? past = some t) (id : InstanceId) : ∀ i, t.instance? id = some i → i.Behind (t.frame? id) := by
  refine reachable_induction (P := fun _ t => ∀ i, t.instance? id = some i → i.Behind (t.frame? id)) hs ?_ ?_ h
  · intro i hi
    simp [System.instance?, Stage.idle, Orchestrator.instance?, hs] at hi
  · exact fun _ _ _ _ _ hk hb hst => (hst.turn hk id).behind hb

/-- A result tells the phases that were published at the end of its run. -/
def System.Reported (t : System) (r : RunResult) : Prop :=
  t.frame? r.id = none ∧ ∃ i, t.instance? r.id = some i ∧ i.phases = r.phases

/-- A result is there before a step, or the outermost run of the task ends in it. -/
theorem Step.outcome {t u : System} {x : Happening} (hst : Step t x u) {task : Nat} {r : RunResult}
    (hr : u.tasks[task]? = some (.finished (.ok r))) :
    t.tasks[task]? = some (.finished (.ok r)) ∨
      ∃ f, t.tasks[task]? = some (.running f []) ∧ f.control = .finish ∧ r = f.result t.toStage ∧
        u = { toStage := t.toStage.ended f, tasks := t.tasks.set task (.finished (.ok r)) } := by
  -- A task that is added has no result yet.
  have added {v : Task} (hv : (t.tasks ++ [v])[task]? = some (.finished (.ok r))) (hne : v ≠ .finished (.ok r)) :
      t.tasks[task]? = some (.finished (.ok r)) := by
    rcases getElem?_snoc hv with hv | ⟨_, rfl⟩
    · exact hv
    · exact absurd rfl hne
  cases hst with
  | unknown => exact .inl (added hr (by simp))
  | start => exact .inl (added hr (by simp))
  | cancel | wait => exact .inl hr
  | @work _ task' f below stage v on found work =>
    by_cases hx : task' = task
    · subst hx
      have hlt := (List.getElem?_eq_some_iff.1 found).1
      obtain rfl : v = .finished (.ok r) := by simpa [hlt] using hr
      generalize x.level? = late at work
      cases work with
      | conclude hfin hout =>
        subst hout
        exact .inr ⟨f, found, hfin, rfl, rfl⟩
    · exact .inl (by simpa [List.getElem?_set_ne hx] using hr)

theorem reported_of_run? {s : Stage} (hs : s.orchestrator.instances = []) {past : List Happening} {t : System}
    (h : s.idle.run? past = some t) :
    ∀ (task : Nat) (r : RunResult), t.tasks[task]? = some (.finished (.ok r)) → t.Reported r := by
  refine reachable_induction
    (P := fun _ t => ∀ (task : Nat) (r : RunResult), t.tasks[task]? = some (.finished (.ok r)) → t.Reported r)
    hs ?_ ?_ h
  · intro task r hr
    simp [Stage.idle] at hr
  · intro past x t u _ hk ih hst task r hr
    rcases hst.outcome hr with hold | ⟨f, hf, hfin, rfl, rfl⟩
    · obtain ⟨hnone, i, hi, hp⟩ := ih task r hold
      have hturn := hst.turn hk r.id
      rw [hnone, hi] at hturn
      obtain ⟨hnone', i', hi', hp', _⟩ := hturn.settled
      exact ⟨hnone', i', hi', hp'.trans hp⟩
    · obtain ⟨hfam, _⟩ := hk.consistent.at hf
      obtain ⟨i, hi, _⟩ := hfam.published f (by simp)
      constructor
      · rw [System.frame?, frameOf?_eq_none]
        intro g hg
        have hg' := (frames_set_perm hf (t.toStage.ended f) (.finished (.ok (f.result t.toStage)))).mem_iff.1 hg
        exact hfam.ne_of_mem hg'
      · refine ⟨Orchestrator.published i (f.ending t.toStage), ?_, Orchestrator.published_phases ..⟩
        exact (instance?_ended hi f.run.id).trans (if_pos rfl)

theorem outcome?_of_toOption {t : System} {task : Nat} {r : RunResult}
    (h : (t.outcome? task).bind Except.toOption = some r) : t.outcome? task = some (.ok r) := by
  obtain ⟨outcome, houtcome, hr⟩ := Option.bind_eq_some_iff.1 h
  cases outcome with
  | error e => cases hr
  | ok r' =>
    cases hr
    exact houtcome

theorem finished_of_outcome? {t : System} {task : Nat} {outcome : Outcome} (h : t.outcome? task = some outcome) :
    t.tasks[task]? = some (.finished outcome) := by
  unfold System.outcome? at h
  split at h
  · next o ho => rw [ho, Option.some.inj h]
  · cases h

/-- The next block of the run starts its next phase. -/
def System.StartsPhase (t : System) (id : InstanceId) : Prop :=
  ∃ f ∈ t.frames, f.run.id = id ∧ f.control = .check ∧ t.orchestrator.isCancelled id = false ∧
    f.next?.isSome = true

/-- A request to stop that is answered with yes. -/
theorem halting_of_cancel {s : Stage} (hs : s.orchestrator.instances = []) {past : List Happening}
    {t : System} {id : InstanceId} {i : Instance} (h : s.idle.run? past = some t) (hi : t.instance? id = some i)
    (hc : (t.toStage.cancel id).1 = true) :
    Halting i.phases.length (t.frame? id) (i.stopAsked t.now) := by
  have hb := behind_of_run? hs h id i hi
  have hrun : i.status = .running := by
    unfold Stage.cancel at hc
    split at hc
    · next hany =>
      obtain ⟨j, hj, hjr⟩ := (Option.any_eq_true _ _).1 hany
      obtain rfl : i = j := Option.some.inj (hi.symm.trans hj)
      exact beq_iff_eq.1 hjr
    · cases hc
  have hst : (i.stopAsked t.now).status = .cancelled := by simp [Instance.stopAsked, hrun]
  refine ⟨by simp [hst], by simp, by simpa using hb.own, ?_, ?_, fun _ _ _ => hst⟩
  · intro f hf
    have hp := hb.phases f hf
    have hle : f.control.unpublished ≤ 1 := by cases f.control <;> simp [Control.unpublished]
    exact ⟨by omega, hb.started f hf⟩
  · intro f hf hu
    obtain ⟨u, hu⟩ := Option.isSome_iff_exists.1 hu
    have hp := hb.phases f hf
    rw [Frame.unpublished_of_underway hu] at hp
    omega

/-- After a request to stop that is answered with yes, the instance stops, whatever happens. -/
theorem halting_after {s : Stage} (hs : s.orchestrator.instances = []) {past later : List Happening}
    {t u : System} {id : InstanceId} {i : Instance} (h : s.idle.run? past = some t) (hi : t.instance? id = some i)
    (hc : (t.toStage.cancel id).1 = true) (hl : t.run? (.cancel id :: later) = some u) :
    ∃ j, u.instance? id = some j ∧ Halting i.phases.length (u.frame? id) j := by
  obtain ⟨v, hv, hl⟩ := System.run?_cons_iff.1 hl
  have h' : s.idle.run? (past ++ [.cancel id]) = some v := System.run?_snoc_iff.2 ⟨t, h, hv⟩
  refine later_induction (P := fun v => ∃ j, v.instance? id = some j ∧ Halting i.phases.length (v.frame? id) j)
    hs h' hl ?_ ?_
  · obtain rfl := Option.some.inj hv
    refine ⟨i.stopAsked t.now, ?_, halting_of_cancel hs h hi hc⟩
    exact (instance?_cancel ..).trans (by rw [if_pos rfl, show t.orchestrator.instance? id = some i from hi]; rfl)
  · intro x v w hk ⟨j, hj, hhalt⟩ hst
    have hturn := hst.turn hk id
    rw [hj] at hturn
    exact hturn.halting (hk.frame? hj) hhalt

/-- **A cancellation stops a run and is never undone.** Once a request to cancel an instance with `k`
published phases is answered with yes, the run has at most `k + 1` phases, in its own view, in what it
hands over and in what is published; it starts no phase, so it is in the one with number `k` at most;
no query tells that it is running, and each later request to cancel it is answered with no. -/
theorem cancel_stops {s : Stage} (hs : s.orchestrator.instances = []) {past later : List Happening}
    {t u : System} {id : InstanceId} {i : Instance} (h : s.idle.run? past = some t)
    (hi : t.orchestrator.instance? id = some i) (hc : (t.toStage.cancel id).1 = true)
    (hl : t.run? (.cancel id :: later) = some u) :
    (∀ f ∈ u.frames, f.run.id = id →
      f.run.phases.length ≤ i.phases.length + 1 ∧ f.run.currentPhase ≤ i.phases.length) ∧
    (∀ task r, u.outcome? task = some (.ok r) → r.id = id → r.phases.length ≤ i.phases.length + 1) ∧
    (∃ i', u.orchestrator.instance? id = some i' ∧ i'.phases.length ≤ i.phases.length + 1 ∧
      i'.currentPhase ≤ i.phases.length) ∧
    ¬ u.StartsPhase id ∧
    (∃ st, u.status? id = some st ∧ st ≠ .running) ∧
    (u.toStage.cancel id).1 = false := by
  obtain ⟨j, hj, hhalt⟩ := halting_after hs h hi hc hl
  have hall := System.run?_trans h hl
  have hinst : u.orchestrator.instance? id = some j := hj
  have hframe : ∀ f ∈ u.frames, f.run.id = id → u.frame? id = some f := by
    rintro f hf rfl
    exact (kept_of_run? hs hall).consistent.family.frameOf?_eq hf
  refine ⟨?_, ?_, ⟨j, hj, hhalt.phases, hhalt.current⟩, ?_, ⟨j.status, ?_, hhalt.status⟩, ?_⟩
  · exact fun f hf hid => hhalt.run f (hframe f hf hid)
  · rintro task r hr rfl
    obtain ⟨_, j', hj', hp⟩ := reported_of_run? hs hall task r (finished_of_outcome? hr)
    obtain rfl : j = j' := Option.some.inj (hj.symm.trans hj')
    exact hp ▸ hhalt.phases
  · rintro ⟨f, hf, hid, hcheck, hno, _⟩
    have hseen := hhalt.seen f (hframe f hf hid) hcheck
    simp [Orchestrator.isCancelled, hinst, hseen] at hno
  · rw [status?_eq, hinst]
    rfl
  · have hne := hhalt.status
    simp [Stage.cancel, hinst, hne]

/-- The relay is cancelled while it waits for its first answer, and publishes that phase. -/
theorem relay_cancel_stops : ∃ t u i, relayStage.orchestrator.instances = [] ∧
    relayStage.idle.run? [.start "relay" .null, .advance 0] = some t ∧
    t.orchestrator.instance? (.numbered 1) = some i ∧ (t.toStage.cancel (.numbered 1)).1 = true ∧
    t.run? (.cancel (.numbered 1) :: relayStops) = some u ∧
    (∀ f ∈ u.frames, f.run.id = .numbered 1 →
      f.run.phases.length ≤ i.phases.length + 1 ∧ f.run.currentPhase ≤ i.phases.length) ∧
    (∀ task r, u.outcome? task = some (.ok r) → r.id = .numbered 1 → r.phases.length ≤ i.phases.length + 1) ∧
    (∃ i', u.orchestrator.instance? (.numbered 1) = some i' ∧ i'.phases.length ≤ i.phases.length + 1 ∧
      i'.currentPhase ≤ i.phases.length) ∧
    ¬ u.StartsPhase (.numbered 1) ∧
    (∃ st, u.status? (.numbered 1) = some st ∧ st ≠ .running) ∧
    (u.toStage.cancel (.numbered 1)).1 = false := by
  obtain ⟨t, u, i, ht, hi, hc, hu⟩ : ∃ t u i,
      relayStage.idle.run? [.start "relay" .null, .advance 0] = some t ∧
      t.orchestrator.instance? (.numbered 1) = some i ∧ (t.toStage.cancel (.numbered 1)).1 = true ∧
      t.run? (.cancel (.numbered 1) :: relayStops) = some u := ⟨_, _, _, rfl, rfl, rfl, rfl⟩
  exact ⟨t, u, i, rfl, ht, hi, hc, hu, cancel_stops rfl ht hi hc hu⟩

end Grimoire.Workflow
