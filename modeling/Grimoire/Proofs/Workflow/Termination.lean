import Grimoire.Proofs.Workflow.Effort

/-!
# Calls return

A task that has not returned has a next happening now, or a clock when it has one (`next?_or_wake?`), so
the turns that `Stage.serve` allows are enough for a call alone (`turns_return`). `start_terminates` puts
this together with the bounds on what happens to a task and on the instances that come from one start.
-/
namespace Grimoire.Workflow

open Event (InstanceId)

/-! ## What happens next to a task -/

section
variable {t : System} {task : Nat} {f : Frame} {below : List Frame} {x : Happening}

theorem isSome_expire? {s : Stage} {outer : List Frame} {deadline : Nat} (hd : f.deadline? = some deadline)
    (he : s.orchestrator.config.enforcePhaseTimeouts = true) (hle : deadline ≤ s.host.clock) :
    (s.expire? f outer).isSome = true := by
  unfold Frame.deadline? at hd
  obtain ⟨u, hu, hd⟩ := Option.bind_eq_some_iff.1 hd
  obtain ⟨millis, hm, hd⟩ := Option.bind_eq_some_iff.1 hd
  obtain rfl := Option.some.inj hd
  have hnot : ¬ ((!s.orchestrator.config.enforcePhaseTimeouts) = true ∨ s.host.clock < u.since + millis) := by
    simp only [he, Bool.not_true, Bool.false_eq_true, false_or]
    omega
  simp only [Stage.expire?, hu, hm, Option.bind_eq_bind, Option.bind_some, if_neg hnot]
  rfl

/-- The level of the innermost run of a task whose time is over. -/
def System.late? (t : System) (frames : List Frame) : Option Nat :=
  (t.deadlines frames).findIdx? fun deadline? => deadline?.any (· ≤ t.host.clock)

theorem next?_of_idle (found : t.tasks[task]? = some (.running f below)) (hu : f.underway? = none) :
    t.next? task = some (.advance task) := by
  simp [System.next?, found, hu]

theorem next?_of_calling (found : t.tasks[task]? = some (.running f below)) {v : Underway} {calls : List Call}
    (hc : f.control = .calling v calls) :
    t.next? task = match dueCall? t.host.clock calls with
      | some call => some (.answer task call)
      | none => (t.late? (f :: below)).map (.expire task ·) := by
  have hu : f.underway? = some v := by simp only [Frame.underway?, hc]
  simp only [System.next?, found, hu, hc, Option.isNone_some, Bool.false_eq_true, if_false]
  rfl

theorem step?_of_late? (found : t.tasks[task]? = some (.running f below)) {level : Nat}
    (hl : t.late? (f :: below) = some level) : ∃ u, t.step? (.expire task level) = some u := by
  unfold System.late? System.deadlines at hl
  by_cases he : t.orchestrator.config.enforcePhaseTimeouts = true
  · rw [if_pos he] at hl
    obtain ⟨hlt, hlate, _⟩ := List.findIdx?_eq_some_iff_getElem.1 hl
    rw [List.length_map] at hlt
    rw [List.getElem_map] at hlate
    obtain ⟨deadline, hd, hle⟩ := (Option.any_eq_true _ _).1 hlate
    simp only [System.step?]
    refine onTask?_of_some _ found ?_
    rw [List.drop_eq_getElem_cons hlt]
    exact isSome_expire? hd he (by simpa using hle)
  · simp [he] at hl

/-- What comes next can come. -/
theorem step?_of_next? (hready : ∀ top rest, .running top rest ∈ t.tasks → top.control.Ready)
    (h : t.next? task = some x) : x.task? = some task ∧ ∃ u, t.step? x = some u := by
  cases hv : t.tasks[task]? with
  | none => simp [System.next?, hv] at h
  | some v =>
    cases v with
    | finished outcome => simp [System.next?, hv] at h
    | running f below =>
      have ready := hready f below (List.mem_of_getElem? hv)
      cases hu : f.underway? with
      | none =>
        obtain rfl := Option.some.inj ((next?_of_idle hv hu).symm.trans h)
        exact ⟨rfl, onTask?_of_some Stage.advance? hv (isSome_advance? hu)⟩
      | some w =>
        cases hc : f.control with
        | check | publish | finish => simp [Frame.underway?, hc] at hu
        | nested => simp [hc, Control.Ready] at ready
        | calling w calls =>
          rw [next?_of_calling hv hc] at h
          cases hdue : dueCall? t.host.clock calls with
          | some place =>
            obtain rfl : Happening.answer task place = x := by simpa [hdue] using h
            obtain ⟨hlt, hp, _⟩ := List.findIdx?_eq_some_iff_getElem.1 hdue
            simp only [Bool.and_eq_true, Option.isNone_iff_eq_none, decide_eq_true_eq] at hp
            exact ⟨rfl, onTask?_of_some (fun stage f below => stage.answer? f below place) hv
              (isSome_answer? hc (List.getElem?_eq_getElem hlt) hp.1 hp.2)⟩
          | none =>
            simp only [hdue, Option.map_eq_some_iff] at h
            obtain ⟨level, hl, rfl⟩ := h
            exact ⟨rfl, step?_of_late? hv hl⟩

/-- A task that waits tells a clock when something comes next. -/
theorem next?_or_wake? (found : t.tasks[task]? = some (.running f below)) (ready : f.control.Ready)
    (h : t.next? task = none) :
    ∃ clock, t.wake? task = some clock ∧
      ({ t with host.clock := max t.host.clock clock } : System).next? task ≠ none := by
  cases hu : f.underway? with
  | none =>
    rw [next?_of_idle found hu] at h
    cases h
  | some w =>
    cases hc : f.control with
    | check | publish | finish => simp [Frame.underway?, hc] at hu
    | nested => simp [hc, Control.Ready] at ready
    | calling w calls =>
      rw [hc] at ready
      obtain ⟨call, hmem, hopen⟩ := ready
      let clocks := (calls.filter (·.outcome?.isNone)).map (·.due) ++ (t.deadlines (f :: below)).filterMap id
      have hwake : t.wake? task = clocks.min? := by simp only [System.wake?, found, hc, clocks]
      have hdue : call.due ∈ clocks := by
        refine List.mem_append_left _ (List.mem_map_of_mem (List.mem_filter.2 ⟨hmem, ?_⟩))
        simp [hopen]
      obtain ⟨clock, hclock⟩ : ∃ clock, clocks.min? = some clock :=
        Option.isSome_iff_exists.1 (List.isSome_min?_of_mem hdue)
      refine ⟨clock, hwake.trans hclock, fun hnone => ?_⟩
      -- Nothing would come then, so neither an answer nor a deadline is due at that clock.
      let later : System := { t with host.clock := max t.host.clock clock }
      have hle : clock ≤ later.host.clock := Nat.le_max_right ..
      rw [next?_of_calling (t := later) found hc] at hnone
      cases hcalls : dueCall? later.host.clock calls with
      | some place => simp [hcalls] at hnone
      | none =>
        rw [hcalls, Option.map_eq_none_iff] at hnone
        have hno := List.findIdx?_eq_none_iff.1 hcalls
        have hnol := List.findIdx?_eq_none_iff.1 hnone
        rcases List.mem_append.1 (List.min?_mem hclock) with hin | hin
        · obtain ⟨c, hc', rfl⟩ := List.mem_map.1 hin
          obtain ⟨hc', ho⟩ := List.mem_filter.1 hc'
          simpa [ho, hle] using hno c hc'
        · have hd : some clock ∈ t.deadlines (f :: below) := by simpa using hin
          simpa [hle] using hnol (some clock) hd

end

section
variable {s : Stage} {past : List Happening} {t : System} {task : Nat} {f : Frame} {below : List Frame}

/-! ## One call alone -/

/-- A client that has made its only call. -/
def Client.awaiting (task : Nat) : Client := { requests := [], waiting := .forTask task }

theorem outcome?_of_running (found : t.tasks[task]? = some (.running f below)) :
    t.outcome? task = none := by
  simp [System.outcome?, found]

/-- A client that has heard all it asked for makes no more moves. -/
theorem turns_of_done (t : System) (answers : List Answer) (n : Nat) :
    Client.turns n t [{ requests := [], answers }] = (t, [{ requests := [], answers }]) := by
  cases n <;> rfl

theorem turn?_of_step? {u : System} {x : Happening} (found : t.tasks[task]? = some (.running f below))
    (hx : t.next? task = some x) (hu : t.step? x = some u) :
    Client.turn? t [.awaiting task] = some (u, [.awaiting task]) := by
  simp [Client.turn?, Client.firstMove?, Client.move?, Client.awaiting, outcome?_of_running found, hx, hu]

theorem turn?_of_wake? {clock : Nat} (found : t.tasks[task]? = some (.running f below))
    (hx : t.next? task = none) (hw : t.wake? task = some clock) :
    Client.turn? t [.awaiting task] =
      some ({ t with host.clock := max t.host.clock clock }, [.awaiting task]) := by
  simp [Client.turn?, Client.firstMove?, Client.move?, Client.awaiting, Client.wake?,
    outcome?_of_running found, hx, hw]

/-- **Enough turns** bring a client that waits for a call the outcome of that call: there are two at most
for each happening, one to go on with the clock and one to let it happen. -/
theorem turns_return (hs : s.orchestrator.instances = []) (task : Nat) : ∀ (n : Nat) {past : List Happening}
    {t : System} {v : Task} {turns : Nat}, s.idle.run? past = some t → t.tasks[task]? = some v →
    stackEffort s.orchestrator.runBound s.orchestrator.nestedBound v.frames < n → 2 * n ≤ turns →
    ∃ u outcome, Client.turns turns t [.awaiting task] =
      (u, [{ requests := [], answers := [.outcome outcome] }])
  | 0, _, _, _, _, _, _, hlt, _ => absurd hlt (Nat.not_lt_zero _)
  | n + 1, past, t, .finished outcome, turns + 1, h, hv, _, _ => by
    refine ⟨t, outcome, ?_⟩
    have hout : t.outcome? task = some outcome := by simp [System.outcome?, hv]
    simp only [Client.turns, Client.turn?, Client.firstMove?, Client.move?, Client.awaiting, hout]
    exact turns_of_done t [.outcome outcome] turns
  | n + 1, past, t, .running f below, turns + 2, h, hv, hlt, hturns => by
    -- Something comes next now: it leaves less to do.
    have goes {past : List Happening} {t : System} {x : Happening} {k : Nat} (h : s.idle.run? past = some t)
        (hv : t.tasks[task]? = some (.running f below)) (hx : t.next? task = some x) (hk : 2 * n ≤ k) :
        ∃ u outcome, Client.turns (k + 1) t [.awaiting task] =
          (u, [{ requests := [], answers := [.outcome outcome] }]) := by
      have hlive := lively_of_run? hs h
      obtain ⟨htask, u, hu⟩ := step?_of_next? hlive.ready hx
      have hst := step_of_step? (kept_of_run? hs h).stacked hu
      obtain ⟨v', hv', hless⟩ := hst.spends htask hv (s.orchestrator.within.congr hlive.definitions)
      rw [Client.turns, turn?_of_step? hv hx hu]
      exact turns_return hs task n (System.run?_snoc_iff.2 ⟨t, h, hu⟩) hv' (by omega) hk
    cases hx : t.next? task with
    | some x => exact goes h hv hx (by omega)
    | none =>
      have hready := (lively_of_run? hs h).ready f below (List.mem_of_getElem? hv)
      obtain ⟨clock, hw, hnext⟩ := next?_or_wake? hv hready hx
      obtain ⟨x, hx'⟩ := Option.ne_none_iff_exists'.1 hnext
      have hlater : s.idle.run? (past ++ [.wait (max t.host.clock clock - t.host.clock)]) =
          some { t with host.clock := max t.host.clock clock } := by
        have hclock : t.host.clock + (max t.host.clock clock - t.host.clock) = max t.host.clock clock := by omega
        exact System.run?_snoc_iff.2 ⟨t, h, by simp [System.step?, hclock]⟩
      rw [Client.turns, turn?_of_wake? hv hx hw]
      exact goes hlater hv hx' (by omega)
  | n + 1, _, _, _, 0, _, _, _, hturns => by omega
  | n + 1, _, _, _, 1, _, _, _, hturns => by omega

theorem happeningBound_eq (o : Orchestrator) :
    o.runBound * treeSize o.nestedBound maxNesting = o.happeningBound := Nat.mul_comm ..

/-- **A call alone returns** within the turns that it is given. -/
theorem serve_returns (hs : s.orchestrator.instances = []) (workflow : String) (context : Json) :
    ∃ stage outcome, s.serve [[.start workflow context]] = (stage, [[.outcome outcome]]) := by
  have hstart : s.idle.run? [.start workflow context] = some (s.idle.start workflow context) :=
    System.run?_singleton ..
  obtain ⟨v, hv⟩ : ∃ v, (s.idle.start workflow context).tasks[0]? = some v := by
    unfold System.start
    split <;> exact ⟨_, rfl⟩
  have hbound := (lively_of_run? hs hstart).paced.started 0 v hv
  rw [happeningBound_eq] at hbound
  have hfew : stackEffort s.orchestrator.runBound s.orchestrator.nestedBound v.frames <
      s.orchestrator.happeningBound + 1 := by omega
  obtain ⟨u, outcome, hu⟩ : ∃ u outcome, Client.turns (2 * 1 * (s.orchestrator.happeningBound + 3))
      (s.idle.start workflow context) [.awaiting 0] = (u, [{ requests := [], answers := [.outcome outcome] }]) :=
    turns_return hs 0 _ hstart hv hfew (by omega)
  have hturns : Client.turns (2 * 1 * (s.orchestrator.happeningBound + 3) + 1) s.idle
      [{ requests := [.start workflow context] }] = (u, [{ requests := [], answers := [.outcome outcome] }]) := by
    rw [Client.turns]
    exact hu
  refine ⟨u.toStage, outcome, ?_⟩
  have hserve : s.serve [[.start workflow context]] =
      let served := Client.turns (2 * 1 * (s.orchestrator.happeningBound + 3) + 1) s.idle
        [{ requests := [.start workflow context] }]
      (served.1.toStage, served.2.map fun c => c.answers.reverse) := rfl
  rw [hserve, hturns]
  rfl

/-- **Every call returns, after a bounded number of happenings, and starts a bounded number of runs.**
A call alone returns in the turns that it is given. Whatever happens beside it, at most `happeningBound`
blocks, answers and timeouts come to a task, and from every reachable system the task comes to its
outcome when it goes on and time passes. Each instance has a parent chain of `maxNesting` instances at
most, itself included; and from one instance come at most those of a tree of that depth in which each has
one child for each nested phase of a registered definition. -/
theorem start_terminates (hs : s.orchestrator.instances = []) (h : s.idle.run? past = some t) :
    (∀ workflow context, ∃ stage outcome,
      s.serve [[.start workflow context]] = (stage, [[.outcome outcome]])) ∧
    (∀ task, past.countP (·.task? = some task) ≤ s.orchestrator.happeningBound) ∧
    (∀ task < t.tasks.length, ∃ later u outcome, t.run? later = some u ∧ u.outcome? task = some outcome ∧
      ∀ x ∈ later, x.task? = some task ∨ ∃ millis, x = .wait millis) ∧
    (∀ i ∈ t.orchestrator.instances,
      ∃ chain, t.orchestrator.ParentChain i.id chain ∧ chain.length ≤ maxNesting) ∧
    (∀ (root : InstanceId) (started : List InstanceId), started.Nodup →
      (∀ id ∈ started, t.orchestrator.StartedBy root id) →
      started.length ≤ s.orchestrator.instanceBound) := by
  have hlive := lively_of_run? hs h
  have hbred := bred_of_run? hs s.orchestrator.within.nested h
  refine ⟨serve_returns hs, ?_, ?_, ?_, ?_⟩
  · intro task
    by_cases hlt : task < t.tasks.length
    · have hstarted := hlive.paced.started task _ (List.getElem?_eq_getElem hlt)
      rw [happeningBound_eq] at hstarted
      exact (Nat.le_add_right ..).trans hstarted
    · have hnone := hlive.paced.unstarted task (Nat.le_of_not_lt hlt)
      exact (Nat.le_of_eq hnone).trans (Nat.zero_le _)
  · intro task hlt
    obtain ⟨later, u, outcome, hl, ho, hall⟩ := outcome_comes hs h hlt
    exact ⟨later, u, outcome, hl, ho, fun x hx => (hall x hx).imp And.left id⟩
  · intro i hi
    exact hbred.chains i.id i.parent (Orchestrator.mem_lineage.2 ⟨i, hi, rfl, rfl⟩)
  · intro root started hd hstarted
    exact Orchestrator.length_started_le (kept_of_run? hs h).consistent.family.numbered hbred.children
      hbred.chains hd hstarted

end

/-- A workflow that runs itself. -/
def ouroboros : Definition where
  id := "ouroboros"
  name := "Ouroboros"
  orchestrator := "keeper"
  phases := [{ id := "bite", name := "Bite", action := .nested "ouroboros" }]

def ouroborosStage : Stage := { orchestrator := .ofDefinitions [ouroboros], host := { provider := answersOnce } }

/-- Seven runs start another one, the eighth may not; then each publishes its phase and ends. -/
def ouroborosPast : List Happening := .start "ouroboros" .null :: List.replicate 24 (.advance 0)

theorem ouroboros_terminates : ∃ t, ouroborosStage.orchestrator.instances = [] ∧
    ouroborosStage.idle.run? ouroborosPast = some t ∧ (t.outcome? 0).isSome = true ∧
    t.orchestrator.instances.length = 8 ∧ ouroborosStage.orchestrator.instanceBound = 8 ∧
    (∀ workflow context, ∃ stage outcome,
      ouroborosStage.serve [[.start workflow context]] = (stage, [[.outcome outcome]])) ∧
    (∀ task, ouroborosPast.countP (·.task? = some task) ≤ ouroborosStage.orchestrator.happeningBound) ∧
    (∀ task < t.tasks.length, ∃ later u outcome, t.run? later = some u ∧ u.outcome? task = some outcome ∧
      ∀ x ∈ later, x.task? = some task ∨ ∃ millis, x = .wait millis) ∧
    (∀ i ∈ t.orchestrator.instances,
      ∃ chain, t.orchestrator.ParentChain i.id chain ∧ chain.length ≤ maxNesting) ∧
    (∀ (root : InstanceId) (started : List InstanceId), started.Nodup →
      (∀ id ∈ started, t.orchestrator.StartedBy root id) →
      started.length ≤ ouroborosStage.orchestrator.instanceBound) := by
  have hrun : (ouroborosStage.idle.run? ouroborosPast).any (fun t => (t.outcome? 0).isSome = true ∧
      t.orchestrator.instances.length = 8) = true := by
    decide +kernel
  obtain ⟨t, ht, hp⟩ := (Option.any_eq_true _ _).1 hrun
  obtain ⟨hout, hlen⟩ := of_decide_eq_true hp
  have hbound : ouroborosStage.orchestrator.instanceBound = 8 := by decide +kernel
  exact ⟨t, rfl, ht, hout, hlen, hbound, start_terminates rfl ht⟩

end Grimoire.Workflow
