import Grimoire.Workflow.Run
import Mathlib.Data.List.Induction

/-!
# What a block of work can do

`Work s f below late s' t` lists all that can become of a task whose innermost run is `f` and whose
other runs wait in `below`; `Step` lists what can become of a system. `work_of_advance`, `work_of_answer`
and `work_of_expire` say that the lists are complete (`step_of_step?`), so facts about runs are case
analyses over them and open no block again.
-/
namespace Grimoire.Workflow

open Event (InstanceId)

/-! ## The pieces of a block -/

namespace Frame

/-- At the start of the phase that follows. -/
def entering (f : Frame) : Frame := { f with run := { f.run with currentPhase := f.run.phases.length } }

/-- After it has seen that its instance is cancelled. -/
def stopped (f : Frame) : Frame :=
  { f with
    run := { f.run with
      status := .cancelled, error := some (WorkflowError.cancelled f.run.id).message }
    control := .finish }

/-- The view of a run at its end: one that nothing stopped is complete. -/
def ending (s : Stage) (f : Frame) : Instance :=
  { f.run with
    status := if f.run.status = .running then .completed else f.run.status, ended := some s.now }

/-- What the caller of a run gets. -/
def result (s : Stage) (f : Frame) : RunResult :=
  { id := f.run.id, workflow := f.run.workflow, name := f.run.name, status := (f.ending s).status
    duration := elapsed f.run.started s.now, results := f.run.results, phases := f.run.phases
    error := f.run.error }

/-- Does the run wait for a workflow that its phase runs? -/
def Waits (f : Frame) : Prop := ∃ u w, f.control = .nested u ∧ u.phase.action = .nested w

end Frame

/-- A phase that starts now. -/
def Stage.underway (s : Stage) (f : Frame) (p : Phase) : Underway :=
  { phase := p, input := resolveInputs p f.run.results, since := s.host.clock }

/-- The stage after a run has published its end and was counted. -/
def Stage.ended (s : Stage) (f : Frame) : Stage :=
  Stage.conclude { s with orchestrator := s.orchestrator.publish (f.ending s) } (f.ending s)
    (elapsed f.run.started s.now)

/-- What a phase that starts now asks the provider. -/
def Stage.queries (s : Stage) (f : Frame) (p : Phase) : List Provider.Query :=
  p.queries s.orchestrator.config.textProvider (f.definition.agent p) (s.underway f p).input f.run.context

/-- Why a phase of a run with so many runs below it does not start a workflow. -/
def Stage.refusal? (s : Stage) (below : Nat) (p : Phase) (w : String) : Option WorkflowError :=
  if below + 1 ≥ maxNesting then
    some (.phaseFailed p.id ("nesting deeper than " ++ toString maxNesting ++ " workflows"))
  else if (s.orchestrator.definitions.get? w).isNone then some (.notFound w)
  else none

/-- What a phase hears of a query that the provider answers now. -/
def Stage.heard (s : Stage) (q : Provider.Query) : Except WorkflowError Json :=
  (Provider.payload (s.host.answer q).1 s.orchestrator.config.textProvider).mapError WorkflowError.provider

/-- The provider answers one of the open calls. -/
def Stage.Hears (s : Stage) (calls : List Call) (host : Host) (calls' : List Call) : Prop :=
  ∃ place call, calls[place]? = some call ∧ call.outcome? = none ∧ host = (s.host.answer call.query).2 ∧
    calls' = calls.set place { call with outcome? := some (s.heard call.query) }

/-! ## Work on a task -/

/-- All that can become of a task at a stage. A timeout comes with the level of the run whose phase is
over; any other block has no level. -/
inductive Work (s : Stage) (f : Frame) (below : List Frame) : Option Nat → Stage → Task → Prop
  /-- The run sees that it is cancelled. -/
  | observe (at_check : f.control = .check) (seen : s.orchestrator.isCancelled f.run.id = true) :
      Work s f below none s (.running f.stopped below)
  /-- A phase asks the provider. -/
  | ask {p : Phase} (host : Host) (calls : List Call) (at_check : f.control = .check)
      (unseen : s.orchestrator.isCancelled f.run.id = false) (follows : f.next? = some p)
      (plain : ∀ w, p.action ≠ .nested w)
      (asked : s.askAll (s.queries f.entering p) = ({ s with host }, calls)) :
      Work s f below none { s with host }
        (.running { f.entering with control := .calling (s.underway f.entering p) calls } below)
  /-- A phase fails to start a workflow. -/
  | refuse {p : Phase} (e : WorkflowError) (at_check : f.control = .check)
      (unseen : s.orchestrator.isCancelled f.run.id = false) (follows : f.next? = some p)
      (refused : ∃ w, p.action = .nested w ∧ s.refusal? below.length p w = some e) :
      Work s f below none (s.endPhase f.entering (s.underway f.entering p) (.error e)).1
        (.running (s.endPhase f.entering (s.underway f.entering p) (.error e)).2 below)
  /-- A phase starts a workflow. -/
  | descend {p : Phase} {w : String} {d : Definition} (context : Json) (at_check : f.control = .check)
      (unseen : s.orchestrator.isCancelled f.run.id = false) (follows : f.next? = some p)
      (action : p.action = .nested w) (known : s.orchestrator.definitions.get? w = some d)
      (shallow : below.length + 1 < maxNesting) (input : context = .object (s.underway f.entering p).input) :
      Work s f below none (s.begin d context (some f.run.id)).1
        (.running (s.begin d context (some f.run.id)).2
          ({ f.entering with control := .nested (s.underway f.entering p) } :: below))
  /-- The run has no phase left to start. -/
  | exhausted (at_check : f.control = .check) (none_left : f.next? = none) :
      Work s f below none s (.running { f with control := .finish } below)
  /-- The run publishes what its phase has brought. -/
  | publish {stop : Bool} (at_publish : f.control = .publish stop) :
      Work s f below none { s with orchestrator := s.orchestrator.publish f.run }
        (.running { f with control := if stop then .finish else f.between } below)
  /-- The outermost run ends. -/
  | conclude (at_finish : f.control = .finish) (outermost : below = []) :
      Work s f below none (s.ended f) (.finished (.ok (f.result s)))
  /-- A run ends and hands its result to the run that waits for it. -/
  | deliver {g : Frame} {outer : List Frame} {u : Underway} {w : String} (at_finish : f.control = .finish)
      (nested : below = g :: outer) (waits : g.control = .nested u) (action : u.phase.action = .nested w) :
      Work s f below none
        ((s.ended f).endPhase g u (Stage.nestedOutcome u.phase w (f.result s))).1
        (.running ((s.ended f).endPhase g u (Stage.nestedOutcome u.phase w (f.result s))).2 outer)
  /-- An answer comes, and others are still due. -/
  | hear {u : Underway} {calls : List Call} (host : Host) (calls' : List Call)
      (at_calls : f.control = .calling u calls)
      (heard : s.Hears calls host calls') (more : Stage.allAnswered? calls' = none) :
      Work s f below none { s with host } (.running { f with control := .calling u calls' } below)
  /-- The last answer comes. -/
  | answer {u : Underway} {calls : List Call} (host : Host) (outcome : Except WorkflowError Json)
      (at_calls : f.control = .calling u calls)
      (last : ∃ calls' payloads, s.Hears calls host calls' ∧ Stage.allAnswered? calls' = some payloads ∧
        outcome = payloads.map u.phase.output) :
      Work s f below none (Stage.endPhase { s with host } f u outcome).1
        (.running (Stage.endPhase { s with host } f u outcome).2 below)
  /-- The time of a phase is over; the runs inside it are dropped. -/
  | expire {g : Frame} {outer dropped : List Frame} {u : Underway} (e : WorkflowError)
      (split : f :: below = dropped ++ g :: outer) (underway : g.underway? = some u)
      (o : Orchestrator)
      (abandons : o = match g.control with
        | .nested _ => s.orchestrator.abandonChildren s.now g.run.id
        | _ => s.orchestrator) :
      Work s f below (some dropped.length) (Stage.endPhase { s with orchestrator := o } g u (.error e)).1
        (.running (Stage.endPhase { s with orchestrator := o } g u (.error e)).2 outer)

theorem work_of_startPhase {s s' : Stage} {f : Frame} {below : List Frame} {p : Phase} {t : Task}
    (hc : f.control = .check) (hu : s.orchestrator.isCancelled f.run.id = false) (hp : f.next? = some p)
    (h : s.startPhase f below p = (s', t)) : Work s f below none s' t := by
  unfold Stage.startPhase at h
  split at h
  · next w ha =>
    split at h
    · next hd =>
      cases h
      exact .refuse _ hc hu hp ⟨w, ha, if_pos hd⟩
    · next hd =>
      split at h
      · next hk =>
        cases h
        have hr : s.refusal? below.length p w = some (.notFound w) := by
          simp [Stage.refusal?, if_neg hd, hk]
        exact .refuse _ hc hu hp ⟨w, ha, hr⟩
      · next d hk =>
        cases h
        exact .descend _ hc hu hp ha hk (by omega) rfl
  · next ha =>
    cases h
    exact .ask _ _ hc hu hp ha rfl

theorem work_of_check {s s' : Stage} {f : Frame} {below : List Frame} {t : Task}
    (hc : f.control = .check) (h : s.check f below = (s', t)) : Work s f below none s' t := by
  unfold Stage.check at h
  split at h
  · next hx =>
    cases h
    exact .observe hc hx
  · next hx =>
    have hu : s.orchestrator.isCancelled f.run.id = false := by simpa using hx
    split at h
    · next p hp => exact work_of_startPhase hc hu hp h
    · next hp =>
      cases h
      exact .exhausted hc hp

theorem work_of_finish {s s' : Stage} {f : Frame} {below : List Frame} {t : Task}
    (hc : f.control = .finish) (hb : ∀ g ∈ below, g.Waits) (h : s.finish f below = (s', t)) :
    Work s f below none s' t := by
  cases below with
  | nil =>
    cases h
    exact .conclude hc rfl
  | cons g outer =>
    obtain ⟨u, w, hu, ha⟩ := hb g (by simp)
    have hd : s.finish f (g :: outer) = (s.ended f).deliver (f.result s) (g :: outer) := rfl
    rw [hd] at h
    simp only [Stage.deliver, hu, ha, Stage.endPhaseOf] at h
    cases h
    exact .deliver hc rfl hu ha

/-- **One block** of a task whose outer runs all wait is one of those listed. -/
theorem work_of_advance {s s' : Stage} {f : Frame} {below : List Frame} {t : Task}
    (hb : ∀ g ∈ below, g.Waits) (h : s.advance? f below = some (s', t)) : Work s f below none s' t := by
  unfold Stage.advance? at h
  split at h
  · next hc => exact work_of_check hc (Option.some.inj h)
  · next stop hc =>
    cases h
    exact .publish hc
  · next hc => exact work_of_finish hc hb (Option.some.inj h)
  · simp at h
  · simp at h

theorem work_of_answer {s s' : Stage} {f : Frame} {below : List Frame} {place : Nat} {t : Task}
    (h : s.answer? f below place = some (s', t)) : Work s f below none s' t := by
  unfold Stage.answer? at h
  split at h
  · next u calls hc =>
    obtain ⟨call, hcall, h⟩ := Option.bind_eq_some_iff.1 h
    by_cases hw : call.outcome?.isSome = true ∨ s.host.clock < call.due
    · simp [hw] at h
    · have hopen : call.outcome? = none := by
        rw [not_or] at hw
        simpa using hw.1
      have hears : s.Hears calls (s.host.answer call.query).2 (calls.set place _) :=
        ⟨place, call, hcall, hopen, rfl, rfl⟩
      simp only [hw, if_false] at h
      split at h
      · next payloads hall =>
        cases h
        exact .answer _ _ hc ⟨_, payloads, hears, hall, rfl⟩
      · next hmore =>
        cases h
        exact .hear _ _ hc hears hmore
  · simp at h

/-- The time of a phase can be over at any level of a task. -/
theorem work_of_expire {s s' : Stage} {f g : Frame} {below outer dropped : List Frame} {t : Task}
    (hs : f :: below = dropped ++ g :: outer) (h : s.expire? g outer = some (s', t)) :
    Work s f below (some dropped.length) s' t := by
  unfold Stage.expire? at h
  obtain ⟨u, hu, h⟩ := Option.bind_eq_some_iff.1 h
  obtain ⟨millis, _, h⟩ := Option.bind_eq_some_iff.1 h
  dsimp only at h
  split at h
  · simp at h
  · cases h
    exact .expire _ hs hu _ rfl

/-! ## Systems -/

/-- The runs below the innermost one wait for the one above them. -/
def Task.Stacked : Task → Prop
  | running _ below => ∀ g ∈ below, g.Waits
  | finished _ => True

def System.Stacked (s : System) : Prop := ∀ u ∈ s.tasks, u.Stacked

/-- The task that a happening works on. -/
def Happening.task? : Happening → Option Nat
  | .advance task | .answer task _ | .expire task _ => some task
  | .start .. | .cancel _ | .wait _ => none

/-- The level of a timeout. -/
def Happening.level? : Happening → Option Nat
  | .expire _ level => some level
  | .start .. | .advance _ | .answer .. | .cancel _ | .wait _ => none

/-- A block or an answer of a task, or time that passes: nothing that disturbs the task, and nothing that
another task does. -/
def Happening.Furthers (x : Happening) (task : Nat) : Prop :=
  x.task? = some task ∧ x.level? = none ∨ ∃ millis, x = .wait millis

/-- All that can become of a system. -/
inductive Step (s : System) : Happening → System → Prop
  | unknown {w : String} {context : Json} (missing : s.orchestrator.definitions.get? w = none) :
      Step s (.start w context) { s with tasks := s.tasks ++ [.finished (.error (.notFound w))] }
  | start {w : String} {context : Json} {d : Definition}
      (known : s.orchestrator.definitions.get? w = some d) :
      Step s (.start w context)
        { toStage := (s.toStage.begin d context none).1
          tasks := s.tasks ++ [.running (s.toStage.begin d context none).2 []] }
  | work {h : Happening} {task : Nat} {f : Frame} {below : List Frame} {stage : Stage} {t : Task}
      (on : h.task? = some task) (found : s.tasks[task]? = some (.running f below))
      (work : Work s.toStage f below h.level? stage t) :
      Step s h { toStage := stage, tasks := s.tasks.set task t }
  | cancel {id : InstanceId} : Step s (.cancel id) { s with toStage := (s.toStage.cancel id).2 }
  | wait {millis : Nat} : Step s (.wait millis) { s with host.clock := s.host.clock + millis }

theorem onTask?_some {s t : System} {task : Nat} {work? : Stage → Frame → List Frame → Option (Stage × Task)}
    (h : s.onTask? task work? = some t) :
    ∃ f below stage t', s.tasks[task]? = some (.running f below) ∧
      work? s.toStage f below = some (stage, t') ∧
      t = { toStage := stage, tasks := s.tasks.set task t' } := by
  unfold System.onTask? at h
  obtain ⟨u, hu, h⟩ := Option.bind_eq_some_iff.1 h
  cases u with
  | finished o => simp at h
  | running f below =>
    obtain ⟨⟨stage, t'⟩, hw, h⟩ := Option.bind_eq_some_iff.1 h
    exact ⟨f, below, stage, t', hu, hw, (Option.some.inj h).symm⟩

/-- **Every happening** is one of those listed. -/
theorem step_of_step? {s t : System} {h : Happening} (hs : s.Stacked) (hst : s.step? h = some t) :
    Step s h t := by
  cases h with
  | start w context =>
    cases hst
    unfold System.start
    split
    · next hm => exact .unknown hm
    · next d hk => exact .start hk
  | advance task =>
    simp only [System.step?] at hst
    obtain ⟨f, below, stage, t', hf, hw, rfl⟩ := onTask?_some hst
    exact .work rfl hf (work_of_advance (hs _ (List.mem_of_getElem? hf)) hw)
  | answer task call =>
    simp only [System.step?] at hst
    obtain ⟨f, below, stage, t', hf, hw, rfl⟩ := onTask?_some hst
    exact .work rfl hf (work_of_answer hw)
  | expire task level =>
    simp only [System.step?] at hst
    obtain ⟨f, below, stage, t', hf, hw, rfl⟩ := onTask?_some hst
    split at hw
    · next g outer hd =>
      have hsplit : f :: below = (f :: below).take level ++ g :: outer := by
        rw [← hd, List.take_append_drop]
      have hlevel : ((f :: below).take level).length = level := by
        have := congrArg List.length hd
        simp only [List.length_drop, List.length_cons] at this
        simp only [List.length_take, List.length_cons]
        omega
      have hwork := work_of_expire hsplit hw
      rw [hlevel] at hwork
      exact .work rfl hf hwork
    · simp at hw
  | cancel id =>
    cases hst
    exact .cancel
  | wait millis =>
    cases hst
    exact .wait

/-! ## Stacks stay stacks -/

theorem Work.stacked {s s' : Stage} {f : Frame} {below : List Frame} {late : Option Nat} {u : Task}
    (h : Work s f below late s' u) (hb : ∀ g ∈ below, g.Waits) : u.Stacked := by
  cases h with
  | observe | ask | refuse | exhausted | publish | hear | answer => exact hb
  | conclude => trivial
  | descend context hc hu hp ha =>
    intro g hg
    rcases List.mem_cons.1 hg with rfl | hg
    · exact ⟨_, _, rfl, ha⟩
    · exact hb g hg
  | deliver hc hn => exact fun g hg => hb g (hn ▸ List.mem_cons_of_mem _ hg)
  | @expire g outer dropped u e hs =>
    intro g' hg'
    cases dropped with
    | nil =>
      obtain ⟨rfl, rfl⟩ := List.cons.inj hs
      exact hb g' hg'
    | cons _ dropped =>
      obtain ⟨rfl, rfl⟩ := List.cons.inj hs
      exact hb g' (by simp [hg'])

theorem Step.stacked {s t : System} {h : Happening} (hst : Step s h t) (hs : s.Stacked) : t.Stacked := by
  intro u hu
  cases hst with
  | unknown =>
    rcases List.mem_append.1 hu with hu | hu
    · exact hs u hu
    · obtain rfl := List.mem_singleton.1 hu
      trivial
  | start =>
    rcases List.mem_append.1 hu with hu | hu
    · exact hs u hu
    · obtain rfl := List.mem_singleton.1 hu
      exact fun g hg => absurd hg List.not_mem_nil
  | work _ hf hw =>
    rcases List.mem_or_eq_of_mem_set hu with hu | rfl
    · exact hs u hu
    · exact hw.stacked (hs _ (List.mem_of_getElem? hf))
  | cancel => exact hs u hu
  | wait => exact hs u hu

/-! ## What no block changes -/

/-- What all runs of a stage share and none of them changes. -/
structure Setup where
  config : Config
  definitions : Catalog Definition
  provider : Provider

def Stage.setup (s : Stage) : Setup := ⟨s.orchestrator.config, s.orchestrator.definitions, s.host.provider⟩

theorem publish_eq (o : Orchestrator) (run : Instance) :
    ∃ instances, o.publish run = { o with instances } := by
  unfold Orchestrator.publish
  split <;> exact ⟨_, rfl⟩

theorem foldl_update_eq (ids : List InstanceId) (f : Instance → Instance) :
    ∀ o : Orchestrator, ∃ instances, ids.foldl (fun o id => o.update id f) o = { o with instances } := by
  induction ids with
  | nil => exact fun o => ⟨o.instances, rfl⟩
  | cons id ids ih => exact fun o => ih (o.update id f)

theorem abandonRounds_eq (now : Time.Instant) : ∀ (rounds : Nat) (ids : List InstanceId) (o : Orchestrator),
    ∃ instances, Orchestrator.abandonRounds now rounds ids o = { o with instances }
  | 0, _, o => ⟨o.instances, rfl⟩
  | rounds + 1, ids, o => by
    unfold Orchestrator.abandonRounds
    split
    · exact ⟨o.instances, rfl⟩
    · obtain ⟨is, his⟩ := foldl_update_eq (o.runningChildren ids) (Orchestrator.abandoned now) o
      obtain ⟨is', his'⟩ := abandonRounds_eq now rounds (o.runningChildren ids) { o with instances := is }
      exact ⟨is', by rw [his, his']⟩

/-- Queries that reach the provider are noted, the latest first. -/
theorem foldl_ask_eq (qs : List Provider.Query) (h : Host) :
    qs.foldl Host.ask h = { h with asked := qs.reverse ++ h.asked } := by
  induction qs generalizing h with
  | nil => rfl
  | cons q qs ih =>
    rw [List.foldl_cons, ih, List.reverse_cons, List.append_assoc]
    rfl

theorem host_of_askAll {s : Stage} {qs : List Provider.Query} {host : Host} {calls : List Call}
    (h : s.askAll qs = ({ s with host }, calls)) :
    host = { s.host with asked := qs.reverse ++ s.host.asked } := by
  have hhost : qs.foldl Host.ask s.host = host := congrArg Stage.host (Prod.mk.inj h).1
  rw [← hhost, foldl_ask_eq]

theorem setup_ended (s : Stage) (f : Frame) : (s.ended f).setup = s.setup := by
  obtain ⟨instances, h⟩ := publish_eq s.orchestrator (f.ending s)
  unfold Stage.ended Stage.conclude
  rw [h]
  split <;> rfl

theorem Work.setup {s s' : Stage} {f : Frame} {below : List Frame} {late : Option Nat} {u : Task}
    (h : Work s f below late s' u) : s'.setup = s.setup := by
  cases h with
  | observe | refuse | descend | exhausted => rfl
  | ask host calls hc hu hp plain hasked =>
    obtain rfl := host_of_askAll hasked
    rfl
  | publish =>
    obtain ⟨instances, h⟩ := publish_eq s.orchestrator f.run
    rw [h]
    rfl
  | conclude => exact setup_ended ..
  | deliver => exact setup_ended ..
  | hear host calls' hc hears =>
    obtain ⟨place, call, -, -, rfl, -⟩ := hears
    rfl
  | answer host outcome hc hlast =>
    obtain ⟨calls', payloads, ⟨place, call, -, -, rfl, -⟩, -⟩ := hlast
    rfl
  | @expire g _ _ _ e _ _ o ho =>
    subst ho
    simp only [Stage.endPhase, Stage.announce]
    split
    · obtain ⟨instances, h⟩ := abandonRounds_eq s.now s.orchestrator.instances.length [g.run.id] s.orchestrator
      simp only [Orchestrator.abandonChildren, h]
      rfl
    · rfl

theorem Work.definitions {s s' : Stage} {f : Frame} {below : List Frame} {late : Option Nat} {u : Task}
    (h : Work s f below late s' u) : s'.orchestrator.definitions = s.orchestrator.definitions :=
  congrArg Setup.definitions h.setup

theorem setup_cancel (s : Stage) (id : InstanceId) : (s.cancel id).2.setup = s.setup := by
  unfold Stage.cancel
  split <;> rfl

theorem definitions_cancel (s : Stage) (id : InstanceId) :
    (s.cancel id).2.orchestrator.definitions = s.orchestrator.definitions :=
  congrArg Setup.definitions (setup_cancel s id)

theorem Step.setup {s t : System} {h : Happening} (hst : Step s h t) : t.toStage.setup = s.toStage.setup := by
  cases hst with
  | unknown | start | wait => rfl
  | work _ _ hw => exact hw.setup
  | cancel => exact setup_cancel ..

theorem Step.definitions {s t : System} {h : Happening} (hst : Step s h t) :
    t.orchestrator.definitions = s.orchestrator.definitions :=
  congrArg Setup.definitions hst.setup

/-! ## Whole histories -/

namespace System

@[simp] theorem run?_nil (s : System) : s.run? [] = some s := rfl

theorem run?_cons (s : System) (h : Happening) (hs : List Happening) :
    s.run? (h :: hs) = (s.step? h).bind (·.run? hs) := by
  simp [run?, List.foldlM_cons]

theorem run?_append (s : System) (hs hs' : List Happening) :
    s.run? (hs ++ hs') = (s.run? hs).bind (·.run? hs') := by
  simp [run?, List.foldlM_append]

@[simp] theorem run?_singleton (s : System) (x : Happening) : s.run? [x] = s.step? x := by
  simp [run?_cons]

section
variable {s t u : System} {x : Happening} {past later : List Happening}

theorem run?_cons_iff : s.run? (x :: later) = some u ↔ ∃ t, s.step? x = some t ∧ t.run? later = some u := by
  rw [run?_cons, Option.bind_eq_some_iff]

theorem run?_snoc_iff : s.run? (past ++ [x]) = some u ↔ ∃ t, s.run? past = some t ∧ t.step? x = some u := by
  rw [run?_append, Option.bind_eq_some_iff]
  simp

/-- One history after another. -/
theorem run?_trans (h : s.run? past = some t) (hl : t.run? later = some u) :
    s.run? (past ++ later) = some u := by
  rw [run?_append, h]
  exact hl

end

/-- What holds at first and is kept by every step holds after every history. -/
theorem run_induction {P : List Happening → System → Prop} {s : System} (hs : s.Stacked) (base : P [] s)
    (step : ∀ past h t u, t.Stacked → P past t → Step t h u → P (past ++ [h]) u) {past : List Happening}
    {t : System} (h : s.run? past = some t) : t.Stacked ∧ P past t := by
  induction past using List.reverseRecOn generalizing t with
  | nil =>
    obtain rfl := Option.some.inj h
    exact ⟨hs, base⟩
  | append_singleton past x ih =>
    obtain ⟨r, hr, hx⟩ := run?_snoc_iff.1 h
    obtain ⟨hst, hp⟩ := ih hr
    have hx : Step r x t := step_of_step? hst hx
    exact ⟨hx.stacked hst, step past x r t hst hp hx⟩

end System

/-- A stage before its first workflow is asked for. -/
def Stage.idle (s : Stage) : System := { toStage := s }

theorem Stage.idle_stacked (s : Stage) : s.idle.Stacked := fun _ hu => absurd hu List.not_mem_nil

end Grimoire.Workflow
