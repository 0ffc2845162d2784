import Grimoire.Proofs.Workflow.Interference
import Grimoire.Proofs.Workflow.Tales

/-!
# The events of a call

While a call runs alone, the events since it was made are the tales so far of the runs on its stack, the
outermost first (`Setup.Telling`). Each block adds to the last of them, opens another one, or closes it
(`Work.tells`); with the last block the tale of the outermost run is told (`trace_of_call`).
-/
namespace Grimoire.Workflow

open Event (InstanceId)

/-! ## Tales on a stack -/

/-- A run that waits for the provider is in a phase that starts no workflow. -/
def Frame.Plain (f : Frame) : Prop := ∀ u calls, f.control = .calling u calls → ∀ w, u.phase.action ≠ .nested w

/-- The tales so far of the runs on a stack, the outermost first. -/
def Setup.Telling (b : Setup) (settled : Instance → Prop) : List Frame → List Event → Prop
  | [], es => es = []
  | f :: below, es => ∃ before own, es = before ++ own ∧ b.Telling settled below before ∧
      b.Tale settled f.definition f.run.id f.run.phases own ∧ f.Plain ∧ ∀ g ∈ below.head?, b.Started g f

/-- The result shows the instance. -/
structure RunResult.Shows (r : RunResult) (i : Instance) : Prop where
  id : r.id = i.id
  workflow : r.workflow = i.workflow
  status : r.status = i.status
  phases : r.phases = i.phases
  results : r.results = i.results
  error : r.error = i.error

/-- What a task that was asked for a workflow has announced. -/
def Setup.Tells (b : Setup) (settled : Instance → Prop) (w : String) : Task → List Event → Prop
  | .running f below, es => b.Telling settled (f :: below) es
  | .finished (.ok r), es => ∃ d i, b.definitions.get? w = some d ∧ settled i ∧ i.parent = none ∧ r.Shows i ∧
      b.Told settled d i es
  | .finished (.error _), es => es = []

section
variable {b : Setup} {settled settled' : Instance → Prop} {s s' : Stage} {f f' g : Frame} {below others : List Frame}
  {u : Underway} {es : List Event} {w : String} {v : Task}

theorem Setup.Telling.mono : ∀ {fs : List Frame} {es : List Event}, b.Telling settled fs es →
    (∀ i, settled i → settled' i) → b.Telling settled' fs es
  | [], _, h, _ => h
  | _ :: _, _, ⟨before, own, hes, hbelow, tale, plain, started⟩, hsub =>
    ⟨before, own, hes, hbelow.mono hsub, tale.mono hsub, plain, started⟩

theorem Setup.Started.congr (h : b.Started g f) (hd : f'.definition = f.definition)
    (hx : f'.run.context = f.run.context) : b.Started g f' := by
  obtain ⟨u, w, hu, hw, hknown, hcontext⟩ := h
  exact ⟨u, w, hu, hw, hd ▸ hknown, hx.trans hcontext⟩

theorem announced_askAll (s : Stage) (qs : List Provider.Query) :
    (s.askAll qs).1.host.announced = s.host.announced := by
  rw [Stage.askAll, foldl_ask_eq]

/-- What is announced of a phase that ends. -/
theorem announced_endPhase (s : Stage) (f : Frame) (u : Underway) (outcome : Except WorkflowError Json) :
    (s.endPhase f u outcome).1.host.announced =
      .phaseCompleted f.run.id (s.phaseResult f u outcome).phase (s.phaseResult f u outcome).success ::
        s.host.announced := by
  have hp : (s.phaseResult f u outcome).phase = u.phase.id := by cases outcome <;> rfl
  rw [hp]
  simp only [Stage.endPhase]
  split <;> rfl

theorem endPhase_phases_eq (s : Stage) (f : Frame) (u : Underway) (outcome : Except WorkflowError Json) :
    (s.endPhase f u outcome).2.run.phases = f.run.phases ++ [s.phaseResult f u outcome] := by
  simp only [Stage.endPhase]
  split <;> rfl

/-- What is announced of a run that ends: its own end, completed or failed. -/
theorem announced_ended (s : Stage) (hf : f.Sound) (hc : f.run.status ≠ .cancelled) :
    ∃ last, (f.ending s).Closes last ∧ (s.ended f).host.announced = last :: s.host.announced := by
  have hv := hf.verdict
  cases hst : f.run.status with
  | running =>
    refine ⟨_, .inl ⟨by simp [Frame.ending, hst], rfl⟩, ?_⟩
    simp [Stage.ended, Stage.conclude, Frame.ending, hst, Stage.announce, Host.announce]
  | failed =>
    obtain ⟨herr, -⟩ : f.run.error.isSome = true ∧ StoppedBy f.definition f.run.phases := by
      simpa [Instance.Verdict, hst] using hv
    obtain ⟨error, herror⟩ := Option.isSome_iff_exists.1 herr
    refine ⟨_, .inr ⟨by simp [Frame.ending, hst], error, herror, rfl⟩, ?_⟩
    simp [Stage.ended, Stage.conclude, Frame.ending, hst, herror, Stage.announce, Host.announce]
  | completed => simp [Instance.Verdict, hst] at hv
  | cancelled => exact absurd hst hc

theorem plain_of_control {c : Control} (hc : ∀ u calls, c ≠ .calling u calls) :
    ({ f with control := c } : Frame).Plain :=
  fun u calls hx => absurd hx (hc u calls)

theorem plain_endPhase (s : Stage) (f : Frame) (u : Underway) (outcome : Except WorkflowError Json) :
    (s.endPhase f u outcome).2.Plain := by
  intro v calls hx
  obtain ⟨stop, hc⟩ := endPhase_control s f u outcome
  cases hc.symm.trans hx

/-- The innermost run goes on, in the phase where it was. -/
theorem Setup.Telling.top (h : b.Telling settled (f :: below) es) (hd : f'.definition = f.definition)
    (hid : f'.run.id = f.run.id) (hp : f'.run.phases = f.run.phases) (hx : f'.run.context = f.run.context)
    (plain : f'.Plain) : b.Telling settled (f' :: below) es := by
  obtain ⟨before, own, hes, hbelow, tale, -, started⟩ := h
  refine ⟨before, own, hes, hbelow, ?_, plain, fun g hg => (started g hg).congr hd hx⟩
  rw [hd, hid, hp]
  exact tale

/-- The innermost run ends a phase in which it has started no workflow. -/
theorem Setup.Telling.endPhase (h : b.Telling settled (f :: below) es) (s : Stage)
    (here : f.next? = some u.phase) (outcome : Except WorkflowError Json)
    (plain : ∀ w, u.phase.action = .nested w → ∃ e, outcome = .error e) :
    b.Telling settled ((s.endPhase f u outcome).2 :: below) (es ++
      [.phaseCompleted f.run.id (s.phaseResult f u outcome).phase (s.phaseResult f u outcome).success]) := by
  obtain ⟨before, own, rfl, hbelow, tale, -, started⟩ := h
  refine ⟨before, _, List.append_assoc .., hbelow, ?_, plain_endPhase s f u outcome, fun g hg => ?_⟩
  · rw [endPhase_id, endPhase_phases_eq]
    refine tale.phase _ here (by cases outcome <;> rfl) fun w hw => ?_
    obtain ⟨e, rfl⟩ := plain w hw
    rfl
  · exact (started g hg).congr rfl (endPhase_context ..)

/-- The innermost run starts another one. -/
theorem Setup.Telling.begin (h : b.Telling settled (g :: below) es) (s : Stage) (d : Definition) (context : Json)
    (parent : Option InstanceId) (started : b.Started g (s.begin d context parent).2) :
    b.Telling settled ((s.begin d context parent).2 :: g :: below)
      (es ++ [.workflowStarted (s.begin d context parent).2.run.id d.id]) := by
  refine ⟨es, _, rfl, h, .start d _, fun u calls hx => ?_, ?_⟩
  · simp only [Stage.begin] at hx
    split at hx <;> cases hx
  · rintro _ ⟨⟩
    exact started

/-- The innermost run ends, and with it the phase that started it. -/
theorem Setup.Telling.deliver {last : Event} (h : b.Telling settled (f :: g :: below) es) (s s' : Stage)
    (hf : f.Sound) (hg : g.control = .nested u) (w' : String) (hparent : f.run.parent = some g.run.id) (here : g.next? = some u.phase)
    (hset : settled (f.ending s)) (closes : (f.ending s).Closes last) :
    b.Telling settled ((s'.endPhase g u (Stage.nestedOutcome u.phase w' (f.result s))).2 :: below)
      (es ++ [last] ++ [.phaseCompleted g.run.id
        (s'.phaseResult g u (Stage.nestedOutcome u.phase w' (f.result s))).phase
        (s'.phaseResult g u (Stage.nestedOutcome u.phase w' (f.result s))).success]) := by
  obtain ⟨_, inner, rfl, ⟨before, own, rfl, hbelow, tale, -, started⟩, tale', -, started'⟩ := h
  obtain ⟨v, w'', hv, hw, hknown, -⟩ := started' g rfl
  obtain rfl : u = v := by simpa using hg.symm.trans hv
  generalize hout : Stage.nestedOutcome u.phase w' (f.result s) = outcome
  refine ⟨before, own ++ (inner ++ [last]) ++ [.phaseCompleted g.run.id (s'.phaseResult g u outcome).phase
    (s'.phaseResult g u outcome).success], by simp, hbelow, ?_, plain_endPhase s' g u outcome, fun k hk => ?_⟩
  · rw [endPhase_id, endPhase_phases_eq]
    refine tale.nested _ here (by cases outcome <;> rfl) hw hknown hset hparent hf.workflow tale' closes ?_
    subst hout
    by_cases hs : (f.ending s).status = .completed <;>
      simp [Stage.nestedOutcome, RunResult.success, Frame.result, hs, Stage.phaseResult]
  · exact (started k hk).congr rfl (endPhase_context ..)

/-- The ids of the published instances. -/
def Orchestrator.ids (o : Orchestrator) : List InstanceId := o.lineage.map (·.1)

theorem ids_eq {o o' : Orchestrator} (h : o'.lineage = o.lineage) : o'.ids = o.ids := by
  simp only [Orchestrator.ids, h]

theorem ids_begin (s : Stage) (d : Definition) (context : Json) (parent : Option InstanceId) :
    (s.begin d context parent).1.orchestrator.ids = s.orchestrator.ids ++ [(s.begin d context parent).2.run.id] := by
  simp [Orchestrator.ids, lineage_begin]

/-- **A block or an answer** of a task that sees no cancellation goes on with the tales on its stack. -/
theorem Work.tells (h : Work s f below none s' v) (hb : s.setup = b)
    (ha : (Task.running f below).Answers b.definitions w) (hfam : Family s.orchestrator (f :: below ++ others))
    (hc : Chained (f :: below)) (unstopped : f.run.status ≠ .cancelled)
    (unseen : s.orchestrator.isCancelled f.run.id = false) (ended : f.control = .finish → settled (f.ending s))
    (ht : b.Telling settled (f :: below) es) :
    ∃ new, s'.host.announced = new.reverse ++ s.host.announced ∧
      s'.orchestrator.ids = s.orchestrator.ids ++ startedIn new ∧ b.Tells settled w v (es ++ new) := by
  obtain ⟨hsound, d, hd, hlast⟩ := ha
  have hf : f.Sound := hsound f (by simp)
  obtain ⟨old, hold, hparent, -⟩ := hfam.published f (by simp)
  have hplain : f.Plain := by
    obtain ⟨-, -, -, -, -, plain, -⟩ := ht
    exact plain
  -- Nothing is announced, and no run starts.
  have quiet {stage : Stage} {f' : Frame} (hann : stage.host.announced = s.host.announced)
      (hids : stage.orchestrator.ids = s.orchestrator.ids) (hgoes : b.Telling settled (f' :: below) es) :
      ∃ new, stage.host.announced = new.reverse ++ s.host.announced ∧
        stage.orchestrator.ids = s.orchestrator.ids ++ startedIn new ∧
        b.Tells settled w (.running f' below) (es ++ new) :=
    ⟨[], hann, by simpa [startedIn] using hids, by rw [List.append_nil]; exact hgoes⟩
  cases h with
  | observe _ seen => simp [unseen] at seen
  | @ask p host calls _ _ hp plain asked =>
    have hhost : host.announced = s.host.announced := by
      rw [← announced_askAll s (s.queries f.entering p), asked]
    refine quiet hhost rfl (ht.top rfl rfl rfl rfl fun u calls hx => ?_)
    cases hx
    exact plain
  | @refuse p e hcheck _ hp refused =>
    have hentered : b.Telling settled (f.entering :: below) es := ht.top rfl rfl rfl rfl hplain
    have hgoes := hentered.endPhase s (u := s.underway f.entering p) hp (.error e) fun _ _ => ⟨e, rfl⟩
    exact ⟨_, announced_endPhase .., by simp; rfl, hgoes⟩
  | @descend p w' d' context _ _ hp hact known _ hinput =>
    have hwait : b.Telling settled ({ f.entering with control := .nested (s.underway f.entering p) } :: below) es :=
      ht.top rfl rfl rfl rfl (plain_of_control (by simp))
    subst hb
    exact ⟨_, rfl, ids_begin .., hwait.begin s d' context (some f.run.id) ⟨_, w', rfl, hact, known, hinput⟩⟩
  | exhausted => exact quiet rfl rfl (ht.top rfl rfl rfl rfl (plain_of_control (by simp)))
  | @publish stop =>
    have hids : (s.orchestrator.publish f.run).ids = s.orchestrator.ids :=
      ids_eq (Orchestrator.lineage_publish hfam.numbered hold hparent)
    refine quiet rfl hids (ht.top rfl rfl rfl rfl (plain_of_control fun u calls => ?_))
    cases stop with
    | true => simp
    | false => rcases f.between_cases with hto | hto <;> simp [hto]
  | conclude hfin hbelow =>
    subst hbelow
    obtain ⟨last, closes, hann⟩ := announced_ended s hf unstopped
    have hids : (s.ended f).orchestrator.ids = s.orchestrator.ids :=
      ids_eq (lineage_ended hfam.numbered hold hparent)
    obtain ⟨_, own, rfl, rfl, tale, -⟩ := ht
    obtain rfl : f.definition = d := by simpa using hlast
    exact ⟨[last], hann, by simp [hids, startedIn_closing closes], f.definition, f.ending s, hd, ended hfin,
      hc.1, ⟨rfl, rfl, rfl, rfl, rfl, rfl⟩, own, last, tale, hf.workflow, closes, rfl⟩
  | @deliver g outer u w' hfin hbelow hg hact =>
    subst hbelow
    obtain ⟨last, closes, hann⟩ := announced_ended s hf unstopped
    have hids : (s.ended f).orchestrator.ids = s.orchestrator.ids :=
      ids_eq (lineage_ended hfam.numbered hold hparent)
    have hin : g.InPhase u := (hsound g (by simp)).inPhase (by simp only [Frame.underway?, hg])
    have hgoes := ht.deliver s (s.ended f) hf hg w' hc.1 hin.next (ended hfin) closes
    refine ⟨[last] ++ [_], ?_, ?_, by rw [← List.append_assoc]; exact hgoes⟩
    · rw [announced_endPhase, hann]
      rfl
    · rw [startedIn_append, startedIn_closing closes, startedIn_phaseCompleted, List.append_nil, List.append_nil,
        ← hids]
      rfl
  | @hear u calls host calls' hcalls hears =>
    obtain ⟨place, call, -, -, rfl, -⟩ := hears
    refine quiet rfl rfl (ht.top rfl rfl rfl rfl fun v calls hx => ?_)
    cases hx
    exact hplain u _ hcalls
  | @answer u calls host outcome hcalls last =>
    obtain ⟨calls', payloads, ⟨place, call, -, -, rfl, -⟩, -, rfl⟩ := last
    have hin := hf.inPhase (u := u) (by simp only [Frame.underway?, hcalls])
    have hgoes := ht.endPhase { s with host := (s.host.answer call.query).2 } hin.next
      (payloads.map u.phase.output) fun w' hw' => absurd hw' (hplain u calls hcalls w')
    exact ⟨_, announced_endPhase .., by simp; rfl, hgoes⟩

end

/-! ## A call alone -/

/-- The instance is published like this, and no run works on it. -/
def System.Settled (v : System) (i : Instance) : Prop := v.frame? i.id = none ∧ v.instance? i.id = some i

/-- The instances that were there at first stay as they are, and no other is cancelled. -/
structure System.Apart (t v : System) : Prop where
  old : ∀ i ∈ t.orchestrator.instances, v.Settled i
  unmarked : ∀ id, t.instance? id = none → ¬ Marked (v.frame? id) (v.instance? id)

/-- What the task with a number has announced since the system was `t`. -/
structure System.Recounts (t v : System) (b : Setup) (w : String) (task : Nat) (u : Task) (es : List Event) :
    Prop where
  found : v.tasks[task]? = some u
  answers : u.Answers b.definitions w
  announced : v.host.announced = es.reverse ++ t.host.announced
  ids : v.orchestrator.ids = t.orchestrator.ids ++ startedIn es
  tells : b.Tells v.Settled w u es

section
variable {t v v' : System} {x : Happening} {b : Setup} {w : String} {task : Nat} {i : Instance}

theorem Happening.Furthers.level?_eq_none (h : x.Furthers task) : x.level? = none := by
  rcases h with ⟨-, hl⟩ | ⟨millis, rfl⟩
  · exact hl
  · rfl

/-- An instance without a run stays as it is, unless a timeout or a cancellation comes to it. -/
theorem Turn.quiet {s : Stage} {id : InstanceId} {f'? : Option Frame} {i'? : Option Instance}
    (h : Turn s x id none (some i) f'? i'?) (hl : x.level? = none) (hc : ∀ id, x ≠ .cancel id) :
    f'? = none ∧ i'? = some i := by
  cases h with
  | rest => exact ⟨rfl, rfl⟩
  | abandon timeout => simp [hl] at timeout
  | cancel asked => exact absurd asked (hc id)

theorem Step.settled (hst : Step v x v') (hk : v.Kept) (hl : x.level? = none) (hc : ∀ id, x ≠ .cancel id)
    (h : v.Settled i) : v'.Settled i := by
  have hturn := hst.turn hk i.id
  rw [h.1, h.2] at hturn
  exact hturn.quiet hl hc

theorem Step.apart (hst : Step v x v') (hk : v.Kept) (hl : x.level? = none) (hc : ∀ id, x ≠ .cancel id)
    (h : t.Apart v) : t.Apart v' := by
  refine ⟨fun i hi => hst.settled hk hl hc (h.old i hi), fun id hid hm => ?_⟩
  rcases (hst.turn hk id).marked hm with hold | ⟨hx, -⟩
  · exact h.unmarked id hid hold
  · exact hc id hx

/-- A system at rest is apart from itself. -/
theorem System.AtRest.apart (rest : t.AtRest) (hk : t.Kept) : t.Apart t := by
  have hnone : ∀ id, t.frame? id = none := fun id => by simp [System.frame?, rest.frames, frameOf?]
  refine ⟨fun i hi => ⟨hnone i.id, hk.consistent.family.numbered.instance?_eq hi⟩, fun id hid hm => ?_⟩
  rw [hnone id, hid] at hm
  simp [Marked] at hm

/-- The runs of a task are new, so none of them is cancelled. -/
theorem System.Apart.not_marked (h : t.Apart v) (hk : v.Kept) {f : Frame} (hf : f ∈ v.frames) :
    ¬ Marked (some f) (v.instance? f.run.id) := by
  rw [← hk.consistent.family.frameOf?_eq hf]
  refine h.unmarked f.run.id ?_
  by_contra hne
  obtain ⟨i, hi⟩ := Option.ne_none_iff_exists'.1 hne
  obtain ⟨hmem, hid⟩ := Orchestrator.instance?_some hi
  have hnone := (h.old i hmem).1
  rw [hid, System.frame?, frameOf?_eq_none] at hnone
  exact hnone f hf rfl

/-- A run that ends leaves its instance settled. -/
theorem Work.settles {s s' : Stage} {f : Frame} {below others : List Frame} {u : Task}
    (h : Work s f below none s' u) (hfin : f.control = .finish)
    (hfam : Family s.orchestrator (f :: below ++ others)) :
    s'.orchestrator.instance? f.run.id = some (f.ending s) ∧ ∀ g ∈ u.frames ++ others, g.run.id ≠ f.run.id := by
  obtain ⟨old, hold, -, -⟩ := hfam.published f (by simp)
  have hne : (f.ending s).status ≠ .running := by
    by_cases hr : f.run.status = .running <;> simp [Frame.ending, hr]
  have hinst : (s.ended f).orchestrator.instance? f.run.id = some (f.ending s) := by
    rw [instance?_ended hold, if_pos rfl, Orchestrator.published, if_neg fun hx => hne hx.1]
  cases h with
  | observe hc | ask _ _ hc | refuse _ hc | descend _ hc | exhausted hc | publish hc | hear _ _ hc | answer _ _ hc =>
    cases hfin.symm.trans hc
  | conclude _ hbelow =>
    subst hbelow
    exact ⟨hinst, fun g hg => hfam.ne_of_mem hg⟩
  | deliver _ hbelow =>
    subst hbelow
    refine ⟨hinst, fun k hk => ?_⟩
    rcases List.mem_cons.1 hk with rfl | hk
    · rw [endPhase_id]
      exact hfam.ne_of_mem (by simp)
    · exact hfam.ne_of_mem (List.mem_cons_of_mem _ hk)

/-- **What furthers a task** goes on with what it has announced. -/
theorem Step.recounts {u : Task} {es : List Event} (hst : Step v x v') (hk : v.Kept) (hx : x.Furthers task)
    (hb : v.toStage.setup = b) (apart : t.Apart v) (h : t.Recounts v b w task u es) :
    ∃ u' es', t.Recounts v' b w task u' es' := by
  have hlate := hx.level?_eq_none
  have hsettled : ∀ i, v.Settled i → v'.Settled i := fun i hi => hst.settled hk hlate hx.not_cancel hi
  obtain ⟨found, answers, announced, ids, tells⟩ := h
  rcases hx with ⟨htask, -⟩ | ⟨millis, rfl⟩
  · cases hst with
    | unknown | start | cancel | wait => cases htask
    | @work _ task' f below stage u' on found' work =>
      obtain rfl : task' = task := Option.some.inj (on.symm.trans htask)
      obtain rfl : Task.running f below = u := Option.some.inj (found'.symm.trans found)
      obtain ⟨hfam, hchained⟩ := hk.consistent.at found'
      have hmem : f ∈ v.frames := (frames_perm found').mem_iff.2 (by simp [Task.frames])
      have hmarked := apart.not_marked hk hmem
      rw [hlate] at work
      have hperm := frames_set_perm found' stage u'
      have hended (hfin : f.control = .finish) :
          ({ toStage := stage, tasks := v.tasks.set task' u' } : System).Settled (f.ending v.toStage) := by
        obtain ⟨hinst, hnone⟩ := work.settles hfin hfam
        exact ⟨frameOf?_eq_none.2 fun g hg => hnone g (hperm.mem_iff.1 hg), hinst⟩
      have hunseen : v.orchestrator.isCancelled f.run.id = false := by
        by_contra hc
        obtain ⟨i, hi, hst⟩ := (Option.any_eq_true _ _).1 (Bool.not_eq_false _ ▸ hc)
        exact hmarked (.inr ⟨i, hi, by simpa using hst⟩)
      obtain ⟨new, hann, hids, htells⟩ := work.tells hb answers hfam hchained
        (fun hst => hmarked (.inl ⟨f, rfl, hst⟩)) hunseen hended (Setup.Telling.mono tells hsettled)
      refine ⟨u', es ++ new, by simp [(List.getElem?_eq_some_iff.1 found').1], work.answers answers, ?_, ?_, htells⟩
      · simp [hann, announced]
      · rw [hids, ids, startedIn_append, List.append_assoc]
  · cases hst with
    | work on => cases on
    | wait => exact ⟨u, es, found, answers, announced, ids, tells⟩

/-- The call has just been made. -/
theorem Step.recounts_start {context : Json} (hst : Step t (.start w context) v) (hb : t.toStage.setup = b) :
    ∃ u es, t.Recounts v b w t.tasks.length u es := by
  subst hb
  cases hst with
  | unknown missing =>
    exact ⟨.finished (.error (.notFound w)), [], List.getElem?_concat_length .., ⟨rfl, missing⟩, rfl,
      (List.append_nil _).symm, rfl⟩
  | @start _ _ d known =>
    refine ⟨.running (t.toStage.begin d context none).2 [], _, List.getElem?_concat_length .., ⟨?_, d, known, rfl⟩,
      rfl, ids_begin .., [], _, rfl, rfl, .start d _, fun u calls hx => ?_, fun g hg => ?_⟩
    · intro g hg
      obtain rfl := List.mem_singleton.1 hg
      exact begin_sound ..
    · simp only [Stage.begin] at hx
      split at hx <;> cases hx
    · cases hg
  | work on => cases on

end

section
variable {s : Stage} {past later : List Happening} {t u : System} {w : String} {context : Json}

/-- **A call alone** has announced what its task tells. -/
theorem recounts_of_call (hs : s.orchestrator.instances = []) (h : s.idle.run? past = some t) (rest : t.AtRest)
    (hl : t.run? (.start w context :: later) = some u) (hf : ∀ x ∈ later, x.Furthers t.tasks.length) :
    ∃ v es, t.Recounts u s.setup w t.tasks.length v es := by
  obtain ⟨t', ht', hl⟩ := System.run?_cons_iff.1 hl
  have hk := kept_of_run? hs h
  have hst := step_of_step? hk.stacked ht'
  have hsetup := setup_of_run? h
  refine (along_induction (P := fun v => v.toStage.setup = s.setup ∧ t.Apart v ∧
    ∃ u es, t.Recounts v s.setup w t.tasks.length u es) hs (System.run?_snoc_iff.2 ⟨t, h, ht'⟩) hl ?_ ?_).2.2
  · exact ⟨hst.setup.trans hsetup, hst.apart hk rfl (by simp) (rest.apart hk), hst.recounts_start hsetup⟩
  · intro x hx v v' hk ⟨hb, apart, u, es, hu⟩ hst
    have hx := hf x hx
    exact ⟨hst.setup.trans hb, hst.apart hk hx.level?_eq_none hx.not_cancel apart, hst.recounts hk hx hb apart hu⟩

theorem Orchestrator.Numbered.nodup_ids {o : Orchestrator} (h : o.Numbered) : o.ids.Nodup := by
  rw [Orchestrator.ids, Orchestrator.lineage, List.map_map, List.Nodup, List.pairwise_iff_getElem]
  intro k l hk hl hkl
  rw [List.length_map] at hk hl
  have hik := h k _ (List.getElem?_eq_getElem hk)
  have hil := h l _ (List.getElem?_eq_getElem hl)
  simp only [List.getElem_map, Function.comp_apply, hik, hil, ne_eq, Event.InstanceId.numbered.injEq]
  omega

theorem Orchestrator.mem_ids {o : Orchestrator} {id : InstanceId} : id ∈ o.ids ↔ ∃ i ∈ o.instances, i.id = id := by
  simp [Orchestrator.ids, Orchestrator.lineage]

theorem Orchestrator.instance?_eq_none {o : Orchestrator} {id : InstanceId} :
    o.instance? id = none ↔ id ∉ o.ids := by
  simp [Orchestrator.instance?, Orchestrator.mem_ids]

/-- **The events of a call alone.** Once all earlier calls have returned, and with no cancellation and no
timeout, a call returns; if its workflow is not known, it announces nothing. Otherwise the events since are
the tale of its run, and each new instance, of this run or of a nested one, announces its start, then its
phases in order, each with its success, then its end, completed or failed with its error. The events of a
nested run stand in one block right before the event of the phase that started it. -/
theorem trace_of_call (hs : s.orchestrator.instances = []) (h : s.idle.run? past = some t) (rest : t.AtRest)
    (w : String) (context : Json) :
    (∃ later u outcome, t.run? (.start w context :: later) = some u ∧
      (∀ x ∈ later, x.Furthers t.tasks.length) ∧ u.outcome? t.tasks.length = some outcome) ∧
    (∀ later u outcome, t.run? (.start w context :: later) = some u →
      (∀ x ∈ later, x.Furthers t.tasks.length) → u.outcome? t.tasks.length = some outcome →
      ∃ events, u.host.announced.reverse = t.host.announced.reverse ++ events ∧
        (∀ e, outcome = .error e → e = .notFound w ∧ events = []) ∧
        (∀ r, outcome = .ok r → ∃ d root, s.orchestrator.definitions.get? w = some d ∧
          u.orchestrator.instance? r.id = some root ∧ root.parent = none ∧ r.Shows root ∧
          s.setup.Told u.Settled d root events) ∧
        (∀ i ∈ u.orchestrator.instances, t.orchestrator.instance? i.id = none →
          (∃ last, i.Closes last ∧
            eventsOf i.id events = .workflowStarted i.id i.workflow :: phaseEvents i.id i.phases ++ [last]) ∧
          (i.parent ≠ none → s.setup.Bracketed u.Settled events i)) ∧
        (∀ e ∈ events, ∃ i ∈ u.orchestrator.instances, t.orchestrator.instance? i.id = none ∧
          e.instance? = some i.id)) := by
  refine ⟨?_, ?_⟩
  · have hstart : t.run? [.start w context] = some (t.start w context) := System.run?_singleton ..
    have hlt : t.tasks.length < (t.start w context).tasks.length := by
      unfold System.start
      split <;> simp
    obtain ⟨later, u, outcome, hu, ho, hf⟩ := outcome_comes hs (System.run?_trans h hstart) hlt
    exact ⟨later, u, outcome, System.run?_trans hstart hu, hf, ho⟩
  · intro later u outcome hl hf hout
    obtain ⟨v, es, hv⟩ := recounts_of_call hs h rest hl hf
    obtain rfl : v = .finished outcome := Option.some.inj (hv.found.symm.trans (finished_of_outcome? hout))
    have hn := (kept_of_run? hs (System.run?_trans h hl)).consistent.family.numbered
    have hids : (t.orchestrator.ids ++ startedIn es).Nodup := hv.ids ▸ hn.nodup_ids
    have hnodup := (List.nodup_append.1 hids).2.1
    -- A new instance is one that the events start.
    have new_iff : ∀ id ∈ u.orchestrator.ids, t.orchestrator.instance? id = none ↔ id ∈ startedIn es := by
      intro id hid
      rw [hv.ids, List.mem_append] at hid
      rw [Orchestrator.instance?_eq_none]
      constructor
      · exact fun hnot => hid.resolve_left hnot
      · exact fun hstarted hold => (List.nodup_append.1 hids).2.2 id hold id hstarted rfl
    refine ⟨es, by simp [hv.announced], ?_, ?_, ?_, ?_⟩
    · rintro e rfl
      exact ⟨hv.answers.1, hv.tells⟩
    · rintro r rfl
      obtain ⟨d, root, hknown, hset, hparent, hshows, htold⟩ := hv.tells
      exact ⟨d, root, hknown, hshows.id ▸ hset.2, hparent, hshows, htold⟩
    · intro i hi hnew
      have hstarted := (new_iff i.id (Orchestrator.mem_ids.2 ⟨i, hi, rfl⟩)).1 hnew
      cases outcome with
      | error e =>
        obtain rfl : es = [] := hv.tells
        simp [startedIn] at hstarted
      | ok r =>
        obtain ⟨d, root, -, hset, hparent, -, htold⟩ := hv.tells
        obtain ⟨j, hji, hj, hown⟩ := htold.started hnodup i.id hstarted
        have hsettled : u.Settled j := by
          rcases hj with rfl | ⟨hj, -⟩
          · exact hset
          · exact hj
        obtain rfl : i = j := hn.eq_of_id hi (Orchestrator.instance?_some hsettled.2).1 hji.symm
        refine ⟨hown, fun hp => ?_⟩
        rcases hj with rfl | ⟨-, hb⟩
        · exact absurd hparent hp
        · exact hb
    · intro e he
      cases outcome with
      | error e' =>
        obtain rfl : es = [] := hv.tells
        cases he
      | ok r =>
        obtain ⟨d, root, -, -, -, -, htold⟩ := hv.tells
        obtain ⟨j, hj, hej⟩ := htold.about e he
        have hmem : j ∈ u.orchestrator.ids := by
          rw [hv.ids]
          exact List.mem_append_right _ hj
        obtain ⟨i, hi, rfl⟩ := Orchestrator.mem_ids.1 hmem
        exact ⟨i, hi, (new_iff i.id hmem).2 hj, hej⟩

end

/-- Runs the relay, which fails, and goes on without it. -/
def voyage : Definition where
  id := "voyage"
  name := "Voyage"
  orchestrator := "keeper"
  phases :=
    [{ id := "send", name := "Send", action := .nested "relay", critical := false },
     { id := "rest", name := "Rest", action := .generate, critical := false }]

def voyageStage : Stage := { orchestrator := .ofDefinitions [relay, voyage], host := { provider := answersOnce } }

def voyageLater : List Happening :=
  [.advance 1, .advance 1, .answer 1 0, .advance 1, .advance 1, .advance 1, .advance 1, .answer 1 0, .advance 1,
   .advance 1, .advance 1, .advance 1, .answer 1 0, .advance 1, .advance 1]

/-- The voyage comes to its end after a call that was not known. -/
theorem voyage_run : ∃ t u r, voyageStage.idle.run? [.start "nowhere" .null] = some t ∧
    t.run? (.start "voyage" .null :: voyageLater) = some u ∧ t.AtRest ∧ t.tasks.length = 1 ∧
    u.outcome? 1 = some (.ok r) ∧ r.status = .completed ∧ u.orchestrator.instances.length = 2 ∧
    u.host.announced.reverse.map Event.typeName =
      ["WorkflowStarted", "WorkflowStarted", "PhaseCompleted", "PhaseCompleted", "PhaseCompleted", "WorkflowFailed",
       "PhaseCompleted", "PhaseCompleted", "WorkflowCompleted"] := by
  obtain ⟨t, ht, hrest, hlen⟩ : ∃ t, voyageStage.idle.run? [.start "nowhere" .null] = some t ∧ t.AtRest ∧
      t.tasks.length = 1 := ⟨_, rfl, by decide, rfl⟩
  have hrun : (voyageStage.idle.run? (.start "nowhere" .null :: .start "voyage" .null :: voyageLater)).any (fun u =>
      ((u.outcome? 1).bind Except.toOption).any fun r =>
        decide (r.status = .completed ∧ u.orchestrator.instances.length = 2 ∧
          u.host.announced.reverse.map Event.typeName =
            ["WorkflowStarted", "WorkflowStarted", "PhaseCompleted", "PhaseCompleted", "PhaseCompleted",
             "WorkflowFailed", "PhaseCompleted", "PhaseCompleted", "WorkflowCompleted"])) = true := by
    decide +kernel
  obtain ⟨u, hu, hp⟩ := (Option.any_eq_true _ _).1 hrun
  obtain ⟨r, hr, hp⟩ := (Option.any_eq_true _ _).1 hp
  obtain ⟨v, hv, hu⟩ := System.run?_cons_iff.1 hu
  obtain rfl : v = t := Option.some.inj (hv.symm.trans ((System.run?_singleton ..).symm.trans ht))
  exact ⟨v, u, r, ht, hu, hrest, hlen, outcome?_of_toOption hr, of_decide_eq_true hp⟩

theorem voyage_trace : ∃ t u r events, voyageStage.orchestrator.instances = [] ∧
    voyageStage.idle.run? [.start "nowhere" .null] = some t ∧ t.AtRest ∧
    t.run? (.start "voyage" .null :: voyageLater) = some u ∧ (∀ x ∈ voyageLater, x.Furthers t.tasks.length) ∧
    u.outcome? t.tasks.length = some (.ok r) ∧ r.status = .completed ∧ u.orchestrator.instances.length = 2 ∧
    u.host.announced.reverse.map Event.typeName =
      ["WorkflowStarted", "WorkflowStarted", "PhaseCompleted", "PhaseCompleted", "PhaseCompleted", "WorkflowFailed",
       "PhaseCompleted", "PhaseCompleted", "WorkflowCompleted"] ∧
    u.host.announced.reverse = t.host.announced.reverse ++ events ∧
    (∀ i ∈ u.orchestrator.instances, t.orchestrator.instance? i.id = none →
      (∃ last, i.Closes last ∧
        eventsOf i.id events = .workflowStarted i.id i.workflow :: phaseEvents i.id i.phases ++ [last]) ∧
      (i.parent ≠ none → voyageStage.setup.Bracketed u.Settled events i)) := by
  obtain ⟨t, u, r, ht, hu, hrest, hlen, hr, hst, hinst, htypes⟩ := voyage_run
  have hf : ∀ x ∈ voyageLater, x.Furthers t.tasks.length := by
    rw [hlen]
    simp [voyageLater, Happening.Furthers, Happening.task?, Happening.level?]
  have hout : u.outcome? t.tasks.length = some (.ok r) := hlen ▸ hr
  obtain ⟨events, hann, -, -, hevents, -⟩ :=
    (trace_of_call rfl ht hrest "voyage" .null).2 voyageLater u (.ok r) hu hf hout
  exact ⟨t, u, r, events, rfl, ht, hrest, hu, hf, hout, hst, hinst, htypes, hann, hevents⟩

end Grimoire.Workflow
