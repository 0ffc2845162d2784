import Grimoire.Proofs.Workflow.Work

/-!
# What the result of a run says

`RunResult.Follows` is the meaning of a result against the definition that was run: the entries are
the first phases in order, each input comes from the outputs kept before it, and the status tells how
the run stopped. Every frame of every reachable system is `Frame.Sound`, which says the same of the
phases so far; so every result follows its definition (`outcome_follows`).
-/
namespace Grimoire.Workflow

open Event (InstanceId)

/-! ## Entries and outputs -/

/-- The output that a phase keeps: that of a success, under the key of the phase. -/
def keptOutput? (p : Phase) (e : PhaseResult) : Option (String × Json) :=
  match p.outputKey, e.success, e.output with
  | some key, true, some output => some (key, output)
  | _, _, _ => none

/-- The outputs kept by the phases that have an entry, one after another. -/
def outputs (ps : List Phase) (es : List PhaseResult) : Object :=
  Object.ofList ((ps.zip es).filterMap fun (p, e) => keptOutput? p e)

/-- The entry of a phase, given the outputs kept before. -/
structure PhaseResult.Records (e : PhaseResult) (d : Definition) (p : Phase) (earlier : Object) :
    Prop where
  phase : e.phase = p.id
  name : e.name = p.name
  guardian : e.guardian = d.agent p
  input : e.input = resolveInputs p earlier
  output : e.output.isSome = e.success
  error : e.error.isNone = e.success

/-- A failure that stops the run. -/
def PhaseResult.Stops (e : PhaseResult) (p : Phase) : Prop := p.critical = true ∧ e.success = false

/-- Entries of the first phases of a definition, nothing after one that stops the run. -/
structure Entries (d : Definition) (es : List PhaseResult) : Prop where
  within : es.length ≤ d.phases.length
  records : ∀ (i : Nat) (p : Phase) (e : PhaseResult), d.phases[i]? = some p → es[i]? = some e →
    e.Records d p (outputs d.phases (es.take i))
  last : ∀ (i : Nat) (p : Phase) (e : PhaseResult), d.phases[i]? = some p → es[i]? = some e →
    e.Stops p → i + 1 = es.length

/-- The last entry is that of a critical phase which failed. -/
def StoppedBy (d : Definition) (es : List PhaseResult) : Prop :=
  ∃ p e, d.phases[es.length - 1]? = some p ∧ es.getLast? = some e ∧ e.Stops p

/-- What a result says of the run of its definition. -/
structure RunResult.Follows (r : RunResult) (d : Definition) : Prop where
  workflow : r.workflow = d.id
  name : r.name = d.name
  entries : Entries d r.phases
  results : r.results = outputs d.phases r.phases
  failed : r.status = .failed ↔ StoppedBy d r.phases
  completed : r.status = .completed ↔ r.phases.length = d.phases.length ∧ ¬ StoppedBy d r.phases
  cancelled : r.status = .cancelled ↔ r.phases.length < d.phases.length ∧ ¬ StoppedBy d r.phases
  success : r.success = true ↔ r.status = .completed
  error : r.error = none ↔ r.status = .completed

/-- An element of a list with one more at its end. -/
theorem getElem?_snoc {α : Type} {l : List α} {a b : α} {k : Nat} (h : (l ++ [a])[k]? = some b) :
    l[k]? = some b ∨ k = l.length ∧ a = b := by
  by_cases hlt : k < l.length
  · rw [List.getElem?_append_left hlt] at h
    exact .inl h
  · have hl := (List.getElem?_eq_some_iff.1 h).1
    have hk : k = l.length := by simp at hl; omega
    subst hk
    exact .inr ⟨rfl, by simpa using h⟩

theorem zip_snoc {α β : Type} : ∀ (as : List α) (bs : List β) (a : α) (b : β), as[bs.length]? = some a →
    as.zip (bs ++ [b]) = as.zip bs ++ [(a, b)]
  | [], _, _, _, h => by simp at h
  | _ :: _, [], _, _, h => by simpa using h
  | _ :: as, _ :: bs, a, b, h => by simpa using zip_snoc as bs a b (by simpa using h)

theorem outputs_snoc {ps : List Phase} {es : List PhaseResult} {p : Phase} (e : PhaseResult)
    (h : ps[es.length]? = some p) :
    outputs ps (es ++ [e]) = match keptOutput? p e with
      | some (key, output) => Object.insert (outputs ps es) key output
      | none => outputs ps es := by
  unfold outputs Object.ofList
  rw [zip_snoc ps es p e h, List.filterMap_append, List.foldl_append]
  cases hk : keptOutput? p e <;> simp [hk]

theorem stoppedBy_iff {d : Definition} {es : List PhaseResult} (h : Entries d es) :
    StoppedBy d es ↔
      ∃ (i : Nat) (p : Phase) (e : PhaseResult), d.phases[i]? = some p ∧ es[i]? = some e ∧ e.Stops p := by
  constructor
  · rintro ⟨p, e, hp, he, hs⟩
    exact ⟨_, p, e, hp, by rw [← List.getLast?_eq_getElem?]; exact he, hs⟩
  · rintro ⟨i, p, e, hp, he, hs⟩
    have hi := h.last i p e hp he hs
    have hi' : i = es.length - 1 := by omega
    subst hi'
    exact ⟨p, e, hp, by rw [List.getLast?_eq_getElem?]; exact he, hs⟩

/-! ## Sound frames -/

/-- What the status of a run's own view says of its entries. -/
def Instance.Verdict (d : Definition) (run : Instance) : Prop :=
  match run.status with
  | .running => run.error = none ∧ ¬ StoppedBy d run.phases
  | .failed => run.error.isSome = true ∧ StoppedBy d run.phases
  | .cancelled =>
    run.error.isSome = true ∧ ¬ StoppedBy d run.phases ∧ run.phases.length < d.phases.length
  | .completed => False

/-- What the place of a run says of its view. -/
def Frame.Placed (f : Frame) : Prop :=
  match f.control with
  | .check => f.run.status = .running ∧ f.next?.isSome = true
  | .calling u _ | .nested u =>
    f.run.status = .running ∧ f.next? = some u.phase ∧ u.input = resolveInputs u.phase f.run.results
  | .publish stop => f.run.status = if stop then .failed else .running
  | .finish => f.run.status = .running → f.next? = none

structure Frame.Sound (f : Frame) : Prop where
  workflow : f.run.workflow = f.definition.id
  name : f.run.name = f.definition.name
  entries : Entries f.definition f.run.phases
  results : f.run.results = outputs f.definition.phases f.run.phases
  verdict : f.run.Verdict f.definition
  placed : f.Placed

@[simp] theorem Frame.next?_control (f : Frame) (c : Control) :
    ({ f with control := c } : Frame).next? = f.next? := rfl

theorem Frame.between_cases (f : Frame) : f.between = .check ∨ f.between = .finish := by
  unfold Frame.between
  by_cases h : f.next?.isSome = true <;> simp [h]

theorem Frame.length_lt_of_next? {f : Frame} {p : Phase} (h : f.next? = some p) :
    f.run.phases.length < f.definition.phases.length := (List.getElem?_eq_some_iff.1 h).1

theorem Frame.length_of_next?_none {f : Frame} (h : f.next? = none) :
    f.definition.phases.length ≤ f.run.phases.length := List.getElem?_eq_none_iff.1 h

/-! ## What each block keeps -/

/-- The entries with one more, when nothing has stopped the run. -/
theorem Entries.snoc {d : Definition} {es : List PhaseResult} {p : Phase} {e : PhaseResult}
    (h : Entries d es) (hp : d.phases[es.length]? = some p) (hn : ¬ StoppedBy d es)
    (he : e.Records d p (outputs d.phases es)) : Entries d (es ++ [e]) where
  within := by
    have := (List.getElem?_eq_some_iff.1 hp).1
    simp only [List.length_append, List.length_singleton]; omega
  records i q x hq hx := by
    by_cases hi : i < es.length
    · rw [List.getElem?_append_left hi] at hx
      rw [List.take_append_of_le_length (Nat.le_of_lt hi)]
      exact h.records i q x hq hx
    · have hl : i < (es ++ [e]).length := (List.getElem?_eq_some_iff.1 hx).1
      have hi' : i = es.length := by simp at hl; omega
      subst hi'
      obtain rfl : p = q := by simpa [hp] using hq
      obtain rfl : e = x := by simpa using hx
      simpa using he
  last i q x hq hx hs := by
    by_cases hi : i < es.length
    · rw [List.getElem?_append_left hi] at hx
      exact absurd ((stoppedBy_iff h).2 ⟨i, q, x, hq, hx, hs⟩) hn
    · have hl : i < (es ++ [e]).length := (List.getElem?_eq_some_iff.1 hx).1
      simp at hl ⊢; omega

theorem stoppedBy_snoc {d : Definition} {es : List PhaseResult} {p : Phase} (e : PhaseResult)
    (hp : d.phases[es.length]? = some p) : StoppedBy d (es ++ [e]) ↔ e.Stops p := by
  simp [StoppedBy, hp]

/-- The entry of a phase that ends says how it ended. -/
theorem phaseResult_records (s : Stage) (f : Frame) (u : Underway) (outcome : Except WorkflowError Json)
    (hi : u.input = resolveInputs u.phase f.run.results) :
    (s.phaseResult f u outcome).Records f.definition u.phase f.run.results := by
  cases outcome with
  | ok output => exact ⟨rfl, rfl, rfl, hi, rfl, rfl⟩
  | error e => exact ⟨rfl, rfl, rfl, hi, rfl, rfl⟩

theorem keepOutput_eq (s : Stage) (f : Frame) (u : Underway) (outcome : Except WorkflowError Json)
    (results : Object) :
    Stage.keepOutput results u.phase outcome = match keptOutput? u.phase (s.phaseResult f u outcome) with
      | some (key, output) => Object.insert results key output
      | none => results := by
  unfold Stage.keepOutput keptOutput?
  cases hk : u.phase.outputKey <;> cases outcome <;> simp [Stage.phaseResult]

/-- A frame whose phase is under way, or just starts. -/
structure Frame.InPhase (f : Frame) (u : Underway) : Prop where
  sound : f.Sound
  running : f.run.status = .running
  next : f.next? = some u.phase
  input : u.input = resolveInputs u.phase f.run.results

theorem endPhase_sound (s : Stage) {f : Frame} {u : Underway} (h : f.InPhase u)
    (outcome : Except WorkflowError Json) : (s.endPhase f u outcome).2.Sound := by
  obtain ⟨⟨hw, hname, he, hr, hv, _⟩, hrun, hnext, hi⟩ := h
  have hv' : f.run.error = none ∧ ¬ StoppedBy f.definition f.run.phases := by
    simpa [Instance.Verdict, hrun] using hv
  have hp : f.definition.phases[f.run.phases.length]? = some u.phase := hnext
  have hrec := phaseResult_records s f u outcome hi
  have hkeep := keepOutput_eq s f u outcome f.run.results
  rw [hr] at hrec
  have hes := he.snoc hp hv'.2 hrec
  have hst := stoppedBy_snoc (s.phaseResult f u outcome) hp
  rw [hr, ← outputs_snoc _ hp] at hkeep
  simp only [Stage.endPhase]
  by_cases hstop : (!(s.phaseResult f u outcome).success && u.phase.critical) = true
  · have hs : (s.phaseResult f u outcome).Stops u.phase := by
      simp only [Bool.and_eq_true, Bool.not_eq_true'] at hstop
      exact ⟨hstop.2, hstop.1⟩
    simp only [hstop, if_true]
    exact ⟨hw, hname, hes, hr ▸ hkeep, ⟨rfl, hst.2 hs⟩, rfl⟩
  · have hs : ¬ (s.phaseResult f u outcome).Stops u.phase := by
      rintro ⟨hc, hf⟩
      simp [hc, hf] at hstop
    simp only [hstop]
    refine ⟨hw, hname, hes, hr ▸ hkeep, ?_, hrun⟩
    simp only [Instance.Verdict, Bool.false_eq_true, if_false, hrun]
    exact ⟨hv'.1, fun hx => hs (hst.1 hx)⟩

theorem begin_sound (s : Stage) (d : Definition) (context : Json) (parent : Option InstanceId) :
    (s.begin d context parent).2.Sound := by
  have hes : Entries d [] := ⟨Nat.zero_le _, by simp, by simp⟩
  have hns : ¬ StoppedBy d [] := by simp [StoppedBy]
  refine ⟨rfl, rfl, hes, by simp [Stage.begin, outputs, Object.ofList], ⟨rfl, hns⟩, ?_⟩
  cases hd : d.phases with
  | nil => simp [Frame.Placed, Stage.begin, Frame.next?, hd]
  | cons p ps => simp [Frame.Placed, Stage.begin, Frame.next?, hd]

/-- The result that a run hands over at its end follows its definition. -/
theorem result_follows (s : Stage) {f : Frame} (h : f.Sound) (hc : f.control = .finish) :
    (f.result s).Follows f.definition := by
  obtain ⟨hw, hname, he, hr, hv, hpl⟩ := h
  have hend : f.run.status = .running → f.run.phases.length = f.definition.phases.length := by
    intro hrun
    have hn : f.next? = none := by simpa [Frame.Placed, hc, hrun] using hpl
    exact Nat.le_antisymm he.within (Frame.length_of_next?_none hn)
  cases hst : f.run.status with
  | running =>
    obtain ⟨herr, hns⟩ : f.run.error = none ∧ ¬ StoppedBy f.definition f.run.phases := by
      simpa [Instance.Verdict, hst] using hv
    have hl := hend hst
    constructor <;> simp [Frame.result, Frame.ending, RunResult.success, hst, hw, hname, he, hr, herr, hns, hl]
  | completed => simp [Instance.Verdict, hst] at hv
  | failed =>
    obtain ⟨herr, hs⟩ : f.run.error.isSome = true ∧ StoppedBy f.definition f.run.phases := by
      simpa [Instance.Verdict, hst] using hv
    have herr' : f.run.error ≠ none := by simpa [Option.isSome_iff_ne_none] using herr
    constructor <;> simp [Frame.result, Frame.ending, RunResult.success, hst, hw, hname, he, hr, herr', hs]
  | cancelled =>
    obtain ⟨herr, hns, hl⟩ : f.run.error.isSome = true ∧ ¬ StoppedBy f.definition f.run.phases ∧
        f.run.phases.length < f.definition.phases.length := by
      simpa [Instance.Verdict, hst] using hv
    have herr' : f.run.error ≠ none := by simpa [Option.isSome_iff_ne_none] using herr
    have hl' : f.run.phases.length ≠ f.definition.phases.length := Nat.ne_of_lt hl
    constructor <;> simp [Frame.result, Frame.ending, RunResult.success, hst, hw, hname, he, hr, herr', hns, hl, hl']

/-! ## Tasks -/

/-- Every run of the task is sound and its outermost run is of the workflow; the result of a finished
task follows the definition of the workflow. -/
def Task.Answers (known : Catalog Definition) (w : String) : Task → Prop
  | running f below =>
    (∀ g ∈ f :: below, g.Sound) ∧
      ∃ d, known.get? w = some d ∧ ((f :: below).map Frame.definition).getLast? = some d
  | finished (.ok r) => ∃ d, known.get? w = some d ∧ r.Follows d
  | finished (.error e) => e = .notFound w ∧ known.get? w = none

section
variable {s s' : Stage} {f : Frame} {below : List Frame}

/-- A frame that starts its next phase. -/
theorem Frame.Sound.entering {p : Phase} (h : f.Sound) (hc : f.control = .check)
    (hp : f.next? = some p) : f.entering.InPhase (s.underway f.entering p) := by
  have hpl : f.run.status = .running ∧ f.next?.isSome = true := by
    simpa [Frame.Placed, hc] using h.placed
  have hpl' : f.entering.Placed := by
    have hc' : f.entering.control = .check := hc
    simp only [Frame.Placed, hc']
    exact hpl
  exact ⟨⟨h.workflow, h.name, h.entries, h.results, h.verdict, hpl'⟩, hpl.1, hp, rfl⟩

/-- A frame whose phase is under way. -/
theorem Frame.Sound.inPhase {u : Underway} (h : f.Sound) (hu : f.underway? = some u) : f.InPhase u := by
  have hpl := h.placed
  unfold Frame.underway? at hu
  split at hu
  all_goals try simp at hu
  all_goals
    next hc =>
    subst hu
    simp only [Frame.Placed, hc] at hpl
    exact ⟨h, hpl.1, hpl.2.1, hpl.2.2⟩

/-- A frame that goes to another place and keeps its view. -/
theorem Frame.Sound.moved {c : Control} (h : f.Sound) (hp : ({ f with control := c } : Frame).Placed) :
    ({ f with control := c } : Frame).Sound :=
  ⟨h.workflow, h.name, h.entries, h.results, h.verdict, hp⟩

theorem Frame.Sound.stopped (h : f.Sound) (hc : f.control = .check) : f.stopped.Sound := by
  have hpl : f.run.status = .running ∧ f.next?.isSome = true := by
    simpa [Frame.Placed, hc] using h.placed
  obtain ⟨p, hp⟩ := Option.isSome_iff_exists.1 hpl.2
  have hv : f.run.error = none ∧ ¬ StoppedBy f.definition f.run.phases := by
    simpa [Instance.Verdict, hpl.1] using h.verdict
  exact ⟨h.workflow, h.name, h.entries, h.results, ⟨rfl, hv.2, Frame.length_lt_of_next? hp⟩,
    fun hrun => by simp [Frame.stopped] at hrun⟩

theorem Frame.Sound.published {stop : Bool} (h : f.Sound) (hc : f.control = .publish stop) :
    ({ f with control := if stop then .finish else f.between } : Frame).Sound := by
  have hpl : f.run.status = if stop then .failed else .running := by
    simpa [Frame.Placed, hc] using h.placed
  refine h.moved ?_
  cases stop with
  | true => simp [Frame.Placed, hpl]
  | false =>
    simp only [Bool.false_eq_true, if_false] at hpl ⊢
    by_cases hn : f.next?.isSome = true
    · simp [Frame.Placed, Frame.between, hn, hpl]
    · have hn' : f.next? = none := by simpa using hn
      simp [Frame.Placed, Frame.between, hn']

/-- What a block keeps for the definition that the outermost run follows. -/
theorem getLast?_definitions {f f' : Frame} (below : List Frame) (h : f'.definition = f.definition) :
    ((f' :: below).map Frame.definition).getLast? = ((f :: below).map Frame.definition).getLast? := by
  simp [h]

/-- **One block** keeps a task an answer to what was asked. -/
theorem Work.answers {known : Catalog Definition} {w : String} {late : Option Nat} {u : Task}
    (h : Work s f below late s' u)
    (ha : (Task.running f below).Answers known w) :
    u.Answers known w := by
  obtain ⟨hsound, d, hd, hlast⟩ := ha
  have hf : f.Sound := hsound f (by simp)
  have hb : ∀ g ∈ below, g.Sound := fun g hg => hsound g (by simp [hg])
  -- A new innermost frame over the same outer frames.
  have top {f' : Frame} (hs : f'.Sound) (hd' : f'.definition = f.definition) :
      (Task.running f' below).Answers known w := by
    refine ⟨fun g hg => ?_, d, hd, by rw [getLast?_definitions below hd']; exact hlast⟩
    rcases List.mem_cons.1 hg with rfl | hg
    · exact hs
    · exact hb g hg
  -- A phase ends, of the innermost frame or of one below it.
  have waiting {g : Frame} {outer : List Frame} (dropped : List Frame) {u : Underway}
      (hs : f :: below = dropped ++ g :: outer) (hg : g.InPhase u) (s : Stage)
      (outcome : Except WorkflowError Json) :
      (Task.running (s.endPhase g u outcome).2 outer).Answers known w := by
    refine ⟨fun g' hmem => ?_, d, hd, ?_⟩
    · rcases List.mem_cons.1 hmem with rfl | hmem
      · exact endPhase_sound s hg outcome
      · exact hsound g' (hs ▸ by simp [hmem])
    · rw [hs] at hlast
      simpa [Stage.endPhase, List.getLast?_append] using hlast
  cases h with
  | observe hc => exact top (hf.stopped hc) rfl
  | ask host calls hc hu hp =>
    have hin := hf.entering (s := s) hc hp
    exact top (hin.sound.moved ⟨hin.running, hin.next, hin.input⟩) rfl
  | refuse e hc hu hp => exact top (endPhase_sound s (hf.entering hc hp) _) rfl
  | descend context hc hu hp hact =>
    have hin := hf.entering (s := s) hc hp
    have hg : ({ f.entering with control := .nested (s.underway f.entering _) } : Frame).Sound :=
      hin.sound.moved ⟨hin.running, hin.next, hin.input⟩
    refine ⟨fun g hmem => ?_, d, hd, by simpa [Frame.entering] using hlast⟩
    rcases List.mem_cons.1 hmem with rfl | hmem
    · exact begin_sound ..
    · exact (top hg rfl).1 g hmem
  | exhausted hc hn => exact top (hf.moved fun _ => hn) rfl
  | publish hc => exact top (hf.published hc) rfl
  | conclude hc hbelow =>
    subst hbelow
    exact ⟨d, hd, by simp at hlast; exact hlast ▸ result_follows s hf hc⟩
  | @deliver g outer u _ hc hbelow hg =>
    subst hbelow
    have hin := (hb g (by simp)).inPhase (u := u) (by simp [Frame.underway?, hg])
    exact waiting [f] rfl hin _ _
  | @hear u _ host calls' hc =>
    have hin := hf.inPhase (u := u) (by simp only [Frame.underway?, hc])
    exact top (hf.moved ⟨hin.running, hin.next, hin.input⟩) rfl
  | answer host outcome hc =>
    exact waiting [] rfl (hf.inPhase (by simp only [Frame.underway?, hc])) _ _
  | @expire g outer dropped u e hs hu =>
    have hg : g.Sound := hsound g (hs ▸ by simp)
    exact waiting dropped hs (hg.inPhase hu) _ _

end

/-! ## Whole histories -/

/-- The workflows that a history asks for, each with its context. -/
def requested (past : List Happening) : List (String × Json) :=
  past.filterMap fun h => match h with
    | .start w context => some (w, context)
    | _ => none

theorem requested_snoc_of_task (past : List Happening) {h : Happening} {task : Nat}
    (hh : h.task? = some task) : requested (past ++ [h]) = requested past := by
  cases h <;> simp [Happening.task?, requested] at hh ⊢

/-- Each task answers the request that started it. -/
structure System.Answers (known : Catalog Definition) (past : List Happening) (t : System) : Prop where
  definitions : t.orchestrator.definitions = known
  length : t.tasks.length = (requested past).length
  answers : ∀ (i : Nat) (u : Task), t.tasks[i]? = some u →
    ∃ w context, (requested past)[i]? = some (w, context) ∧ u.Answers known w

/-- One more task for one more request. -/
theorem System.Answers.snoc {known : Catalog Definition} {past : List Happening} {s : System}
    (hs : s.Answers known past) {w : String} {u : Task} (context : Json) (hu : u.Answers known w)
    (stage : Stage) (hd : stage.orchestrator.definitions = known) :
    System.Answers known (past ++ [.start w context]) { toStage := stage, tasks := s.tasks ++ [u] } := by
  have hr : requested (past ++ [.start w context]) = requested past ++ [(w, context)] := by
    simp [requested]
  refine ⟨hd, by simp [hr, hs.length], ?_⟩
  intro i v hi
  rw [hr]
  rcases getElem?_snoc hi with hi | ⟨rfl, rfl⟩
  · have hlt := (List.getElem?_eq_some_iff.1 hi).1
    rw [List.getElem?_append_left (hs.length ▸ hlt)]
    exact hs.answers i v hi
  · exact ⟨w, context, by simp [hs.length], hu⟩

theorem Step.answers {known : Catalog Definition} {past : List Happening} {h : Happening} {s t : System}
    (hst : Step s h t) (hs : s.Answers known past) : t.Answers known (past ++ [h]) := by
  cases hst with
  | @unknown w context hm =>
    have hu : (Task.finished (.error (.notFound w))).Answers known w := ⟨rfl, hs.definitions ▸ hm⟩
    exact hs.snoc context hu _ hs.definitions
  | @start w context d hk =>
    have hu : (Task.running (s.toStage.begin d context none).2 []).Answers known w := by
      refine ⟨fun g hg => ?_, d, hs.definitions ▸ hk, rfl⟩
      obtain rfl := List.mem_singleton.1 hg
      exact begin_sound ..
    exact hs.snoc context hu _ hs.definitions
  | @work _ task f below stage u on found work =>
    have hr := requested_snoc_of_task past on
    refine ⟨work.definitions.trans hs.definitions, by simp [hr, hs.length], ?_⟩
    intro i v hi
    rw [hr]
    by_cases hit : task = i
    · subst hit
      obtain ⟨w, context, hw, ha⟩ := hs.answers task _ found
      obtain rfl : u = v := by simpa [List.getElem?_set, (List.getElem?_eq_some_iff.1 found).1] using hi
      exact ⟨w, context, hw, work.answers ha⟩
    · exact hs.answers i v (by simpa [List.getElem?_set, hit] using hi)
  | @cancel id =>
    have hr : requested (past ++ [.cancel id]) = requested past := by simp [requested]
    exact ⟨(definitions_cancel s.toStage id).trans hs.definitions, hr ▸ hs.length, hr ▸ hs.answers⟩
  | @wait millis =>
    have hr : requested (past ++ [.wait millis]) = requested past := by simp [requested]
    exact ⟨hs.definitions, hr ▸ hs.length, hr ▸ hs.answers⟩

/-- **The result of a run** says what its definition, its outputs and its stops make of it, after any
history of starts, blocks, answers, timeouts and cancellations on a stage that was idle at first. -/
theorem outcome_follows {s : Stage} {past : List Happening} {t : System} (h : s.idle.run? past = some t)
    {i : Nat} {r : RunResult} (hr : t.outcome? i = some (.ok r)) :
    ∃ w context d, (requested past)[i]? = some (w, context) ∧
      s.orchestrator.definitions.get? w = some d ∧ r.Follows d := by
  have base : System.Answers s.orchestrator.definitions [] s.idle :=
    ⟨rfl, rfl, fun i u hu => absurd hu (by simp [Stage.idle])⟩
  obtain ⟨_, ht⟩ := System.run_induction s.idle_stacked base
    (fun past h t u _ ht hst => hst.answers ht) h
  unfold System.outcome? at hr
  split at hr
  · next o ho =>
    obtain rfl := Option.some.inj hr
    obtain ⟨w, context, hw, d, hd, hf⟩ := ht.answers i _ ho
    exact ⟨w, context, d, hw, hd, hf⟩
  · simp at hr

/-- A call whose output goes into the last phase; the phase between them fails without harm. -/
def relay : Definition where
  id := "relay"
  name := "Relay"
  orchestrator := "keeper"
  phases :=
    [{ id := "ask", name := "Ask", action := .generate, outputKey := some "word" },
     { id := "detour", name := "Detour", action := .nested "nowhere", critical := false },
     { id := "pass", name := "Pass", action := .generate, inputs := ["word"] }]

/-- A provider that answers once. -/
def answersOnce : Provider where
  reply asked _ := if asked.isEmpty then .ok (.ok (.string "echo")) else .error .notConfigured
  delay _ := 0
  note? _ := none

def relayStage : Stage := { orchestrator := .ofDefinitions [relay], host := { provider := answersOnce } }

/-- The second answer does not come, and the run fails with its last phase. -/
def relayPast : List Happening :=
  [.start "relay" .null, .advance 0, .answer 0 0, .advance 0, .advance 0, .advance 0, .advance 0,
   .answer 0 0, .advance 0, .advance 0]

theorem relay_follows : ∃ t r, relayStage.idle.run? relayPast = some t ∧ t.outcome? 0 = some (.ok r) ∧
    r.status = .failed ∧ r.phases.length = 3 ∧
    ∃ w context d, (requested relayPast)[0]? = some (w, context) ∧
      relayStage.orchestrator.definitions.get? w = some d ∧ r.Follows d :=
  ⟨_, _, rfl, rfl, rfl, rfl, outcome_follows rfl rfl⟩

end Grimoire.Workflow
