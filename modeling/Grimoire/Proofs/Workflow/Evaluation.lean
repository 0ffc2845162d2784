import Grimoire.Proofs.Workflow.Stacks

/-!
# What a run comes to by itself

`Setup.evaluate` runs a workflow in the mind: phase after phase, a nested workflow by recursion on the
levels that are left, the provider as a function of the query. There is no clock in it, no instance and
no other run. A stack of runs is on course (`Setup.OnCourse`) when each of its runs will come to what
the evaluation of its workflow gives. Every block and every answer of a task keeps its stack on course
as long as the task sees no cancellation (`Work.serves`), so its outcome is that of the evaluation.
-/
namespace Grimoire

/-- Each answer depends on the query alone. -/
def Provider.Steady (p : Provider) : Prop := ∀ earlier earlier' q, p.reply earlier q = p.reply earlier' q

namespace Workflow

open Event (InstanceId)

/-! ## Standings -/

/-- An entry but for its duration. -/
def PhaseResult.timeless (r : PhaseResult) : PhaseResult := { r with duration := 0 }

/-- Where a run stands, but for its name and its times. -/
structure Standing where
  status : Status := .running
  phases : List PhaseResult := []
  results : Object := []
  error : Option String := none

def Instance.standing (i : Instance) : Standing :=
  ⟨i.status, i.phases.map PhaseResult.timeless, i.results, i.error⟩

/-- The result of a run, but for ids and durations. -/
def RunResult.standing (r : RunResult) : Standing :=
  ⟨r.status, r.phases.map PhaseResult.timeless, r.results, r.error⟩

/-- The entry of a phase with its input and its outcome. -/
def Phase.entry (p : Phase) (agent : String) (input : Object) (outcome : Except WorkflowError Json) :
    PhaseResult :=
  { phase := p.id, name := p.name, success := outcome.isOk, guardian := agent, output := outcome.toOption
    error := match outcome with
      | .ok _ => none
      | .error e => some e.message
    input, duration := 0 }

namespace Standing

/-- At the end of a run: one that nothing stopped is complete. -/
def closed (c : Standing) : Standing :=
  { c with status := if c.status = .running then .completed else c.status }

/-- After one more phase. -/
def after (c : Standing) (d : Definition) (p : Phase) (outcome : Except WorkflowError Json) : Standing :=
  let entry := p.entry (d.agent p) (resolveInputs p c.results) outcome
  let stop := !entry.success && p.critical
  { status := if stop then .failed else c.status
    phases := c.phases ++ [entry]
    results := Stage.keepOutput c.results p outcome
    error := if stop then
        some (WorkflowError.phaseFailed p.name (entry.error.getD "unknown error")).message
      else c.error }

/-- The payload of a workflow that a phase ran. -/
def payload (c : Standing) (p : Phase) (workflow : String) : Except WorkflowError Json :=
  if c.status = .completed then .ok (.object c.results)
  else .error (.phaseFailed p.id (c.error.getD ("nested workflow " ++ workflow ++ " failed")))

end Standing

theorem payload_standing (r : RunResult) (p : Phase) (workflow : String) :
    r.standing.payload p workflow = Stage.nestedOutcome p workflow r := by
  by_cases h : r.status = .completed <;>
    simp [Standing.payload, Stage.nestedOutcome, RunResult.standing, RunResult.success, h]

theorem standing_result (s : Stage) (f : Frame) : (f.result s).standing = f.run.standing.closed := rfl

theorem standing_endPhase (s : Stage) {f : Frame} {u : Underway} (outcome : Except WorkflowError Json)
    (hi : u.input = resolveInputs u.phase f.run.results) :
    (s.endPhase f u outcome).2.run.standing = f.run.standing.after f.definition u.phase outcome := by
  cases outcome with
  | ok output => simp [Stage.endPhase, Stage.phaseResult, Instance.standing, Standing.after, Phase.entry,
      PhaseResult.timeless, Except.isOk, Except.toBool, Except.toOption, hi]
  | error e =>
    by_cases hc : u.phase.critical = true <;>
      simp [Stage.endPhase, Stage.phaseResult, Instance.standing, Standing.after, Phase.entry,
        PhaseResult.timeless, Except.isOk, Except.toBool, Except.toOption, hi, hc]

/-! ## Evaluation -/

namespace Setup

/-- What a phase hears of a query. -/
def hear (b : Setup) (q : Provider.Query) : Except WorkflowError Json :=
  (Provider.payload (b.provider.reply [] q) b.config.textProvider).mapError WorkflowError.provider

/-- What a phase comes to, given what the workflows that it may start come to; `none` when it may start
none. -/
def outcome (b : Setup) (inner? : Option (Definition → Json → Standing)) (d : Definition) (context : Json)
    (p : Phase) (input : Object) : Except WorkflowError Json :=
  match p.action with
  | .nested w =>
    match inner? with
    | none => .error (.phaseFailed p.id ("nesting deeper than " ++ toString maxNesting ++ " workflows"))
    | some inner =>
      match b.definitions.get? w with
      | none => .error (.notFound w)
      | some d => (inner d (.object input)).payload p w
  | _ => ((p.queries b.config.textProvider (d.agent p) input context).mapM b.hear).map p.output

/-- The phases that follow, as long as nothing stops the run. -/
def goOn (b : Setup) (inner? : Option (Definition → Json → Standing)) (d : Definition) (context : Json) :
    List Phase → Standing → Standing
  | [], c => c
  | p :: ps, c =>
    if c.status = .running then
      goOn b inner? d context ps (c.after d p (b.outcome inner? d context p (resolveInputs p c.results)))
    else c

/-- What workflows come to that may start others, so many levels deep. -/
def inner? (b : Setup) : (levels : Nat) → Option (Definition → Json → Standing)
  | 0 => none
  | levels + 1 => some fun d context => (b.goOn (b.inner? levels) d context d.phases {}).closed

/-- What a workflow comes to that may start others, so many levels deep. -/
def evaluate (b : Setup) (levels : Nat) (d : Definition) (context : Json) : Standing :=
  (b.goOn (b.inner? levels) d context d.phases {}).closed

theorem inner?_succ (b : Setup) (levels : Nat) : b.inner? (levels + 1) = some (b.evaluate levels) := rfl

theorem goOn_of_ne_running (b : Setup) (inner? : Option (Definition → Json → Standing)) (d : Definition)
    (context : Json) (ps : List Phase) {c : Standing} (h : c.status ≠ .running) :
    b.goOn inner? d context ps c = c := by
  cases ps with
  | nil => rfl
  | cons p ps => simp [goOn, h]

end Setup

/-! ## On course -/

/-- How many levels of workflows can still be started above so many waiting runs. -/
def levelsAbove (below : Nat) : Nat := maxNesting - 1 - below

namespace Setup

/-- What a run comes to if it goes on from where it stands. -/
def expected (b : Setup) (levels : Nat) (f : Frame) : Standing :=
  (b.goOn (b.inner? levels) f.definition f.run.context (f.definition.phases.drop f.run.phases.length)
    f.run.standing).closed

/-- Calls for the queries of a phase, with no answer but the right one. -/
structure Calls (b : Setup) (d : Definition) (context : Json) (u : Underway) (calls : List Call) : Prop where
  queries : calls.map (·.query) = u.phase.queries b.config.textProvider (d.agent u.phase) u.input context
  answers : ∀ c ∈ calls, ∀ outcome, c.outcome? = some outcome → outcome = b.hear c.query

/-- A run that comes to what its workflow comes to. -/
structure Aims (b : Setup) (levels : Nat) (f : Frame) : Prop where
  comes : b.expected levels f = b.evaluate levels f.definition f.run.context
  calls : ∀ u calls, f.control = .calling u calls →
    (∀ w, u.phase.action ≠ .nested w) ∧ b.Calls f.definition f.run.context u calls

/-- The phase of a run has started another one. -/
def Started (b : Setup) (g f : Frame) : Prop :=
  ∃ u w, g.control = .nested u ∧ u.phase.action = .nested w ∧ b.definitions.get? w = some f.definition ∧
    f.run.context = .object u.input

/-- Each run comes to what its workflow comes to, and has started the one above it. -/
def OnCourse (b : Setup) : List Frame → Prop
  | [] => True
  | f :: below => below.length < maxNesting ∧ b.Aims (levelsAbove below.length) f ∧
      (∀ g ∈ below.head?, b.Started g f) ∧ b.OnCourse below

end Setup

section
variable {b : Setup} {s s' : Stage} {f g : Frame} {below : List Frame} {u : Underway} {calls : List Call}
  {levels : Nat}

/-! ## Calls -/

theorem heard_eq (hb : s.setup = b) (steady : b.provider.Steady) (q : Provider.Query) : s.heard q = b.hear q := by
  subst hb
  have hr : s.host.provider.reply s.host.answered q = s.host.provider.reply [] q := steady ..
  simp only [Stage.heard, Host.answer, hr]
  rfl

/-- A right answer is one more. -/
theorem Setup.Calls.hears {d : Definition} {context : Json} {host : Host} {calls' : List Call}
    (h : b.Calls d context u calls) (hb : s.setup = b) (steady : b.provider.Steady)
    (hears : s.Hears calls host calls') : b.Calls d context u calls' := by
  obtain ⟨place, call, found, -, -, rfl⟩ := hears
  obtain ⟨hlt, rfl⟩ := List.getElem?_eq_some_iff.1 found
  refine ⟨?_, ?_⟩
  · -- The call in its place asks what it asked before.
    have hset : (calls.map (·.query)).set place calls[place].query = calls.map (·.query) := by
      rw [← List.map_set, List.set_getElem_self]
    rw [← h.queries, List.map_set]
    exact hset
  · intro c hc outcome ho
    rcases List.mem_or_eq_of_mem_set hc with hc | rfl
    · exact h.answers c hc outcome ho
    · rw [← Option.some.inj ho, heard_eq hb steady]

theorem allAnswered?_eq {payloads : Except WorkflowError (List Json)}
    (hall : Stage.allAnswered? calls = some payloads)
    (answers : ∀ c ∈ calls, ∀ outcome, c.outcome? = some outcome → outcome = b.hear c.query) :
    payloads = (calls.map (·.query)).mapM b.hear := by
  unfold Stage.allAnswered? at hall
  induction calls generalizing payloads with
  | nil =>
    obtain rfl : pure [] = payloads := by simpa using hall
    rfl
  | cons c calls ih =>
    obtain ⟨outcomes, ho, rfl⟩ := Option.map_eq_some_iff.1 hall
    obtain ⟨first, hfirst, rest, hrest, rfl⟩ : ∃ first, c.outcome? = some first ∧
        ∃ rest, calls.mapM Call.outcome? = some rest ∧ first :: rest = outcomes := by
      simpa [List.mapM_cons, Option.bind_eq_some_iff] using ho
    have hrec := ih (by rw [hrest]; rfl) fun c hc => answers c (by simp [hc])
    simp only [List.map_cons, List.mapM_cons, id, answers c (by simp) first hfirst, hrec]

/-! ## What each block keeps -/

@[simp] theorem endPhase_context (s : Stage) (f : Frame) (u : Underway) (outcome : Except WorkflowError Json) :
    (s.endPhase f u outcome).2.run.context = f.run.context := by
  simp only [Stage.endPhase]
  split <;> rfl

/-- A phase that comes to what it comes to by itself. -/
theorem expected_endPhase (s : Stage) (h : f.InPhase u) {outcome : Except WorkflowError Json}
    (ho : outcome = b.outcome (b.inner? levels) f.definition f.run.context u.phase u.input) :
    b.expected levels (s.endPhase f u outcome).2 = b.expected levels f := by
  obtain ⟨-, hrun, hnext, hi⟩ := h
  obtain ⟨hlt, hp⟩ := List.getElem?_eq_some_iff.1 hnext
  have hst : f.run.standing.status = .running := hrun
  have hdrop : f.definition.phases.drop f.run.phases.length =
      u.phase :: f.definition.phases.drop (f.run.phases.length + 1) := by
    rw [List.drop_eq_getElem_cons hlt, hp]
  have hd : (s.endPhase f u outcome).2.definition = f.definition := rfl
  have hresults : f.run.standing.results = f.run.results := rfl
  rw [Setup.expected, Setup.expected, hd, endPhase_context, endPhase_phases, standing_endPhase s outcome hi, hdrop,
    Setup.goOn, if_pos hst, hresults, ← hi, ← ho]

theorem Setup.Aims.endPhase (s : Stage) (h : b.Aims levels f) (hin : f.InPhase u)
    {outcome : Except WorkflowError Json}
    (ho : outcome = b.outcome (b.inner? levels) f.definition f.run.context u.phase u.input) :
    b.Aims levels (s.endPhase f u outcome).2 := by
  refine ⟨(expected_endPhase s hin ho).trans ?_, fun _ _ hx => ?_⟩
  · rw [h.comes, endPhase_context]
    rfl
  · simp [Stage.endPhase] at hx

theorem aims_begin (s : Stage) (d : Definition) (context : Json) (parent : Option InstanceId) :
    b.Aims levels (s.begin d context parent).2 := by
  refine ⟨rfl, fun u calls hx => ?_⟩
  simp only [Stage.begin] at hx
  split at hx <;> simp at hx

/-- A run at its end has come to what it comes to. -/
theorem Setup.Aims.result (s : Stage) (h : b.Aims levels f) (hf : f.Sound) (hc : f.control = .finish) :
    (f.result s).standing = b.evaluate levels f.definition f.run.context := by
  rw [← h.comes, standing_result, Setup.expected]
  by_cases hrun : f.run.status = .running
  · have hn : f.next? = none := by simpa [Frame.Placed, hc, hrun] using hf.placed
    rw [List.drop_eq_nil_of_le (Frame.length_of_next?_none hn)]
    rfl
  · rw [Setup.goOn_of_ne_running]
    exact hrun

/-- The first run of a stack goes on. -/
theorem Setup.OnCourse.top {f' : Frame} (h : b.OnCourse (f :: below))
    (ha : b.Aims (levelsAbove below.length) f') (hd : f'.definition = f.definition)
    (hc : f'.run.context = f.run.context) : b.OnCourse (f' :: below) := by
  obtain ⟨hlen, -, hstarted, hbelow⟩ := h
  refine ⟨hlen, ha, fun g hg => ?_, hbelow⟩
  obtain ⟨u, w, hu, hw, hk, hx⟩ := hstarted g hg
  exact ⟨u, w, hu, hw, hd ▸ hk, hc.trans hx⟩

/-- A run that does not leave its place between two phases. -/
theorem Setup.Aims.moved {c : Control} (h : b.Aims levels f)
    (hcalls : ∀ u calls, c = .calling u calls →
      (∀ w, u.phase.action ≠ .nested w) ∧ b.Calls f.definition f.run.context u calls) :
    b.Aims levels { f with control := c } :=
  ⟨h.comes, hcalls⟩

theorem Setup.Aims.entering (h : b.Aims levels f) (hc : f.control = .check) : b.Aims levels f.entering := by
  refine ⟨h.comes, fun u calls hx => ?_⟩
  cases hc.symm.trans hx

/-- The queries of a phase that starts now are its calls. -/
theorem calls_asked (hb : s.setup = b) {p : Phase} {host : Host}
    (asked : s.askAll (s.queries f.entering p) = ({ s with host }, calls)) :
    b.Calls f.definition f.run.context (s.underway f.entering p) calls := by
  subst hb
  obtain rfl := (Prod.mk.inj asked).2
  constructor
  · simp only [List.map_map, Function.comp_def, List.map_id']
    rfl
  · intro c hc outcome ho
    obtain ⟨q, -, rfl⟩ := List.mem_map.1 hc
    cases ho

/-- A phase that may not start a workflow comes to just that. -/
theorem outcome_of_refusal (hb : s.setup = b) {p : Phase} {w : String} {e : WorkflowError}
    (ha : p.action = .nested w) (h : s.refusal? below.length p w = some e) (d : Definition) (context : Json)
    (input : Object) :
    b.outcome (b.inner? (levelsAbove below.length)) d context p input = .error e := by
  subst hb
  unfold Stage.refusal? at h
  split at h
  · next hdeep =>
    have hl : levelsAbove below.length = 0 := by
      unfold levelsAbove
      omega
    obtain rfl := Option.some.inj h
    simp [Setup.outcome, ha, hl, Setup.inner?]
  · next hdeep =>
    split at h
    · next hnone =>
      obtain rfl := Option.some.inj h
      obtain ⟨n, hn⟩ : ∃ n, levelsAbove below.length = n + 1 := by
        refine ⟨maxNesting - 2 - below.length, ?_⟩
        unfold levelsAbove
        omega
      have hmissing : s.setup.definitions.get? w = none := Option.isNone_iff_eq_none.1 hnone
      simp [Setup.outcome, ha, hn, Setup.inner?, hmissing]
    · simp at h

/-- A phase that starts no workflow comes to the answers to its queries. -/
theorem outcome_of_plain {p : Phase} (hp : ∀ w, p.action ≠ .nested w)
    (inner? : Option (Definition → Json → Standing)) (d : Definition) (context : Json) (input : Object) :
    b.outcome inner? d context p input =
      ((p.queries b.config.textProvider (d.agent p) input context).mapM b.hear).map p.output := by
  unfold Setup.outcome
  split
  · next w hw => exact absurd hw (hp w)
  · rfl

/-- What the outermost run of a stack was asked for. -/
def outermost? (fs : List Frame) : Option (Definition × Json) :=
  (fs.map fun f => (f.definition, f.run.context)).getLast?

theorem outermost?_cons {f' : Frame} (hd : f'.definition = f.definition) (hc : f'.run.context = f.run.context) :
    outermost? (f' :: below) = outermost? (f :: below) := by
  simp [outermost?, hd, hc]

theorem outermost?_endPhase (s : Stage) (f : Frame) (u : Underway) (outcome : Except WorkflowError Json)
    (below : List Frame) : outermost? ((s.endPhase f u outcome).2 :: below) = outermost? (f :: below) := by
  have hd : (s.endPhase f u outcome).2.definition = f.definition := rfl
  exact outermost?_cons hd (endPhase_context ..)

/-- The task comes to what a workflow comes to in a context. -/
def Setup.Serves (b : Setup) (d : Definition) (context : Json) : Task → Prop
  | .running f below => b.OnCourse (f :: below) ∧ outermost? (f :: below) = some (d, context)
  | .finished outcome => ∃ r, outcome = .ok r ∧ r.standing = b.evaluate (levelsAbove 0) d context

theorem levelsAbove_succ {below : Nat} (h : below + 1 < maxNesting) :
    levelsAbove below = levelsAbove (below + 1) + 1 := by
  unfold levelsAbove
  omega

/-- What a run hands over is what its phase comes to. -/
theorem outcome_of_nested {outer : List Frame} {w : String} (h : b.OnCourse (f :: g :: outer)) (hf : f.Sound)
    (hfin : f.control = .finish) (hg : g.control = .nested u) (hact : u.phase.action = .nested w) :
    Stage.nestedOutcome u.phase w (f.result s) =
      b.outcome (b.inner? (levelsAbove outer.length)) g.definition g.run.context u.phase u.input := by
  obtain ⟨hlen, ha, hstarted, -⟩ := h
  obtain ⟨v, w', hv, hw, hknown, hcontext⟩ := hstarted g rfl
  obtain rfl : u = v := by simpa using hg.symm.trans hv
  obtain rfl : w = w' := by simpa using hact.symm.trans hw
  have hr := ha.result s hf hfin
  rw [hcontext] at hr
  have hl : levelsAbove outer.length = levelsAbove (g :: outer).length + 1 := levelsAbove_succ hlen
  simp only [Setup.outcome, hact, hl, Setup.inner?_succ, hknown, ← hr, payload_standing]

/-- **A block or an answer** of a task that sees no cancellation keeps its stack on course. -/
theorem Work.serves {v : Task} {d : Definition} {context : Json} (h : Work s f below none s' v)
    (hb : s.setup = b) (steady : b.provider.Steady) (hsound : ∀ g ∈ f :: below, g.Sound)
    (unseen : f.control = .check → s.orchestrator.isCancelled f.run.id = false)
    (hs : b.Serves d context (.running f below)) : b.Serves d context v := by
  obtain ⟨hc, hout⟩ := hs
  have hf : f.Sound := hsound f (by simp)
  have ha := hc.2.1
  -- The innermost run goes on, with the same workflow in the same context.
  have top {f' : Frame} (ha' : b.Aims (levelsAbove below.length) f') (hd : f'.definition = f.definition)
      (hx : f'.run.context = f.run.context) : b.Serves d context (.running f' below) :=
    ⟨hc.top ha' hd hx, (outermost?_cons hd hx).trans hout⟩
  -- It comes to a place where no calls are open.
  have idle {c : Control} (hcalls : ∀ u calls, c ≠ .calling u calls) :
      b.Serves d context (.running { f with control := c } below) :=
    top (ha.moved fun u calls hx => absurd hx (hcalls u calls)) rfl rfl
  -- Its phase ends.
  have ended (s : Stage) {f' : Frame} {u : Underway} {outcome : Except WorkflowError Json}
      (ha' : b.Aims (levelsAbove below.length) f') (hin : f'.InPhase u) (hd : f'.definition = f.definition)
      (hx : f'.run.context = f.run.context)
      (ho : outcome = b.outcome (b.inner? (levelsAbove below.length)) f'.definition f'.run.context u.phase u.input) :
      b.Serves d context (.running (s.endPhase f' u outcome).2 below) := by
    refine top (ha'.endPhase s hin ho) hd ?_
    rw [← hx]
    exact endPhase_context ..
  cases h with
  | observe hcheck seen => simp [unseen hcheck] at seen
  | ask host calls hcheck _ hp plain asked =>
    refine top ((ha.entering hcheck).moved fun u calls hx => ?_) rfl rfl
    obtain ⟨rfl, rfl⟩ := Control.calling.inj hx
    exact ⟨plain, calls_asked hb asked⟩
  | refuse e hcheck _ hp refused =>
    obtain ⟨w, hact, hr⟩ := refused
    exact ended s (ha.entering hcheck) (hf.entering hcheck hp) rfl rfl
      (outcome_of_refusal hb hact hr ..).symm
  | @descend p w d' context' hcheck _ hp hact known shallow hinput =>
    refine ⟨⟨shallow, aims_begin .., ?_, ?_⟩, ?_⟩
    · rintro g ⟨⟩
      subst hb
      exact ⟨_, w, rfl, hact, known, hinput⟩
    · refine hc.top ((ha.entering hcheck).moved fun u calls hx => ?_) rfl rfl
      cases hx
    · exact hout
  | exhausted => exact idle (by simp)
  | @publish stop =>
    refine idle fun u calls => ?_
    cases stop with
    | true => simp
    | false => rcases f.between_cases with hto | hto <;> simp [hto]
  | conclude hfin hbelow =>
    subst hbelow
    obtain ⟨rfl, rfl⟩ : f.definition = d ∧ f.run.context = context := by simpa [outermost?] using hout
    exact ⟨_, rfl, ha.result s hf hfin⟩
  | @deliver g outer u w hfin hbelow hg hact =>
    subst hbelow
    have hin : g.InPhase u := (hsound g (by simp)).inPhase (by simp only [Frame.underway?, hg])
    have hrest : b.OnCourse (g :: outer) := hc.2.2.2
    exact ⟨hrest.top (hrest.2.1.endPhase _ hin (outcome_of_nested hc hf hfin hg hact)) rfl
      (endPhase_context ..), (outermost?_endPhase ..).trans hout⟩
  | hear host calls' hcalls hears =>
    obtain ⟨plain, hopen⟩ := ha.calls _ _ hcalls
    refine top (ha.moved fun u calls hx => ?_) rfl rfl
    obtain ⟨rfl, rfl⟩ := Control.calling.inj hx
    exact ⟨plain, hopen.hears hb steady hears⟩
  | answer host outcome hcalls last =>
    obtain ⟨calls', payloads, hears, hall, rfl⟩ := last
    obtain ⟨plain, hopen⟩ := ha.calls _ _ hcalls
    have hheard := hopen.hears hb steady hears
    refine ended _ ha (hf.inPhase (by simp only [Frame.underway?, hcalls])) rfl rfl ?_
    rw [outcome_of_plain plain, allAnswered?_eq hall hheard.answers, hheard.queries]

end

end Workflow

end Grimoire
