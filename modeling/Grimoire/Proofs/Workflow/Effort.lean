import Grimoire.Proofs.Workflow.Ancestry
import Mathlib.Algebra.BigOperators.Ring.List

/-!
# The effort ahead of a task

What can still happen to a task is bounded by a number that its runs determine: the phases ahead of
each run, and for each nested phase ahead a whole tree of runs of the depth that is left
(`stackEffort`). Every block, answer and timeout makes it smaller (`Work.effort_lt`), and there is
always one that can come once the clock allows (`System.goes_on`).
-/
namespace Grimoire.Workflow

open Event (InstanceId)

/-! ## The effort ahead -/

/-- The instances of a tree of `n` generations in which each has `w` children. -/
def treeSize (w n : Nat) : Nat := ((List.range n).map fun i => w ^ i).sum

theorem treeSize_succ (w n : Nat) : treeSize w (n + 1) = 1 + w * treeSize w n := by
  unfold treeSize
  rw [List.range_succ_eq_map, List.map_cons, List.sum_cons, List.map_map, Nat.pow_zero,
    ← List.sum_map_mul_left]
  simp [Function.comp_def, Nat.pow_succ, Nat.mul_comm]

/-- A check, one answer for each call (of which there is one at least), a timeout and a publication. -/
def Phase.effort (p : Phase) : Nat := p.action.width + 4

def Definition.effort (d : Definition) : Nat := (d.phases.map Phase.effort).sum

/-- How often something can still happen to a run before it begins another phase or ends. -/
def Control.effort : Control → Nat
  | .check => 2
  | .calling _ calls => calls.countP (·.outcome?.isNone) + 4
  | .nested _ => 4
  | .publish _ => 3
  | .finish => 1

namespace Frame

/-- The phases that the run has not begun. -/
def ahead (f : Frame) : List Phase := f.definition.phases.drop f.begun

/-- How often something can still happen to the run itself. -/
def effort (f : Frame) : Nat := (f.ahead.map Phase.effort).sum + f.control.effort

/-- How many runs the run can still start. -/
def nestedAhead (f : Frame) : Nat := (f.ahead.filter (·.action.isNested)).length

/-- The run has less ahead of it, and starts no more runs. -/
structure Spends (f f' : Frame) : Prop where
  less : f'.effort < f.effort
  fewer : f'.nestedAhead ≤ f.nestedAhead

end Frame

/-- How often something can still happen to a stack of runs, when each run comes to an end after `r`
happenings of its own and starts `w` runs at most. -/
def stackEffort (r w : Nat) : List Frame → Nat
  | [] => 0
  | f :: below =>
    f.effort + r * (f.nestedAhead * treeSize w (maxNesting - (below.length + 1))) + stackEffort r w below

/-- Each run of a registered definition comes to an end after `r` happenings of its own, and starts `w`
runs at most. -/
structure Orchestrator.Within (o : Orchestrator) (r w : Nat) : Prop where
  effort : ∀ name d, o.definitions.get? name = some d → d.effort + 2 ≤ r
  nested : ∀ name d, o.definitions.get? name = some d → d.nestedPhases ≤ w

theorem Orchestrator.Within.congr {o o' : Orchestrator} {r w : Nat} (h : o.Within r w)
    (hd : o'.definitions = o.definitions) : o'.Within r w :=
  ⟨hd ▸ h.effort, hd ▸ h.nested⟩

section
variable {s s' : Stage} {f f' g : Frame} {below : List Frame} {r w : Nat}

theorem stackEffort_lt (h : f.Spends f') :
    stackEffort r w (f' :: below) < stackEffort r w (f :: below) := by
  have hn : r * (f'.nestedAhead * treeSize w (maxNesting - (below.length + 1))) ≤
      r * (f.nestedAhead * treeSize w (maxNesting - (below.length + 1))) :=
    Nat.mul_le_mul_left r (Nat.mul_le_mul_right _ h.fewer)
  have he := h.less
  simp only [stackEffort]
  omega

theorem stackEffort_append (dropped rest : List Frame) :
    stackEffort r w rest ≤ stackEffort r w (dropped ++ rest) := by
  induction dropped with
  | nil => exact Nat.le_refl _
  | cons f fs ih => exact ih.trans (Nat.le_add_left ..)

/-! ## What each block spends -/

theorem Frame.ahead_of_next? {p : Phase} (hc : f.control = .check) (hp : f.next? = some p) :
    f.ahead = p :: f.definition.phases.drop (f.run.phases.length + 1) := by
  obtain ⟨hlt, rfl⟩ := List.getElem?_eq_some_iff.1 hp
  rw [Frame.ahead, Frame.begun_of_check hc, List.drop_eq_getElem_cons hlt]

/-- A run that comes nearer to its next phase or its end. -/
theorem Frame.Spends.of_control (ha : f'.ahead = f.ahead) (hc : f'.control.effort < f.control.effort) :
    f.Spends f' := by
  refine ⟨?_, ?_⟩
  · rw [effort, effort, ha]
    omega
  · rw [nestedAhead, nestedAhead, ha]

/-- A run that begins a phase. -/
theorem Frame.Spends.of_next? {p : Phase} (hc : f.control = .check) (hp : f.next? = some p)
    (ha : f'.ahead = f.definition.phases.drop (f.run.phases.length + 1))
    (he : f'.control.effort < p.effort + 2) : f.Spends f' := by
  have hf := Frame.ahead_of_next? hc hp
  refine ⟨?_, ?_⟩
  · have hcheck : f.control.effort = 2 := by rw [hc]; rfl
    rw [effort, effort, hf, ha, hcheck, List.map_cons, List.sum_cons]
    omega
  · rw [nestedAhead, nestedAhead, hf, ha]
    exact ((List.sublist_cons_self p _).filter _).length_le

theorem endPhase_spends (s : Stage) {u : Underway} (hu : g.underway? = some u)
    (outcome : Except WorkflowError Json) : g.Spends (s.endPhase g u outcome).2 := by
  refine .of_control ?_ ?_
  · have hb := Frame.begun_of_underway (f := g) (by simp [hu])
    have hb' : (s.endPhase g u outcome).2.begun = g.run.phases.length + 1 := by
      rw [Frame.begun, endPhase_phases]
      simp [Frame.underway?, Stage.endPhase]
    rw [Frame.ahead, Frame.ahead, hb, hb']
    rfl
  · unfold Frame.underway? at hu
    cases hc : g.control with
    | calling | nested => simp [Stage.endPhase, Control.effort]
    | check | publish | finish => simp [hc] at hu

/-- A phase asks once for each guardian, and once if it names none. -/
theorem length_queries_le (p : Phase) (provider agent : String) (input : Object) (context : Json) :
    (p.queries provider agent input context).length ≤ p.action.width + 1 := by
  unfold Phase.queries
  cases p.action with
  | generate | enhance | validate | nested => simp [PhaseAction.width]
  | parallel guardians => cases guardians <;> simp [PhaseAction.width]

/-- A run that begins has no more ahead of it than a tree of runs holds. -/
theorem begin_effort_le {d : Definition} (context : Json) (parent : Option InstanceId)
    (hr : d.effort + 2 ≤ r) (hw : d.nestedPhases ≤ w) {n : Nat} :
    (s.begin d context parent).2.effort + r * ((s.begin d context parent).2.nestedAhead * treeSize w n) ≤
      r * treeSize w (n + 1) := by
  have hb : (s.begin d context parent).2.begun = 0 := by
    simp only [Frame.begun, Stage.begin, Frame.underway?]
    split <;> simp
  have hahead : (s.begin d context parent).2.ahead = d.phases := by
    rw [Frame.ahead, hb]
    rfl
  have hc : (s.begin d context parent).2.control.effort ≤ 2 := by
    simp only [Stage.begin]
    split <;> simp [Control.effort]
  have hnested : (s.begin d context parent).2.nestedAhead ≤ w := by
    rw [Frame.nestedAhead, hahead]
    exact hw
  have heffort : (s.begin d context parent).2.effort ≤ r := by
    rw [Frame.effort, hahead]
    exact (Nat.add_le_add_left hc _).trans hr
  rw [treeSize_succ, Nat.mul_add, Nat.mul_one]
  exact Nat.add_le_add heffort (Nat.mul_le_mul_left r (Nat.mul_le_mul_right _ hnested))

/-- A run that starts another one: the tree of runs was counted with the phase. -/
theorem descend_effort_lt {p : Phase} {name : String} {d : Definition} (context : Json)
    (hc : f.control = .check) (hp : f.next? = some p) (ha : p.action = .nested name)
    (hr : d.effort + 2 ≤ r) (hw : d.nestedPhases ≤ w) (shallow : below.length + 1 < maxNesting) :
    stackEffort r w ((s.begin d context (some f.run.id)).2 ::
      { f.entering with control := .nested (s.underway f.entering p) } :: below) <
    stackEffort r w (f :: below) := by
  let waiting : Frame := { f.entering with control := .nested (s.underway f.entering p) }
  have hnew := begin_effort_le (s := s) context (some f.run.id) hr hw (n := maxNesting - (below.length + 1 + 1))
  have hdepth : maxNesting - (below.length + 1 + 1) + 1 = maxNesting - (below.length + 1) := by omega
  rw [hdepth] at hnew
  have hahead : f.ahead = p :: waiting.ahead := Frame.ahead_of_next? hc hp
  have hone : f.nestedAhead = waiting.nestedAhead + 1 := by
    simp [Frame.nestedAhead, hahead, ha, PhaseAction.isNested]
  have hless : waiting.effort < f.effort := by
    refine (Frame.Spends.of_next? hc hp rfl ?_).less
    simp only [waiting, Control.effort, Phase.effort]
    omega
  change (s.begin d context (some f.run.id)).2.effort + r * (_ * treeSize w _) +
    (waiting.effort + r * (waiting.nestedAhead * treeSize w _) + stackEffort r w below) < _
  rw [stackEffort, hone, Nat.add_mul, Nat.mul_add, Nat.one_mul]
  simp only [List.length_cons]
  omega

/-- **Every block, answer and timeout** leaves less for a task to do. -/
theorem Work.effort_lt {late : Option Nat} {v : Task} (h : Work s f below late s' v)
    (hw : s.orchestrator.Within r w) :
    stackEffort r w v.frames < stackEffort r w (f :: below) := by
  -- A run that goes on between two phases, or to its end.
  have idle {f' : Frame} (hd : f'.definition = f.definition) (hl : f'.run.phases.length = f.run.phases.length)
      (hu : f.underway? = none) (hu' : f'.underway? = none) (hc : f'.control.effort < f.control.effort) :
      stackEffort r w (f' :: below) < stackEffort r w (f :: below) := by
    refine stackEffort_lt (.of_control ?_ hc)
    simp [Frame.ahead, Frame.begun, hd, hl, hu, hu']
  cases h with
  | observe hc =>
    exact idle rfl rfl (by simp [Frame.underway?, hc]) rfl (by simp [Frame.stopped, Control.effort, hc])
  | @ask p host calls hc _ hp _ hasked =>
    refine stackEffort_lt (.of_next? hc hp ?_ ?_)
    · rw [Frame.ahead, Frame.begun_of_underway rfl]
      rfl
    · have hcalls : calls.countP (·.outcome?.isNone) ≤ p.action.width + 1 := by
        obtain rfl := (Prod.mk.inj hasked).2
        refine (List.countP_le_length).trans ?_
        rw [List.length_map]
        exact length_queries_le ..
      simp only [Control.effort, Phase.effort]
      omega
  | @refuse p e hc hu hp =>
    refine stackEffort_lt (.of_next? hc hp ?_ ?_)
    · have hb : (s.endPhase f.entering (s.underway f.entering p) (.error e)).2.begun =
          f.run.phases.length + 1 := by
        simp only [Frame.begun, endPhase_phases]
        rfl
      rw [Frame.ahead, hb]
      rfl
    · simp only [Stage.endPhase, Control.effort, Phase.effort]
      omega
  | @descend p w' d context hc hu hp ha hk hs =>
    exact descend_effort_lt context hc hp ha (hw.effort w' d hk) (hw.nested w' d hk) hs
  | exhausted hc => exact idle rfl rfl (by simp [Frame.underway?, hc]) rfl (by simp [Control.effort, hc])
  | @publish stop hc =>
    have hto : (if stop then .finish else f.between) = Control.check ∨
        (if stop then .finish else f.between) = Control.finish := by
      cases stop with
      | true => exact .inr rfl
      | false => exact f.between_cases
    have hu : f.underway? = none := by simp [Frame.underway?, hc]
    rcases hto with hto | hto <;> rw [hto] <;> exact idle rfl rfl hu rfl (by simp [Control.effort, hc])
  | conclude hc hout =>
    subst hout
    simp [Task.frames, stackEffort, Frame.effort, Control.effort, hc]
  | @deliver g outer v w' hc hb hg =>
    subst hb
    have hu : g.underway? = some v := by simp only [Frame.underway?, hg]
    exact (stackEffort_lt (endPhase_spends (s.ended f) hu _)).trans_le (stackEffort_append [f] (g :: outer))
  | @hear u calls host calls' hc hheard =>
    refine stackEffort_lt (.of_control ?_ ?_)
    · simp [Frame.ahead, Frame.begun, Frame.underway?, hc]
    · obtain ⟨place, call, hcall, hopen, _, rfl⟩ := hheard
      obtain ⟨hlt, rfl⟩ := List.getElem?_eq_some_iff.1 hcall
      have hpos : 0 < calls.countP (·.outcome?.isNone) :=
        List.countP_pos_iff.2 ⟨_, List.getElem_mem hlt, by simp [hopen]⟩
      have hset (outcome : Except WorkflowError Json) :
          (calls.set place { calls[place] with outcome? := some outcome }).countP (·.outcome?.isNone) =
            calls.countP (·.outcome?.isNone) - 1 := by
        rw [List.countP_set hlt, hopen]
        simp
      rw [hc, Control.effort, Control.effort, hset]
      omega
  | answer host outcome hc =>
    exact stackEffort_lt (endPhase_spends _ (by simp only [Frame.underway?, hc]) outcome)
  | @expire g outer dropped u e hsplit hu =>
    rw [hsplit]
    exact (stackEffort_lt (endPhase_spends _ hu _)).trans_le (stackEffort_append dropped (g :: outer))

/-! ## Something can always come -/

/-- A run that can go on: it does not wait for a workflow, nor for calls that are all answered. -/
def Control.Ready : Control → Prop
  | .nested _ => False
  | .calling _ calls => ∃ call ∈ calls, call.outcome? = none
  | .check | .publish _ | .finish => True

theorem queries_ne_nil {p : Phase} (hp : ∀ w, p.action ≠ .nested w) (provider agent : String) (input : Object)
    (context : Json) : p.queries provider agent input context ≠ [] := by
  unfold Phase.queries
  cases ha : p.action with
  | generate | enhance | validate => simp
  | parallel guardians => cases guardians <;> simp
  | nested w => exact absurd ha (hp w)

theorem exists_open_call {calls : List Call} (h : Stage.allAnswered? calls = none) :
    ∃ call ∈ calls, call.outcome? = none := by
  rw [Stage.allAnswered?, Option.map_eq_none_iff] at h
  induction calls with
  | nil => simp at h
  | cons call calls ih =>
    cases ho : call.outcome? with
    | none => exact ⟨call, by simp, ho⟩
    | some outcome =>
      cases hrest : calls.mapM Call.outcome? with
      | none =>
        obtain ⟨c, hc, hopen⟩ := ih hrest
        exact ⟨c, by simp [hc], hopen⟩
      | some outcomes => simp [List.mapM_cons, ho, hrest] at h

theorem begin_ready (s : Stage) (d : Definition) (context : Json) (parent : Option InstanceId) :
    (s.begin d context parent).2.control.Ready := by
  simp only [Stage.begin]
  split <;> trivial

/-- **After every block** the innermost run can go on. -/
theorem Work.ready {late : Option Nat} {v : Task} (h : Work s f below late s' v) :
    ∀ top rest, v = .running top rest → top.control.Ready := by
  rintro top rest rfl
  cases h with
  | observe | refuse | exhausted | deliver | answer | expire => trivial
  | @ask p host calls _ _ _ hplain hasked =>
    obtain rfl := (Prod.mk.inj hasked).2
    obtain ⟨q, hq⟩ := List.exists_mem_of_ne_nil _ (queries_ne_nil hplain _ _ _ _)
    exact ⟨_, List.mem_map_of_mem hq, rfl⟩
  | descend => exact begin_ready ..
  | @publish stop =>
    cases stop with
    | true => trivial
    | false =>
      simp only [Bool.false_eq_true, if_false]
      rcases f.between_cases with hb | hb <;> rw [hb] <;> trivial
  | hear host calls' _ _ hmore => exact exists_open_call hmore

theorem Step.ready {t u : System} {x : Happening} (hst : Step t x u)
    (h : ∀ top rest, .running top rest ∈ t.tasks → top.control.Ready) :
    ∀ top rest, .running top rest ∈ u.tasks → top.control.Ready := by
  intro top rest hmem
  cases hst with
  | unknown =>
    rcases List.mem_append.1 hmem with hmem | hmem
    · exact h top rest hmem
    · simp at hmem
  | start =>
    rcases List.mem_append.1 hmem with hmem | hmem
    · exact h top rest hmem
    · obtain ⟨rfl, _⟩ := Task.running.inj (List.mem_singleton.1 hmem)
      exact begin_ready ..
  | work _ found work =>
    rcases List.mem_or_eq_of_mem_set hmem with hmem | heq
    · exact h top rest hmem
    · exact work.ready top rest heq.symm
  | cancel | wait => exact h top rest hmem

theorem onTask?_of_some {t : System} {task : Nat} (work? : Stage → Frame → List Frame → Option (Stage × Task))
    (found : t.tasks[task]? = some (.running f below)) (h : (work? t.toStage f below).isSome = true) :
    ∃ u, t.onTask? task work? = some u := by
  obtain ⟨⟨stage, v⟩, hv⟩ := Option.isSome_iff_exists.1 h
  exact ⟨{ toStage := stage, tasks := t.tasks.set task v }, by simp [System.onTask?, found, hv]⟩

theorem run?_wait (t : System) (millis : Nat) (x : Happening) :
    t.run? [.wait millis, x] = ({ t with host.clock := t.host.clock + millis } : System).step? x := by
  simp [System.run?_cons, System.step?]

theorem isSome_answer? {v : Underway} {calls : List Call} {place : Nat} {call : Call}
    (hc : f.control = .calling v calls) (hcall : calls[place]? = some call) (hopen : call.outcome? = none)
    (hdue : call.due ≤ s.host.clock) : (s.answer? f below place).isSome = true := by
  have hnot : ¬ (call.outcome?.isSome = true ∨ s.host.clock < call.due) := by
    simp [hopen, hdue]
  simp only [Stage.answer?, hc, hcall, Option.bind_eq_bind, Option.bind_some, if_neg hnot]
  split <;> rfl

theorem isSome_advance? (hu : f.underway? = none) : (s.advance? f below).isSome = true := by
  unfold Frame.underway? at hu
  cases hc : f.control with
  | check | publish | finish => simp [Stage.advance?, hc]
  | calling | nested => simp [hc] at hu

/-- **A task that has not returned goes on**, once the clock is far enough. -/
theorem System.goes_on {t : System} {task : Nat} (found : t.tasks[task]? = some (.running f below))
    (ready : f.control.Ready) :
    ∃ millis x u, x.task? = some task ∧ x.level? = none ∧ t.run? [.wait millis, x] = some u := by
  let late (millis : Nat) : System := { t with host.clock := t.host.clock + millis }
  cases hu : f.underway? with
  | none =>
    obtain ⟨u, hu⟩ := onTask?_of_some (t := late 0) Stage.advance? found (isSome_advance? hu)
    exact ⟨0, .advance task, u, rfl, rfl, (run?_wait ..).trans hu⟩
  | some v =>
    cases hc : f.control with
    | check | publish | finish => simp [Frame.underway?, hc] at hu
    | nested => simp [hc, Control.Ready] at ready
    | calling v calls =>
      rw [hc] at ready
      obtain ⟨call, hmem, hopen⟩ := ready
      obtain ⟨place, hplace⟩ := List.getElem?_of_mem hmem
      have hanswer : ((late call.due).toStage.answer? f below place).isSome = true :=
        isSome_answer? hc hplace hopen (Nat.le_add_left ..)
      obtain ⟨u, hu⟩ := onTask?_of_some (t := late call.due) (fun stage f below => stage.answer? f below place)
        found hanswer
      exact ⟨call.due, .answer task place, u, rfl, rfl, (run?_wait ..).trans hu⟩

end

/-! ## Whole histories -/

/-- How often something has happened to a task. -/
def happenedTo (task : Nat) (past : List Happening) : Nat := past.countP (·.task? = some task)

theorem happenedTo_snoc (task : Nat) (past : List Happening) (x : Happening) :
    happenedTo task (past ++ [x]) = happenedTo task past + if x.task? = some task then 1 else 0 := by
  simp [happenedTo, List.countP_append, List.countP_singleton]

/-- What has happened to a task and what can still happen to it are bounded together. -/
structure System.Paced (r w : Nat) (past : List Happening) (t : System) : Prop where
  started : ∀ (task : Nat) (u : Task), t.tasks[task]? = some u →
    happenedTo task past + stackEffort r w u.frames ≤ r * treeSize w maxNesting
  unstarted : ∀ task, t.tasks.length ≤ task → happenedTo task past = 0

section
variable {r w : Nat} {past : List Happening} {t u : System} {x : Happening}

theorem System.Paced.add (h : t.Paced r w past) (hx : x.task? = none) {v : Task} {stage : Stage}
    (hv : stackEffort r w v.frames ≤ r * treeSize w maxNesting) :
    System.Paced r w (past ++ [x]) { toStage := stage, tasks := t.tasks ++ [v] } := by
  constructor
  · intro task u hu
    rw [happenedTo_snoc, hx]
    rcases getElem?_snoc hu with hu | ⟨rfl, rfl⟩
    · exact h.started task u hu
    · rw [h.unstarted _ (Nat.le_refl _)]
      simpa using hv
  · intro task hle
    rw [happenedTo_snoc, hx]
    refine h.unstarted task ?_
    simp at hle
    omega

/-- What happens to a task leaves it less to do. -/
theorem Step.spends {task : Nat} {v : Task} (hst : Step t x u) (hx : x.task? = some task)
    (found : t.tasks[task]? = some v) (hw : t.orchestrator.Within r w) :
    ∃ v', u.tasks[task]? = some v' ∧ stackEffort r w v'.frames < stackEffort r w v.frames := by
  cases hst with
  | unknown | start | cancel | wait => simp [Happening.task?] at hx
  | @work _ task' f below stage v' on found' work =>
    obtain rfl : task' = task := Option.some.inj (on.symm.trans hx)
    obtain rfl : Task.running f below = v := Option.some.inj (found'.symm.trans found)
    exact ⟨v', by simp [(List.getElem?_eq_some_iff.1 found).1], work.effort_lt hw⟩

theorem Step.paced (hst : Step t x u) (hw : t.orchestrator.Within r w) (h : t.Paced r w past) :
    u.Paced r w (past ++ [x]) := by
  have idle (hx : x.task? = none) (htasks : u.tasks = t.tasks) : u.Paced r w (past ++ [x]) := by
    constructor
    · intro task v hv
      rw [happenedTo_snoc, hx]
      exact h.started task v (htasks ▸ hv)
    · intro task hle
      rw [happenedTo_snoc, hx]
      exact h.unstarted task (htasks ▸ hle)
  cases hst with
  | unknown => exact h.add rfl (by simp [Task.frames, stackEffort])
  | @start name context d known =>
    refine h.add rfl ?_
    simp only [Task.frames, stackEffort, List.length_nil, Nat.zero_add, Nat.add_zero]
    exact begin_effort_le context none (hw.effort name d known) (hw.nested name d known)
  | @work _ task f below stage v on found work =>
    have hin := (List.getElem?_eq_some_iff.1 found).1
    constructor
    · intro task' v' hv'
      rw [happenedTo_snoc, on]
      by_cases hx : task = task'
      · subst hx
        obtain rfl : v = v' := by simpa [hin] using hv'
        have hold := h.started task _ found
        have hlt := work.effort_lt hw
        rw [if_pos rfl]
        change _ + stackEffort r w (f :: below) ≤ _ at hold
        omega
      · simp only [Option.some.injEq, hx, if_false]
        exact h.started task' v' (by simpa [List.getElem?_set_ne hx] using hv')
    · intro task' hle
      have hle' : t.tasks.length ≤ task' := by simpa using hle
      have hne : task ≠ task' := by omega
      rw [happenedTo_snoc, on]
      simpa [hne] using h.unstarted task' hle'
  | cancel => exact idle rfl rfl
  | wait => exact idle rfl rfl

end

section
variable {s : Stage} {past : List Happening} {t : System}

/-- The most that happens to one run. -/
def Orchestrator.runBound (o : Orchestrator) : Nat := o.most Definition.effort + 2

def Orchestrator.nestedBound (o : Orchestrator) : Nat := o.most Definition.nestedPhases

theorem Orchestrator.within (o : Orchestrator) : o.Within o.runBound o.nestedBound :=
  ⟨fun _ _ hd => Nat.add_le_add_right (o.le_most hd Definition.effort) 2,
    fun _ _ hd => o.le_most hd Definition.nestedPhases⟩

/-- What holds of all reachable systems for termination. -/
structure System.Lively (s : Stage) (past : List Happening) (t : System) : Prop where
  definitions : t.orchestrator.definitions = s.orchestrator.definitions
  paced : t.Paced s.orchestrator.runBound s.orchestrator.nestedBound past
  ready : ∀ top rest, .running top rest ∈ t.tasks → top.control.Ready

theorem lively_of_run? (hs : s.orchestrator.instances = []) (h : s.idle.run? past = some t) :
    t.Lively s past := by
  refine reachable_induction (P := fun past t => t.Lively s past) hs ?_ ?_ h
  · refine ⟨rfl, ⟨?_, fun _ _ => rfl⟩, ?_⟩
    · intro task u hu
      simp [Stage.idle] at hu
    · intro top rest hmem
      simp [Stage.idle] at hmem
  · rintro past x t u - - ⟨hd, hp, hr⟩ hst
    exact ⟨hst.definitions.trans hd, hst.paced (s.orchestrator.within.congr hd) hp, hst.ready hr⟩

/-- Blocks and answers of one task bring it to its outcome, from any system. -/
theorem furthered_outcome (hs : s.orchestrator.instances = []) (task : Nat) : ∀ (n : Nat) {past : List Happening}
    {t : System} {v : Task}, s.idle.run? past = some t → t.tasks[task]? = some v →
    stackEffort s.orchestrator.runBound s.orchestrator.nestedBound v.frames < n →
    ∃ later u outcome, t.run? later = some u ∧ u.outcome? task = some outcome ∧ ∀ x ∈ later, x.Furthers task
  | 0, _, _, _, _, _, hlt => absurd hlt (Nat.not_lt_zero _)
  | n + 1, past, t, .finished outcome, _, hv, _ =>
    ⟨[], t, outcome, rfl, by simp [System.outcome?, hv], by simp⟩
  | n + 1, past, t, .running f below, h, hv, hlt => by
    have hlive := lively_of_run? hs h
    obtain ⟨millis, x, u, hx, hlevel, hu⟩ := System.goes_on hv (hlive.ready f below (List.mem_of_getElem? hv))
    have hst : Step { t with host.clock := t.host.clock + millis } x u :=
      step_of_step? (kept_of_run? hs h).stacked ((run?_wait ..).symm.trans hu)
    obtain ⟨v', hv', hless⟩ := hst.spends hx hv (s.orchestrator.within.congr hlive.definitions)
    obtain ⟨later, z, outcome, hz, ho, hlater⟩ :=
      furthered_outcome hs task n (System.run?_trans h hu) hv' (by omega)
    refine ⟨[.wait millis, x] ++ later, z, outcome, System.run?_trans hu hz, ho, ?_⟩
    intro y hy
    rcases List.mem_append.1 hy with hy | hy
    · simp only [List.mem_cons, List.not_mem_nil, or_false] at hy
      rcases hy with rfl | rfl
      · exact .inr ⟨millis, rfl⟩
      · exact .inl ⟨hx, hlevel⟩
    · exact hlater y hy

/-- **Every task of a reachable system** comes to its outcome by itself. -/
theorem outcome_comes (hs : s.orchestrator.instances = []) (h : s.idle.run? past = some t) {task : Nat}
    (hlt : task < t.tasks.length) :
    ∃ later u outcome, t.run? later = some u ∧ u.outcome? task = some outcome ∧ ∀ x ∈ later, x.Furthers task :=
  furthered_outcome hs task _ h (List.getElem?_eq_getElem hlt) (Nat.lt_succ_self _)

end

end Grimoire.Workflow
