import Grimoire.Proofs.Json.Objects
import Grimoire.Proofs.Workflow.Cancelling

/-!
# What a report tells of a run under way

A run notes the number of a phase in its own view when the phase starts, and publishes that view when
the phase has ended. So what is published is the run's past, whole phases of it (`Instance.Shows`, kept
by every turn), and it only grows. A report in the middle of a phase counts the phases before it, and
names the last of these: not the one that is under way, unless that is the first
(`reports_follow_run`, `report_names_ended_phase`).
-/
namespace Grimoire.Workflow

open Event (InstanceId)

/-! ## What is said -/

/-- What a report tells while the phase `p`, number `k` of a definition, is under way: the phases before
it are counted, and the last of them is the one that is named. -/
structure Report.Amid (r : Report) (d : Definition) (k : Nat) (p : Phase) : Prop where
  phase : d.phases[k]? = some p
  total : r.totalPhases = d.phases.length
  progress : r.progress = percent k r.totalPhases
  current : r.currentPhase = k - 1

/-- What is published later goes on from what was published before. -/
structure Instance.Grows (i j : Instance) : Prop where
  phases : i.phases <+: j.phases
  keys : Object.keys i.results <+: Object.keys j.results

theorem Instance.Grows.refl (i : Instance) : i.Grows i := ⟨List.prefix_rfl, List.prefix_rfl⟩

theorem Instance.Grows.trans {i j k : Instance} (h : i.Grows j) (h' : j.Grows k) : i.Grows k :=
  ⟨h.phases.trans h'.phases, h.keys.trans h'.keys⟩

/-- The number of the phase that a run has started last. -/
def Frame.reached (f : Frame) : Nat :=
  if f.underway?.isSome then f.run.phases.length else f.run.phases.length - 1

/-- A run goes on from what is published of it, and knows where it stands. -/
structure Frame.Continues (f : Frame) (i : Instance) : Prop where
  grows : i.Grows f.run
  current : f.run.currentPhase = f.reached
  total : f.run.totalPhases = f.definition.phases.length
  told : i.totalPhases = f.definition.phases.length

/-- A published instance names the last of the phases that it shows, and its run goes on from there. -/
structure Instance.Shows (i : Instance) (f? : Option Frame) : Prop where
  last : i.currentPhase = i.phases.length - 1
  run : ∀ f, f? = some f → f.Continues i

/-! ## A phase that ends -/

section
variable {s : Stage} {x : Happening} {id : InstanceId} {f f' : Frame} {i : Instance} {f? f'? : Option Frame}
  {i? i'? : Option Instance}

theorem keys_prefix_keepOutput (results : Object) (p : Phase) (outcome : Except WorkflowError Json) :
    Object.keys results <+: Object.keys (Stage.keepOutput results p outcome) := by
  unfold Stage.keepOutput
  split
  · exact Object.keys_prefix_insert ..
  · exact List.prefix_rfl

theorem endPhase_grows (s : Stage) (f : Frame) (u : Underway) (outcome : Except WorkflowError Json) :
    f.run.Grows (s.endPhase f u outcome).2.run := by
  constructor
  · simp only [Stage.endPhase]
    split <;> exact List.prefix_append ..
  · have hkeys := keys_prefix_keepOutput f.run.results u.phase outcome
    simp only [Stage.endPhase]
    split <;> exact hkeys

theorem Frame.reached_of_idle (h : f.underway? = none) : f.reached = f.run.phases.length - 1 := by
  simp [reached, h]

theorem Frame.reached_of_underway {u : Underway} (h : f.underway? = some u) : f.reached = f.run.phases.length := by
  simp [reached, h]

theorem Frame.Continues.current_of_idle (h : f.Continues i) (hf : f.underway? = none) :
    f.run.currentPhase = f.run.phases.length - 1 := h.current.trans (f.reached_of_idle hf)

theorem Frame.Continues.current_of_underway (h : f.Continues i) {u : Underway} (hf : f.underway? = some u) :
    f.run.currentPhase = f.run.phases.length := h.current.trans (f.reached_of_underway hf)

theorem Frame.underway?_between : ({ f with control := f.between } : Frame).underway? = none := by
  rcases f.between_cases with h | h <;> simp [underway?, h]

/-- A phase that ends leaves the run where it started that phase. -/
theorem reached_endPhase (s : Stage) (f : Frame) (u : Underway) (outcome : Except WorkflowError Json) :
    (s.endPhase f u outcome).2.reached = f.run.phases.length := by
  obtain ⟨stop, hc⟩ := endPhase_control s f u outcome
  rw [Frame.reached_of_idle (by simp [Frame.underway?, hc]), endPhase_phases, Nat.add_sub_cancel]

theorem total_endPhase (s : Stage) (f : Frame) (u : Underway) (outcome : Except WorkflowError Json) :
    (s.endPhase f u outcome).2.run.totalPhases = f.run.totalPhases ∧
      (s.endPhase f u outcome).2.definition = f.definition := by
  simp only [Stage.endPhase]
  split <;> simp

/-- A phase that ends, of a run that has noted its number. -/
theorem continues_endPhase (hgrows : i.Grows f.run) (hcur : f.run.currentPhase = f.run.phases.length)
    (htotal : f.run.totalPhases = f.definition.phases.length) (htold : i.totalPhases = f.definition.phases.length)
    (s : Stage) (u : Underway) (outcome : Except WorkflowError Json) :
    (s.endPhase f u outcome).2.Continues i := by
  obtain ⟨htotal', hdef⟩ := total_endPhase s f u outcome
  refine ⟨hgrows.trans (endPhase_grows ..), ?_, ?_, ?_⟩
  · rw [endPhase_currentPhase, reached_endPhase, hcur]
  · rw [htotal', hdef, htotal]
  · rw [hdef, htold]

/-! ## Turns -/

theorem Move.continues (m : Move s i f f') (h : f.Continues i) : f'.Continues i := by
  obtain ⟨hphases, hkeys⟩ := h.grows
  cases m with
  | observe hc =>
    have hcur := h.current_of_idle (by simp [Frame.underway?, hc])
    exact ⟨⟨hphases, hkeys⟩, hcur, h.total, h.told⟩
  | enter _ _ _ hw => exact ⟨⟨hphases, hkeys⟩, (Frame.reached_of_underway hw).symm, h.total, h.told⟩
  | refuse e => exact continues_endPhase (f := f.entering) ⟨hphases, hkeys⟩ rfl h.total h.told s _ _
  | exhausted hc =>
    have hcur := h.current_of_idle (by simp [Frame.underway?, hc])
    exact ⟨⟨hphases, hkeys⟩, hcur, h.total, h.told⟩
  | @hear u calls calls' hc =>
    have hcur := h.current_of_underway (u := u) (by simp [Frame.underway?, hc])
    exact ⟨⟨hphases, hkeys⟩, hcur, h.total, h.told⟩
  | endPhase at_end outcome hu =>
    exact continues_endPhase h.grows (h.current_of_underway hu) h.total h.told at_end _ outcome

theorem Instance.Shows.of_run (last : i.currentPhase = i.phases.length - 1) (run : f.Continues i) :
    i.Shows (some f) := by
  refine ⟨last, ?_⟩
  rintro _ ⟨⟩
  exact run

theorem Instance.Shows.gone (last : i.currentPhase = i.phases.length - 1) : i.Shows none :=
  ⟨last, fun _ h => (by cases h)⟩

/-- **One turn** keeps what an instance shows of its run. -/
theorem Turn.shows (h : Turn s x id f? i? f'? i'?) (hshows : ∀ i, i? = some i → i.Shows f?) :
    ∀ i', i'? = some i' → i'.Shows f'? := by
  cases h with
  | rest => exact hshows
  | @start w d context parent =>
    rintro _ ⟨⟩
    refine .of_run rfl ⟨.refl _, ?_, rfl, rfl⟩
    simp only [Stage.begin, Frame.reached, Frame.underway?]
    split <;> rfl
  | move m =>
    rintro _ ⟨⟩
    have h := hshows _ rfl
    exact .of_run h.last (m.continues (h.run _ rfl))
  | @publish f i stop hc =>
    rintro _ ⟨⟩
    have h := (hshows i rfl).run f rfl
    have hcur := h.current_of_idle (by simp [Frame.underway?, hc])
    refine .of_run (by simpa using hcur) ⟨⟨by simp, by simp⟩, ?_, h.total, by simpa using h.total⟩
    rw [Frame.reached_of_idle]
    · exact hcur
    · cases stop with
      | true => rfl
      | false => exact Frame.underway?_between
  | @ending f i hc =>
    rintro _ ⟨⟩
    have hcur := ((hshows i rfl).run f rfl).current_of_idle (by simp [Frame.underway?, hc])
    exact .gone (by simpa [Frame.ending] using hcur)
  | drop =>
    rintro _ ⟨⟩
    exact .gone (hshows _ rfl).last
  | abandon =>
    rintro _ ⟨⟩
    exact .gone (hshows _ rfl).last
  | cancel =>
    rintro _ ⟨⟩
    have h := hshows _ rfl
    refine ⟨by simpa using h.last, fun f hf => ?_⟩
    have hrun := h.run f hf
    exact ⟨⟨by simpa using hrun.grows.phases, by simpa using hrun.grows.keys⟩, hrun.current, hrun.total,
      by simpa using hrun.told⟩

/-- **One turn** adds to what is published. -/
theorem Turn.grows (h : Turn s x id f? (some i) f'? i'?) (hshows : i.Shows f?) :
    ∃ i', i'? = some i' ∧ i.Grows i' := by
  cases h with
  | rest | move | drop => exact ⟨i, rfl, .refl i⟩
  | publish =>
    obtain ⟨hphases, hkeys⟩ := (hshows.run _ rfl).grows
    exact ⟨_, rfl, by simpa using hphases, by simpa using hkeys⟩
  | ending =>
    obtain ⟨hphases, hkeys⟩ := (hshows.run _ rfl).grows
    exact ⟨_, rfl, by simpa [Frame.ending] using hphases, by simpa [Frame.ending] using hkeys⟩
  | abandon => exact ⟨_, rfl, List.prefix_rfl, List.prefix_rfl⟩
  | cancel => exact ⟨_, rfl, by simp, by simp⟩

end

/-! ## Whole histories -/

theorem shows_of_run? {s : Stage} (hs : s.orchestrator.instances = []) {past : List Happening} {t : System}
    (h : s.idle.run? past = some t) (id : InstanceId) : ∀ i, t.instance? id = some i → i.Shows (t.frame? id) := by
  refine reachable_induction (P := fun _ t => ∀ i, t.instance? id = some i → i.Shows (t.frame? id)) hs ?_ ?_ h
  · intro i hi
    simp [System.instance?, Stage.idle, Orchestrator.instance?, hs] at hi
  · exact fun _ _ _ _ _ hk hshows hst => (hst.turn hk id).shows hshows

/-- Whatever happens, more is published of an instance than before. -/
theorem grows_of_run? {s : Stage} (hs : s.orchestrator.instances = []) {past later : List Happening} {t u : System}
    (h : s.idle.run? past = some t) (hl : t.run? later = some u) {id : InstanceId} {i : Instance}
    (hi : t.instance? id = some i) : ∃ j, u.instance? id = some j ∧ i.Grows j := by
  -- What an instance shows of its run is kept along, so that each step adds to it.
  obtain ⟨j, hj, hgrows, _⟩ := later_induction
    (P := fun v => ∃ j, v.instance? id = some j ∧ i.Grows j ∧ j.Shows (v.frame? id)) hs h hl
    ⟨i, hi, .refl i, shows_of_run? hs h id i hi⟩ (by
      rintro x v w hk ⟨j, hj, hgrows, hshows⟩ hst
      have hturn := hst.turn hk id
      rw [hj] at hturn
      obtain ⟨j', hj', hgrows'⟩ := hturn.grows hshows
      refine ⟨j', hj', hgrows.trans hgrows', hturn.shows ?_ j' hj'⟩
      rintro _ ⟨⟩
      exact hshows)
  exact ⟨j, hj, hgrows⟩

theorem report_amid {i : Instance} {f : Frame} {u : Underway} (hf : f.Sound) (hu : f.underway? = some u)
    (hshows : i.Shows (some f)) (hbehind : i.Behind (some f)) (now : Time.Instant) :
    (i.report now).Amid f.definition f.run.phases.length u.phase := by
  have hnext := (hf.inPhase hu).next
  have hlength : f.run.phases.length = i.phases.length := by
    rw [hbehind.phases f rfl, Frame.unpublished_of_underway hu, Nat.add_zero]
  have htold := (hshows.run f rfl).told
  have hlt : f.run.phases.length < f.definition.phases.length := (List.getElem?_eq_some_iff.1 hnext).1
  refine ⟨hnext, htold, ?_, hshows.last.trans (by rw [hlength])⟩
  have hne : i.totalPhases ≠ 0 := by omega
  rw [hlength]
  exact if_neg hne

/-- **Reports follow a run.** In every reachable state, a run whose phase is under way has noted the
number `k` of that phase, and a report of its instance tells the share of the `k` phases before it;
it names the last of these, so the phase under way only where `k = 0`. What is published of an instance
only grows: its phases and the keys of its results are those of before, with others after them. -/
theorem reports_follow_run {s : Stage} (hs : s.orchestrator.instances = []) {past : List Happening} {t : System}
    (h : s.idle.run? past = some t) :
    (∀ f ∈ t.frames, ∀ u, f.underway? = some u → f.run.currentPhase = f.run.phases.length ∧
      ∃ r, t.toStage.report? f.run.id = some r ∧ r.Amid f.definition f.run.phases.length u.phase) ∧
    ∀ id i, t.orchestrator.instance? id = some i → ∀ later u, t.run? later = some u →
      ∃ j, u.orchestrator.instance? id = some j ∧ i.Grows j := by
  refine ⟨fun f hf u hu => ?_, fun id i hi later u hl => grows_of_run? hs h hl hi⟩
  have hk := kept_of_run? hs h
  have hframe : t.frame? f.run.id = some f := hk.consistent.family.frameOf?_eq hf
  obtain ⟨i, hi, _⟩ := hk.consistent.family.published f hf
  have hshows := shows_of_run? hs h f.run.id i hi
  have hbehind := behind_of_run? hs h f.run.id i hi
  rw [hframe] at hshows hbehind
  exact ⟨(hshows.run f rfl).current_of_underway hu, i.report t.now, by rw [Stage.report?, hi]; rfl,
    report_amid (hk.sound f hf) hu hshows hbehind t.now⟩

/-- The relay has its first word, has been refused the detour and waits for its second word. -/
def relayPassing : List Happening :=
  [.start "relay" .null, .advance 0, .answer 0 0, .advance 0, .advance 0, .advance 0, .advance 0]

theorem relay_reports : ∃ t, relayStage.orchestrator.instances = [] ∧ relayStage.idle.run? relayPassing = some t ∧
    (∃ f ∈ t.frames, ∃ u, f.underway? = some u) ∧
    (∀ f ∈ t.frames, ∀ u, f.underway? = some u → f.run.currentPhase = f.run.phases.length ∧
      ∃ r, t.toStage.report? f.run.id = some r ∧ r.Amid f.definition f.run.phases.length u.phase) ∧
    ∀ id i, t.orchestrator.instance? id = some i → ∀ later u, t.run? later = some u →
      ∃ j, u.orchestrator.instance? id = some j ∧ i.Grows j := by
  have hpast : relayStage.idle.run? relayPassing = some _ := rfl
  exact ⟨_, rfl, hpast, ⟨_, .head _, _, rfl⟩, reports_follow_run (s := relayStage) rfl hpast⟩

/-- The last phase of the relay, with the number 2, is under way, and the report names the one before. -/
theorem report_names_ended_phase : ∃ t f u r, relayStage.idle.run? relayPassing = some t ∧ f ∈ t.frames ∧
    f.underway? = some u ∧ relay.phases[2]? = some u.phase ∧ f.run.phases.length = 2 ∧
    t.toStage.report? f.run.id = some r ∧ r.status = .running ∧ r.currentPhase = 1 :=
  ⟨_, _, _, _, rfl, .head _, rfl, rfl, rfl, rfl, rfl, rfl⟩

end Grimoire.Workflow
