import Grimoire.Proofs.Workflow.Ancestry
import Grimoire.Proofs.Workflow.Cancelling
import Grimoire.Proofs.Workflow.Counting
import Grimoire.Proofs.Workflow.Effort
import Grimoire.Proofs.Workflow.Evaluation

/-!
# Runs beside one another

The runs of an orchestrator share its published instances, but a run reads there only whether its own
instance is cancelled. A cancellation that it sees was asked for and granted (`cancels_of_marked`). So a
task whose runs nobody cancelled comes to what its workflow comes to by itself (`meets_of_run?`),
whatever the other tasks do in between; two such histories with the same request agree
(`runs_do_not_interfere`).
-/
namespace Grimoire.Workflow

open Event (InstanceId)

/-! ## Where a cancellation comes from -/

/-- A request to cancel the instance is granted in the course of a history. -/
def System.Cancels (s : System) (past : List Happening) (id : InstanceId) : Prop :=
  ∃ before after t, past = before ++ .cancel id :: after ∧ s.run? before = some t ∧ (t.toStage.cancel id).1 = true

/-- A run or its published instance is cancelled. -/
def Marked (f? : Option Frame) (i? : Option Instance) : Prop :=
  (∃ f, f? = some f ∧ f.run.status = .cancelled) ∨ ∃ i, i? = some i ∧ i.status = .cancelled

section
variable {s : System} {past : List Happening} {id : InstanceId}

theorem System.Cancels.snoc (h : s.Cancels past id) (x : Happening) : s.Cancels (past ++ [x]) id := by
  obtain ⟨before, after, t, rfl, ht, hc⟩ := h
  exact ⟨before, after ++ [x], t, by simp, ht, hc⟩

theorem System.Cancels.mem (h : s.Cancels past id) : .cancel id ∈ past := by
  obtain ⟨before, after, t, rfl, -, -⟩ := h
  simp

/-- A running instance can be cancelled. -/
theorem cancel_granted {t : Stage} {i : Instance} (hi : t.orchestrator.instance? id = some i)
    (hr : i.status = .running) : (t.cancel id).1 = true := by
  simp [Stage.cancel, hi, hr]

end

section
variable {s : Stage} {x : Happening} {id : InstanceId} {f f' : Frame} {i : Instance} {f? f'? : Option Frame}
  {i? i'? : Option Instance}

theorem endPhase_cancelled {g : Frame} {u : Underway} {outcome : Except WorkflowError Json}
    (h : (s.endPhase g u outcome).2.run.status = .cancelled) : g.run.status = .cancelled := by
  simp only [Stage.endPhase] at h
  split at h
  · cases h
  · exact h

theorem Move.cancelled (m : Move s i f f') (h : f'.run.status = .cancelled) :
    f.run.status = .cancelled ∨ i.status = .cancelled := by
  cases m with
  | observe _ seen => exact .inr seen
  | enter | exhausted | hear => exact .inl h
  | refuse => exact .inl (endPhase_cancelled (g := f.entering) h)
  | endPhase => exact .inl (endPhase_cancelled h)

theorem published_cancelled {old run : Instance} (h : (Orchestrator.published old run).status = .cancelled) :
    run.status = .cancelled ∨ old.status = .cancelled := by
  unfold Orchestrator.published at h
  split at h
  · next hp => exact .inr hp.2
  · exact .inl h

theorem ending_cancelled (h : (f.ending s).status = .cancelled) : f.run.status = .cancelled := by
  by_cases hr : f.run.status = .running
  · simp [Frame.ending, hr] at h
  · simpa [Frame.ending, hr] using h

@[simp] theorem marked_some : Marked (some f) (some i) ↔ f.run.status = .cancelled ∨ i.status = .cancelled := by
  simp [Marked]

@[simp] theorem marked_none : Marked none (some i) ↔ i.status = .cancelled := by
  simp [Marked]

/-- **One turn** cancels nothing but a running instance that it was asked to cancel. -/
theorem Turn.marked (h : Turn s x id f? i? f'? i'?) (hm : Marked f'? i'?) :
    Marked f? i? ∨ x = .cancel id ∧ ∃ i, i? = some i ∧ i.status = .running := by
  cases h with
  | rest => exact .inl hm
  | start => simp [Stage.begin] at hm
  | move m =>
    rw [marked_some] at hm
    rcases hm with hf | hi
    · exact .inl (marked_some.2 (m.cancelled hf))
    · exact .inl (marked_some.2 (.inr hi))
  | publish =>
    rw [marked_some] at hm
    rcases hm with hf | hi
    · exact .inl (marked_some.2 (.inl hf))
    · exact .inl (marked_some.2 (published_cancelled hi))
  | ending =>
    rw [marked_none] at hm
    exact .inl (marked_some.2 ((published_cancelled hm).imp_left ending_cancelled))
  | drop => exact .inl (marked_some.2 (.inr (marked_none.1 hm)))
  | abandon => cases marked_none.1 hm
  | @cancel _ i asked =>
    by_cases hr : i.status = .running
    · exact .inr ⟨asked, i, rfl, hr⟩
    · rw [Instance.stopAsked, if_neg hr] at hm
      exact .inl hm

end

section
variable {s : Stage} {past : List Happening} {t u : System} {x : Happening}

/-- **Whatever is cancelled** was asked to be, and the request was granted. -/
theorem cancels_of_marked (hs : s.orchestrator.instances = []) (h : s.idle.run? past = some t) :
    ∀ id, Marked (t.frame? id) (t.instance? id) → s.idle.Cancels past id := by
  refine reachable_induction
    (P := fun past t => ∀ id, Marked (t.frame? id) (t.instance? id) → s.idle.Cancels past id) hs ?_ ?_ h
  · rintro id (⟨f, hf, -⟩ | ⟨i, hi, -⟩)
    · simp [System.frame?, frameOf?, System.frames, Stage.idle] at hf
    · simp [System.instance?, Stage.idle, Orchestrator.instance?, hs] at hi
  · intro past x t u h hk ih hst id hm
    rcases (hst.turn hk id).marked hm with hold | ⟨rfl, i, hi, hr⟩
    · exact (ih id hold).snoc x
    · exact ⟨past, [], t, rfl, h, cancel_granted hi hr⟩

/-! ## The runs of a task -/

/-- The id of the run that a task was started with. -/
def Task.root? : Task → Option InstanceId
  | running f below => ((f :: below).map (·.run.id)).getLast?
  | finished (.ok r) => some r.id
  | finished (.error _) => none

theorem Work.root {s s' : Stage} {f : Frame} {below : List Frame} {v : Task} (h : Work s f below none s' v) :
    v.root? = (Task.running f below).root? := by
  cases h with
  | observe | ask | exhausted | publish | hear => rfl
  | refuse =>
    simp only [Task.root?, List.map_cons, endPhase_id]
    rfl
  | answer => simp only [Task.root?, List.map_cons, endPhase_id]
  | descend =>
    simp only [Task.root?, List.map_cons, List.getLast?_cons_cons]
    rfl
  | conclude _ hbelow =>
    subst hbelow
    rfl
  | deliver _ hbelow =>
    subst hbelow
    simp only [Task.root?, List.map_cons, endPhase_id, List.getLast?_cons_cons]

namespace Orchestrator

variable {o o' : Orchestrator} {root id : InstanceId}

theorem StartedBy.mono (hsub : o.lineage ⊆ o'.lineage) (h : o.StartedBy root id) : o'.StartedBy root id := by
  induction h with
  | self known => exact .self (hsub known)
  | child known _ ih => exact .child (hsub known) ih

/-- What a parent chain ends in has started all of it. -/
theorem ParentChain.startedBy {chain : List InstanceId} (h : o.ParentChain id chain)
    (hlast : chain.getLast? = some root) : o.StartedBy root id := by
  induction h with
  | root known =>
    obtain rfl : _ = root := by simpa using hlast
    exact .self known
  | @child id p chain known parent ih =>
    cases chain with
    | nil => cases parent
    | cons q rest => exact .child known (ih (by simpa using hlast))

end Orchestrator

/-- A step loses no instance. -/
theorem Step.lineage_subset (hst : Step t x u) (hk : t.Kept) : t.orchestrator.lineage ⊆ u.orchestrator.lineage := by
  cases hst.growth hk with
  | none same => simp [same]
  | root _ added => simp [added]
  | child _ added => simp [added]

/-- The innermost run of a task comes from the one that the task was started with. -/
theorem System.Kept.startedBy (hk : t.Kept) {task : Nat} {f : Frame} {below : List Frame} {root : InstanceId}
    (found : t.tasks[task]? = some (.running f below)) (hr : (Task.running f below).root? = some root) :
    t.orchestrator.StartedBy root f.run.id := by
  obtain ⟨hfam, hc⟩ := hk.consistent.at found
  exact (hfam.parentChain hc).startedBy hr

/-! ## Tasks that nobody disturbs -/

/-- No phase of the task was over before its end, and no run that comes from the task was cancelled. -/
structure System.Undisturbed (t : System) (s : Stage) (past : List Happening) (task : Nat) (v : Task) : Prop where
  in_time : ∀ level, .expire task level ∉ past
  spared : ∀ root, v.root? = some root → ∀ id, t.orchestrator.StartedBy root id → ¬ s.idle.Cancels past id

/-- What a task is that was asked for a workflow and comes to it by itself. -/
def Setup.Meets (b : Setup) (w : String) (context : Json) (v : Task) : Prop :=
  match b.definitions.get? w with
  | none => v = .finished (.error (.notFound w))
  | some d => b.Serves d context v

theorem System.Undisturbed.before {task : Nat} {v v' : Task} (hst : Step t x u) (hk : t.Kept)
    (h : u.Undisturbed s (past ++ [x]) task v') (hroot : v'.root? = v.root?) : t.Undisturbed s past task v := by
  constructor
  · intro level hx
    exact h.in_time level (List.mem_append_left _ hx)
  · intro root hr id hid hc
    exact h.spared root (hroot.trans hr) id (hid.mono (hst.lineage_subset hk)) (hc.snoc x)

theorem System.Undisturbed.level? {task : Nat} {v : Task} (h : u.Undisturbed s (past ++ [x]) task v)
    (hx : x.task? = some task) : x.level? = none := by
  cases x with
  | expire _ level =>
    obtain rfl := Option.some.inj hx
    exact absurd (by simp) (h.in_time level)
  | start | advance | answer | cancel | wait => rfl

theorem answers_of_run? (h : s.idle.run? past = some t) : t.Answers s.orchestrator.definitions past := by
  have base : System.Answers s.orchestrator.definitions [] s.idle :=
    ⟨rfl, rfl, fun i u hu => absurd hu (by simp [Stage.idle])⟩
  exact (System.run_induction s.idle_stacked base (fun _ _ _ _ _ ht hst => hst.answers ht) h).2

theorem setup_of_run? (h : s.idle.run? past = some t) : t.toStage.setup = s.setup :=
  (System.run_induction (P := fun _ t => t.toStage.setup = s.setup) s.idle_stacked rfl
    (fun _ _ _ _ _ ht hst => hst.setup.trans ht) h).2

/-- The innermost run of a task that nobody disturbs does not see a cancellation. -/
theorem System.Undisturbed.unseen {task : Nat} {f : Frame} {below : List Frame}
    (hd : t.Undisturbed s past task (.running f below)) (hs : s.orchestrator.instances = [])
    (h : s.idle.run? past = some t) (found : t.tasks[task]? = some (.running f below)) :
    t.orchestrator.isCancelled f.run.id = false := by
  by_contra hc
  obtain ⟨i, hi, hst⟩ := (Option.any_eq_true _ _).1 (Bool.not_eq_false _ ▸ hc)
  have hmarked : Marked (t.frame? f.run.id) (t.instance? f.run.id) := .inr ⟨i, hi, by simpa using hst⟩
  obtain ⟨root, hroot⟩ : ∃ root, (Task.running f below).root? = some root :=
    Option.isSome_iff_exists.1 (by simp [Task.root?])
  exact hd.spared root hroot _ ((kept_of_run? hs h).startedBy found hroot) (cancels_of_marked hs h _ hmarked)

/-- **A block or an answer** of a task that nobody disturbs. -/
theorem Work.meets {s s' : Stage} {b : Setup} {f : Frame} {below : List Frame} {v : Task} {w : String}
    {context : Json} (h : Work s f below none s' v) (hb : s.setup = b) (steady : b.provider.Steady)
    (hsound : ∀ g ∈ f :: below, g.Sound) (unseen : s.orchestrator.isCancelled f.run.id = false)
    (hm : b.Meets w context (.running f below)) : b.Meets w context v := by
  unfold Setup.Meets at hm ⊢
  cases hd : b.definitions.get? w with
  | none => simp [hd] at hm
  | some d =>
    rw [hd] at hm
    exact h.serves hb steady hsound (fun _ => unseen) hm

theorem meets_unknown {b : Setup} {w : String} (context : Json) (hd : b.definitions.get? w = none) :
    b.Meets w context (.finished (.error (.notFound w))) := by
  simp [Setup.Meets, hd]

theorem meets_begin {b : Setup} {d : Definition} {w : String} (context : Json)
    (hd : b.definitions.get? w = some d) (stage : Stage) :
    b.Meets w context (.running (stage.begin d context none).2 []) := by
  unfold Setup.Meets
  rw [hd]
  exact ⟨⟨by decide, aims_begin .., by simp, trivial⟩, rfl⟩

/-- The request of a task that was there before. -/
theorem requested_older {task : Nat} {v : Task} (ha : t.Answers s.orchestrator.definitions past)
    (hv : t.tasks[task]? = some v) : (requested (past ++ [x]))[task]? = (requested past)[task]? := by
  have hlt := (List.getElem?_eq_some_iff.1 hv).1
  rw [ha.length] at hlt
  have happ : requested (past ++ [x]) = requested past ++ requested [x] := by simp [requested]
  rw [happ, List.getElem?_append_left hlt]

/-- The request of a task that is added. -/
theorem requested_newer (ha : t.Answers s.orchestrator.definitions past) (w : String) (context : Json) :
    (requested (past ++ [.start w context]))[t.tasks.length]? = some (w, context) := by
  have happ : requested (past ++ [.start w context]) = requested past ++ [(w, context)] := by simp [requested]
  rw [happ, ha.length, List.getElem?_concat_length]

/-- **A task that no cancellation and no timeout disturbs** comes to what its workflow comes to by itself,
whatever happens beside it. -/
theorem meets_of_run? (hs : s.orchestrator.instances = []) (steady : s.host.provider.Steady)
    (h : s.idle.run? past = some t) : ∀ (task : Nat) (v : Task) (w : String) (context : Json),
      t.tasks[task]? = some v → (requested past)[task]? = some (w, context) → t.Undisturbed s past task v →
      s.setup.Meets w context v := by
  refine reachable_induction (P := fun past t => ∀ (task : Nat) (v : Task) (w : String) (context : Json),
    t.tasks[task]? = some v → (requested past)[task]? = some (w, context) → t.Undisturbed s past task v →
    s.setup.Meets w context v) hs ?_ ?_ h
  · intro task v w context hv
    simp [Stage.idle] at hv
  · intro past x t u h hk ih hst task v w context hv hw hd
    have hsetup := setup_of_run? h
    have hanswers := answers_of_run? h
    -- A task that this step leaves as it was.
    have before (hv' : t.tasks[task]? = some v) : s.setup.Meets w context v :=
      ih task v w context hv' ((requested_older hanswers hv').symm.trans hw) (hd.before hst hk rfl)
    cases hst with
    | @unknown w' context' missing =>
      rcases getElem?_snoc hv with hv' | ⟨rfl, rfl⟩
      · exact before hv'
      · obtain ⟨rfl, rfl⟩ : w' = w ∧ context' = context := by simpa [requested_newer hanswers] using hw
        exact meets_unknown _ (hsetup ▸ (missing : t.toStage.setup.definitions.get? w' = none))
    | @start w' context' d known =>
      rcases getElem?_snoc hv with hv' | ⟨rfl, rfl⟩
      · exact before hv'
      · obtain ⟨rfl, rfl⟩ : w' = w ∧ context' = context := by simpa [requested_newer hanswers] using hw
        exact meets_begin _ (hsetup ▸ (known : t.toStage.setup.definitions.get? w' = some d)) t.toStage
    | @work _ task' f below stage v' on found work =>
      by_cases hx : task' = task
      · subst hx
        obtain rfl : v' = v := by simpa [(List.getElem?_eq_some_iff.1 found).1] using hv
        have hst' := Step.work on found work
        rw [hd.level? on] at work
        have hd' := hd.before hst' hk work.root
        have hm := ih task' _ w context found ((requested_older hanswers found).symm.trans hw) hd'
        exact work.meets hsetup steady (hk.sound.at found) (hd'.unseen hs h found) hm
      · exact before (by simpa [List.getElem?_set_ne hx] using hv)
    | cancel => exact before hv
    | wait => exact before hv

/-! ## Two histories -/

/-- What a workflow comes to by itself. -/
def Setup.byItself (b : Setup) (w : String) (context : Json) : Except WorkflowError Standing :=
  match b.definitions.get? w with
  | none => .error (.notFound w)
  | some d => .ok (b.evaluate (levelsAbove 0) d context)

theorem Setup.Meets.outcome {b : Setup} {w : String} {context : Json} {o : Outcome}
    (h : b.Meets w context (.finished o)) : o.map RunResult.standing = b.byItself w context := by
  unfold Setup.Meets at h
  unfold Setup.byItself
  cases hd : b.definitions.get? w with
  | none =>
    rw [hd] at h
    obtain rfl := Task.finished.inj h
    rfl
  | some d =>
    rw [hd] at h
    obtain ⟨r, rfl, hr⟩ := h
    exact congrArg Except.ok hr

theorem Happening.Furthers.not_expire {task : Nat} (h : x.Furthers task) (level : Nat) : x ≠ .expire task level := by
  rintro rfl
  rcases h with ⟨-, hl⟩ | ⟨millis, hx⟩
  · cases hl
  · cases hx

theorem Happening.Furthers.not_cancel {task : Nat} (h : x.Furthers task) (id : InstanceId) : x ≠ .cancel id := by
  rintro rfl
  rcases h with ⟨ht, -⟩ | ⟨millis, hx⟩
  · cases ht
  · cases hx

/-- A call alone comes to what its workflow comes to by itself. -/
theorem alone_byItself (hs : s.orchestrator.instances = []) (steady : s.host.provider.Steady) {w : String}
    {context : Json} {alone : List Happening} (h : s.idle.run? (.start w context :: alone) = some u)
    (hf : ∀ x ∈ alone, x.Furthers 0) {o : Outcome} (ho : u.outcome? 0 = some o) :
    o.map RunResult.standing = s.setup.byItself w context := by
  have hd : u.Undisturbed s (.start w context :: alone) 0 (.finished o) := by
    constructor
    · intro level hx
      rcases List.mem_cons.1 hx with hx | hx
      · cases hx
      · exact (hf _ hx).not_expire level rfl
    · intro root _ id _ hc
      rcases List.mem_cons.1 hc.mem with hx | hx
      · cases hx
      · exact (hf _ hx).not_cancel id rfl
  exact (meets_of_run? hs steady h 0 _ w context (finished_of_outcome? ho) rfl hd).outcome

/-- **Concurrent runs do not interfere.** A call comes to an outcome in any history, as it does alone.
When no phase of it timed out and no run that comes from it was cancelled, its outcome is the one that it
has alone, up to ids and durations, whatever the other calls did in between. -/
theorem runs_do_not_interfere (hs : s.orchestrator.instances = []) (steady : s.host.provider.Steady)
    (h : s.idle.run? past = some t) {task : Nat} {w : String} {context : Json}
    (asked : (requested past)[task]? = some (w, context)) (in_time : ∀ level, .expire task level ∉ past) :
    (∃ alone u o, s.idle.run? (.start w context :: alone) = some u ∧ (∀ x ∈ alone, x.Furthers 0) ∧
      u.outcome? 0 = some o) ∧
    (∃ later u o, t.run? later = some u ∧ (∀ x ∈ later, x.Furthers task) ∧ u.outcome? task = some o) ∧
    (∀ outcome, t.outcome? task = some outcome →
      (∀ r, outcome = .ok r → ∀ id, t.orchestrator.StartedBy r.id id → ¬ s.idle.Cancels past id) →
      ∀ alone u o, s.idle.run? (.start w context :: alone) = some u → (∀ x ∈ alone, x.Furthers 0) →
        u.outcome? 0 = some o → outcome.map RunResult.standing = o.map RunResult.standing) := by
  refine ⟨?_, ?_, ?_⟩
  · have hstart : s.idle.run? [.start w context] = some (s.idle.start w context) := System.run?_singleton ..
    have hlt : 0 < (s.idle.start w context).tasks.length := by
      rw [(answers_of_run? hstart).length]
      exact Nat.zero_lt_one
    obtain ⟨alone, u, o, hu, ho, hf⟩ := outcome_comes hs hstart hlt
    exact ⟨alone, u, o, System.run?_trans hstart hu, hf, ho⟩
  · have hlt : task < t.tasks.length := by
      rw [(answers_of_run? h).length]
      exact (List.getElem?_eq_some_iff.1 asked).1
    obtain ⟨later, u, o, hu, ho, hf⟩ := outcome_comes hs h hlt
    exact ⟨later, u, o, hu, hf, ho⟩
  · intro outcome hout spared alone u o hu hf ho
    have hd : t.Undisturbed s past task (.finished outcome) := by
      refine ⟨in_time, fun root hroot => ?_⟩
      cases outcome with
      | error e => cases hroot
      | ok r =>
        obtain rfl : r.id = root := by simpa [Task.root?] using hroot
        exact spared r rfl
    have hm := meets_of_run? hs steady h task _ w context (finished_of_outcome? hout) asked hd
    exact hm.outcome.trans (alone_byItself hs steady hu hf ho).symm

end

/-- Two crossings at once; the second is cancelled while its ferry rows. -/
def twoCrossings : List Happening :=
  [.start "crossing" .null, .start "crossing" .null, .advance 0, .advance 1, .advance 0, .advance 1,
   .cancel (.numbered 2), .wait 200, .answer 1 0, .answer 0 0, .advance 0, .advance 1, .advance 0, .advance 1,
   .advance 0, .advance 0]

/-- The first crossing is complete, with a ferry of its own. -/
theorem twoCrossings_run : ∃ t r, pilgrimageStage.idle.run? twoCrossings = some t ∧
    t.outcome? 0 = some (.ok r) ∧ r.id = .numbered 1 ∧ r.status = .completed ∧
    t.orchestrator.lineage = [(.numbered 1, none), (.numbered 2, none), (.numbered 3, some (.numbered 1)),
      (.numbered 4, some (.numbered 2))] := by
  have hrun : (pilgrimageStage.idle.run? twoCrossings).any (fun t =>
      ((t.outcome? 0).bind Except.toOption).any fun r => decide (r.id = .numbered 1 ∧ r.status = .completed ∧
        t.orchestrator.lineage = [(.numbered 1, none), (.numbered 2, none), (.numbered 3, some (.numbered 1)),
          (.numbered 4, some (.numbered 2))])) = true := by
    decide +kernel
  obtain ⟨t, ht, hp⟩ := (Option.any_eq_true _ _).1 hrun
  obtain ⟨r, hr, hp⟩ := (Option.any_eq_true _ _).1 hp
  exact ⟨t, r, ht, outcome?_of_toOption hr, of_decide_eq_true hp⟩

theorem twoCrossings_do_not_interfere : ∃ t r, pilgrimageStage.orchestrator.instances = [] ∧
    pilgrimageStage.host.provider.Steady ∧ pilgrimageStage.idle.run? twoCrossings = some t ∧
    (requested twoCrossings)[0]? = some ("crossing", .null) ∧ (∀ level, .expire 0 level ∉ twoCrossings) ∧
    t.outcome? 0 = some (.ok r) ∧ r.status = .completed ∧ t.orchestrator.StartedBy r.id (.numbered 3) ∧
    pilgrimageStage.idle.Cancels twoCrossings (.numbered 2) ∧
    (∀ id, t.orchestrator.StartedBy r.id id → ¬ pilgrimageStage.idle.Cancels twoCrossings id) ∧
    (∃ alone u o, pilgrimageStage.idle.run? (.start "crossing" .null :: alone) = some u ∧
      (∀ x ∈ alone, x.Furthers 0) ∧ u.outcome? 0 = some o) ∧
    (∀ alone u o, pilgrimageStage.idle.run? (.start "crossing" .null :: alone) = some u →
      (∀ x ∈ alone, x.Furthers 0) → u.outcome? 0 = some o →
      Except.ok r.standing = o.map RunResult.standing) := by
  obtain ⟨t, r, ht, hr, hid, hst, hlineage⟩ := twoCrossings_run
  have hsteady : pilgrimageStage.host.provider.Steady := fun _ _ _ => rfl
  have hin : ∀ level, .expire 0 level ∉ twoCrossings := by simp [twoCrossings]
  have hferry : t.orchestrator.StartedBy r.id (.numbered 3) := by
    have hroot : (InstanceId.numbered 1, none) ∈ t.orchestrator.lineage := by simp [hlineage]
    have hchild : (InstanceId.numbered 3, some (.numbered 1)) ∈ t.orchestrator.lineage := by simp [hlineage]
    exact hid ▸ .child hchild (.self hroot)
  have hcancels : pilgrimageStage.idle.Cancels twoCrossings (.numbered 2) := by
    have hany : (pilgrimageStage.idle.run? (twoCrossings.take 6)).any
        (fun v => (v.toStage.cancel (.numbered 2)).1) = true := by
      decide +kernel
    obtain ⟨v, hv, hc⟩ := (Option.any_eq_true _ _).1 hany
    exact ⟨twoCrossings.take 6, twoCrossings.drop 7, v, rfl, hv, hc⟩
  -- Only the second crossing is cancelled, and it has no parent.
  have hspared : ∀ id, t.orchestrator.StartedBy r.id id → ¬ pilgrimageStage.idle.Cancels twoCrossings id := by
    intro id hstarted hc
    obtain rfl : id = .numbered 2 := by simpa [twoCrossings] using hc.mem
    rw [hid] at hstarted
    cases hstarted with
    | child known => simp [hlineage] at known
  have hasked : (requested twoCrossings)[0]? = some ("crossing", .null) := rfl
  obtain ⟨halone, -, hsame⟩ := runs_do_not_interfere rfl hsteady ht hasked hin
  refine ⟨t, r, rfl, hsteady, ht, hasked, hin, hr, hst, hferry, hcancels, hspared, halone, ?_⟩
  exact hsame _ hr fun r' hr' id hstarted => hspared id (Except.ok.inj hr' ▸ hstarted)

end Grimoire.Workflow
