import Grimoire.Proofs.Workflow.Work

/-!
# Tales of runs

A run announces its start, then phase after phase, and its end. The tale of a run that a phase started
stands inside, right before the event of that phase (`Setup.Tale`). When no run is started twice, a tale says
of each of its runs no more than what the run itself announces (`Tale.eventsOf_own`), and the events of
each nested run stand in one block (`Tale.bracketed`).
-/
namespace Grimoire.Workflow

open Event (InstanceId)

/-! ## Tales -/

/-- The instance whose start an event announces. -/
def startedIn? : Event → Option InstanceId
  | .workflowStarted id _ => some id
  | _ => none

/-- The instances that events announce the start of, in order. -/
def startedIn (es : List Event) : List InstanceId := es.filterMap startedIn?

/-- The events about an instance. -/
def eventsOf (id : InstanceId) (es : List Event) : List Event := es.filter (·.instance? = some id)

/-- What a run announces of its phases. -/
def phaseEvents (id : InstanceId) (rs : List PhaseResult) : List Event :=
  rs.map fun r => .phaseCompleted id r.phase r.success

/-- The last event about an instance. -/
def Instance.Closes (i : Instance) (e : Event) : Prop :=
  i.status = .completed ∧ e = .workflowCompleted i.id i.workflow (elapsed i.started (i.ended.getD i.started)) ∨
    i.status = .failed ∧ ∃ error, i.error = some error ∧ e = .workflowFailed i.id i.workflow error

namespace Setup

/-- The events of the run of a definition, as far as its phases have ended. The runs that its phases have
started are among the settled instances. -/
inductive Tale (b : Setup) (settled : Instance → Prop) : Definition → InstanceId → List PhaseResult →
    List Event → Prop
  | start (d : Definition) (id : InstanceId) : Tale b settled d id [] [.workflowStarted id d.id]
  /-- A phase that starts no workflow, or does not come to it. -/
  | phase {d : Definition} {id : InstanceId} {rs : List PhaseResult} {es : List Event} {p : Phase} (r : PhaseResult)
      (before : Tale b settled d id rs es) (here : d.phases[rs.length]? = some p) (of_phase : r.phase = p.id)
      (plain : ∀ w, p.action = .nested w → r.success = false) :
      Tale b settled d id (rs ++ [r]) (es ++ [.phaseCompleted id r.phase r.success])
  /-- A phase that has run a workflow: the events of that run come right before its own. -/
  | nested {d d' : Definition} {id : InstanceId} {rs : List PhaseResult} {es block : List Event} {p : Phase}
      {w : String} {child : Instance} {last : Event} (r : PhaseResult) (before : Tale b settled d id rs es)
      (here : d.phases[rs.length]? = some p) (of_phase : r.phase = p.id) (action : p.action = .nested w)
      (known : b.definitions.get? w = some d') (started : settled child) (parent : child.parent = some id)
      (of_workflow : child.workflow = d'.id) (inner : Tale b settled d' child.id child.phases block)
      (closes : child.Closes last) (flag : r.success = true ↔ child.status = .completed) :
      Tale b settled d id (rs ++ [r]) (es ++ (block ++ [last]) ++ [.phaseCompleted id r.phase r.success])

/-- All events of a run that has ended. -/
def Told (b : Setup) (settled : Instance → Prop) (d : Definition) (i : Instance) (es : List Event) : Prop :=
  ∃ own last, b.Tale settled d i.id i.phases own ∧ i.workflow = d.id ∧ i.Closes last ∧ es = own ++ [last]

end Setup

section
variable {b : Setup} {settled settled' : Instance → Prop} {d : Definition} {id : InstanceId}
  {rs : List PhaseResult} {es : List Event}

theorem Setup.Tale.mono (h : b.Tale settled d id rs es) (hsub : ∀ i, settled i → settled' i) :
    b.Tale settled' d id rs es := by
  induction h with
  | start d id => exact .start d id
  | phase r _ here of_phase plain ih => exact .phase r ih here of_phase plain
  | nested r _ here of_phase action known started parent of_workflow _ closes flag ih inner =>
    exact .nested r ih here of_phase action known (hsub _ started) parent of_workflow inner closes flag

theorem Instance.Closes.about {i : Instance} {e : Event} (h : i.Closes e) : e.instance? = some i.id := by
  rcases h with ⟨-, rfl⟩ | ⟨-, error, -, rfl⟩ <;> rfl

theorem Instance.Closes.not_start {i : Instance} {e : Event} (h : i.Closes e) : startedIn? e = none := by
  rcases h with ⟨-, rfl⟩ | ⟨-, error, -, rfl⟩ <;> rfl

@[simp] theorem startedIn_append (es es' : List Event) : startedIn (es ++ es') = startedIn es ++ startedIn es' :=
  List.filterMap_append

@[simp] theorem startedIn_phaseCompleted (id : InstanceId) (phase : String) (success : Bool) :
    startedIn [.phaseCompleted id phase success] = [] := rfl

theorem startedIn_closing {i : Instance} {e : Event} (h : i.Closes e) : startedIn [e] = [] := by
  simp [startedIn, h.not_start]

@[simp] theorem eventsOf_nil (id : InstanceId) : eventsOf id [] = [] := rfl

theorem eventsOf_append (id : InstanceId) (es es' : List Event) :
    eventsOf id (es ++ es') = eventsOf id es ++ eventsOf id es' := List.filter_append ..

theorem eventsOf_eq_nil {id : InstanceId} {es : List Event} :
    eventsOf id es = [] ↔ ∀ x ∈ es, x.instance? ≠ some id := by
  simp [eventsOf]

/-- A tale begins with the start of its run. -/
theorem Setup.Tale.start_mem (h : b.Tale settled d id rs es) : id ∈ startedIn es := by
  induction h with
  | start d id => simp [startedIn, startedIn?]
  | phase _ _ _ _ _ ih => simpa using ih
  | nested _ _ _ _ _ _ _ _ _ _ closes _ ih => simp [ih]

/-- Each event of a tale is about an instance that was started in it. -/
theorem Setup.Tale.about (h : b.Tale settled d id rs es) : ∀ x ∈ es, ∃ j ∈ startedIn es, x.instance? = some j := by
  induction h with
  | start d id => simp [startedIn, startedIn?, Event.instance?]
  | phase r before _ _ _ ih =>
    intro x hx
    rcases List.mem_append.1 hx with hx | hx
    · obtain ⟨j, hj, hxj⟩ := ih x hx
      exact ⟨j, by simp [hj], hxj⟩
    · obtain rfl := List.mem_singleton.1 hx
      exact ⟨_, by simp [before.start_mem], rfl⟩
  | nested r before _ _ _ _ _ _ _ inner closes _ ih ih' =>
    intro x hx
    simp only [List.mem_append, List.mem_singleton] at hx
    rcases hx with (hx | hx | rfl) | rfl
    · obtain ⟨j, hj, hxj⟩ := ih x hx
      exact ⟨j, by simp [hj], hxj⟩
    · obtain ⟨j, hj, hxj⟩ := ih' x hx
      exact ⟨j, by simp [hj], hxj⟩
    · exact ⟨_, by simp [inner.start_mem], closes.about⟩
    · exact ⟨_, by simp [before.start_mem], rfl⟩

/-- The last event of a tale is about its run. -/
theorem Setup.Tale.last (h : b.Tale settled d id rs es) : ∃ es' x, es = es' ++ [x] ∧ x.instance? = some id := by
  cases h with
  | start => exact ⟨[], _, rfl, rfl⟩
  | phase => exact ⟨_, _, rfl, rfl⟩
  | nested => exact ⟨_, _, rfl, rfl⟩

/-- No event is about an instance that was not started. -/
theorem Setup.Tale.eventsOf_other (h : b.Tale settled d id rs es) {j : InstanceId} (hj : j ∉ startedIn es) :
    eventsOf j es = [] := by
  rw [eventsOf_eq_nil]
  intro x hx hxj
  obtain ⟨k, hk, hxk⟩ := h.about x hx
  obtain rfl := Option.some.inj (hxj.symm.trans hxk)
  exact hj hk

theorem eventsOf_self {e : Event} (h : e.instance? = some id) : eventsOf id [e] = [e] := by
  simp [eventsOf, h]

theorem eventsOf_beside {e : Event} {j : InstanceId} (h : e.instance? = some j) (hne : j ≠ id) :
    eventsOf id [e] = [] := by
  simp [eventsOf, h, hne]

@[simp] theorem eventsOf_phaseCompleted (id : InstanceId) (phase : String) (success : Bool) :
    eventsOf id [.phaseCompleted id phase success] = [.phaseCompleted id phase success] := eventsOf_self rfl

/-- What a tale says of its own run, when no instance was started twice. -/
theorem Setup.Tale.eventsOf_own (h : b.Tale settled d id rs es) (hn : (startedIn es).Nodup) :
    eventsOf id es = .workflowStarted id d.id :: phaseEvents id rs := by
  induction h with
  | start d id => simp [eventsOf, Event.instance?, phaseEvents]
  | @phase d id rs es p r _ _ _ _ ih =>
    have hn' : (startedIn es).Nodup := by simpa using hn
    rw [eventsOf_append, ih hn', eventsOf_phaseCompleted]
    simp [phaseEvents]
  | @nested d d' id rs es block p w child last r before _ _ _ _ _ _ _ inner closes _ ih _ =>
    simp only [startedIn_append, startedIn_closing closes, startedIn_phaseCompleted, List.append_nil] at hn
    have hapart := List.nodup_append.1 hn
    have hblock : id ∉ startedIn block := fun hx => hapart.2.2 _ before.start_mem _ hx rfl
    have hchild : child.id ≠ id := fun hx => hblock (hx ▸ inner.start_mem)
    simp only [eventsOf_append, ih hapart.1, inner.eventsOf_other hblock, eventsOf_beside closes.about hchild,
      eventsOf_phaseCompleted, List.append_nil]
    simp [phaseEvents]

theorem Setup.Told.eventsOf_own {i : Instance} (h : b.Told settled d i es) (hn : (startedIn es).Nodup) :
    ∃ last, i.Closes last ∧
      eventsOf i.id es = .workflowStarted i.id i.workflow :: phaseEvents i.id i.phases ++ [last] := by
  obtain ⟨own, last, tale, hw, closes, rfl⟩ := h
  refine ⟨last, closes, ?_⟩
  have hn' : (startedIn own).Nodup := by simpa [startedIn_closing closes] using hn
  rw [eventsOf_append, tale.eventsOf_own hn', eventsOf_self closes.about, hw]

/-! ## Brackets -/

/-- The events of a nested run stand in one block, after an event of the run whose phase started it and right
before the event of that phase. -/
def Setup.Bracketed (b : Setup) (settled : Instance → Prop) (es : List Event) (child : Instance) : Prop :=
  ∃ (w : String) (d : Definition) (parent : InstanceId) (before block after : List Event) (x : Event)
      (phase : String) (success : Bool),
    es = before ++ (x :: block) ++ (.phaseCompleted parent phase success :: after) ∧
      b.definitions.get? w = some d ∧ settled child ∧ child.parent = some parent ∧ x.instance? = some parent ∧
      b.Told settled d child block ∧ (success = true ↔ child.status = .completed) ∧
      eventsOf child.id (before ++ [x]) = [] ∧ eventsOf child.id (.phaseCompleted parent phase success :: after) = []

theorem Setup.Bracketed.is_settled {child : Instance} (h : b.Bracketed settled es child) : settled child := by
  obtain ⟨w, d, parent, before, block, after, x, phase, success, -, -, hset, -⟩ := h
  exact hset

/-- Events of others may come before and after. -/
theorem Setup.Bracketed.between {child : Instance} (h : b.Bracketed settled es child) {front back : List Event}
    (hf : eventsOf child.id front = []) (hb : eventsOf child.id back = []) :
    b.Bracketed settled (front ++ es ++ back) child := by
  obtain ⟨w, d, parent, before, block, after, x, phase, success, rfl, known, hset, hp, hx, told, hs, h1, h2⟩ := h
  refine ⟨w, d, parent, front ++ before, block, after ++ back, x, phase, success, by simp, known, hset, hp, hx,
    told, hs, ?_, ?_⟩
  · rw [List.append_assoc, eventsOf_append, hf, h1]
    rfl
  · rw [← List.cons_append, eventsOf_append, h2, hb]
    rfl

/-- **Every other run that a tale starts** is bracketed in it. -/
theorem Setup.Tale.bracketed (h : b.Tale settled d id rs es) (hn : (startedIn es).Nodup) :
    ∀ j ∈ startedIn es, j ≠ id → ∃ child, child.id = j ∧ b.Bracketed settled es child := by
  induction h with
  | start d id =>
    intro j hj hne
    obtain rfl : j = id := by simpa [startedIn, startedIn?] using hj
    exact absurd rfl hne
  | @phase d id rs es p r before _ _ _ ih =>
    intro j hj hne
    obtain ⟨child, rfl, hb⟩ := ih (by simpa using hn) j (by simpa using hj) hne
    have hafter : eventsOf child.id [.phaseCompleted id r.phase r.success] = [] := eventsOf_beside rfl hne.symm
    exact ⟨child, rfl, hb.between (eventsOf_nil child.id) hafter⟩
  | @nested d d' id rs es block p w child last r before here of_phase _ known hset parent of_workflow inner closes flag
      ih ih' =>
    intro j hj hne
    simp only [startedIn_append, startedIn_closing closes, startedIn_phaseCompleted, List.append_nil] at hn hj
    obtain ⟨hes, hblock, hapart⟩ := List.nodup_append.1 hn
    have hend : eventsOf j [.phaseCompleted id r.phase r.success] = [] := eventsOf_beside rfl hne.symm
    rcases List.mem_append.1 hj with hj | hj
    · -- It was started before this phase.
      obtain ⟨other, rfl, hb⟩ := ih hes j hj hne
      have hinner : eventsOf other.id block = [] := inner.eventsOf_other fun hx => hapart _ hj _ hx rfl
      have hlast : eventsOf other.id [last] = [] :=
        eventsOf_beside closes.about fun hx => hapart _ hj _ inner.start_mem hx.symm
      refine ⟨other, rfl, ?_⟩
      rw [List.append_assoc]
      refine hb.between (eventsOf_nil other.id) ?_
      rw [eventsOf_append, eventsOf_append, hinner, hlast, hend]
      rfl
    · have houter : eventsOf j es = [] := before.eventsOf_other fun hx => hapart _ hx _ hj rfl
      by_cases hx : j = child.id
      · -- It is the one that this phase has started.
        subst hx
        obtain ⟨es', x, rfl, hx⟩ := before.last
        exact ⟨child, rfl, w, d', id, es', block ++ [last], [], x, r.phase, r.success, by simp, known, hset, parent, hx,
          ⟨block, last, inner, of_workflow, closes, rfl⟩, flag, houter, hend⟩
      · -- It was started inside.
        obtain ⟨other, rfl, hb⟩ := ih' hblock j hj hx
        have hlast : eventsOf other.id [last] = [] := eventsOf_beside closes.about fun hy => hx hy.symm
        refine ⟨other, rfl, ?_⟩
        have hes : es ++ (block ++ [last]) ++ [.phaseCompleted id r.phase r.success] =
            es ++ block ++ ([last] ++ [.phaseCompleted id r.phase r.success]) := by simp
        rw [hes]
        exact hb.between houter (by rw [eventsOf_append, hlast, hend]; rfl)

/-- What events say of a run that is bracketed in them. -/
theorem Setup.Bracketed.eventsOf_own {child : Instance} (h : b.Bracketed settled es child)
    (hn : (startedIn es).Nodup) :
    ∃ last, child.Closes last ∧
      eventsOf child.id es = .workflowStarted child.id child.workflow :: phaseEvents child.id child.phases ++ [last] := by
  obtain ⟨w, d, parent, before, block, after, x, phase, success, rfl, -, -, -, -, told, -, h1, h2⟩ := h
  have hblock : (startedIn block).Nodup := by
    refine hn.sublist (List.Sublist.filterMap _ ?_)
    exact ((List.sublist_cons_self x block).trans (List.sublist_append_right ..)).trans (List.sublist_append_left ..)
  obtain ⟨last, closes, hown⟩ := told.eventsOf_own hblock
  refine ⟨last, closes, ?_⟩
  have hsplit : before ++ (x :: block) = before ++ [x] ++ block := by simp
  rw [hsplit, eventsOf_append, eventsOf_append, h1, h2, hown]
  simp

/-- All runs that the events of one start: itself, and those that are bracketed in its events. -/
theorem Setup.Told.started {root : Instance} (h : b.Told settled d root es) (hn : (startedIn es).Nodup) :
    ∀ j ∈ startedIn es, ∃ i, i.id = j ∧ (i = root ∨ settled i ∧ b.Bracketed settled es i) ∧ ∃ last, i.Closes last ∧
      eventsOf i.id es = .workflowStarted i.id i.workflow :: phaseEvents i.id i.phases ++ [last] := by
  intro j hj
  by_cases hroot : j = root.id
  · exact ⟨root, hroot.symm, .inl rfl, h.eventsOf_own hn⟩
  · obtain ⟨own, last, tale, hw, closes, rfl⟩ := h
    rw [startedIn_append, startedIn_closing closes, List.append_nil] at hj
    have hn' : (startedIn own).Nodup := by simpa [startedIn_closing closes] using hn
    obtain ⟨child, rfl, hbracket⟩ := tale.bracketed hn' j hj hroot
    have hlast : eventsOf child.id [last] = [] := eventsOf_beside closes.about fun hx => hroot hx.symm
    have hb : b.Bracketed settled (own ++ [last]) child := hbracket.between (eventsOf_nil child.id) hlast
    exact ⟨child, rfl, .inr ⟨hb.is_settled, hb⟩, hb.eventsOf_own hn⟩

theorem Setup.Told.about {root : Instance} (h : b.Told settled d root es) :
    ∀ x ∈ es, ∃ j ∈ startedIn es, x.instance? = some j := by
  obtain ⟨own, last, tale, hw, closes, rfl⟩ := h
  intro x hx
  rw [startedIn_append, startedIn_closing closes, List.append_nil]
  rcases List.mem_append.1 hx with hx | hx
  · exact tale.about x hx
  · obtain rfl := List.mem_singleton.1 hx
    exact ⟨root.id, tale.start_mem, closes.about⟩

end

end Grimoire.Workflow
