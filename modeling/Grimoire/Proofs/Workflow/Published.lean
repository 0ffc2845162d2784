import Grimoire.Proofs.Workflow.RunHistory

/-!
# Published instances

The published instances are numbered in the order of their start, so an id names one of them. This
module says what each operation does to the instance with a given id: `instance?_update`,
`instance?_publish`, `instance?_begin`, `instance?_cancel`, and for the abandoned ones
`abandonRounds_keeps` (runs whose ancestors are not abandoned stay as they are) and
`abandonRounds_cases` (all others that change were running and have failed). Ids and parents never
change (`Orchestrator.lineage`).
-/
namespace Grimoire.Workflow

open Event (InstanceId)
open Time (Instant)

namespace Orchestrator

/-- The instances are numbered in their order. -/
def Numbered (o : Orchestrator) : Prop :=
  ∀ (k : Nat) (i : Instance), o.instances[k]? = some i → i.id = .numbered (k + 1)

theorem instance?_some {o : Orchestrator} {id : InstanceId} {i : Instance} (h : o.instance? id = some i) :
    i ∈ o.instances ∧ i.id = id :=
  ⟨List.mem_of_find?_eq_some h, by simpa using List.find?_some h⟩

theorem Numbered.eq_of_id {o : Orchestrator} (h : o.Numbered) {i j : Instance} (hi : i ∈ o.instances)
    (hj : j ∈ o.instances) (hid : i.id = j.id) : i = j := by
  obtain ⟨k, hk⟩ := List.getElem?_of_mem hi
  obtain ⟨l, hl⟩ := List.getElem?_of_mem hj
  have hkl : k = l := by
    have := (h k i hk).symm.trans (hid.trans (h l j hl))
    simpa using this
  subst hkl
  exact Option.some.inj (hk.symm.trans hl)

theorem Numbered.instance?_eq {o : Orchestrator} (h : o.Numbered) {i : Instance} (hi : i ∈ o.instances) :
    o.instance? i.id = some i := by
  cases hf : o.instance? i.id with
  | none => simpa using List.find?_eq_none.1 hf i hi
  | some j =>
    obtain ⟨hj, hid⟩ := instance?_some hf
    rw [h.eq_of_id hj hi hid]

/-- The number after the last is new. -/
theorem Numbered.fresh {o : Orchestrator} (h : o.Numbered) :
    o.instance? (.numbered (o.instances.length + 1)) = none := by
  refine List.find?_eq_none.2 fun i hi => ?_
  obtain ⟨k, hk⟩ := List.getElem?_of_mem hi
  have hlt := (List.getElem?_eq_some_iff.1 hk).1
  rw [h k i hk]
  simp only [beq_iff_eq, InstanceId.numbered.injEq]
  omega

/-! ## Changes in place -/

/-- The orchestrator after a change of every instance in its place. -/
def mapInstances (o : Orchestrator) (f : Instance → Instance) : Orchestrator :=
  { o with instances := o.instances.map f }

theorem instance?_mapInstances (o : Orchestrator) {f : Instance → Instance} (hf : ∀ i, (f i).id = i.id)
    (id : InstanceId) : (o.mapInstances f).instance? id = (o.instance? id).map f := by
  simp only [instance?, mapInstances, List.find?_map, Function.comp_def, hf]

theorem Numbered.mapInstances {o : Orchestrator} (h : o.Numbered) {f : Instance → Instance}
    (hf : ∀ i, (f i).id = i.id) : (o.mapInstances f).Numbered := by
  intro k i hi
  simp only [Orchestrator.mapInstances, List.getElem?_map] at hi
  obtain ⟨j, hj, rfl⟩ := Option.map_eq_some_iff.1 hi
  rw [hf, h k j hj]

/-- A change of the instance with an id. -/
def changing (id : InstanceId) (f : Instance → Instance) (i : Instance) : Instance :=
  if i.id == id then f i else i

theorem update_eq (o : Orchestrator) (id : InstanceId) (f : Instance → Instance) :
    o.update id f = o.mapInstances (changing id f) := rfl

theorem changing_id {id : InstanceId} {f : Instance → Instance} (hf : ∀ i, i.id = id → (f i).id = id)
    (i : Instance) : (changing id f i).id = i.id := by
  unfold changing
  by_cases hi : i.id = id
  · simp [hi, hf i hi]
  · simp [hi]

theorem instance?_update (o : Orchestrator) {id : InstanceId} {f : Instance → Instance}
    (hf : ∀ i, i.id = id → (f i).id = id) (j : InstanceId) :
    (o.update id f).instance? j = if j = id then (o.instance? j).map f else o.instance? j := by
  rw [update_eq, instance?_mapInstances o (changing_id hf)]
  cases h : o.instance? j with
  | none => simp
  | some i =>
    obtain ⟨_, rfl⟩ := instance?_some h
    by_cases hj : i.id = id <;> simp [changing, hj]

/-- An instance in the place of the one with its id. -/
theorem instance?_replace (o : Orchestrator) (i : Instance) {id : InstanceId} (hi : i.id = id) {old : Instance}
    (h : o.instance? id = some old) (j : InstanceId) :
    (o.update id fun _ => i).instance? j = if j = id then some i else o.instance? j := by
  rw [instance?_update o fun _ _ => hi]
  by_cases hj : j = id <;> simp [hj, h]

/-! ## Publishing -/

/-- What is published of a view where `old` was. -/
def published (old run : Instance) : Instance :=
  if run.status = .running ∧ old.status = .cancelled then { run with status := .cancelled } else run

@[simp] theorem published_phases (old run : Instance) : (published old run).phases = run.phases := by
  unfold published
  split <;> rfl

@[simp] theorem published_currentPhase (old run : Instance) :
    (published old run).currentPhase = run.currentPhase := by
  unfold published
  split <;> rfl

@[simp] theorem published_results (old run : Instance) : (published old run).results = run.results := by
  unfold published
  split <;> rfl

@[simp] theorem published_totalPhases (old run : Instance) : (published old run).totalPhases = run.totalPhases := by
  unfold published
  split <;> rfl

theorem instance?_publish (o : Orchestrator) {run old : Instance} (h : o.instance? run.id = some old)
    (j : InstanceId) :
    (o.publish run).instance? j = if j = run.id then some (published old run) else o.instance? j := by
  have hc : o.isCancelled run.id = true ↔ old.status = .cancelled := by simp [isCancelled, h]
  by_cases hp : run.status = .running ∧ old.status = .cancelled
  · have hp' : run.status = .running ∧ o.isCancelled run.id = true := ⟨hp.1, hc.2 hp.2⟩
    simp only [publish, published, if_pos hp', if_pos hp]
    exact instance?_replace o { run with status := .cancelled } rfl h j
  · have hp' : ¬ (run.status = .running ∧ o.isCancelled run.id = true) := fun hx => hp ⟨hx.1, hc.1 hx.2⟩
    simp only [publish, published, if_neg hp', if_neg hp]
    exact instance?_replace o run rfl h j

theorem Numbered.publish {o : Orchestrator} (h : o.Numbered) (run : Instance) : (o.publish run).Numbered := by
  unfold Orchestrator.publish
  split <;> exact h.mapInstances (changing_id fun _ _ => rfl)

/-! ## Abandoning -/

/-- A child is abandoned, once or more often. -/
def abandoning (now : Instant) (children : List InstanceId) (i : Instance) : Instance :=
  if children.contains i.id then abandoned now i else i

@[simp] theorem abandoning_id (now : Instant) (children : List InstanceId) (i : Instance) :
    (abandoning now children i).id = i.id := by
  unfold abandoning
  split <;> rfl

@[simp] theorem abandoning_parent (now : Instant) (children : List InstanceId) (i : Instance) :
    (abandoning now children i).parent = i.parent := by
  unfold abandoning
  split <;> rfl

theorem foldl_update_abandoned (now : Instant) (children : List InstanceId) (o : Orchestrator) :
    children.foldl (fun o id => o.update id (abandoned now)) o = o.mapInstances (abandoning now children) := by
  induction children generalizing o with
  | nil =>
    have hid : abandoning now [] = fun i => i := by funext i; simp [abandoning]
    simp [mapInstances, hid]
  | cons id ids ih =>
    rw [List.foldl_cons, ih, update_eq]
    simp only [mapInstances, List.map_map, Orchestrator.mk.injEq, true_and, and_true]
    refine List.map_congr_left ?_
    intro i _
    by_cases hi : i.id = id <;> by_cases hm : i.id ∈ ids <;>
      simp [abandoning, changing, abandoned, hi, hm]

theorem abandonRounds_succ (now : Instant) (rounds : Nat) (parents : List InstanceId) (o : Orchestrator) :
    abandonRounds now (rounds + 1) parents o =
      if o.runningChildren parents = [] then o
      else abandonRounds now rounds (o.runningChildren parents)
        (o.mapInstances (abandoning now (o.runningChildren parents))) := by
  rw [abandonRounds, ← foldl_update_abandoned]
  split
  · next h => simp [h]
  · next children h =>
    rw [if_neg]
    exact fun hx => h hx

theorem mem_runningChildren {o : Orchestrator} {parents : List InstanceId} {id : InstanceId} :
    id ∈ o.runningChildren parents ↔ ∃ i ∈ o.instances, i.status = .running ∧
      (∃ p, i.parent = some p ∧ p ∈ parents) ∧ i.id = id := by
  simp only [runningChildren, active, List.mem_map, List.mem_filter, Option.any_eq_true, beq_iff_eq,
    List.contains_iff_mem]
  constructor
  · rintro ⟨i, ⟨⟨hi, hr⟩, p, hp, hm⟩, hid⟩; exact ⟨i, hi, hr, ⟨p, hp, hm⟩, hid⟩
  · rintro ⟨i, hi, hr, ⟨p, hp, hm⟩, hid⟩; exact ⟨i, ⟨⟨hi, hr⟩, p, hp, hm⟩, hid⟩

/-- **Abandoning spares** a family of instances that is closed under parents and has no child of the
abandoned parents. -/
theorem abandonRounds_keeps (now : Instant) (K : InstanceId → Prop) : ∀ (rounds : Nat)
    (parents : List InstanceId) (o : Orchestrator),
    (∀ i ∈ o.instances, K i.id → ∀ p, i.parent = some p → K p ∧ p ∉ parents) →
    ∀ id, K id → (abandonRounds now rounds parents o).instance? id = o.instance? id
  | 0, _, _, _, _, _ => rfl
  | rounds + 1, parents, o, h, id, hid => by
    rw [abandonRounds_succ]
    split
    · rfl
    · -- No kept instance is a child of the parents, so none is abandoned in this round or a parent in the next.
      have hnone : ∀ id, K id → id ∉ o.runningChildren parents := by
        intro id hk hm
        obtain ⟨i, hi, _, ⟨p, hp, hmem⟩, rfl⟩ := mem_runningChildren.1 hm
        exact (h i hi hk p hp).2 hmem
      rw [abandonRounds_keeps now K rounds _ _ (fun i hi hk p hp => ?_) id hid,
        instance?_mapInstances o (abandoning_id now _)]
      · cases hf : o.instance? id with
        | none => rfl
        | some i =>
          obtain ⟨_, rfl⟩ := instance?_some hf
          simp [abandoning, hnone i.id hid]
      · obtain ⟨j, hj, rfl⟩ := List.mem_map.1 hi
        rw [abandoning_id] at hk
        rw [abandoning_parent] at hp
        have hkp := (h j hj hk p hp).1
        exact ⟨hkp, hnone p hkp⟩

theorem Numbered.abandonRounds {now : Instant} : ∀ (rounds : Nat) (parents : List InstanceId)
    {o : Orchestrator}, o.Numbered → (o.abandonRounds now rounds parents).Numbered
  | 0, _, _, h => h
  | rounds + 1, parents, o, h => by
    rw [abandonRounds_succ]
    split
    · exact h
    · exact Numbered.abandonRounds rounds _ (h.mapInstances (abandoning_id now _))

/-- **What is abandoned** was running and has failed. -/
theorem abandonRounds_cases (now : Instant) (id : InstanceId) : ∀ (rounds : Nat) (parents : List InstanceId)
    {o : Orchestrator}, o.Numbered →
    (o.abandonRounds now rounds parents).instance? id = o.instance? id ∨
      ∃ i, o.instance? id = some i ∧ i.status = .running ∧
        (o.abandonRounds now rounds parents).instance? id = some (abandoned now i)
  | 0, _, _, _ => .inl rfl
  | rounds + 1, parents, o, h => by
    rw [abandonRounds_succ]
    split
    · exact .inl rfl
    · have hr := abandonRounds_cases now id rounds (o.runningChildren parents)
        (h.mapInstances (abandoning_id now (o.runningChildren parents)))
      rw [instance?_mapInstances o (abandoning_id now _)] at hr
      cases hf : o.instance? id with
      | none => simpa [hf] using hr
      | some i =>
        obtain ⟨hi, rfl⟩ := instance?_some hf
        by_cases hm : i.id ∈ o.runningChildren parents
        · -- It fails in this round, so no later round takes it for running.
          obtain ⟨j, hj, hrun, _, hid⟩ := mem_runningChildren.1 hm
          obtain rfl := h.eq_of_id hj hi hid
          simp only [hf, Option.map_some, abandoning, List.contains_iff_mem, hm, if_true] at hr
          rcases hr with hr | ⟨k, hk, hkr, _⟩
          · exact .inr ⟨j, rfl, hrun, hr⟩
          · obtain rfl := Option.some.inj hk
            simp [abandoned] at hkr
        · simpa [hf, abandoning, hm] using hr

/-! ## Starting -/

theorem instance?_append {o : Orchestrator} {i : Instance} (h : o.instance? i.id = none) (id : InstanceId) :
    ({ o with instances := o.instances ++ [i] } : Orchestrator).instance? id =
      if id = i.id then some i else o.instance? id := by
  simp only [instance?, List.find?_append] at h ⊢
  by_cases hid : id = i.id
  · subst hid
    simp [h]
  · have hne : (i.id == id) = false := by simpa using fun hx : i.id = id => hid hx.symm
    simp [hid, hne]

theorem Numbered.append {o : Orchestrator} (h : o.Numbered) {i : Instance}
    (hi : i.id = .numbered (o.instances.length + 1)) :
    ({ o with instances := o.instances ++ [i] } : Orchestrator).Numbered := by
  intro k j hk
  rcases getElem?_snoc hk with hk | ⟨rfl, rfl⟩
  · exact h k j hk
  · exact hi

end Orchestrator

/-- A run that starts is published under a new number, beside all others. -/
theorem instance?_begin {s : Stage} (h : s.orchestrator.Numbered) (d : Definition) (context : Json)
    (parent : Option InstanceId) (id : InstanceId) :
    (s.begin d context parent).1.orchestrator.instance? id =
      if id = (s.begin d context parent).2.run.id then some (s.begin d context parent).2.run
      else s.orchestrator.instance? id :=
  Orchestrator.instance?_append (i := (s.begin d context parent).2.run) h.fresh id

theorem numbered_begin {s : Stage} (h : s.orchestrator.Numbered) (d : Definition) (context : Json)
    (parent : Option InstanceId) : (s.begin d context parent).1.orchestrator.Numbered :=
  Orchestrator.Numbered.append (i := (s.begin d context parent).2.run) h rfl

/-! ## Ending and cancelling -/

theorem instance?_congr {o o' : Orchestrator} (h : o'.instances = o.instances) (id : InstanceId) :
    o'.instance? id = o.instance? id := by
  simp only [Orchestrator.instance?, h]

theorem instances_conclude (s : Stage) (run : Instance) (duration : Nat) :
    (s.conclude run duration).orchestrator.instances = s.orchestrator.instances := by
  unfold Stage.conclude
  split <;> rfl

theorem instances_ended (s : Stage) (f : Frame) :
    (s.ended f).orchestrator.instances = (s.orchestrator.publish (f.ending s)).instances :=
  instances_conclude ..

/-- A run that ends publishes its view, and no other instance changes. -/
theorem instance?_ended {s : Stage} {f : Frame} {old : Instance}
    (h : s.orchestrator.instance? f.run.id = some old) (id : InstanceId) :
    (s.ended f).orchestrator.instance? id =
      if id = f.run.id then some (Orchestrator.published old (f.ending s)) else s.orchestrator.instance? id := by
  have hend : s.orchestrator.instance? (f.ending s).id = some old := h
  rw [instance?_congr (instances_ended s f)]
  exact Orchestrator.instance?_publish _ hend id

/-- A request to stop, to a running instance. -/
def Instance.stopAsked (now : Instant) (i : Instance) : Instance :=
  if i.status = .running then { i with status := .cancelled, ended := some now } else i

@[simp] theorem Instance.stopAsked_parent (now : Instant) (i : Instance) :
    (i.stopAsked now).parent = i.parent := by
  unfold stopAsked
  split <;> rfl

@[simp] theorem Instance.stopAsked_phases (now : Instant) (i : Instance) :
    (i.stopAsked now).phases = i.phases := by
  unfold stopAsked
  split <;> rfl

@[simp] theorem Instance.stopAsked_currentPhase (now : Instant) (i : Instance) :
    (i.stopAsked now).currentPhase = i.currentPhase := by
  unfold stopAsked
  split <;> rfl

@[simp] theorem Instance.stopAsked_results (now : Instant) (i : Instance) :
    (i.stopAsked now).results = i.results := by
  unfold stopAsked
  split <;> rfl

@[simp] theorem Instance.stopAsked_totalPhases (now : Instant) (i : Instance) :
    (i.stopAsked now).totalPhases = i.totalPhases := by
  unfold stopAsked
  split <;> rfl

theorem Instance.stopAsked_ne_running (now : Instant) (i : Instance) : (i.stopAsked now).status ≠ .running := by
  unfold stopAsked
  split
  · simp
  · assumption

theorem instance?_cancel (s : Stage) (id j : InstanceId) :
    (s.cancel id).2.orchestrator.instance? j =
      if j = id then (s.orchestrator.instance? j).map (·.stopAsked s.now)
      else s.orchestrator.instance? j := by
  unfold Stage.cancel
  split
  · next h =>
    let stop (i : Instance) : Instance := { i with status := .cancelled, ended := some s.now }
    have hstop : ∀ i, i.id = id → (stop i).id = id := fun _ hi => hi
    refine (Orchestrator.instance?_update s.orchestrator hstop j).trans ?_
    by_cases hj : j = id
    · subst hj
      obtain ⟨i, hi, hrun⟩ := (Option.any_eq_true _ _).1 h
      simp [hi, stop, Instance.stopAsked, beq_iff_eq.1 hrun]
    · simp [hj]
  · next h =>
    by_cases hj : j = id
    · subst hj
      cases hi : s.orchestrator.instance? j with
      | none => simp
      | some i =>
        have hrun : i.status ≠ .running := by simpa [hi] using h
        simp [Instance.stopAsked, hrun]
    · simp [hj]

theorem numbered_cancel {s : Stage} (h : s.orchestrator.Numbered) (id : InstanceId) :
    (s.cancel id).2.orchestrator.Numbered := by
  unfold Stage.cancel
  split
  · exact h.mapInstances (Orchestrator.changing_id fun _ hi => hi)
  · exact h

/-! ## Lineage -/

namespace Orchestrator

/-- The id and the parent of each published instance, in order. Only a start adds to them. -/
def lineage (o : Orchestrator) : List (InstanceId × Option InstanceId) :=
  o.instances.map fun i => (i.id, i.parent)

theorem mem_lineage {o : Orchestrator} {id : InstanceId} {parent : Option InstanceId} :
    (id, parent) ∈ o.lineage ↔ ∃ i ∈ o.instances, i.id = id ∧ i.parent = parent := by
  simp [lineage]

theorem length_lineage (o : Orchestrator) : o.lineage.length = o.instances.length := by
  simp [lineage]

theorem lineage_mapInstances {o : Orchestrator} {f : Instance → Instance}
    (hf : ∀ i ∈ o.instances, (f i).id = i.id ∧ (f i).parent = i.parent) :
    (o.mapInstances f).lineage = o.lineage := by
  simp only [lineage, mapInstances, List.map_map]
  refine List.map_congr_left ?_
  intro i hi
  obtain ⟨hid, hp⟩ := hf i hi
  simp [hid, hp]

/-- A run keeps its parent when it publishes its view. -/
theorem lineage_publish {o : Orchestrator} (h : o.Numbered) {run old : Instance}
    (hold : o.instance? run.id = some old) (hp : old.parent = run.parent) :
    (o.publish run).lineage = o.lineage := by
  have replaced : ∀ new : Instance, new.id = run.id → new.parent = run.parent →
      (o.update run.id fun _ => new).lineage = o.lineage := by
    intro new hid hparent
    rw [update_eq]
    apply lineage_mapInstances
    intro i hi
    by_cases hx : i.id = run.id
    · have hio : o.instance? run.id = some i := hx ▸ h.instance?_eq hi
      rw [hold] at hio
      obtain rfl := Option.some.inj hio
      simp [changing, hx, hid, hparent, hp]
    · simp [changing, hx]
  unfold publish
  split
  · exact replaced _ rfl rfl
  · exact replaced _ rfl rfl

theorem lineage_abandonRounds (now : Instant) : ∀ (rounds : Nat) (parents : List InstanceId) (o : Orchestrator),
    (o.abandonRounds now rounds parents).lineage = o.lineage
  | 0, _, _ => rfl
  | rounds + 1, parents, o => by
    rw [abandonRounds_succ]
    split
    · rfl
    · rw [lineage_abandonRounds now rounds]
      exact lineage_mapInstances fun i _ => ⟨abandoning_id .., abandoning_parent ..⟩

end Orchestrator

theorem lineage_begin (s : Stage) (d : Definition) (context : Json) (parent : Option InstanceId) :
    (s.begin d context parent).1.orchestrator.lineage =
      s.orchestrator.lineage ++ [((s.begin d context parent).2.run.id, parent)] := by
  simp [Orchestrator.lineage, Stage.begin, Stage.announce]

theorem lineage_ended {s : Stage} (h : s.orchestrator.Numbered) {f : Frame} {old : Instance}
    (hold : s.orchestrator.instance? f.run.id = some old) (hp : old.parent = f.run.parent) :
    (s.ended f).orchestrator.lineage = s.orchestrator.lineage := by
  have hend : s.orchestrator.instance? (f.ending s).id = some old := hold
  rw [Orchestrator.lineage, instances_ended]
  exact Orchestrator.lineage_publish h hend hp

theorem lineage_cancel (s : Stage) (id : InstanceId) :
    (s.cancel id).2.orchestrator.lineage = s.orchestrator.lineage := by
  unfold Stage.cancel
  split
  · refine Orchestrator.lineage_mapInstances (o := s.orchestrator) ?_
    intro i _
    by_cases hi : i.id = id <;> simp [hi]
  · rfl

end Grimoire.Workflow
