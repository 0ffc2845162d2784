import Grimoire.Proofs.Workflow.Stacks

/-!
# The life of one instance

A run and its published instance are seen together, under the id of the instance. `Move` lists what
the run does to itself while the instance stays; `Turn` lists all that can become of the pair in one
step of a system, and `Step.turn` says that the list is complete. What is said of one instance through
a history is then a case analysis over turns.
-/
namespace Grimoire.Workflow

open Event (InstanceId)

/-! ## The frame of an instance -/

/-- The frame that runs the instance with an id. -/
def frameOf? (fs : List Frame) (id : InstanceId) : Option Frame := fs.find? (·.run.id == id)

theorem frameOf?_cons (f : Frame) (fs : List Frame) (id : InstanceId) :
    frameOf? (f :: fs) id = if id = f.run.id then some f else frameOf? fs id := by
  by_cases h : id = f.run.id
  · simp [frameOf?, h]
  · have hne : (f.run.id == id) = false := by simpa using fun hx : f.run.id = id => h hx.symm
    simp [frameOf?, h, hne]

theorem frameOf?_some {fs : List Frame} {id : InstanceId} {f : Frame} (h : frameOf? fs id = some f) :
    f ∈ fs ∧ f.run.id = id :=
  ⟨List.mem_of_find?_eq_some h, by simpa using List.find?_some h⟩

theorem frameOf?_eq_none {fs : List Frame} {id : InstanceId} :
    frameOf? fs id = none ↔ ∀ f ∈ fs, f.run.id ≠ id := by
  simp [frameOf?]

theorem frameOf?_append_left {fs gs : List Frame} {id : InstanceId} (h : ∀ f ∈ fs, f.run.id ≠ id) :
    frameOf? (fs ++ gs) id = frameOf? gs id := by
  have hnone : fs.find? (·.run.id == id) = none := frameOf?_eq_none.2 h
  simp [frameOf?, hnone]

theorem Family.frameOf?_eq {o : Orchestrator} {fs : List Frame} (h : Family o fs) {f : Frame} (hf : f ∈ fs) :
    frameOf? fs f.run.id = some f := by
  have hd := h.distinct
  clear h
  induction fs with
  | nil => simp at hf
  | cons g fs ih =>
    rw [List.map_cons, List.nodup_cons] at hd
    rw [frameOf?_cons]
    rcases List.mem_cons.1 hf with rfl | hf
    · simp
    · rw [if_neg]
      · exact ih hf hd.2
      · exact fun hx => hd.1 (List.mem_map.2 ⟨f, hf, hx⟩)

theorem Family.frameOf?_perm {o : Orchestrator} {fs gs : List Frame} (h : Family o fs) (hp : fs.Perm gs)
    (id : InstanceId) : frameOf? fs id = frameOf? gs id := by
  cases hg : frameOf? gs id with
  | none =>
    rw [frameOf?_eq_none] at hg ⊢
    exact fun f hf => hg f (hp.mem_iff.1 hf)
  | some g =>
    obtain ⟨hmem, rfl⟩ := frameOf?_some hg
    exact h.frameOf?_eq (hp.mem_iff.2 hmem)

def System.frame? (t : System) (id : InstanceId) : Option Frame := frameOf? t.frames id

def System.instance? (t : System) (id : InstanceId) : Option Instance := t.orchestrator.instance? id

/-! ## Moves and turns -/

/-- What a run does to itself while its published instance is `i`. -/
inductive Move (s : Stage) (i : Instance) (f : Frame) : Frame → Prop
  /-- It sees that it is cancelled. -/
  | observe (at_check : f.control = .check) (seen : i.status = .cancelled) : Move s i f f.stopped
  /-- It starts a phase and waits. -/
  | enter {p : Phase} {c : Control} (at_check : f.control = .check) (unseen : i.status ≠ .cancelled)
      (follows : f.next? = some p)
      (waits : ({ f.entering with control := c } : Frame).underway? = some (s.underway f.entering p)) :
      Move s i f { f.entering with control := c }
  /-- It starts a phase that fails at once. -/
  | refuse {p : Phase} (e : WorkflowError) (at_check : f.control = .check) (unseen : i.status ≠ .cancelled)
      (follows : f.next? = some p) :
      Move s i f (s.endPhase f.entering (s.underway f.entering p) (.error e)).2
  /-- It has no phase left to start. -/
  | exhausted (at_check : f.control = .check) (none_left : f.next? = none) :
      Move s i f { f with control := .finish }
  /-- It hears an answer and waits for others. -/
  | hear {u : Underway} {calls : List Call} (calls' : List Call) (at_calls : f.control = .calling u calls) :
      Move s i f { f with control := .calling u calls' }
  /-- Its phase ends. -/
  | endPhase {u : Underway} (at_end : Stage) (outcome : Except WorkflowError Json)
      (underway : f.underway? = some u) : Move s i f (at_end.endPhase f u outcome).2

/-- What becomes of a run and its published instance when something happens; only a timeout takes a run
away before its end. -/
inductive Turn (s : Stage) (x : Happening) (id : InstanceId) :
    Option Frame → Option Instance → Option Frame → Option Instance → Prop
  | rest {f? : Option Frame} {i? : Option Instance} : Turn s x id f? i? f? i?
  | start {w : String} {d : Definition} (context : Json) (parent : Option InstanceId)
      (known : s.orchestrator.definitions.get? w = some d) (new : (s.begin d context parent).2.run.id = id) :
      Turn s x id none none (some (s.begin d context parent).2) (some (s.begin d context parent).2.run)
  | move {f f' : Frame} {i : Instance} (m : Move s i f f') : Turn s x id (some f) (some i) (some f') (some i)
  | publish {f : Frame} {i : Instance} {stop : Bool} (at_publish : f.control = .publish stop) :
      Turn s x id (some f) (some i) (some { f with control := if stop then .finish else f.between })
        (some (Orchestrator.published i f.run))
  | ending {f : Frame} {i : Instance} (at_finish : f.control = .finish) :
      Turn s x id (some f) (some i) none (some (Orchestrator.published i (f.ending s)))
  | drop {f : Frame} {i : Instance} (timeout : x.level?.isSome = true) : Turn s x id (some f) (some i) none (some i)
  | abandon {f? : Option Frame} {i : Instance} (timeout : x.level?.isSome = true) (running : i.status = .running) :
      Turn s x id f? (some i) none (some (Orchestrator.abandoned s.now i))
  | cancel {f? : Option Frame} {i : Instance} (asked : x = .cancel id) :
      Turn s x id f? (some i) f? (some (i.stopAsked s.now))

/-- An instance stays published. -/
theorem Turn.published {s : Stage} {x : Happening} {id : InstanceId} {i : Instance} {f? f'? : Option Frame}
    {i'? : Option Instance} (h : Turn s x id f? (some i) f'? i'?) : ∃ i', i'? = some i' := by
  cases h <;> exact ⟨_, rfl⟩

theorem Frame.published_ending_ne_running (s : Stage) (f : Frame) (old : Instance) :
    (Orchestrator.published old (f.ending s)).status ≠ .running := by
  have hst : (f.ending s).status ≠ .running := by
    by_cases hr : f.run.status = .running <;> simp [Frame.ending, hr]
  simp [Orchestrator.published, hst]

/-- An instance without a run keeps its phases and its parent. -/
theorem Turn.settled {s : Stage} {x : Happening} {id : InstanceId} {i : Instance} {f'? : Option Frame}
    {i'? : Option Instance} (h : Turn s x id none (some i) f'? i'?) :
    f'? = none ∧ ∃ i', i'? = some i' ∧ i'.phases = i.phases ∧ i'.parent = i.parent := by
  cases h with
  | rest => exact ⟨rfl, i, rfl, rfl, rfl⟩
  | abandon => exact ⟨rfl, _, rfl, rfl, rfl⟩
  | cancel => exact ⟨rfl, _, rfl, Instance.stopAsked_phases .., Instance.stopAsked_parent ..⟩

/-! ## Turns of a block -/

section
variable {s s' : Stage} {f g : Frame} {below others : List Frame} {x : Happening} {u : Task}
  {id : InstanceId} {i : Instance}

/-- The first frame moves, and no instance changes. -/
theorem Move.turn {f' : Frame} {fs : List Frame} {o : Orchestrator} (m : Move s i f f')
    (hid : f'.run.id = f.run.id) (hi : s.orchestrator.instance? f.run.id = some i)
    (hs : o.instance? id = s.orchestrator.instance? id) :
    Turn s x id (frameOf? (f :: fs) id) (s.orchestrator.instance? id) (frameOf? (f' :: fs) id)
      (o.instance? id) := by
  rw [hs, frameOf?_cons, frameOf?_cons, hid]
  by_cases hx : id = f.run.id
  · subst hx
    rw [if_pos rfl, if_pos rfl, hi]
    exact .move m
  · rw [if_neg hx, if_neg hx]
    exact .rest

/-- The frames beside one do not run its instance. -/
theorem Family.frameOf?_beside {o : Orchestrator} {fs : List Frame} (h : Family o (f :: fs)) :
    frameOf? fs f.run.id = none :=
  frameOf?_eq_none.2 fun _ hg => h.ne_of_mem hg

/-- A run starts beside others. -/
theorem turn_begin {fs fs' : List Frame} {w : String} {d : Definition} (hf : Family s.orchestrator fs)
    (known : s.orchestrator.definitions.get? w = some d) (context : Json) (parent : Option InstanceId)
    (id : InstanceId)
    (beside : Turn s x id (frameOf? fs id) (s.orchestrator.instance? id) (frameOf? fs' id)
      (s.orchestrator.instance? id)) :
    Turn s x id (frameOf? fs id) (s.orchestrator.instance? id)
      (frameOf? ((s.begin d context parent).2 :: fs') id)
      ((s.begin d context parent).1.orchestrator.instance? id) := by
  rw [instance?_begin hf.numbered, frameOf?_cons]
  by_cases hx : id = (s.begin d context parent).2.run.id
  · have hfresh : s.orchestrator.instance? id = none := hx ▸ hf.numbered.fresh
    have hnone : frameOf? fs id = none := by
      refine frameOf?_eq_none.2 fun k hk hkid => ?_
      obtain ⟨j, hj, _⟩ := hf.published k hk
      rw [hkid, hfresh] at hj
      cases hj
    rw [if_pos hx, if_pos hx, hfresh, hnone]
    exact .start context parent known hx.symm
  · rw [if_neg hx, if_neg hx]
    exact beside

/-- A run ends, and no other changes. -/
theorem turn_ended {fs : List Frame} (hf : Family s.orchestrator (f :: fs)) (hfin : f.control = .finish)
    (id : InstanceId) :
    Turn s x id (frameOf? (f :: fs) id) (s.orchestrator.instance? id) (frameOf? fs id)
      ((s.ended f).orchestrator.instance? id) := by
  obtain ⟨i, hi, _⟩ := hf.published f (by simp)
  rw [instance?_ended hi, frameOf?_cons]
  by_cases hx : id = f.run.id
  · subst hx
    rw [if_pos rfl, if_pos rfl, hi, hf.frameOf?_beside]
    exact .ending hfin
  · rw [if_neg hx, if_neg hx]
    exact .rest

/-- A timeout takes away the frames it drops, and abandons none that is left. -/
theorem turn_expire {o : Orchestrator} {outer dropped : List Frame} {v : Underway} (e : WorkflowError)
    (late : x.level?.isSome = true)
    (hf : Family s.orchestrator (dropped ++ (g :: outer ++ others))) (hc : Chained (g :: outer))
    (ho : ClosedUp others) (hu : g.underway? = some v)
    (hx : o = match g.control with
      | .nested _ => s.orchestrator.abandonChildren s.now g.run.id
      | _ => s.orchestrator) :
    Turn s x id (frameOf? (dropped ++ (g :: outer ++ others)) id) (s.orchestrator.instance? id)
      (frameOf? ((Stage.endPhase { s with orchestrator := o } g v (.error e)).2 :: (outer ++ others)) id)
      (o.instance? id) := by
  have hleft : Family s.orchestrator (g :: outer ++ others) := hf.drop dropped
  have hid := endPhase_id { s with orchestrator := o } g v (.error e)
  by_cases hmem : ∃ k ∈ g :: outer ++ others, k.run.id = id
  · -- The frame stays, and its instance with it.
    obtain ⟨k, hk, rfl⟩ := hmem
    have hkeep := hleft.instance?_left hc ho hx k hk
    have hapart : ∀ l ∈ dropped, l.run.id ≠ k.run.id := by
      have hd := hf.distinct
      rw [List.map_append, List.nodup_append] at hd
      exact fun l hl => hd.2.2 _ (List.mem_map_of_mem hl) _ (List.mem_map_of_mem hk)
    rw [frameOf?_append_left hapart]
    obtain ⟨i, hi, _⟩ := hleft.published g (by simp)
    exact Move.turn (.endPhase _ _ hu) hid hi hkeep
  · -- No frame is left, and the instance may have been abandoned.
    have hnone : frameOf? ((Stage.endPhase { s with orchestrator := o } g v (.error e)).2 :: (outer ++ others)) id
        = none := by
      refine frameOf?_eq_none.2 fun k hk hx => hmem ?_
      rcases List.mem_cons.1 hk with rfl | hk
      · exact ⟨g, by simp, hid.symm.trans hx⟩
      · exact ⟨k, List.mem_cons_of_mem _ hk, hx⟩
    have hcases : o.instance? id = s.orchestrator.instance? id ∨
        ∃ i, s.orchestrator.instance? id = some i ∧ i.status = .running ∧
          o.instance? id = some (Orchestrator.abandoned s.now i) := by
      subst hx
      split
      · exact Orchestrator.abandonRounds_cases s.now id _ _ hf.numbered
      · exact .inl rfl
    rw [hnone]
    rcases hcases with hsame | ⟨i, hi, hrun, hab⟩
    · rw [hsame]
      cases hframe : frameOf? (dropped ++ (g :: outer ++ others)) id with
      | none => exact .rest
      | some k =>
        obtain ⟨hk, rfl⟩ := frameOf?_some hframe
        obtain ⟨i, hi, _⟩ := hf.published k hk
        rw [hi]
        exact .drop late
    · rw [hi, hab]
      exact .abandon late hrun

/-- **One block**, seen from one instance. -/
theorem Work.turn (h : Work s f below x.level? s' u) (hf : Family s.orchestrator (f :: below ++ others))
    (hc : Chained (f :: below)) (ho : ClosedUp others) (id : InstanceId) :
    Turn s x id (frameOf? (f :: below ++ others) id) (s.orchestrator.instance? id)
      (frameOf? (u.frames ++ others) id) (s'.orchestrator.instance? id) := by
  obtain ⟨i, hi, _⟩ := hf.published f (by simp)
  have unseen (hx : s.orchestrator.isCancelled f.run.id = false) : i.status ≠ .cancelled := by
    simpa [Orchestrator.isCancelled, hi] using hx
  generalize hlate : x.level? = late at h
  cases h with
  | observe hcheck seen =>
    have hst : i.status = .cancelled := by simpa [Orchestrator.isCancelled, hi] using seen
    exact Move.turn (.observe hcheck hst) rfl hi rfl
  | ask host calls hcheck hu hp => exact Move.turn (.enter hcheck (unseen hu) hp rfl) rfl hi rfl
  | refuse e hcheck hu hp =>
    exact Move.turn (.refuse e hcheck (unseen hu) hp) (endPhase_id s f.entering _ (.error e)) hi rfl
  | @descend p w d context hcheck hu hp ha hknown =>
    refine turn_begin hf hknown context (some f.run.id) id ?_
    exact Move.turn (.enter hcheck (unseen hu) hp rfl) rfl hi rfl
  | exhausted hcheck hn => exact Move.turn (.exhausted hcheck hn) rfl hi rfl
  | publish hpub =>
    change Turn s x id (frameOf? (f :: (below ++ others)) id) _
      (frameOf? ({ f with control := _ } :: (below ++ others)) id) _
    rw [Orchestrator.instance?_publish _ hi, frameOf?_cons, frameOf?_cons]
    by_cases hx : id = f.run.id
    · subst hx
      rw [if_pos rfl, if_pos rfl, if_pos rfl, hi]
      exact .publish hpub
    · rw [if_neg hx, if_neg hx, if_neg hx]
      exact .rest
  | conclude hfin hout =>
    subst hout
    exact turn_ended hf hfin id
  | @deliver g outer v w hfin hbelow hg =>
    subst hbelow
    have hid := endPhase_id (s.ended f) g v (Stage.nestedOutcome v.phase w (f.result s))
    have hgf : g.run.id ≠ f.run.id := hf.ne_of_mem (by simp)
    have hended : Turn s x id (frameOf? (f :: g :: (outer ++ others)) id) _
        (frameOf? (g :: (outer ++ others)) id) _ := turn_ended hf hfin id
    rw [frameOf?_cons g] at hended
    change Turn s x id _ _ (frameOf? (_ :: (outer ++ others)) id) ((s.ended f).orchestrator.instance? id)
    rw [frameOf?_cons, hid]
    by_cases hx : id = g.run.id
    · -- The run that waited goes on, and its instance is as before.
      subst hx
      obtain ⟨j, hj, _⟩ := hf.published g (by simp)
      have hj' : (s.ended f).orchestrator.instance? g.run.id = some j := by
        rw [instance?_ended hi, if_neg hgf, hj]
      rw [if_pos rfl, hj, hj', hf.frameOf?_eq (f := g) (by simp)]
      exact .move (.endPhase _ _ (by simp only [Frame.underway?, hg]))
    · rw [if_neg hx] at hended ⊢
      exact hended
  | hear host calls' hcalls => exact Move.turn (.hear calls' hcalls) rfl hi rfl
  | answer host outcome hcalls =>
    refine Move.turn (.endPhase _ outcome ?_) (endPhase_id _ f _ outcome) hi rfl
    simp only [Frame.underway?, hcalls]
  | @expire g outer dropped v e hsplit hu o hx =>
    rw [hsplit] at hf hc ⊢
    rw [List.append_assoc] at hf ⊢
    exact turn_expire e (by simp [hlate]) hf hc.drop ho hu hx

end

/-- **One step** of a system, seen from one instance. -/
theorem Step.turn {s t : System} {h : Happening} (hst : Step s h t) (hk : s.Kept) (id : InstanceId) :
    Turn s.toStage h id (s.frame? id) (s.instance? id) (t.frame? id) (t.instance? id) := by
  have hf := hk.consistent.family
  have ht := (hst.consistent hk.sound hk.consistent).family
  unfold System.frame? System.instance?
  cases hst with
  | unknown =>
    simp only [System.frames, List.flatMap_append, List.flatMap_singleton, Task.frames, List.append_nil]
    exact .rest
  | @start w context d hknown =>
    have hp : (System.mk (s.toStage.begin d context none).1
        (s.tasks ++ [.running (s.toStage.begin d context none).2 []])).frames.Perm
          ((s.toStage.begin d context none).2 :: s.frames) := by
      simp [System.frames, Task.frames]
    rw [ht.frameOf?_perm hp]
    exact turn_begin hf hknown context none id .rest
  | @work _ task f below stage u on found work =>
    rw [hf.frameOf?_perm (frames_perm found), ht.frameOf?_perm (frames_set_perm found stage u)]
    obtain ⟨hfam, hc⟩ := hk.consistent.at found
    exact work.turn hfam hc (hk.consistent.closedUp task) id
  | @cancel id' =>
    change Turn _ _ id (frameOf? s.frames id) _ (frameOf? s.frames id)
      ((s.toStage.cancel id').2.orchestrator.instance? id)
    rw [instance?_cancel]
    by_cases hx : id = id'
    · rw [if_pos hx]
      cases s.orchestrator.instance? id with
      | none => exact .rest
      | some i => exact .cancel (by rw [hx])
    · rw [if_neg hx]
      exact .rest
  | wait => exact .rest

end Grimoire.Workflow
