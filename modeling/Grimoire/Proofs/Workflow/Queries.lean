import Grimoire.Proofs.Workflow.Serving
import Grimoire.Proofs.Workflow.Stacks

/-!
# What a workflow asks

A run can come to the definition of its workflow, and to those that the phases of such definitions run
(`Setup.Reaches`). Of the provider it asks what their phases have to ask (`Setup.Poses`): a block of work asks the
queries of one phase of the innermost run, or none (`Work.asks`), so all queries of a history are posed by the
workflows that were started in it (`Stage.posed_of_run?`, `Stage.run_asks`).
-/
namespace Grimoire.Workflow

open Event (InstanceId)
open Provider (Query)

/-! ## The queries of workflows -/

/-- The definitions that runs of the workflows `roots` can come to. -/
inductive Setup.Reaches (b : Setup) (roots : String → Prop) : Definition → Prop
  | root {w : String} {d : Definition} (root : roots w) (known : b.definitions.get? w = some d) : b.Reaches roots d
  | nested {d d' : Definition} {p : Phase} {w : String} (outer : b.Reaches roots d) (phase : p ∈ d.phases)
      (action : p.action = .nested w) (known : b.definitions.get? w = some d') : b.Reaches roots d'

/-- A phase of such a definition asks the query, with its references resolved in some results. -/
def Setup.Poses (b : Setup) (roots : String → Prop) (q : Query) : Prop :=
  ∃ d p results context, b.Reaches roots d ∧ p ∈ d.phases ∧
    q ∈ p.queries b.config.textProvider (d.agent p) (resolveInputs p results) context

/-- More queries have reached the provider, each posed by the workflows. -/
def Setup.Asks (b : Setup) (roots : String → Prop) (before after : Host) : Prop :=
  ∃ queries, after.asked = queries ++ before.asked ∧ ∀ q ∈ queries, b.Poses roots q

section
variable {b : Setup} {roots : String → Prop} {h h' h'' : Host}

theorem Setup.Asks.of_eq (asked : h'.asked = h.asked) : b.Asks roots h h' := ⟨[], asked, by simp⟩

theorem Setup.Asks.trans (first : b.Asks roots h h') (second : b.Asks roots h' h'') : b.Asks roots h h'' := by
  obtain ⟨queries, hqueries, hposed⟩ := first
  obtain ⟨queries', hqueries', hposed'⟩ := second
  refine ⟨queries' ++ queries, by rw [hqueries', hqueries, List.append_assoc], fun q hq => ?_⟩
  rcases List.mem_append.1 hq with hq | hq
  · exact hposed' q hq
  · exact hposed q hq

end

/-! ## One block -/

section
variable {roots : String → Prop} {s s' : Stage} {f : Frame} {below : List Frame} {late : Option Nat} {u : Task}

theorem Frame.mem_phases {p : Phase} (h : f.next? = some p) : p ∈ f.definition.phases := List.mem_of_getElem? h

theorem ended_asked (s : Stage) (f : Frame) : (s.ended f).host.asked = s.host.asked := by
  unfold Stage.ended Stage.conclude
  dsimp only
  split <;> rfl

/-- **One block of work** asks what a phase of its innermost run has to ask, or nothing. -/
theorem Work.asks (h : Work s f below late s' u) (reached : s.setup.Reaches roots f.definition) :
    s.setup.Asks roots s.host s'.host := by
  cases h with
  | observe | exhausted | publish | refuse | descend | expire => exact .of_eq rfl
  | @ask p host calls hc hu hp plain hasked =>
    obtain rfl := host_of_askAll hasked
    refine ⟨_, rfl, fun q hq => ?_⟩
    exact ⟨f.definition, p, f.run.results, f.run.context, reached, Frame.mem_phases hp, List.mem_reverse.1 hq⟩
  | conclude => exact .of_eq (ended_asked s f)
  | deliver => exact .of_eq (ended_asked s f)
  | hear host calls' hc hears =>
    obtain ⟨place, call, -, -, rfl, -⟩ := hears
    exact .of_eq rfl
  | answer host outcome hc hlast =>
    obtain ⟨calls', payloads, ⟨place, call, -, -, rfl, -⟩, -⟩ := hlast
    exact .of_eq rfl

/-- The runs of a task stay among those that the workflows can come to. -/
theorem Work.reached (h : Work s f below late s' u)
    (reached : ∀ g ∈ f :: below, s.setup.Reaches roots g.definition) :
    ∀ g ∈ u.frames, s.setup.Reaches roots g.definition := by
  have hf := reached f List.mem_cons_self
  have hbelow : ∀ g ∈ below, s.setup.Reaches roots g.definition := fun g hg =>
    reached g (List.mem_cons_of_mem _ hg)
  cases h with
  | observe | ask | refuse | exhausted | publish | hear | answer => exact List.forall_mem_cons.2 ⟨hf, hbelow⟩
  | conclude => exact fun g hg => absurd hg List.not_mem_nil
  | descend context hc hu hp ha hk =>
    exact List.forall_mem_cons.2 ⟨.nested hf (Frame.mem_phases hp) ha hk, List.forall_mem_cons.2 ⟨hf, hbelow⟩⟩
  | deliver hc hn =>
    subst hn
    exact List.forall_mem_cons.2 (List.forall_mem_cons.1 hbelow)
  | expire e hsplit =>
    rw [hsplit] at reached
    exact List.forall_mem_cons.2 (List.forall_mem_cons.1 (List.forall_mem_append.1 reached).2)

end

/-! ## Whole histories -/

/-- What has come of a stage by then: the same setup, runs that the workflows can come to, and their queries. -/
structure Stage.Posed (s : Stage) (roots : String → Prop) (t : System) : Prop where
  setup : t.toStage.setup = s.setup
  reached : ∀ u ∈ t.tasks, ∀ g ∈ u.frames, s.setup.Reaches roots g.definition
  asks : s.setup.Asks roots s.host t.host

section
variable {roots : String → Prop} {s : Stage} {t u : System} {x : Happening}

theorem cancel_asked (s : Stage) (id : InstanceId) : (s.cancel id).2.host.asked = s.host.asked := by
  unfold Stage.cancel
  split <;> rfl

theorem Step.posed (h : Step t x u) (starts : ∀ w context, x = .start w context → roots w)
    (posed : s.Posed roots t) : s.Posed roots u := by
  obtain ⟨hsetup, hreached, hasks⟩ := posed
  refine ⟨h.setup.trans hsetup, ?_, ?_⟩
  · intro v hv
    cases h with
    | unknown =>
      rcases List.mem_append.1 hv with hv | hv
      · exact hreached v hv
      · obtain rfl := List.mem_singleton.1 hv
        exact fun g hg => absurd hg List.not_mem_nil
    | @start w context d known =>
      rcases List.mem_append.1 hv with hv | hv
      · exact hreached v hv
      · obtain rfl := List.mem_singleton.1 hv
        intro g hg
        obtain rfl := List.mem_singleton.1 hg
        have hknown : s.setup.definitions.get? w = some d := hsetup ▸ known
        exact .root (starts w context rfl) hknown
    | work _ hf hw =>
      rcases List.mem_or_eq_of_mem_set hv with hv | rfl
      · exact hreached v hv
      · rw [← hsetup] at hreached ⊢
        exact hw.reached (hreached _ (List.mem_of_getElem? hf))
    | cancel | wait => exact hreached v hv
  · refine hasks.trans ?_
    cases h with
    | unknown | start | wait => exact .of_eq rfl
    | cancel => exact .of_eq (cancel_asked ..)
    | work _ hf hw =>
      rw [← hsetup] at hreached ⊢
      exact hw.asks (hreached _ (List.mem_of_getElem? hf) _ List.mem_cons_self)

/-- **Over any history**, the provider is asked what the workflows pose that were started in it. -/
theorem Stage.posed_of_run? {past : List Happening} (h : s.idle.run? past = some t)
    (starts : ∀ w context, .start w context ∈ past → roots w) : s.Posed roots t := by
  have hposed := (System.run_induction (s := s.idle)
    (P := fun past t => (∀ w context, .start w context ∈ past → roots w) → s.Posed roots t) s.idle_stacked
    (fun _ => ⟨rfl, by simp [Stage.idle], .of_eq rfl⟩) ?_ h).2
  · exact hposed starts
  · intro past x t u _ hp hstep hstarts
    refine hstep.posed ?_ (hp fun w context hx => hstarts w context (List.mem_append_left _ hx))
    rintro w context rfl
    exact hstarts w context (by simp)

/-- **A run** with nothing else going on asks what its workflow poses, and leaves the setup as it is. -/
theorem Stage.run_asks (s : Stage) (workflow : String) (context : Json) :
    (s.run workflow context).2.setup = s.setup ∧
      s.setup.Asks (· = workflow) s.host (s.run workflow context).2.host := by
  obtain ⟨past, t, hpast, hserve, hstarts⟩ := s.serve_history [[.start workflow context]]
  rw [s.run_stage, hserve]
  have hposed : s.Posed (· = workflow) t := by
    refine posed_of_run? hpast fun w c h => ?_
    have hmem := hstarts w c h
    simp only [List.flatten_singleton, List.mem_singleton, Request.start.injEq] at hmem
    exact hmem.1
  exact ⟨hposed.setup, hposed.asks⟩

end

end Grimoire.Workflow
