import Grimoire.Proofs.Trigger.Bookkeeping
import Grimoire.Proofs.Workflow.Queries

/-!
# Critical actions

A trigger that has fired carries out its actions one after another until a critical one fails. What it did is
told without the loop: `carryOut` tries all actions of a list, and a fired trigger tries the front part of its
list that ends with the first action that stops it (`Stops`), or all of it. The results, the queries that the
provider was asked and the events are those of this part (`CarriedOut`, `Setting.execute_carriedOut`). An action
succeeds with what it `Yields`: a reply of the provider, a run of a workflow or an answer of its handler decides.
-/
namespace Grimoire.Trigger

open Provider (Query)
open Workflow (Setup)

/-! ## What a fired trigger does -/

/-- Carry out actions one after another, whatever becomes of them. -/
def Setting.carryOut (context : Json) (guardian : String) (outcome : Outcome Float) :
    List Action → Setting → List ActionResult × Setting
  | [], s => ([], s)
  | a :: rest, s =>
    let (result, s) := s.runAction a context guardian outcome
    let (results, s) := carryOut context guardian outcome rest s
    (result :: results, s)

/-- Does the trigger stop with this action? -/
def Stops (tried : Action × ActionResult) : Prop := tried.1.critical = true ∧ tried.2.success = false

/-- What decides which queries actions ask; no action changes it. -/
structure Terms where
  provider : String
  /-- The workflows of the orchestrator, if there is one. -/
  workflows? : Option Setup
  /-- Does the orchestrator ask a provider of its own? -/
  apart : Bool

def Setting.terms (s : Setting) : Terms where
  provider := s.config.textProvider
  workflows? := s.attached?.map fun a => (a.stage s.host).setup
  apart := (s.attached?.bind (·.line?)).isSome

/-- The queries that reached a provider of the orchestrator's own, the latest first. -/
def Setting.askedApart (s : Setting) : List Query := ((s.attached?.bind (·.line?)).map (·.asked)).getD []

/-- The queries that an action asks, in order, and those it asks a provider of the orchestrator's own. A workflow
asks what its phases pose, and all of it of one provider. -/
def Action.Asks (a : Action) (t : Terms) (guardian : String) (context : Json) (calls : List Query × List Query) :
    Prop :=
  match a.kind with
  | .generate => calls = ([a.generation t.provider guardian context], [])
  | .content task => calls = ([a.contentQuery task t.provider guardian context], [])
  | .suggest _ | .custom _ => calls = ([], [])
  | .workflow id =>
    (if t.apart then calls.1 = [] else calls.2 = []) ∧
      ∀ q ∈ calls.1 ++ calls.2, ∃ workflows ∈ t.workflows?, workflows.Poses (· = id) q

/-- The provider answers the query with the payload. -/
def Setting.Replies (s : Setting) (q : Query) (payload : Json) : Prop :=
  Provider.payload (s.host.provider.reply s.host.answered q) s.config.textProvider = .ok payload

/-- When an action succeeds in a setting, and with what output. -/
inductive Action.Yields (a : Action) (s : Setting) (context : Json) (guardian : String) (outcome : Outcome Float) :
    Json → Prop
  | generated {payload : Json} (kind : a.kind = .generate)
      (reply : s.Replies (a.generation s.config.textProvider guardian context) payload) :
      a.Yields s context guardian outcome payload
  | content {task : Provider.ContentTask} {payload : Json} (kind : a.kind = .content task)
      (reply : s.Replies (a.contentQuery task s.config.textProvider guardian context) payload) :
      a.Yields s context guardian outcome payload
  | suggested {skills : List String} (kind : a.kind = .suggest skills) :
      a.Yields s context guardian outcome (suggestions guardian skills)
  | ran {id : String} {attached : Attached} {r : Workflow.RunResult} (kind : a.kind = .workflow id)
      (orchestrator : s.attached? = some attached) (run : ((attached.stage s.host).run id context).1 = .ok r)
      (success : r.success = true) : a.Yields s context guardian outcome r.toJson
  | handled {handler : Handler} {output : Json} (kind : a.kind = .custom handler)
      (answer : handler.handle s.handled ⟨context, guardian, outcome, a.parameters⟩ = .ok output) :
      a.Yields s context guardian outcome output

/-- An action has an output when it succeeded, and an error when it failed. -/
def ActionResult.WellFormed (r : ActionResult) : Prop :=
  r.output.isSome = r.success ∧ r.error.isSome = !r.success

/-- Actions were tried to their end, or up to the first that stops the trigger, with its error. -/
def Ending (tried : List (Action × ActionResult)) (left : List Action) (error : Option String) : Prop :=
  left = [] ∧ error = none ∧ (∀ x ∈ tried, ¬ Stops x) ∨
    ∃ earlier last, tried = earlier ++ [last] ∧ Stops last ∧ (∀ x ∈ earlier, ¬ Stops x) ∧ error = last.2.error

/-- What a fired trigger has done, with the actions it tried and those it left. -/
structure CarriedOut (s : Setting) (t : Trigger) (context : Json) (outcome : Outcome Float) (result : MatchResult)
    (after : Setting) (done left : List Action) : Prop where
  split : t.actions = done ++ left
  guardian : result.guardian = t.guardian.getD (Router.select (contextText context))
  /-- The results are those of the actions tried, one after another; then only events are announced. -/
  tried : ∃ last : Setting, Setting.carryOut context result.guardian outcome done s = (result.actions, last) ∧
    after = { last with host.announced := after.host.announced }
  names : result.actions.map (·.name) = done.map Action.displayName
  wellFormed : ∀ r ∈ result.actions, r.WellFormed
  ending : Ending (done.zip result.actions) left result.error
  failed : result.success = false ↔ ∃ x ∈ done.zip result.actions, Stops x
  error : result.error.isSome = !result.success
  /-- Each action succeeds with what it yields when its turn comes, and fails for a reason when it yields nothing. -/
  yields : ∀ before a rest, done = before ++ a :: rest → ∃ r, result.actions[before.length]? = some r ∧
    (∀ output, r.output = some output ↔
      a.Yields (Setting.carryOut context result.guardian outcome before s).2 context result.guardian outcome output) ∧
    ∀ text, r.error = some text → ∃ reason, text = (TriggerError.actionFailed a.displayName reason).message
  /-- The provider is asked by the actions tried, each in its turn, and by no other; so is a provider that the
  orchestrator has of its own. -/
  asked : ∃ calls, List.Forall₂ (fun a => a.Asks s.terms result.guardian context) done calls ∧
    after.host.asked = (calls.flatMap (·.1)).reverse ++ s.host.asked ∧
    after.askedApart = (calls.flatMap (·.2)).reverse ++ s.askedApart
  /-- The actions announce runs of workflows; what comes of the trigger is announced last. -/
  announced : ∃ runs, (∀ e ∈ runs, e.instance?.isSome = true) ∧
    after.host.announced = .triggerExecuted t.id result.guardian outcome.confidence result.success ::
      (result.error.map (Event.triggerFailed t.id)).toList ++ runs ++ s.host.announced

/-! ## One action -/

section
variable (s : Setting) (a : Action) (context : Json) (guardian : String) (outcome : Outcome Float)

theorem ofOutput_name (duration : Nat) (output : Except String Json) :
    (ActionResult.ofOutput a duration output).name = a.displayName := by
  cases output <;> rfl

theorem ofOutput_wellFormed (duration : Nat) (output : Except String Json) :
    (ActionResult.ofOutput a duration output).WellFormed := by
  cases output <;> exact ⟨rfl, rfl⟩

theorem mapError_eq_ok {ε ε' α : Type} {f : ε → ε'} {x : Except ε α} {v : α} :
    x.mapError f = .ok v ↔ x = .ok v := by
  cases x <;> simp [Except.mapError]

theorem ofOutput_output (duration : Nat) (output : Except String Json) (j : Json) :
    (ActionResult.ofOutput a duration output).output = some j ↔ output = .ok j := by
  cases output <;> simp [ActionResult.ofOutput]

theorem ofOutput_error {duration : Nat} {output : Except String Json} {text : String}
    (h : (ActionResult.ofOutput a duration output).error = some text) :
    ∃ reason, text = (TriggerError.actionFailed a.displayName reason).message := by
  cases output with
  | ok => cases h
  | error reason => exact ⟨reason, (Option.some.inj h).symm⟩

namespace Setting

/-- The orchestrator goes on where the run has left it. -/
theorem stage_afterRun (attached : Attached) (t : Workflow.Stage) :
    ∃ attached', (s.afterRun attached t).attached? = some attached' ∧
      attached'.stage (s.afterRun attached t).host = t ∧
      attached'.line?.isSome = attached.line?.isSome := by
  refine ⟨_, rfl, ?_, by simp⟩
  cases hline : attached.line? <;> cases hbus : attached.bus? <;> simp [Attached.stage, afterRun, hline, hbus]

theorem runWorkflow_follows (id : String) : s.host.Follows (s.runWorkflow id context).2.host := by
  unfold runWorkflow
  split
  · exact .refl s.host
  · next attached _ =>
    have hrun := (attached.stage s.host).run_follows id context
    cases hb : attached.bus? with
    | none => simpa [afterRun, Attached.stage, Host.Follows, hb] using hrun
    | some bus => exact .of_eq (by simp [afterRun, hb])

theorem runAction_follows : s.host.Follows (s.runAction a context guardian outcome).2.host := by
  change s.host.Follows (s.output a context guardian outcome).2.host
  unfold output
  split
  · exact .call s.host _
  · exact .call s.host _
  · exact .refl s.host
  · exact runWorkflow_follows ..
  · exact .refl s.host

theorem setup_stage (attached : Attached) {h h' : Host} (same : h'.provider = h.provider) :
    (attached.stage h').setup = (attached.stage h).setup := by
  cases hline : attached.line? <;> simp [Attached.stage, Workflow.Stage.setup, hline, same]

theorem terms_call (q : Query) : (s.call q).2.terms = s.terms := by
  have hsetup (attached : Attached) : (attached.stage (s.host.call q).2).setup = (attached.stage s.host).setup :=
    setup_stage attached rfl
  simp [terms, call, hsetup]

theorem terms_runWorkflow (id : String) : (s.runWorkflow id context).2.terms = s.terms := by
  unfold runWorkflow
  split
  · rfl
  · next attached hattached =>
    have hsetup := ((attached.stage s.host).run_asks id context).1
    obtain ⟨attached', hattached', hstage, hline⟩ :=
      stage_afterRun s attached ((attached.stage s.host).run id context).2
    simp only [terms, hattached, hattached', Option.map_some, Option.bind_some, hstage, hsetup, hline]
    rfl

theorem terms_runAction : (s.runAction a context guardian outcome).2.terms = s.terms := by
  change (s.output a context guardian outcome).2.terms = s.terms
  unfold output
  cases a.kind with
  | generate => exact terms_call ..
  | content => exact terms_call ..
  | workflow id => exact terms_runWorkflow ..
  | suggest | custom => rfl

/-- What a run asks reaches one provider: that of the actions, or the orchestrator's own. -/
theorem runWorkflow_asks (id : String) : ∃ calls : List Query × List Query,
    (if s.terms.apart then calls.1 = [] else calls.2 = []) ∧
      (∀ q ∈ calls.1 ++ calls.2, ∃ workflows ∈ s.terms.workflows?, workflows.Poses (· = id) q) ∧
      (s.runWorkflow id context).2.host.asked = calls.1.reverse ++ s.host.asked ∧
      (s.runWorkflow id context).2.askedApart = calls.2.reverse ++ s.askedApart := by
  cases hattached : s.attached? with
  | none => exact ⟨([], []), by simp, by simp, by simp [runWorkflow, hattached], by simp [runWorkflow, hattached]⟩
  | some attached =>
    obtain ⟨-, queries, hqueries, hposed⟩ := (attached.stage s.host).run_asks id context
    have hworkflows : s.terms.workflows? = some (attached.stage s.host).setup := by simp [terms, hattached]
    cases hline : attached.line? with
    | none =>
      have hapart : s.terms.apart = false := by simp [terms, hattached, hline]
      refine ⟨(queries.reverse, []), by simp [hapart], ?_, ?_, ?_⟩
      · simpa [hworkflows] using hposed
      · simpa [runWorkflow, afterRun, hattached, hline, Attached.stage] using hqueries
      · simp [askedApart, runWorkflow, afterRun, hattached, hline]
    | some line =>
      have hapart : s.terms.apart = true := by simp [terms, hattached, hline]
      refine ⟨([], queries.reverse), by simp [hapart], ?_, ?_, ?_⟩
      · simpa [hworkflows] using hposed
      · simp [runWorkflow, afterRun, hattached, hline]
      · simpa [askedApart, runWorkflow, afterRun, hattached, hline, Attached.stage] using hqueries

theorem runAction_asks : ∃ calls, a.Asks s.terms guardian context calls ∧
    (s.runAction a context guardian outcome).2.host.asked = calls.1.reverse ++ s.host.asked ∧
    (s.runAction a context guardian outcome).2.askedApart = calls.2.reverse ++ s.askedApart := by
  change ∃ calls, _ ∧ (s.output a context guardian outcome).2.host.asked = _ ∧
    (s.output a context guardian outcome).2.askedApart = _
  unfold output Action.Asks
  cases a.kind with
  | generate => exact ⟨_, rfl, rfl, rfl⟩
  | content task => exact ⟨_, rfl, rfl, rfl⟩
  | suggest => exact ⟨_, rfl, rfl, rfl⟩
  | custom => exact ⟨_, rfl, rfl, rfl⟩
  | workflow id =>
    obtain ⟨calls, hapart, hposed, hasked⟩ := s.runWorkflow_asks context id
    exact ⟨calls, ⟨hapart, hposed⟩, hasked⟩

theorem runWorkflow_eq_ok (id : String) (j : Json) : (s.runWorkflow id context).1 = .ok j ↔
    ∃ attached r, s.attached? = some attached ∧ ((attached.stage s.host).run id context).1 = .ok r ∧
      r.success = true ∧ r.toJson = j := by
  unfold runWorkflow
  cases s.attached? with
  | none => simp
  | some attached =>
    cases hrun : ((attached.stage s.host).run id context).1 with
    | error e => simp [workflowData, hrun]
    | ok r => by_cases hsuccess : r.success = true <;> simp [workflowData, hrun, hsuccess]

/-- **The output of an action** is what it yields. -/
theorem output_eq_ok (j : Json) : (s.output a context guardian outcome).1 = .ok j ↔
    a.Yields s context guardian outcome j := by
  constructor
  · intro h
    unfold output at h
    split at h
    · next hkind => exact .generated hkind (mapError_eq_ok.1 h)
    · next task hkind => exact .content hkind (mapError_eq_ok.1 h)
    · next skills hkind =>
      cases h
      exact .suggested hkind
    · next id hkind =>
      obtain ⟨attached, r, hattached, hrun, hsuccess, rfl⟩ := (s.runWorkflow_eq_ok context id j).1 h
      exact .ran hkind hattached hrun hsuccess
    · next handler hkind => exact .handled hkind (mapError_eq_ok.1 h)
  · intro h
    cases h with
    | generated kind reply =>
      simp only [output, kind]
      exact mapError_eq_ok.2 reply
    | content kind reply =>
      simp only [output, kind]
      exact mapError_eq_ok.2 reply
    | suggested kind => simp [output, kind]
    | ran kind orchestrator run success =>
      simp [output, kind, runWorkflow, orchestrator, run, workflowData, success]
    | handled kind answer =>
      simp only [output, kind]
      exact mapError_eq_ok.2 answer

end Setting

end

/-! ## Actions one after another -/

section
variable (context : Json) (guardian : String) (outcome : Outcome Float)

namespace Setting

theorem carryOut_follows (actions : List Action) (s : Setting) :
    s.host.Follows (carryOut context guardian outcome actions s).2.host := by
  induction actions generalizing s with
  | nil => exact .refl s.host
  | cons a rest ih => exact (s.runAction_follows a context guardian outcome).trans (ih _)

theorem carryOut_asks (actions : List Action) (s : Setting) :
    ∃ calls, List.Forall₂ (fun a => a.Asks s.terms guardian context) actions calls ∧
      (carryOut context guardian outcome actions s).2.host.asked =
        (calls.flatMap (·.1)).reverse ++ s.host.asked ∧
      (carryOut context guardian outcome actions s).2.askedApart =
        (calls.flatMap (·.2)).reverse ++ s.askedApart := by
  induction actions generalizing s with
  | nil => exact ⟨[], .nil, rfl, rfl⟩
  | cons a rest ih =>
    obtain ⟨own, hown, hasked, hapart⟩ := s.runAction_asks a context guardian outcome
    obtain ⟨calls, hcalls, hasked', hapart'⟩ := ih (s.runAction a context guardian outcome).2
    rw [terms_runAction] at hcalls
    refine ⟨own :: calls, .cons hown hcalls, hasked'.trans ?_, hapart'.trans ?_⟩
    · simp [hasked]
    · simp [hapart]

theorem carryOut_append (before rest : List Action) (s : Setting) :
    carryOut context guardian outcome (before ++ rest) s =
      ((carryOut context guardian outcome before s).1 ++
          (carryOut context guardian outcome rest (carryOut context guardian outcome before s).2).1,
        (carryOut context guardian outcome rest (carryOut context guardian outcome before s).2).2) := by
  induction before generalizing s with
  | nil => rfl
  | cons a before ih => simp [carryOut, ih]

theorem carryOut_names (actions : List Action) (s : Setting) :
    (carryOut context guardian outcome actions s).1.map (·.name) = actions.map Action.displayName := by
  induction actions generalizing s with
  | nil => rfl
  | cons a rest ih => exact congrArg₂ _ (ofOutput_name ..) (ih _)

theorem carryOut_length (actions : List Action) (s : Setting) :
    (carryOut context guardian outcome actions s).1.length = actions.length := by
  simpa using congrArg List.length (carryOut_names context guardian outcome actions s)

/-- The result of an action comes from what it yields after the actions before it. -/
theorem carryOut_yields {done before rest : List Action} {a : Action} (s : Setting)
    (h : done = before ++ a :: rest) :
    ∃ r, (carryOut context guardian outcome done s).1[before.length]? = some r ∧
      (∀ output, r.output = some output ↔
        a.Yields (carryOut context guardian outcome before s).2 context guardian outcome output) ∧
      ∀ text, r.error = some text → ∃ reason, text = (TriggerError.actionFailed a.displayName reason).message := by
  subst h
  refine ⟨((carryOut context guardian outcome before s).2.runAction a context guardian outcome).1, ?_, ?_, ?_⟩
  · have hlength := carryOut_length context guardian outcome before s
    rw [carryOut_append, ← hlength, List.getElem?_append_right (Nat.le_refl _)]
    simp [carryOut]
  · exact fun output => (ofOutput_output ..).trans (output_eq_ok ..)
  · exact fun text h => ofOutput_error _ h

theorem carryOut_wellFormed (actions : List Action) (s : Setting) :
    ∀ r ∈ (carryOut context guardian outcome actions s).1, r.WellFormed := by
  induction actions generalizing s with
  | nil => exact fun r hr => nomatch hr
  | cons a rest ih =>
    intro r hr
    rcases List.mem_cons.1 hr with rfl | hr
    · exact ofOutput_wellFormed ..
    · exact ih _ r hr

end Setting

/-! ## Until one stops the trigger -/

theorem Ending.cons {first : Action × ActionResult} {tried : List (Action × ActionResult)} {left : List Action}
    {error : Option String} (go : ¬ Stops first) (h : Ending tried left error) :
    Ending (first :: tried) left error := by
  rcases h with ⟨hleft, herror, hall⟩ | ⟨earlier, last, rfl, hlast, hearlier, herror⟩
  · exact .inl ⟨hleft, herror, List.forall_mem_cons.2 ⟨go, hall⟩⟩
  · exact .inr ⟨first :: earlier, last, rfl, hlast, List.forall_mem_cons.2 ⟨go, hearlier⟩, herror⟩

theorem Ending.error_isSome {tried : List (Action × ActionResult)} {left : List Action} {error : Option String}
    (h : Ending tried left error) (formed : ∀ x ∈ tried, x.2.WellFormed) :
    error.isSome = true ↔ ∃ x ∈ tried, Stops x := by
  rcases h with ⟨-, rfl, hall⟩ | ⟨earlier, last, rfl, hlast, -, rfl⟩
  · simpa using hall
  · have hmem : last ∈ earlier ++ [last] := by simp
    refine iff_of_true ?_ ⟨last, hmem, hlast⟩
    simpa [hlast.2] using (formed last hmem).2

namespace Setting

variable {context guardian outcome}

theorem runActions_of_stops {a : Action} {rest : List Action} {s s' : Setting} {r : ActionResult}
    (hr : s.runAction a context guardian outcome = (r, s')) (stop : Stops (a, r)) :
    runActions context guardian outcome (a :: rest) s = ([r], r.error, s') := by
  obtain ⟨hcritical, hfailed⟩ := stop
  dsimp only at hcritical hfailed
  simp [runActions, hr, hcritical, hfailed]

theorem runActions_of_goes {a : Action} {rest : List Action} {s s' : Setting} {r : ActionResult}
    (hr : s.runAction a context guardian outcome = (r, s')) (go : ¬ Stops (a, r)) :
    runActions context guardian outcome (a :: rest) s =
      (r :: (runActions context guardian outcome rest s').1, (runActions context guardian outcome rest s').2) := by
  have hgo : (!r.success && a.critical) = false := by
    refine Bool.eq_false_iff.2 fun h => go ?_
    simpa [Stops, and_comm] using h
  simp [runActions, hr, hgo]

/-- **The loop over the actions** tries the front part of the list that `Ending` describes. -/
theorem runActions_ending (actions : List Action) (s : Setting) {results : List ActionResult}
    {error : Option String} {after : Setting}
    (h : runActions context guardian outcome actions s = (results, error, after)) :
    ∃ done left, actions = done ++ left ∧ carryOut context guardian outcome done s = (results, after) ∧
      Ending (done.zip results) left error := by
  induction actions generalizing s results with
  | nil =>
    cases h
    exact ⟨[], [], rfl, rfl, .inl ⟨rfl, rfl, by simp⟩⟩
  | cons a rest ih =>
    obtain ⟨r, s', hr⟩ : ∃ r s', s.runAction a context guardian outcome = (r, s') := ⟨_, _, rfl⟩
    by_cases hstop : Stops (a, r)
    · rw [runActions_of_stops hr hstop] at h
      cases h
      exact ⟨[a], rest, rfl, by simp [carryOut, hr], .inr ⟨[], (a, r), rfl, hstop, by simp, rfl⟩⟩
    · obtain ⟨more, error', after', hrest⟩ : ∃ more error' after',
        runActions context guardian outcome rest s' = (more, error', after') := ⟨_, _, _, rfl⟩
      rw [runActions_of_goes hr hstop, hrest] at h
      cases h
      obtain ⟨done, left, hsplit, hcarry, hending⟩ := ih s' hrest
      exact ⟨a :: done, left, by rw [hsplit]; rfl, by simp [carryOut, hr, hcarry], hending.cons hstop⟩

end Setting

end

/-! ## The whole trigger -/

/-- What is announced of a trigger after its actions. -/
theorem announced_announceMatch (s : Setting) (r : MatchResult) :
    (s.announceMatch r).host.announced =
      .triggerExecuted r.trigger r.guardian r.outcome.confidence r.success ::
        (r.error.map (Event.triggerFailed r.trigger)).toList ++ s.host.announced := by
  unfold Setting.announceMatch
  cases r.error <;> rfl

theorem announceMatch_eq (s : Setting) (r : MatchResult) :
    s.announceMatch r = { s with host.announced := (s.announceMatch r).host.announced } := by
  unfold Setting.announceMatch
  cases r.error <;> rfl

/-- **A fired trigger** tries a front part of its actions in order, each with one result; the part is the whole
list, or ends with the first critical action that failed. The trigger fails just in that case, with the error of
this action. Each result has the output that its action yields, else an error. No later action asks the provider
anything. At the end it is announced once that the trigger was executed, and right before that its error, if it
failed. -/
theorem Setting.execute_carriedOut (s : Setting) (t : Trigger) (context : Json) (outcome : Outcome Float) :
    ∃ done left, CarriedOut s t context outcome (s.execute t context outcome).1 (s.execute t context outcome).2
      done left := by
  let guardian := t.guardian.getD (Router.select (contextText context))
  obtain ⟨results, error, after, h⟩ : ∃ results error after,
    runActions context guardian outcome t.actions s = (results, error, after) := ⟨_, _, _, rfl⟩
  obtain ⟨done, left, hsplit, hcarry, hending⟩ := runActions_ending t.actions s h
  obtain ⟨calls, hcalls, hasked, hapart⟩ := carryOut_asks context guardian outcome done s
  obtain ⟨runs, hruns, habout⟩ := carryOut_follows context guardian outcome done s
  have hnames := carryOut_names context guardian outcome done s
  have hformed := carryOut_wellFormed context guardian outcome done s
  have hyields := fun before a rest (h : done = before ++ a :: rest) =>
    carryOut_yields context guardian outcome s h
  rw [hcarry] at hasked hapart hruns hnames hformed
  simp only [hcarry] at hyields
  have herror := hending.error_isSome fun x hx => hformed x.2 (List.of_mem_zip hx).2
  have hexecute : s.execute t context outcome =
      (⟨t.id, t.name, error.isNone, outcome, guardian, results, error, after.host.clock - s.host.clock⟩,
        after.announceMatch ⟨t.id, t.name, error.isNone, outcome, guardian, results, error,
          after.host.clock - s.host.clock⟩) := by
    simp only [execute]
    rw [h]
  rw [hexecute]
  exact ⟨done, left,
    { split := hsplit
      guardian := rfl
      tried := ⟨after, hcarry, announceMatch_eq ..⟩
      names := hnames
      wellFormed := hformed
      ending := hending
      failed := by simpa using herror
      error := by simp
      yields := hyields
      asked := ⟨calls, hcalls, (congrArg (·.host.asked) (announceMatch_eq ..)).trans hasked,
        (congrArg askedApart (announceMatch_eq ..)).trans hapart⟩
      announced := ⟨runs, habout, by rw [announced_announceMatch, hruns, List.append_assoc]⟩ }⟩

/-- An action that succeeds, one that fails, a critical one that fails, and one that comes too late. -/
def brittle : Trigger where
  id := "brittle"
  name := "Brittle"
  strategy := .conditional []
  guardian := some "Lyssandria"
  actions :=
    [{ kind := .generate },
     { kind := .workflow "story" },
     { name := some "refuse", kind := .custom ⟨"refuse", fun _ _ => .error .notConfigured⟩, critical := true },
     { name := some "late", kind := .generate }]

/-- A provider that gives one answer to everything, and no orchestrator. -/
def steadfast : Setting where
  host :=
    { provider :=
        { reply := fun _ _ => .ok (.ok (.string "Stand.")), delay := fun _ => 5, note? := fun _ => none } }

theorem brittle_carriedOut :
    let outcome : Outcome Float := { confidence := 0.8 }
    let result := (steadfast.execute brittle .null outcome).1
    let after := (steadfast.execute brittle .null outcome).2
    ∃ done left, CarriedOut steadfast brittle .null outcome result after done left ∧
      done.map Action.displayName = ["generate", "workflow", "refuse"] ∧ left.map Action.displayName = ["late"] ∧
      result.actions.map (·.success) = [true, false, false] ∧
      result.error = some "Action refuse failed: No generation provider configured" ∧ result.duration = 5 ∧
      after.host.asked = [({ kind := .generate } : Action).generation "anthropic-claude" "Lyssandria" .null] ∧
      after.host.announced =
        [.triggerExecuted "brittle" "Lyssandria" 0.8 false,
         .triggerFailed "brittle" "Action refuse failed: No generation provider configured"] := by
  intro outcome result after
  obtain ⟨done, left, h⟩ := steadfast.execute_carriedOut brittle .null outcome
  have hdone : done.map Action.displayName = ["generate", "workflow", "refuse"] := h.names.symm.trans rfl
  have hall : ["generate", "workflow", "refuse", "late"] = done.map Action.displayName ++ left.map Action.displayName :=
    List.map_append ▸ congrArg (List.map Action.displayName) h.split
  have hlate : left.map Action.displayName = ["late"] := by simpa [hdone] using hall.symm
  exact ⟨done, left, h, hdone, hlate, rfl, rfl, rfl, rfl, rfl⟩

end Grimoire.Trigger
