import Grimoire.Trigger.Engine
import Mathlib.Data.List.Nodup

/-!
# The books of a trigger engine

An engine is asked to register, remove, toggle and process; the requests with their answers are its log.
The log alone says which triggers are there and in which order (`Log.arrival?`), in which form
(`Log.standing?`), and when each has matched since its registration (`Log.fired`). After any requests the
engine keeps its books as the log says (`Books.serve`, `engine_bookkeeping`).
-/
namespace Grimoire.Trigger

open Time (Instant)

/-! ## Requests and logs -/

inductive Request
  | register (t : Trigger)
  | unregister (id : String)
  | setEnabled (id : String) (enabled : Bool)
  | process (context : Json) (instant : Instant)

inductive Answer
  | registered (answer : Except TriggerError String)
  | unregistered (was : Bool)
  | stateSet (known : Bool)
  | processed (results : List MatchResult)

section
variable [RegexEngine]

/-- Do what is asked. -/
def Engine.serve (e : Engine) : Request → Answer × Engine
  | .register t => (.registered (e.register t).1, (e.register t).2)
  | .unregister id => (.unregistered (e.unregister id).1, (e.unregister id).2)
  | .setEnabled id enabled => (.stateSet (e.setEnabled id enabled).1, (e.setEnabled id enabled).2)
  | .process context instant => (.processed (e.process context instant).1, (e.process context instant).2)

/-- Requests with their answers, the latest first. -/
abbrev Log := List (Request × Answer)

/-- Do one thing after another, and write each down in the log. -/
def Engine.serveOn (log : Log) (e : Engine) : List Request → Log × Engine
  | [] => (log, e)
  | x :: requests => serveOn ((x, (e.serve x).1) :: log) (e.serve x).2 requests

def Engine.serveAll (e : Engine) (requests : List Request) : Log × Engine := serveOn [] e requests

end

namespace Log

/-- The number of the request that first registered the id since it was last absent. -/
def arrival? (id : String) : Log → Option Nat
  | [] => none
  | entry :: log =>
    match entry with
    | (.register _, .registered (.ok new)) =>
      if new = id then some ((arrival? id log).getD log.length) else arrival? id log
    | (.unregister old, _) => if old = id then none else arrival? id log
    | _ => arrival? id log

/-- The trigger last registered under the id, in the state last set. -/
def standing? (id : String) : Log → Option Trigger
  | [] => none
  | entry :: log =>
    match entry with
    | (.register t, .registered (.ok new)) => if new = id then some { t with id } else standing? id log
    | (.unregister old, _) => if old = id then none else standing? id log
    | (.setEnabled changed enabled, _) =>
      if changed = id then (standing? id log).map fun t => { t with enabled } else standing? id log
    | _ => standing? id log

/-- The instants of the results with the id since its latest registration, the latest first. -/
def fired (id : String) : Log → List Instant
  | [] => []
  | entry :: log =>
    match entry with
    | (.register _, .registered (.ok new)) => if new = id then [] else fired id log
    | (.process _ instant, .processed results) =>
      (results.filter (·.trigger = id)).map (fun _ => instant) ++ fired id log
    | _ => fired id log

/-- How many results were returned. -/
def returned : Log → Nat
  | [] => 0
  | (_, .processed results) :: log => returned log + results.length
  | _ :: log => returned log

/-- One id was registered before the other. -/
def Before (log : Log) (a b : String) : Prop :=
  ∃ m n, log.arrival? a = some m ∧ log.arrival? b = some n ∧ m < n

end Log

/-- What the trigger finds in a context, by its strategy. -/
def outcome? [RegexEngine] (t : Trigger) (config : Config) (context : Json) (instant : Instant) : Option (Outcome Float) :=
  match t.strategy.compile with
  | .error _ => none
  | .ok matcher =>
    if t.enabled then matcher.outcome? context (t.confidence.getD config.defaultConfidence) instant else none

/-! ## Triggers in their places -/

/-- The ids of triggers, in order. -/
def ids (ts : List Registered) : List String := ts.map (·.trigger.id)

namespace Engine

theorem ids_place (r : Registered) : ∀ ts : List Registered,
    ids (place ts r) = if r.trigger.id ∈ ids ts then ids ts else ids ts ++ [r.trigger.id]
  | [] => by simp [place, ids]
  | t :: ts => by
    have ih := ids_place r ts
    unfold place
    by_cases h : t.trigger.id = r.trigger.id
    · simp [ids, h]
    · have hne : (t.trigger.id == r.trigger.id) = false := by simpa using h
      have hmem : r.trigger.id ∈ ids (t :: ts) ↔ r.trigger.id ∈ ids ts := by
        change r.trigger.id ∈ t.trigger.id :: ids ts ↔ _
        rw [List.mem_cons, or_iff_right]
        exact fun hx => h hx.symm
      rw [hne, if_neg (by simp)]
      change t.trigger.id :: ids (place ts r) = _
      rw [ih]
      by_cases hr : r.trigger.id ∈ ids ts
      · rw [if_pos hr, if_pos (hmem.2 hr)]
        rfl
      · rw [if_neg hr, if_neg fun hx => hr (hmem.1 hx)]
        rfl

/-- What is there after a trigger has taken its place: itself, and those with other ids. -/
theorem mem_place {r x : Registered} : ∀ {ts : List Registered}, (ids ts).Nodup → x ∈ place ts r →
    x = r ∨ x ∈ ts ∧ x.trigger.id ≠ r.trigger.id
  | [], _, hx => .inl (List.mem_singleton.1 hx)
  | t :: ts, hn, hx => by
    have hn' : t.trigger.id ∉ ids ts ∧ (ids ts).Nodup := List.nodup_cons.1 hn
    unfold place at hx
    by_cases h : t.trigger.id = r.trigger.id
    · rw [if_pos (by simpa using h)] at hx
      rcases List.mem_cons.1 hx with rfl | hx
      · exact .inl rfl
      · refine .inr ⟨List.mem_cons_of_mem _ hx, fun hid => hn'.1 ?_⟩
        rw [h, ← hid]
        exact List.mem_map_of_mem hx
    · rw [if_neg (by simpa using h)] at hx
      rcases List.mem_cons.1 hx with rfl | hx
      · exact .inr ⟨List.mem_cons_self, h⟩
      · rcases mem_place hn'.2 hx with rfl | ⟨hx, hid⟩
        · exact .inl rfl
        · exact .inr ⟨List.mem_cons_of_mem _ hx, hid⟩

end Engine

/-! ## What triggers find -/

namespace Setting

theorem config_output (s : Setting) (a : Action) (context : Json) (guardian : String) (outcome : Outcome Float) :
    (s.output a context guardian outcome).2.config = s.config := by
  unfold Setting.output
  split
  · rfl
  · rfl
  · rfl
  · unfold Setting.runWorkflow
    split <;> rfl
  · rfl

theorem config_runActions (context : Json) (guardian : String) (outcome : Outcome Float) :
    ∀ (actions : List Action) (s : Setting),
      (Setting.runActions context guardian outcome actions s).2.2.config = s.config
  | [], _ => rfl
  | a :: rest, s => by
    have hone : (s.runAction a context guardian outcome).2.config = s.config := config_output ..
    simp only [Setting.runActions]
    split
    · exact hone
    · exact (config_runActions context guardian outcome rest _).trans hone

theorem config_execute (s : Setting) (t : Trigger) (context : Json) (outcome : Outcome Float) :
    (s.execute t context outcome).2.config = s.config := by
  have hrun := config_runActions context (t.guardian.getD (Router.select (contextText context))) outcome t.actions s
  simp only [Setting.execute, Setting.announceMatch]
  split <;> exact hrun

end Setting

/-- What a result says that its trigger has found. -/
def MatchResult.found (r : MatchResult) : String × String × Outcome Float := (r.trigger, r.name, r.outcome)

/-- The trigger after a context was shown to it. -/
def Registered.shown (r : Registered) (config : Config) (context : Json) (instant : Instant) : Registered :=
  if (r.outcome? config context instant).isSome then r.fired instant else r

@[simp] theorem Registered.shown_trigger (r : Registered) (config : Config) (context : Json) (instant : Instant) :
    (r.shown config context instant).trigger = r.trigger := by
  unfold shown
  split <;> rfl

namespace Engine

/-- **Showing a context** to triggers: each that finds something fires once and gives one result, in order. -/
theorem fire_eq (context : Json) (instant : Instant) : ∀ (rs : List Registered) (s : Setting),
    (fire context instant rs s).1 = rs.map (·.shown s.config context instant) ∧
      (fire context instant rs s).2.1.map MatchResult.found = rs.filterMap fun r =>
        (r.outcome? s.config context instant).map fun o => (r.trigger.id, r.trigger.name, o)
  | [], _ => ⟨rfl, rfl⟩
  | r :: rs, s => by
    cases ho : r.outcome? s.config context instant with
    | none =>
      obtain ⟨hrs, hresults⟩ := fire_eq context instant rs s
      constructor
      · simp [fire, ho, hrs, Registered.shown]
      · simp [fire, ho, hresults]
    | some outcome =>
      obtain ⟨hrs, hresults⟩ := fire_eq context instant rs (s.execute r.trigger context outcome).2
      rw [Setting.config_execute] at hrs hresults
      constructor
      · simp [fire, ho, hrs, Registered.shown]
      · simp only [fire, ho, List.map_cons, hresults, List.filterMap_cons, Option.map_some]
        rfl

/-- The ids in the results. -/
theorem trigger_results (context : Json) (instant : Instant) (rs : List Registered) (s : Setting) :
    (fire context instant rs s).2.1.map (·.trigger) =
      ids (rs.filter fun r => (r.outcome? s.config context instant).isSome) := by
  have hresults := congrArg (List.map (·.1)) (fire_eq context instant rs s).2
  rw [List.map_map, List.map_filterMap] at hresults
  refine hresults.trans ?_
  clear hresults
  induction rs with
  | nil => rfl
  | cons r rs ih =>
    cases ho : r.outcome? s.config context instant with
    | none => simpa [ids, ho] using ih
    | some o => simpa [ids, ho] using ih

/-- A trigger has one result when it finds something, else none. -/
theorem length_results {context : Json} {instant : Instant} {rs : List Registered} {s : Setting} {r : Registered}
    (hn : (ids rs).Nodup) (hr : r ∈ rs) :
    ((fire context instant rs s).2.1.filter (·.trigger = r.trigger.id)).length =
      if (r.outcome? s.config context instant).isSome then 1 else 0 := by
  have hcount : ((fire context instant rs s).2.1.filter (·.trigger = r.trigger.id)).length =
      ((fire context instant rs s).2.1.map (·.trigger)).count r.trigger.id := by
    rw [← List.countP_eq_length_filter, List.count, List.countP_map]
    rfl
  have hfiltered : (ids (rs.filter fun r => (r.outcome? s.config context instant).isSome)).Nodup :=
    hn.sublist (List.filter_sublist.map _)
  rw [hcount, trigger_results, hfiltered.count]
  by_cases ho : (r.outcome? s.config context instant).isSome = true
  · rw [if_pos ho, if_pos]
    exact List.mem_map.2 ⟨r, List.mem_filter.2 ⟨hr, ho⟩, rfl⟩
  · rw [if_neg ho, if_neg]
    intro hmem
    obtain ⟨r', hr', hid⟩ := List.mem_map.1 hmem
    obtain ⟨hr', ho'⟩ := List.mem_filter.1 hr'
    obtain rfl := List.inj_on_of_nodup_map hn hr' hr hid
    exact ho ho'

end Engine

/-! ## What requests do to the triggers -/

namespace Engine

variable (e : Engine)

theorem named_eq (t : Trigger) : (e.named t).1.triggers = e.triggers ∧ (e.named t).1.matched = e.matched ∧
    (e.named t).2 = { t with id := (e.named t).2.id } := by
  unfold Engine.named
  split <;> exact ⟨rfl, rfl, rfl⟩

/-- A registration fails and changes nothing, or puts the trigger in its place with nothing counted. -/
theorem register_cases [RegexEngine] (t : Trigger) :
    (∃ fault, e.register t = (.error fault, e)) ∨
      ∃ new matcher e', e.register t = (.ok new, e') ∧ t.strategy.compile = .ok matcher ∧
        e'.triggers = place e.triggers { trigger := { t with id := new }, matcher } ∧ e'.matched = e.matched := by
  cases hc : t.strategy.compile with
  | error fault => exact .inl ⟨fault, by simp [Engine.register, hc]⟩
  | ok matcher =>
    obtain ⟨htriggers, hmatched, ht⟩ := e.named_eq t
    let entered : Engine :=
      { (e.named t).1 with triggers := place (e.named t).1.triggers { trigger := (e.named t).2, matcher } }
    refine .inr ⟨(e.named t).2.id, matcher, entered.announce _, by simp only [Engine.register, hc]; rfl, rfl, ?_,
      hmatched⟩
    rw [← ht, ← htriggers]
    rfl

theorem unregister_eq (id : String) :
    (e.unregister id).2.triggers = e.triggers.filter (·.trigger.id != id) ∧
      (e.unregister id).2.matched = e.matched := by
  unfold Engine.unregister
  split
  · exact ⟨rfl, rfl⟩
  · next hno =>
    refine ⟨(List.filter_eq_self.2 fun r hr => ?_).symm, rfl⟩
    simp only [Engine.contains, List.any_eq_true, beq_iff_eq, not_exists, not_and] at hno
    simpa using hno r hr

/-- The entry of a trigger whose state may be set. -/
def toggled (id : String) (enabled : Bool) (r : Registered) : Registered :=
  if r.trigger.id == id then r.enable enabled else r

theorem setEnabled_eq (id : String) (enabled : Bool) :
    (e.setEnabled id enabled).2.triggers = e.triggers.map (toggled id enabled) ∧
      (e.setEnabled id enabled).2.matched = e.matched := by
  unfold Engine.setEnabled
  split
  · exact ⟨rfl, rfl⟩
  · next hno =>
    refine ⟨?_, rfl⟩
    simp only [Engine.contains, List.any_eq_true, beq_iff_eq, not_exists, not_and] at hno
    have hself : ∀ r ∈ e.triggers, toggled id enabled r = r := fun r hr => if_neg (by simpa using hno r hr)
    rw [List.map_congr_left hself, List.map_id']

theorem ids_list : e.list.map (·.id) = ids e.triggers := by
  rw [Engine.list, List.map_map]
  rfl

theorem process_eq (context : Json) (instant : Instant) :
    (e.process context instant).2.triggers = e.triggers.map (·.shown e.config context instant) ∧
      (e.process context instant).2.matched = e.matched + (e.process context instant).1.length :=
  ⟨(fire_eq context instant e.triggers (e.remember { context, instant }).toSetting).1, rfl⟩

end Engine

/-! ## Books -/

section
variable [RegexEngine]

/-- The entry of a trigger says what the log says. -/
structure Registered.Entered (r : Registered) (log : Log) : Prop where
  standing : log.standing? r.trigger.id = some r.trigger
  compiled : r.trigger.strategy.compile = .ok r.matcher
  fireCount : r.fireCount = (log.fired r.trigger.id).length
  lastFired : r.lastFired = (log.fired r.trigger.id).head?

/-- The engine keeps its books as the log says. -/
structure Books (log : Log) (e : Engine) : Prop where
  order : (ids e.triggers).Pairwise log.Before
  present : ∀ id, id ∈ ids e.triggers ↔ (log.arrival? id).isSome
  within : ∀ id n, log.arrival? id = some n → n < log.length
  entries : ∀ r ∈ e.triggers, r.Entered log
  matched : e.matched = log.returned

section
variable {log : Log} {e : Engine} {id : String} {r : Registered}

theorem Books.nodup (h : Books log e) : (ids e.triggers).Nodup := by
  refine h.order.imp ?_
  rintro a _ ⟨m, n, hm, hn, hlt⟩ rfl
  obtain rfl : m = n := Option.some.inj (hm.symm.trans hn)
  exact Nat.lt_irrefl m hlt

theorem Books.absent (h : Books log e) (hid : id ∉ ids e.triggers) : log.arrival? id = none := by
  rw [h.present] at hid
  simpa using hid

/-- A request after which the same ids are there, in the same places. -/
theorem Books.keep {entry : Request × Answer} {e' : Engine} (h : Books log e)
    (hids : ids e'.triggers = ids e.triggers) (harrival : ∀ id, Log.arrival? id (entry :: log) = log.arrival? id)
    (hentries : ∀ r ∈ e'.triggers, r.Entered (entry :: log)) (hmatched : e'.matched = Log.returned (entry :: log)) :
    Books (entry :: log) e' where
  order := by
    rw [hids]
    refine h.order.imp ?_
    rintro a b ⟨m, n, hm, hn, hlt⟩
    exact ⟨m, n, (harrival a).trans hm, (harrival b).trans hn, hlt⟩
  present id := by rw [hids, harrival, h.present]
  within id n hn := by
    have := h.within id n ((harrival id).symm.trans hn)
    exact Nat.lt_succ_of_lt this
  entries := hentries
  matched := hmatched

/-- A request after which one more id is there, at the end. -/
theorem Books.arrive {entry : Request × Answer} {e' : Engine} {new : String} (h : Books log e)
    (hnew : new ∉ ids e.triggers) (hids : ids e'.triggers = ids e.triggers ++ [new])
    (harrival : ∀ id, Log.arrival? id (entry :: log) = if new = id then some log.length else log.arrival? id)
    (hentries : ∀ r ∈ e'.triggers, r.Entered (entry :: log)) (hmatched : e'.matched = Log.returned (entry :: log)) :
    Books (entry :: log) e' where
  order := by
    have hkeep {id : String} (hid : id ∈ ids e.triggers) : Log.arrival? id (entry :: log) = log.arrival? id :=
      (harrival id).trans (if_neg fun heq : new = id => hnew (heq ▸ hid))
    rw [hids, List.pairwise_append]
    refine ⟨h.order.imp_of_mem ?_, List.pairwise_singleton .., ?_⟩
    · rintro a b ha hb ⟨m, n, hm, hn, hlt⟩
      exact ⟨m, n, (hkeep ha).trans hm, (hkeep hb).trans hn, hlt⟩
    · intro a ha b hb
      obtain rfl := List.mem_singleton.1 hb
      obtain ⟨n, hn⟩ := Option.isSome_iff_exists.1 ((h.present a).1 ha)
      exact ⟨n, log.length, (hkeep ha).trans hn, (harrival b).trans (if_pos rfl), h.within a n hn⟩
  present id := by
    rw [hids, harrival, List.mem_append, List.mem_singleton, h.present]
    split
    · next heq => simp [heq]
    · next hne => simp [Ne.symm hne]
  within id n hn := by
    rw [harrival] at hn
    split at hn
    · cases hn
      exact Nat.lt_succ_self _
    · exact Nat.lt_succ_of_lt (h.within id n hn)
  entries := hentries
  matched := hmatched

/-- A request after which an id is not there any more. -/
theorem Books.leave {entry : Request × Answer} {e' : Engine} (h : Books log e)
    (hids : ids e'.triggers = (ids e.triggers).filter (· != id))
    (harrival : ∀ a, Log.arrival? a (entry :: log) = if id = a then none else log.arrival? a)
    (hentries : ∀ r ∈ e'.triggers, r.Entered (entry :: log)) (hmatched : e'.matched = Log.returned (entry :: log)) :
    Books (entry :: log) e' where
  order := by
    have hkeep {a : String} (ha : a ∈ (ids e.triggers).filter (· != id)) :
        Log.arrival? a (entry :: log) = log.arrival? a := by
      have hne : a ≠ id := by simpa using (List.mem_filter.1 ha).2
      rw [harrival, if_neg (Ne.symm hne)]
    rw [hids]
    refine (h.order.filter _).imp_of_mem ?_
    rintro a b ha hb ⟨m, n, hm, hn, hlt⟩
    exact ⟨m, n, (hkeep ha).trans hm, (hkeep hb).trans hn, hlt⟩
  present a := by
    rw [hids, List.mem_filter, h.present, harrival]
    split
    · next heq => simp [heq]
    · next hne => simp [Ne.symm hne]
  within a n hn := by
    rw [harrival] at hn
    split at hn
    · cases hn
    · exact Nat.lt_succ_of_lt (h.within a n hn)
  entries := hentries
  matched := hmatched

/-- An entry stays right when the log says nothing new about its trigger. -/
theorem Registered.Entered.later {log' : Log} (h : r.Entered log)
    (hstanding : log'.standing? r.trigger.id = log.standing? r.trigger.id)
    (hfired : log'.fired r.trigger.id = log.fired r.trigger.id) : r.Entered log' where
  standing := hstanding.trans h.standing
  compiled := h.compiled
  fireCount := h.fireCount.trans (congrArg _ hfired.symm)
  lastFired := h.lastFired.trans (congrArg _ hfired.symm)

/-! ### One request -/

theorem Books.refused {t : Trigger} {fault : TriggerError} (h : Books log e) :
    Books ((.register t, .registered (.error fault)) :: log) e :=
  h.keep rfl (fun _ => rfl) (fun r hr => (h.entries r hr).later rfl rfl) h.matched

theorem Books.registered {t : Trigger} {new : String} {matcher : Matcher} {e' : Engine} (h : Books log e)
    (hcompile : t.strategy.compile = .ok matcher)
    (htriggers : e'.triggers = Engine.place e.triggers { trigger := { t with id := new }, matcher })
    (hmatched : e'.matched = e.matched) :
    Books ((.register t, .registered (.ok new)) :: log) e' := by
  set entry : Request × Answer := (.register t, .registered (.ok new))
  have harrival (id : String) : Log.arrival? id (entry :: log) =
      if new = id then some ((log.arrival? id).getD log.length) else log.arrival? id := rfl
  have hentries : ∀ r ∈ e'.triggers, r.Entered (entry :: log) := by
    intro r hr
    rw [htriggers] at hr
    rcases Engine.mem_place h.nodup hr with rfl | ⟨hr, hne⟩
    · have hnone : Log.fired new (entry :: log) = [] := if_pos rfl
      exact ⟨if_pos rfl, hcompile, (congrArg List.length hnone).symm, (congrArg List.head? hnone).symm⟩
    · exact (h.entries r hr).later (if_neg (Ne.symm hne)) (if_neg (Ne.symm hne))
  have hids : ids e'.triggers =
      if new ∈ ids e.triggers then ids e.triggers else ids e.triggers ++ [new] := by
    rw [htriggers, Engine.ids_place]
  by_cases hnew : new ∈ ids e.triggers
  · -- The id keeps its place, and with it the time of its arrival.
    refine h.keep (hids.trans (if_pos hnew)) (fun id => ?_) hentries (hmatched.trans h.matched)
    rw [harrival]
    split
    · next heq =>
      subst heq
      obtain ⟨n, hn⟩ := Option.isSome_iff_exists.1 ((h.present new).1 hnew)
      rw [hn, Option.getD_some]
    · rfl
  · refine h.arrive hnew (hids.trans (if_neg hnew)) (fun id => ?_) hentries (hmatched.trans h.matched)
    rw [harrival]
    split
    · next heq =>
      subst heq
      rw [h.absent hnew, Option.getD_none]
    · rfl

theorem Books.unregistered {was : Bool} {e' : Engine} (h : Books log e)
    (htriggers : e'.triggers = e.triggers.filter (·.trigger.id != id)) (hmatched : e'.matched = e.matched) :
    Books ((.unregister id, .unregistered was) :: log) e' := by
  refine h.leave ?_ (fun _ => rfl) (fun r hr => ?_) (hmatched.trans h.matched)
  · rw [htriggers, ids, ids, List.filter_map]
    rfl
  · rw [htriggers] at hr
    obtain ⟨hr, hne⟩ := List.mem_filter.1 hr
    exact (h.entries r hr).later (if_neg (Ne.symm (by simpa using hne))) rfl

theorem Books.stateSet {enabled known : Bool} {e' : Engine} (h : Books log e)
    (htriggers : e'.triggers = e.triggers.map (Engine.toggled id enabled)) (hmatched : e'.matched = e.matched) :
    Books ((.setEnabled id enabled, .stateSet known) :: log) e' := by
  refine h.keep ?_ (fun _ => rfl) (fun r' hr' => ?_) (hmatched.trans h.matched)
  · rw [htriggers, ids, List.map_map]
    refine List.map_congr_left fun r _ => ?_
    simp only [Function.comp, Engine.toggled]
    split <;> rfl
  · rw [htriggers] at hr'
    obtain ⟨r, hr, rfl⟩ := List.mem_map.1 hr'
    obtain ⟨hstanding, hcompile, hcount, hlast⟩ := h.entries r hr
    unfold Engine.toggled
    split
    · next heq =>
      have heq : id = r.trigger.id := (by simpa using heq : r.trigger.id = id).symm
      refine ⟨(if_pos heq).trans ?_, hcompile, hcount, hlast⟩
      exact congrArg (Option.map _) hstanding
    · next hne =>
      have hne : id ≠ r.trigger.id := Ne.symm (by simpa using hne)
      exact (h.entries r hr).later (if_neg hne) rfl

theorem Books.processed {context : Json} {instant : Instant} {e' : Engine} {results : List MatchResult}
    (h : Books log e)
    (htriggers : e'.triggers = e.triggers.map (·.shown e.config context instant))
    (hresults : ∀ r ∈ e.triggers, (results.filter (·.trigger = r.trigger.id)).length =
      if (r.outcome? e.config context instant).isSome then 1 else 0)
    (hmatched : e'.matched = e.matched + results.length) :
    Books ((.process context instant, .processed results) :: log) e' := by
  refine h.keep ?_ (fun _ => rfl) (fun r' hr' => ?_) ?_
  · rw [htriggers, ids, List.map_map]
    exact List.map_congr_left fun r _ => congrArg Trigger.id (r.shown_trigger ..)
  · rw [htriggers] at hr'
    obtain ⟨r, hr, rfl⟩ := List.mem_map.1 hr'
    obtain ⟨hstanding, hcompile, hcount, hlast⟩ := h.entries r hr
    have hfired : Log.fired r.trigger.id ((.process context instant, .processed results) :: log) =
        List.replicate (if (r.outcome? e.config context instant).isSome then 1 else 0) instant ++
          log.fired r.trigger.id := by
      rw [← hresults r hr, ← List.map_const']
      rfl
    unfold Registered.shown
    split
    · next hfound =>
      rw [if_pos hfound] at hfired
      refine ⟨hstanding, hcompile, ?_, ?_⟩
      · exact (congrArg (· + 1) hcount).trans (congrArg List.length hfired).symm
      · exact (congrArg List.head? hfired).symm
    · next hnot =>
      rw [if_neg hnot] at hfired
      exact (h.entries r hr).later rfl hfired
  · rw [hmatched, h.matched]
    rfl

/-- **One request**: the books of the engine stay as the log says. -/
theorem Books.serve (h : Books log e) (x : Request) : Books ((x, (e.serve x).1) :: log) (e.serve x).2 := by
  cases x with
  | register t =>
    rcases e.register_cases t with ⟨fault, hr⟩ | ⟨new, matcher, e', hr, hcompile, htriggers, hmatched⟩
    · simp only [Engine.serve, hr]
      exact h.refused
    · simp only [Engine.serve, hr]
      exact h.registered hcompile htriggers hmatched
  | unregister id => exact h.unregistered (e.unregister_eq id).1 (e.unregister_eq id).2
  | setEnabled id enabled => exact h.stateSet (e.setEnabled_eq id enabled).1 (e.setEnabled_eq id enabled).2
  | process context instant =>
    refine h.processed (e.process_eq context instant).1 (fun r hr => ?_) (e.process_eq context instant).2
    exact Engine.length_results h.nodup hr

end

/-! ### Any number of requests -/

theorem Books.new (setting : Setting) : Books [] { toSetting := setting } where
  order := .nil
  present id := by simp [ids, Log.arrival?]
  within id n hn := nomatch hn
  entries r hr := nomatch hr
  matched := rfl

theorem Books.run {log : Log} {e : Engine} (h : Books log e) (requests : List Request) :
    Books (Engine.serveOn log e requests).1 (Engine.serveOn log e requests).2 := by
  induction requests generalizing log e with
  | nil => exact h
  | cons x requests ih => exact ih (h.serve x)

section
variable {log : Log} {e : Engine}

/-- What a trigger finds by its compiled strategy is what it finds by its strategy. -/
theorem Registered.Entered.outcome? {r : Registered} (h : r.Entered log) (config : Config) (context : Json)
    (instant : Instant) : r.outcome? config context instant = r.trigger.outcome? config context instant := by
  unfold Registered.outcome? Trigger.outcome?
  rw [h.compiled]

theorem Books.found (h : Books log e) (context : Json) (instant : Instant) :
    (e.process context instant).1.map MatchResult.found =
      (e.triggers.map (·.trigger)).filterMap fun t =>
        (t.outcome? e.config context instant).map fun o => (t.id, t.name, o) := by
  refine (Engine.fire_eq context instant e.triggers (e.remember { context, instant }).toSetting).2.trans ?_
  rw [List.filterMap_map]
  refine List.filterMap_congr fun r hr => ?_
  exact congrArg (Option.map _) ((h.entries r hr).outcome? ..)

end

/-- **The books of an engine** after any requests: its triggers have different ids, they are those the log
says are there, in the order of their arrival and in the form last registered and set; each has counted its
results since its registration, and the engine all of them; a context gives one result for each trigger that
finds something in it, in the order of the list; and a registration that fails changes nothing. -/
theorem engine_bookkeeping (setting : Setting) (requests : List Request) :
    let (log, e) := Engine.serveAll { toSetting := setting } requests
    (e.list.map (·.id)).Nodup ∧
      (∀ id, id ∈ e.list.map (·.id) ↔ (log.arrival? id).isSome) ∧
      (e.list.map (·.id)).Pairwise log.Before ∧
      (∀ s ∈ e.list, s.fireCount = (log.fired s.id).length ∧ s.lastFired = (log.fired s.id).head?) ∧
      e.statistics.matched = log.returned ∧
      (∀ t ∈ e.triggers.map (·.trigger), log.standing? t.id = some t) ∧
      (∀ context instant, (e.process context instant).1.map MatchResult.found =
        (e.triggers.map (·.trigger)).filterMap fun t =>
          (t.outcome? e.config context instant).map fun o => (t.id, t.name, o)) ∧
      ∀ t fault, (e.register t).1 = .error fault → (e.register t).2 = e := by
  have h := (Books.new setting).run requests
  refine ⟨?_, ?_, ?_, ?_, h.matched, ?_, h.found, ?_⟩
  case refine_1 => rw [Engine.ids_list]; exact h.nodup
  case refine_2 => rw [Engine.ids_list]; exact h.present
  case refine_3 => rw [Engine.ids_list]; exact h.order
  case refine_4 =>
    intro s hs
    obtain ⟨r, hr, rfl⟩ := List.mem_map.1 hs
    exact ⟨(h.entries r hr).fireCount, (h.entries r hr).lastFired⟩
  case refine_5 =>
    intro t ht
    obtain ⟨r, hr, rfl⟩ := List.mem_map.1 ht
    exact (h.entries r hr).standing
  case refine_6 =>
    intro t fault hfault
    rcases Engine.register_cases _ t with ⟨fault', hr⟩ | ⟨new, matcher, e', hr, -⟩
    · rw [hr]
    · rw [hr] at hfault
      cases hfault

end

/-- A trigger that finds something in every context. -/
def watch (id : String) : Trigger :=
  { id, name := "watch", strategy := .conditional [], guardian := some "Lyssandria" }

/-- The second registration keeps its place and starts to count anew. -/
example [RegexEngine] (setting : Setting) (instant : Instant) :
    (Engine.serveAll { toSetting := setting }
      [.register (watch "dawn"), .register (watch "dusk"), .process .null instant, .register (watch "dawn"),
        .process .null instant]).2.list.map (fun s => (s.id, s.fireCount)) = [("dawn", 1), ("dusk", 2)] := by
  rfl

end Grimoire.Trigger
