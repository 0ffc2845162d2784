import Grimoire.Proofs.Workflow.Work
import Grimoire.Workflow.Client

/-!
# Serving clients is a history

Whatever clients ask for, and in whatever order they are served, is a list of happenings
(`serve_history`), so what every step keeps holds of a stage that has served them. One such thing is what the
host announces: events about workflow runs, on top of those announced before (`Host.Follows`, `Stage.run_follows`).
-/
namespace Grimoire

namespace Workflow

/-! ## Clients make histories -/

/-- What happens to a system while clients are served: it starts no workflow but those they still ask for. -/
structure Serves (s : System) (cs : List Client) (t : System) (cs' : List Client) : Prop where
  history : ∃ past, s.run? past = some t ∧
    ∀ w context, .start w context ∈ past → .start w context ∈ cs.flatMap (·.requests)
  requests : cs'.flatMap (·.requests) ⊆ cs.flatMap (·.requests)

namespace Serves

variable {s t u : System} {cs cs' cs'' : List Client}

theorem refl (s : System) (cs : List Client) : Serves s cs s cs := ⟨⟨[], rfl, by simp⟩, List.Subset.refl _⟩

theorem trans (first : Serves s cs t cs') (second : Serves t cs' u cs'') : Serves s cs u cs'' := by
  obtain ⟨⟨past, hpast, hstarts⟩, hrequests⟩ := first
  obtain ⟨⟨later, hlater, hstarts'⟩, hrequests'⟩ := second
  refine ⟨⟨past ++ later, System.run?_trans hpast hlater, fun w context h => ?_⟩, List.Subset.trans hrequests' hrequests⟩
  rcases List.mem_append.1 h with h | h
  · exact hstarts w context h
  · exact hrequests (hstarts' w context h)

/-- Something else than a start happens. -/
theorem of_step {x : Happening} (step : s.step? x = some t) (plain : ∀ w context, x ≠ .start w context) :
    Serves s cs t cs := by
  refine ⟨⟨[x], by simpa using step, fun w context h => ?_⟩, List.Subset.refl _⟩
  exact absurd (List.mem_singleton.1 h).symm (plain w context)

theorem hear (s : System) (c : Client) (a : Answer) : Serves s [c] s [c.hear a] :=
  ⟨⟨[], rfl, by simp⟩, by simp [Client.hear]⟩

theorem cons (c : Client) (h : Serves s cs t cs') : Serves s (c :: cs) t (c :: cs') := by
  obtain ⟨⟨past, hpast, hstarts⟩, hrequests⟩ := h
  refine ⟨⟨past, hpast, fun w context hx => ?_⟩, ?_⟩
  · exact List.mem_append_right _ (hstarts w context hx)
  · exact List.append_subset.2 ⟨List.subset_append_left .., List.subset_append_of_subset_right _ hrequests⟩

theorem head {c c' : Client} (cs : List Client) (h : Serves s [c] t [c']) : Serves s (c :: cs) t (c' :: cs) := by
  obtain ⟨⟨past, hpast, hstarts⟩, hrequests⟩ := h
  refine ⟨⟨past, hpast, fun w context hx => ?_⟩, ?_⟩
  · exact List.mem_append_left _ (by simpa using hstarts w context hx)
  · have hhead : c'.requests ⊆ c.requests := by simpa using hrequests
    exact List.append_subset.2 ⟨List.subset_append_of_subset_left _ hhead, List.subset_append_right ..⟩

end Serves

namespace Client

variable {s t : System} {c c' : Client} {cs cs' : List Client}

theorem ask_serves (s : System) (c : Client) (r : Request) :
    Serves s [{ c with requests := r :: c.requests }] (ask s c r).1 [(ask s c r).2] := by
  cases r with
  | start workflow context =>
    exact ⟨⟨[.start workflow context], by simp [System.step?, ask], by simp⟩, by simp [ask]⟩
  | cancel id => exact ⟨⟨[.cancel id], by simp [System.step?, ask], by simp⟩, by simp [ask, hear]⟩
  | status | active | metrics | sleep => exact ⟨⟨[], rfl, by simp⟩, by simp [ask, hear]⟩

theorem next?_plain {task : Nat} {x : Happening} (h : s.next? task = some x) (w : String) (context : Json) :
    x ≠ .start w context := by
  rintro rfl
  unfold System.next? at h
  split at h
  · dsimp only at h
    split at h
    · cases h
    · split at h
      · cases h
      · obtain ⟨level, -, h⟩ := Option.map_eq_some_iff.1 h
        cases h
  · cases h

theorem move?_serves (h : move? s c = some (t, c')) : Serves s [c] t [c'] := by
  unfold move? at h
  split at h
  · split at h
    · cases h
    · next r rs hrequests =>
      have hask := ask_serves s { c with requests := rs } r
      rw [Option.some.inj h, ← hrequests] at hask
      exact hask
  · split at h
    · cases h
      exact .hear ..
    · obtain ⟨x, hx, h⟩ := Option.bind_eq_some_iff.1 h
      obtain ⟨u, hu, h⟩ := Option.bind_eq_some_iff.1 h
      cases h
      exact .of_step hu (next?_plain hx)
  · split at h
    · cases h
      exact .hear ..
    · cases h

theorem firstMove?_serves (h : firstMove? s cs = some (t, cs')) : Serves s cs t cs' := by
  induction cs generalizing cs' with
  | nil => cases h
  | cons c cs ih =>
    unfold firstMove? at h
    split at h
    · next hm =>
      cases h
      exact (move?_serves hm).head cs
    · obtain ⟨⟨u, cs''⟩, hrest, h⟩ := Option.map_eq_some_iff.1 h
      cases h
      exact (ih hrest).cons c

/-- A turn without a move lets the clock go on. -/
theorem turn?_serves (h : turn? s cs = some (t, cs')) : Serves s cs t cs' := by
  unfold turn? at h
  split at h
  · next hm =>
    cases h
    exact firstMove?_serves hm
  · obtain ⟨clock, -, h⟩ := Option.bind_eq_some_iff.1 h
    cases h
    have hclock : s.host.clock + (clock - s.host.clock) = max s.host.clock clock := by omega
    have hstep : s.step? (.wait (clock - s.host.clock)) =
        some { s with host.clock := max s.host.clock clock } := by
      simp [System.step?, hclock]
    exact .of_step hstep (by simp)

theorem turns_serves (n : Nat) (s : System) (cs : List Client) : Serves s cs (turns n s cs).1 (turns n s cs).2 := by
  induction n generalizing s cs with
  | zero => exact .refl s cs
  | succ n ih =>
    unfold turns
    split
    · next t cs' hturn => exact (turn?_serves hturn).trans (ih t cs')
    · exact .refl s cs

end Client

/-- **Serving clients** is a history of the stage, and the workflows started are those that the clients ask for. -/
theorem Stage.serve_history (s : Stage) (scripts : List (List Request)) :
    ∃ past t, s.idle.run? past = some t ∧ (s.serve scripts).1 = t.toStage ∧
      ∀ w context, .start w context ∈ past → .start w context ∈ scripts.flatten := by
  obtain ⟨past, hpast, hstarts⟩ := (Client.turns_serves
    (2 * (scripts.map List.length).foldr (· + ·) 0 * (s.orchestrator.happeningBound + 3) + 1) s.idle
    (scripts.map fun requests => { requests })).history
  refine ⟨past, _, hpast, rfl, fun w context h => ?_⟩
  simpa [List.flatMap_map] using hstarts w context h

end Workflow

/-! ## What the host announces -/

/-- More events have been announced, all of them about workflow runs. -/
def Host.Follows (before after : Host) : Prop :=
  ∃ events, after.announced = events ++ before.announced ∧ ∀ e ∈ events, e.instance?.isSome = true

namespace Host.Follows

variable {h h' h'' : Host}

theorem of_eq (announced : h'.announced = h.announced) : h.Follows h' := ⟨[], by simpa using announced, by simp⟩

@[refl] theorem refl (h : Host) : h.Follows h := of_eq rfl

theorem trans (first : h.Follows h') (second : h'.Follows h'') : h.Follows h'' := by
  obtain ⟨events, hevents, habout⟩ := first
  obtain ⟨events', hevents', habout'⟩ := second
  refine ⟨events' ++ events, by simp [hevents, hevents'], fun e he => ?_⟩
  rcases List.mem_append.1 he with he | he
  · exact habout' e he
  · exact habout e he

theorem announce (h : Host) {e : Event} (about : e.instance?.isSome = true) : h.Follows (h.announce e) :=
  ⟨[e], rfl, by simpa using about⟩

theorem answer (h : Host) (q : Provider.Query) : h.Follows (h.answer q).2 := of_eq rfl

theorem call (h : Host) (q : Provider.Query) : h.Follows (h.call q).2 := of_eq rfl

end Host.Follows

namespace Workflow

variable {s s' : Stage} {f : Frame} {below : List Frame}

theorem endPhase_follows {h : Host} (hs : h.Follows s.host) (f : Frame) (u : Underway)
    (outcome : Except WorkflowError Json) : h.Follows (s.endPhase f u outcome).1.host :=
  hs.trans (.announce s.host rfl)

theorem begin_follows (s : Stage) (d : Definition) (context : Json) (parent : Option Event.InstanceId) :
    s.host.Follows (s.begin d context parent).1.host := .announce s.host rfl

theorem ended_follows (s : Stage) (f : Frame) : s.host.Follows (s.ended f).host := by
  unfold Stage.ended Stage.conclude
  dsimp only
  split
  · exact .announce s.host rfl
  · exact .refl s.host
  · exact .announce s.host rfl
  · exact .announce s.host rfl

/-- **One block of work** announces events of runs, and nothing else. -/
theorem Work.follows {late : Option Nat} {u : Task} (h : Work s f below late s' u) : s.host.Follows s'.host := by
  cases h with
  | observe | exhausted | publish => exact .refl s.host
  | ask host calls hc hu hp plain hasked =>
    obtain rfl := host_of_askAll hasked
    exact .of_eq rfl
  | refuse => exact endPhase_follows (.refl s.host) ..
  | descend => exact begin_follows ..
  | conclude => exact ended_follows ..
  | deliver => exact endPhase_follows (ended_follows ..) ..
  | hear host calls' hc hears =>
    obtain ⟨place, call, -, -, rfl, -⟩ := hears
    exact .answer ..
  | answer host outcome hc hlast =>
    obtain ⟨calls', payloads, ⟨place, call, -, -, rfl, -⟩, -⟩ := hlast
    exact endPhase_follows (.answer s.host call.query) ..
  | expire =>
    refine endPhase_follows ?_ ..
    exact .refl s.host

theorem cancel_follows (s : Stage) (id : Event.InstanceId) : s.host.Follows (s.cancel id).2.host := by
  unfold Stage.cancel
  split
  · exact .announce s.host rfl
  · exact .refl s.host

theorem Step.follows {t u : System} {x : Happening} (h : Step t x u) : t.host.Follows u.host := by
  cases h with
  | unknown => exact .refl t.host
  | start => exact begin_follows ..
  | work _ _ hw => exact hw.follows
  | cancel => exact cancel_follows ..
  | wait => exact .of_eq rfl

/-- **Over any history**, events of runs are announced, and nothing else. -/
theorem Stage.follows_of_run? {past : List Happening} {t : System} (h : s.idle.run? past = some t) :
    s.host.Follows t.host :=
  (System.run_induction (P := fun _ t => s.host.Follows t.host) s.idle_stacked (.refl s.host)
    (fun _ _ _ _ _ hp hstep => hp.trans hstep.follows) h).2

theorem Stage.serve_follows (s : Stage) (scripts : List (List Request)) :
    s.host.Follows (s.serve scripts).1.host := by
  obtain ⟨past, t, hpast, hserve, -⟩ := s.serve_history scripts
  rw [hserve]
  exact follows_of_run? hpast

/-- A run with nothing else going on serves one client. -/
theorem Stage.run_stage (s : Stage) (workflow : String) (context : Json) :
    (s.run workflow context).2 = (s.serve [[.start workflow context]]).1 := by
  unfold Stage.run
  split
  · next hserve => rw [hserve]
  · next hserve => rw [hserve]

theorem Stage.run_follows (s : Stage) (workflow : String) (context : Json) :
    s.host.Follows (s.run workflow context).2.host := by
  rw [s.run_stage]
  exact s.serve_follows _

end Workflow

end Grimoire
