import Grimoire.Proofs.Workflow.Turns
import Grimoire.Workflow.Client
import Mathlib.Algebra.Group.Action.Defs
import Mathlib.Algebra.Order.BigOperators.Group.List
import Mathlib.Algebra.Order.Ring.Nat
import Mathlib.Data.List.Perm.Subperm

/-!
# Parents and children of instances

Each instance names the one whose phase started it. The parent chain of a run is the stack of its task
(`Family.parentChain`), which `maxNesting` bounds, and each nested phase that a run has begun started one
child at most. Both stay true when the runs are gone (`bred_of_run?`), so the instances that come from
one start lie in `maxNesting` generations, each at most as wide as the powers of the number of nested
phases (`length_started_le`).
-/
namespace Grimoire.Workflow

open Event (InstanceId)

/-! ## Parent chains and generations -/

namespace Orchestrator

/-- An instance, its parent, the parent of that one, and so on up to one that has none. -/
inductive ParentChain (o : Orchestrator) : InstanceId → List InstanceId → Prop
  | root {id : InstanceId} (known : (id, none) ∈ o.lineage) : ParentChain o id [id]
  | child {id p : InstanceId} {chain : List InstanceId} (known : (id, some p) ∈ o.lineage)
      (parent : ParentChain o p chain) : ParentChain o id (id :: chain)

/-- The instance `root`, one that a phase of it started, one that a phase of that one started, and so on. -/
inductive StartedBy (o : Orchestrator) (root : InstanceId) : InstanceId → Prop
  | self {parent : Option InstanceId} (known : (root, parent) ∈ o.lineage) : StartedBy o root root
  | child {id p : InstanceId} (known : (id, some p) ∈ o.lineage) (parent : StartedBy o root p) :
      StartedBy o root id

/-- The instances that phases of one have started. -/
def children (o : Orchestrator) (p : InstanceId) : List InstanceId :=
  (o.lineage.filter fun entry => entry.2 = some p).map (·.1)

/-- The instances that are `n` starts away from one. -/
def generation (o : Orchestrator) (root : InstanceId) : Nat → List InstanceId
  | 0 => [root]
  | n + 1 => (o.generation root n).flatMap o.children

section
variable {o o' : Orchestrator} {id p : InstanceId} {chain : List InstanceId} {w : Nat}

theorem mem_children : id ∈ o.children p ↔ (id, some p) ∈ o.lineage := by
  simp [children]

theorem Numbered.parent_unique (h : o.Numbered) {a b : Option InstanceId} (ha : (id, a) ∈ o.lineage)
    (hb : (id, b) ∈ o.lineage) : a = b := by
  obtain ⟨i, hi, hid, rfl⟩ := mem_lineage.1 ha
  obtain ⟨j, hj, hjd, rfl⟩ := mem_lineage.1 hb
  rw [h.eq_of_id hi hj (hid.trans hjd.symm)]

theorem ParentChain.mono (hsub : o.lineage ⊆ o'.lineage) (h : o.ParentChain id chain) :
    o'.ParentChain id chain := by
  induction h with
  | root known => exact .root (hsub known)
  | child known _ ih => exact .child (hsub known) ih

theorem ParentChain.known (h : o.ParentChain id chain) : ∃ parent, (id, parent) ∈ o.lineage := by
  cases h with
  | root known => exact ⟨_, known⟩
  | child known => exact ⟨_, known⟩

theorem length_generation_le (hw : ∀ p, (o.children p).length ≤ w) (root : InstanceId) :
    ∀ n, (o.generation root n).length ≤ w ^ n
  | 0 => Nat.le_refl 1
  | n + 1 => by
    have hall : ∀ k ∈ (o.generation root n).map fun p => (o.children p).length, k ≤ w := by
      intro k hk
      obtain ⟨p, _, rfl⟩ := List.mem_map.1 hk
      exact hw p
    have hsum := List.sum_le_card_nsmul _ _ hall
    rw [List.length_map, smul_eq_mul] at hsum
    rw [generation, List.length_flatMap, Nat.pow_succ]
    exact hsum.trans (Nat.mul_le_mul_right w (length_generation_le hw root n))

/-- What `root` started lies in a generation, and the parent chain is longer than its number. -/
theorem StartedBy.mem_generation {root : InstanceId} (hn : o.Numbered) (h : o.StartedBy root id) :
    ∀ chain, o.ParentChain id chain → ∃ n < chain.length, id ∈ o.generation root n := by
  induction h with
  | self =>
    intro chain hc
    refine ⟨0, ?_, by simp [generation]⟩
    cases hc <;> simp
  | child known _ ih =>
    intro chain hc
    cases hc with
    | root known' => cases hn.parent_unique known known'
    | child known' parent =>
      obtain rfl := Option.some.inj (hn.parent_unique known known')
      obtain ⟨n, hlt, hmem⟩ := ih _ parent
      refine ⟨n + 1, by simpa using hlt, ?_⟩
      rw [generation, List.mem_flatMap]
      exact ⟨_, hmem, mem_children.2 known⟩

theorem StartedBy.known {root : InstanceId} (h : o.StartedBy root id) : ∃ parent, (id, parent) ∈ o.lineage := by
  cases h with
  | self known => exact ⟨_, known⟩
  | child known => exact ⟨_, known⟩

/-- **Short chains and few children** leave room for few instances. -/
theorem length_started_le (hn : o.Numbered) {m : Nat} (hw : ∀ p, (o.children p).length ≤ w)
    (hc : ∀ id parent, (id, parent) ∈ o.lineage → ∃ chain, o.ParentChain id chain ∧ chain.length ≤ m)
    {root : InstanceId} {started : List InstanceId} (hd : started.Nodup)
    (hs : ∀ id ∈ started, o.StartedBy root id) :
    started.length ≤ ((List.range m).map fun n => w ^ n).sum := by
  have hsub : started ⊆ (List.range m).flatMap (o.generation root) := by
    intro id hid
    obtain ⟨parent, hknown⟩ := (hs id hid).known
    obtain ⟨chain, hchain, hlen⟩ := hc id parent hknown
    obtain ⟨n, hlt, hmem⟩ := (hs id hid).mem_generation hn chain hchain
    exact List.mem_flatMap.2 ⟨n, List.mem_range.2 (by omega), hmem⟩
  calc started.length
      ≤ ((List.range m).flatMap (o.generation root)).length := (List.subperm_of_subset hd hsub).length_le
    _ = ((List.range m).map fun n => (o.generation root n).length).sum := List.length_flatMap
    _ ≤ ((List.range m).map fun n => w ^ n).sum :=
        List.sum_le_sum fun n _ => length_generation_le hw root n

end

end Orchestrator

/-! ## Phases begun -/

def Definition.nestedPhases (d : Definition) : Nat := (d.phases.filter (·.action.isNested)).length

/-- How many phases the run has begun, the one under way with those that have ended. -/
def Frame.begun (f : Frame) : Nat := f.run.phases.length + if f.underway?.isSome then 1 else 0

def Frame.nestedBegun (f : Frame) : Nat :=
  ((f.definition.phases.take f.begun).filter (·.action.isNested)).length

theorem Frame.nestedBegun_le (f : Frame) : f.nestedBegun ≤ f.definition.nestedPhases :=
  ((List.take_sublist _ _).filter _).length_le

theorem Frame.nestedBegun_mono {f f' : Frame} (hd : f'.definition = f.definition) (hb : f.begun ≤ f'.begun) :
    f.nestedBegun ≤ f'.nestedBegun := by
  unfold nestedBegun
  rw [hd]
  exact ((List.take_sublist_take_left hb).filter _).length_le

/-- A nested phase begins. -/
theorem Frame.nestedBegun_succ {f f' : Frame} {p : Phase} {w : String} (hd : f'.definition = f.definition)
    (hb : f'.begun = f.begun + 1) (hp : f.definition.phases[f.begun]? = some p) (ha : p.action = .nested w) :
    f'.nestedBegun = f.nestedBegun + 1 := by
  have htake : f.definition.phases.take (f.begun + 1) = f.definition.phases.take f.begun ++ [p] := by
    rw [List.take_add_one, hp]
    rfl
  simp [nestedBegun, hd, hb, htake, List.filter_append, ha, PhaseAction.isNested]

theorem Frame.begun_of_check {f : Frame} (h : f.control = .check) : f.begun = f.run.phases.length := by
  simp [begun, underway?, h]

theorem Frame.begun_of_underway {f : Frame} (h : f.underway?.isSome = true) :
    f.begun = f.run.phases.length + 1 := by
  simp [begun, h]

theorem Frame.length_le_begun (f : Frame) : f.run.phases.length ≤ f.begun := Nat.le_add_right ..

section
variable {s : Stage} {x : Happening} {id : InstanceId} {f f' : Frame} {i : Instance}

theorem Move.definition (m : Move s i f f') : f'.definition = f.definition := by
  cases m <;> rfl

/-- A phase that has begun stays begun. -/
theorem Move.begun_le (m : Move s i f f') : f.begun ≤ f'.begun := by
  cases m with
  | observe hc => rw [Frame.begun_of_check hc]; exact Frame.length_le_begun f.stopped
  | @enter p c hc => rw [Frame.begun_of_check hc]; exact Frame.length_le_begun { f.entering with control := c }
  | refuse e hc =>
    rw [Frame.begun_of_check hc]
    refine Nat.le_trans ?_ (Frame.length_le_begun _)
    simp [Frame.entering]
  | exhausted hc => rw [Frame.begun_of_check hc]; exact Frame.length_le_begun { f with control := .finish }
  | hear calls' hc => simp [Frame.begun, Frame.underway?, hc]
  | endPhase at_end outcome hu =>
    rw [Frame.begun_of_underway (by simp [hu])]
    refine Nat.le_trans ?_ (Frame.length_le_begun _)
    simp

/-- The frame of an instance after a turn is that of a registered definition with nothing begun, or goes
on with its definition. -/
theorem Turn.frame {f? : Option Frame} {i? i'? : Option Instance} (h : Turn s x id f? i? (some f') i'?) :
    (i? = none ∧ f'.nestedBegun = 0 ∧ ∃ w, s.orchestrator.definitions.get? w = some f'.definition) ∨
      ∃ f, f? = some f ∧ f'.definition = f.definition ∧ f.nestedBegun ≤ f'.nestedBegun := by
  generalize hf' : some f' = f'? at h
  cases h with
  | rest => exact .inr ⟨f', hf'.symm, rfl, Nat.le_refl _⟩
  | cancel => exact .inr ⟨f', hf'.symm, rfl, Nat.le_refl _⟩
  | @start w d context parent known =>
    obtain rfl := Option.some.inj hf'
    refine .inl ⟨rfl, ?_, w, known⟩
    have hb : (s.begin d context parent).2.begun = 0 := by
      simp only [Frame.begun, Stage.begin, Frame.underway?]
      split <;> simp
    simp [Frame.nestedBegun, hb]
  | move m =>
    obtain rfl := Option.some.inj hf'
    exact .inr ⟨_, rfl, m.definition, Frame.nestedBegun_mono m.definition m.begun_le⟩
  | @publish f _ stop hc =>
    obtain rfl := Option.some.inj hf'
    refine .inr ⟨f, rfl, rfl, Frame.nestedBegun_mono rfl ?_⟩
    have hb : f.begun = f.run.phases.length := by simp [Frame.begun, Frame.underway?, hc]
    rw [hb]
    exact Frame.length_le_begun { f with control := if stop then .finish else f.between }
  | ending => cases hf'
  | drop => cases hf'
  | abandon => cases hf'

end

/-! ## What a step adds -/

/-- The parent chain of a run is the stack of its task. -/
theorem Family.parentChain {o : Orchestrator} {others : List Frame} : ∀ {f : Frame} {below : List Frame},
    Family o (f :: below ++ others) → Chained (f :: below) →
    o.ParentChain f.run.id ((f :: below).map (·.run.id))
  | f, [], hf, hc => by
    obtain ⟨i, hi, hp, _⟩ := hf.published f (by simp)
    obtain ⟨hmem, hid⟩ := Orchestrator.instance?_some hi
    exact .root (Orchestrator.mem_lineage.2 ⟨i, hmem, hid, hp.trans hc.1⟩)
  | f, g :: rest, hf, hc => by
    obtain ⟨i, hi, hp, _⟩ := hf.published f (by simp)
    obtain ⟨hmem, hid⟩ := Orchestrator.instance?_some hi
    have hrest : Family o (g :: rest ++ others) := hf.drop [f]
    exact .child (Orchestrator.mem_lineage.2 ⟨i, hmem, hid, hp.trans hc.1⟩) (hrest.parentChain hc.2)

/-- What one step adds to the published instances. -/
inductive Growth (t u : System) : Prop
  | none (same : u.orchestrator.lineage = t.orchestrator.lineage)
  | root (id : InstanceId) (added : u.orchestrator.lineage = t.orchestrator.lineage ++ [(id, none)])
  | child (id : InstanceId) {f f' : Frame} {chain : List InstanceId}
      (added : u.orchestrator.lineage = t.orchestrator.lineage ++ [(id, some f.run.id)])
      (before : t.frame? f.run.id = some f) (after : u.frame? f.run.id = some f')
      (begins : f'.nestedBegun = f.nestedBegun + 1)
      (stack : t.orchestrator.ParentChain f.run.id chain) (shallow : chain.length < maxNesting)

theorem Work.growth {s s' : Stage} {f : Frame} {below others : List Frame} {late : Option Nat} {v : Task}
    (h : Work s f below late s' v) (hf : Family s.orchestrator (f :: below ++ others)) :
    s'.orchestrator.lineage = s.orchestrator.lineage ∨
      ∃ id f', s'.orchestrator.lineage = s.orchestrator.lineage ++ [(id, some f.run.id)] ∧
        f' ∈ v.frames ∧ f'.run.id = f.run.id ∧ f'.nestedBegun = f.nestedBegun + 1 ∧
        below.length + 1 < maxNesting := by
  have hn := hf.numbered
  obtain ⟨old, hold, hp, _⟩ := hf.published f (by simp)
  cases h with
  | observe | ask | refuse | exhausted | hear | answer => exact .inl rfl
  | @descend p w d context hc _ hnext ha _ hshallow =>
    refine .inr ⟨_, _, lineage_begin s d context (some f.run.id), List.mem_cons_of_mem _ List.mem_cons_self, rfl,
      ?_, hshallow⟩
    have hb := Frame.begun_of_check hc
    refine Frame.nestedBegun_succ rfl ?_ ?_ ha
    · rw [hb, Frame.begun_of_underway rfl]
      rfl
    · rw [hb]
      exact hnext
  | publish => exact .inl (Orchestrator.lineage_publish hn hold hp)
  | conclude => exact .inl (lineage_ended hn hold hp)
  | deliver => exact .inl (lineage_ended hn hold hp)
  | expire e hsplit hu o hx =>
    have hsame : o.lineage = s.orchestrator.lineage := by
      subst hx
      split
      · exact Orchestrator.lineage_abandonRounds ..
      · rfl
    exact .inl hsame

theorem Step.growth {t u : System} {x : Happening} (hst : Step t x u) (hk : t.Kept) : Growth t u := by
  have hfam := (hst.consistent hk.sound hk.consistent).family
  cases hst with
  | unknown => exact .none rfl
  | start => exact .root _ (lineage_begin ..)
  | @work _ task f below stage v on found work =>
    obtain ⟨hf, hc⟩ := hk.consistent.at found
    have hperm := frames_set_perm found stage v
    rcases work.growth hf with hsame | ⟨id, f', hadd, hmem, hid, hb, hshallow⟩
    · exact .none hsame
    · refine .child id hadd ?_ ?_ hb (hf.parentChain hc) (by simpa using hshallow)
      · exact hk.consistent.family.frameOf?_eq ((frames_perm found).mem_iff.2 (by simp [Task.frames]))
      · rw [← hid]
        exact hfam.frameOf?_eq (hperm.mem_iff.2 (List.mem_append_left _ hmem))
  | cancel => exact .none (lineage_cancel ..)
  | wait => exact .none rfl

/-! ## Whole histories -/

/-- Runs of definitions with at most `w` nested phases, with at most one child for each nested phase
begun, and with short parent chains. -/
structure System.Bred (w : Nat) (t : System) : Prop where
  registered : ∀ id f, t.frame? id = some f → f.definition.nestedPhases ≤ w
  begun : ∀ id f, t.frame? id = some f → (t.orchestrator.children id).length ≤ f.nestedBegun
  children : ∀ id, (t.orchestrator.children id).length ≤ w
  chains : ∀ id parent, (id, parent) ∈ t.orchestrator.lineage →
    ∃ chain, t.orchestrator.ParentChain id chain ∧ chain.length ≤ maxNesting

theorem children_snoc {o o' : Orchestrator} {id : InstanceId} {parent : Option InstanceId}
    (h : o'.lineage = o.lineage ++ [(id, parent)]) (p : InstanceId) :
    o'.children p = o.children p ++ if parent = some p then [id] else [] := by
  by_cases hp : parent = some p <;> simp [Orchestrator.children, h, hp]

theorem System.Bred.known_parent {t : System} {w : Nat} (h : t.Bred w) (hn : t.orchestrator.Numbered)
    {id p : InstanceId} (hp : (id, some p) ∈ t.orchestrator.lineage) : ∃ i, t.instance? p = some i := by
  obtain ⟨chain, hchain, _⟩ := h.chains id _ hp
  cases hchain with
  | root known => cases hn.parent_unique known hp
  | child known parent =>
    obtain rfl := Option.some.inj (hn.parent_unique known hp)
    obtain ⟨q, hq⟩ := parent.known
    obtain ⟨i, hi, rfl, _⟩ := Orchestrator.mem_lineage.1 hq
    exact ⟨i, hn.instance?_eq hi⟩

/-- An id that is not published has no children. -/
theorem System.Bred.no_children {t : System} {w : Nat} (h : t.Bred w) (hn : t.orchestrator.Numbered)
    {id : InstanceId} (hnone : t.instance? id = none) : t.orchestrator.children id = [] := by
  by_contra hne
  obtain ⟨c, hc⟩ := List.exists_mem_of_ne_nil _ hne
  obtain ⟨i, hi⟩ := h.known_parent hn (Orchestrator.mem_children.1 hc)
  rw [hnone] at hi
  cases hi

theorem Step.bred {t u : System} {x : Happening} {w : Nat} (hst : Step t x u) (hk : t.Kept)
    (hw : ∀ name d, t.orchestrator.definitions.get? name = some d → d.nestedPhases ≤ w) (h : t.Bred w) :
    u.Bred w := by
  have hn := hk.consistent.family.numbered
  have hgrowth := hst.growth hk
  -- Frames go on with their definitions, or are new.
  have hframe : ∀ id f', u.frame? id = some f' → (t.instance? id = none ∧ f'.nestedBegun = 0 ∧
      ∃ name, t.orchestrator.definitions.get? name = some f'.definition) ∨
        ∃ f, t.frame? id = some f ∧ f'.definition = f.definition ∧ f.nestedBegun ≤ f'.nestedBegun := by
    intro id f' hf'
    have hturn := hst.turn hk id
    rw [hf'] at hturn
    exact hturn.frame
  have hregistered : ∀ id f', u.frame? id = some f' → f'.definition.nestedPhases ≤ w := by
    intro id f' hf'
    rcases hframe id f' hf' with ⟨_, _, name, hd⟩ | ⟨f, hf, hd, _⟩
    · exact hw name _ hd
    · rw [hd]
      exact h.registered id f hf
  -- The children of an instance that gets no new one.
  have hkept : ∀ id, u.orchestrator.children id = t.orchestrator.children id →
      (∀ f', u.frame? id = some f' → (u.orchestrator.children id).length ≤ f'.nestedBegun) ∧
        (u.orchestrator.children id).length ≤ w := by
    intro id hsame
    rw [hsame]
    refine ⟨fun f' hf' => ?_, h.children id⟩
    rcases hframe id f' hf' with ⟨hnone, _, _⟩ | ⟨f, hf, _, hle⟩
    · simp [h.no_children hn hnone]
    · exact (h.begun id f hf).trans hle
  have hchildren : ∀ id, (∀ f', u.frame? id = some f' → (u.orchestrator.children id).length ≤ f'.nestedBegun) ∧
      (u.orchestrator.children id).length ≤ w := by
    intro id
    cases hgrowth with
    | none same => exact hkept id (by simp only [Orchestrator.children, same])
    | root new added => exact hkept id (by simp [children_snoc added])
    | @child new f f' chain added before after begins =>
      by_cases hx : f.run.id = id
      · subst hx
        have hlen : (u.orchestrator.children f.run.id).length ≤ f'.nestedBegun := by
          have hold := h.begun _ f before
          simp only [children_snoc added, if_true, List.length_append, List.length_singleton]
          omega
        refine ⟨fun g hg => ?_, ?_⟩
        · obtain rfl : f' = g := Option.some.inj (after.symm.trans hg)
          exact hlen
        · exact hlen.trans (f'.nestedBegun_le.trans (hregistered _ f' after))
      · exact hkept id (by simp [children_snoc added, hx])
  refine ⟨hregistered, fun id => (hchildren id).1, fun id => (hchildren id).2, ?_⟩
  -- Parent chains stay, and a new instance continues that of its parent.
  intro id parent hmem
  cases hgrowth with
  | none same =>
    rw [same] at hmem
    obtain ⟨chain, hc, hlen⟩ := h.chains id parent hmem
    exact ⟨chain, hc.mono (by simp [same]), hlen⟩
  | root new added =>
    rw [added] at hmem
    rcases List.mem_append.1 hmem with hmem | hmem
    · obtain ⟨chain, hc, hlen⟩ := h.chains id parent hmem
      exact ⟨chain, hc.mono (by simp [added]), hlen⟩
    · obtain ⟨rfl, rfl⟩ := Prod.mk.inj (List.mem_singleton.1 hmem)
      exact ⟨[id], .root (by simp [added]), by simp [maxNesting]⟩
  | @child new f f' chain added before after begins stack shallow =>
    rw [added] at hmem
    rcases List.mem_append.1 hmem with hmem | hmem
    · obtain ⟨chain, hc, hlen⟩ := h.chains id parent hmem
      exact ⟨chain, hc.mono (by simp [added]), hlen⟩
    · obtain ⟨rfl, rfl⟩ := Prod.mk.inj (List.mem_singleton.1 hmem)
      exact ⟨id :: chain, .child (by simp [added]) (stack.mono (by simp [added])), Nat.succ_le_of_lt shallow⟩

theorem bred_of_run? {s : Stage} {w : Nat} (hs : s.orchestrator.instances = [])
    (hw : ∀ name d, s.orchestrator.definitions.get? name = some d → d.nestedPhases ≤ w) {past : List Happening}
    {t : System} (h : s.idle.run? past = some t) : t.Bred w := by
  have hlineage : s.idle.orchestrator.lineage = [] := by simp [Stage.idle, Orchestrator.lineage, hs]
  refine (reachable_induction
    (P := fun _ t => t.orchestrator.definitions = s.orchestrator.definitions ∧ t.Bred w) hs ⟨rfl, ?_⟩ ?_ h).2
  · constructor
    · exact fun id f hf => absurd hf (by simp [System.frame?, frameOf?, System.frames, Stage.idle])
    · exact fun id f hf => absurd hf (by simp [System.frame?, frameOf?, System.frames, Stage.idle])
    · intro id
      simp [Orchestrator.children, hlineage]
    · intro id parent hmem
      simp [hlineage] at hmem
  · rintro past x t u - hk ⟨hd, hb⟩ hst
    refine ⟨hst.definitions.trans hd, hst.bred hk ?_ hb⟩
    rw [hd]
    exact hw

/-! ## The most of a measure -/

theorem le_foldl_max : ∀ (l : List Nat) (a : Nat), a ≤ l.foldl max a ∧ ∀ k ∈ l, k ≤ l.foldl max a
  | [], a => ⟨Nat.le_refl a, by simp⟩
  | b :: l, a => by
    obtain ⟨hstart, hall⟩ := le_foldl_max l (max a b)
    refine ⟨(Nat.le_max_left a b).trans hstart, fun k hk => ?_⟩
    rcases List.mem_cons.1 hk with rfl | hk
    · exact (Nat.le_max_right a k).trans hstart
    · exact hall k hk

theorem mem_values_of_get? {α : Type} {c : Catalog α} {name : String} {value : α} (h : c.get? name = some value) :
    value ∈ c.values :=
  List.mem_map.2 ⟨(name, value), Std.TreeMap.mem_toList_iff_getElem?_eq_some.2 h, rfl⟩

/-- A registered definition has at most the most of a measure. -/
theorem Orchestrator.le_most {o : Orchestrator} {name : String} {d : Definition}
    (h : o.definitions.get? name = some d) (measure : Definition → Nat) : measure d ≤ o.most measure := by
  exact (le_foldl_max _ 0).2 _ (List.mem_map_of_mem (mem_values_of_get? h))

end Grimoire.Workflow
