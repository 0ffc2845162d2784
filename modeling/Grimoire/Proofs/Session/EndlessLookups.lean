import Grimoire.Proofs.Session.LexicalScopes
import Mathlib.Data.Finset.Card
import Mathlib.Data.Fintype.EquivFin
import Mathlib.Logic.Relation

/-!
# Lookups that do not end

A scope number is good in every environment, so a scope can be opened around one that is not there yet, even
around itself. The way outward then leads in a circle once it comes to the number of the new scope, and a lookup of
a name that no scope on the circle defines goes round for ever. Environments are followed with the requests they
have had, clones with those of the environment they were made from (`Pool.Reached`); which of their lookups end is
said by `Pool.Reached.endings`.
-/
namespace Grimoire.Session.Environment

/-! ## Lookups and the way outward -/

/-- The calls that look a name up. -/
inductive Lookup
  | get (scope : ScopeId) (name : String)
  | assign (scope : ScopeId) (name : String) (b : Binding)
  | contains (scope : ScopeId) (name : String)

def Lookup.scope : Lookup → ScopeId
  | get scope _ | assign scope _ _ | contains scope _ => scope

def Lookup.name : Lookup → String
  | get _ name | assign _ name _ | contains _ name => name

/-- Some number of steps outward is enough. -/
def Lookup.Ends (e : Environment) (l : Lookup) : Prop :=
  ∃ steps, e.resolveWithin l.name steps l.scope ≠ .endless

/-- The second scope is the first one, or lies around it. -/
def Leads (e : Environment) : ScopeId → ScopeId → Prop :=
  Relation.ReflTransGen fun i parent => e.parent? i = some parent

/-- The environment that comes of the requests, with no regard to which scopes they name. -/
def History.replay : History → Environment
  | [] => empty
  | r :: h => (replay h).serve r

/-- No scope was opened around one from which the way outward led to the number that the new scope got. -/
def History.OpensNoCircle (h : History) : Prop :=
  ∀ (parent : ScopeId) (earlier : History), .push parent :: earlier <:+ h →
    ¬ earlier.replay.Leads parent earlier.replay.scopeCount

/-- Each scope was opened around one that was there. -/
def History.OpensInside (h : History) : Prop :=
  ∀ (parent : ScopeId) (earlier : History), .push parent :: earlier <:+ h → parent < earlier.replay.scopeCount

/-! ## Environments side by side -/

/-- An assignment that looks for its name for ever does not come back. -/
def Request.Returns (e : Environment) : Request → Prop
  | .assign scope name b => (Lookup.assign scope name b).Ends e
  | .push _ | .define .. => True

/-- The scope number that a request gives out. -/
def Request.issued (e : Environment) : Request → List ScopeId
  | .push parent => [(e.pushScope parent).1]
  | .define .. | .assign .. => []

/-- Environments, each with the requests that it has had, and the scope numbers that they have given out. -/
structure Pool where
  environments : List (History × Environment) := []
  issued : List ScopeId := []

/-- The pools that come about. A request names any scope number that was given out before, by whichever
environment; the number of the global scope is known with the first of them. -/
inductive Pool.Reached : Pool → Prop
  | start : Reached {}
  | create {environments issued} : Reached ⟨environments, issued⟩ →
    Reached ⟨([], empty) :: environments, globalScope :: issued⟩
  | createWithBuiltins {environments issued} : Reached ⟨environments, issued⟩ →
    Reached ⟨(History.builtins, withBuiltins) :: environments, globalScope :: issued⟩
  | clone {environments issued h e} : Reached ⟨environments, issued⟩ → (h, e) ∈ environments →
    Reached ⟨(h, e) :: environments, issued⟩
  | request {after issued h e} (before : List (History × Environment)) (r : Request) :
    Reached ⟨before ++ (h, e) :: after, issued⟩ → r.scope ∈ issued → r.Returns e → Reached ⟨before ++ (r :: h, e.serve r) :: after, r.issued e ++ issued⟩

/-- Which lookups end in an environment with these requests behind it. -/
structure Endings (h : History) (e : Environment) : Prop where
  /-- A lookup ends where the way outward comes to a scope that defines the name, or to a scope in no other. -/
  each : ∀ l : Lookup, l.Ends e ↔
    ∃ j, e.Leads l.scope j ∧ ((e.binding? j l.name).isSome = true ∨ e.parent? j = none)
  /-- One step more than there are scopes is enough to tell. -/
  returns : ∀ l : Lookup, l.Ends e ↔ e.returns l.scope l.name = true
  /-- All lookups end exactly when no scope was opened around a way to its own number. -/
  all : (∀ l : Lookup, l.Ends e) ↔ h.OpensNoCircle
  /-- So they do when each scope was opened around one that was there. -/
  inside : h.OpensInside → ∀ l : Lookup, l.Ends e

section
variable {e : Environment} {x : String} {i j k m n p : ScopeId} {h earlier : History} {steps : Nat}

/-! ## One step outward -/

theorem parent?_of_size_le (hi : e.scopes.size ≤ i) : e.parent? i = none := by
  rw [parent?, Array.getElem?_eq_none hi, Option.bind_none]

theorem lt_size_of_parent? (hp : e.parent? i = some p) : i < e.scopes.size := by
  refine Nat.lt_of_not_le fun hle => ?_
  rw [parent?_of_size_le hle] at hp
  cases hp

/-- A lookup is settled in the scope that it has come to, or goes on in the one around. -/
theorem resolveWithin_succ (e : Environment) (x : String) (steps : Nat) (i : ScopeId) :
    e.resolveWithin x (steps + 1) i =
      if (e.binding? i x).isSome then .found i
      else match e.parent? i with
        | none => .unbound
        | some parent => e.resolveWithin x steps parent := by
  rw [resolveWithin]
  unfold binding? parent?
  cases e.scopes[i]? with
  | none => rfl
  | some s =>
    have hbinds : s.bindings.contains x = true ↔ ((some s).bind (·.bindings[x]?)).isSome = true := by
      rw [Std.TreeMap.contains_eq_isSome_getElem?, Option.bind_some]
    exact if_congr hbinds rfl rfl

theorem resolveWithin_succ_eq_endless :
    e.resolveWithin x (steps + 1) i = .endless ↔
      e.binding? i x = none ∧ ∃ parent, e.parent? i = some parent ∧ e.resolveWithin x steps parent = .endless := by
  rw [resolveWithin_succ]
  cases e.binding? i x <;> cases e.parent? i <;> simp

/-- More steps change nothing of a lookup that has ended. -/
theorem resolveWithin_ne_endless_mono (hends : e.resolveWithin x steps i ≠ .endless) (more : Nat) :
    e.resolveWithin x (steps + more) i ≠ .endless := by
  induction steps generalizing i with
  | zero => exact absurd rfl hends
  | succ steps ih =>
    rw [Nat.add_right_comm, Ne, resolveWithin_succ_eq_endless]
    rintro ⟨hbinding, parent, hparent, hgoes⟩
    refine hends (resolveWithin_succ_eq_endless.2 ⟨hbinding, parent, hparent, ?_⟩)
    by_contra hne
    exact ih hne hgoes

/-! ## Where lookups end -/

theorem Lookup.ends_iff (l : Lookup) : l.Ends e ↔
    ∃ j, e.Leads l.scope j ∧ ((e.binding? j l.name).isSome = true ∨ e.parent? j = none) := by
  constructor
  · rintro ⟨steps, hends⟩
    generalize l.scope = i at hends ⊢
    induction steps generalizing i with
    | zero => exact absurd rfl hends
    | succ steps ih =>
      rw [Ne, resolveWithin_succ_eq_endless] at hends
      cases hb : e.binding? i l.name with
      | some b => exact ⟨i, .refl, .inl (by rw [hb, Option.isSome_some])⟩
      | none =>
        cases hp : e.parent? i with
        | none => exact ⟨i, .refl, .inr hp⟩
        | some parent =>
          obtain ⟨j, hleads, hstop⟩ := ih parent fun hgoes => hends ⟨hb, parent, hp, hgoes⟩
          exact ⟨j, .head hp hleads, hstop⟩
  · rintro ⟨j, hleads, hstop⟩
    unfold Lookup.Ends
    generalize l.scope = i at hleads ⊢
    induction hleads using Relation.ReflTransGen.head_induction_on with
    | refl =>
      refine ⟨1, fun hgoes => ?_⟩
      obtain ⟨hb, parent, hp, -⟩ := resolveWithin_succ_eq_endless.1 hgoes
      rcases hstop with hbound | houtermost
      · simp [hb] at hbound
      · simp [hp] at houtermost
    | head hp _ ih =>
      obtain ⟨steps, hends⟩ := ih
      refine ⟨steps + 1, fun hgoes => ?_⟩
      obtain ⟨-, parent, hparent, hrest⟩ := resolveWithin_succ_eq_endless.1 hgoes
      obtain rfl := Option.some.inj (hp.symm.trans hparent)
      exact hends hrest

/-! ## How many steps are enough -/

/-- A lookup has not ended after so many steps, and with one more it has. -/
def EndsAfter (e : Environment) (x : String) (steps : Nat) (i : ScopeId) : Prop :=
  e.resolveWithin x steps i = .endless ∧ e.resolveWithin x (steps + 1) i ≠ .endless

theorem EndsAfter.unique (hm : e.EndsAfter x m i) (hn : e.EndsAfter x n i) : m = n := by
  rcases Nat.lt_trichotomy m n with hlt | heq | hlt
  · obtain ⟨more, rfl⟩ := Nat.exists_eq_add_of_le hlt
    exact absurd hn.1 (resolveWithin_ne_endless_mono hm.2 more)
  · exact heq
  · obtain ⟨more, rfl⟩ := Nat.exists_eq_add_of_le hlt
    exact absurd hm.1 (resolveWithin_ne_endless_mono hn.2 more)

theorem EndsAfter.outward (hends : e.EndsAfter x (steps + 1) i) :
    ∃ parent, e.parent? i = some parent ∧ e.EndsAfter x steps parent := by
  obtain ⟨hb, parent, hp, hgoes⟩ := resolveWithin_succ_eq_endless.1 hends.1
  exact ⟨parent, hp, hgoes, fun hrest => hends.2 (resolveWithin_succ_eq_endless.2 ⟨hb, parent, hp, hrest⟩)⟩

/-- A long way outward has a scope for each number of steps that are left. -/
theorem EndsAfter.exists_scope (hends : e.EndsAfter x k i) (hle : m ≤ k) : ∃ j, e.EndsAfter x m j := by
  induction k generalizing i with
  | zero => exact ⟨i, Nat.le_zero.1 hle ▸ hends⟩
  | succ k ih =>
    rcases Nat.eq_or_lt_of_le hle with rfl | hlt
    · exact ⟨i, hends⟩
    · obtain ⟨parent, -, hrest⟩ := hends.outward
      exact ih hrest (Nat.le_of_lt_succ hlt)

/-- It has no more steps than there are scopes. -/
theorem EndsAfter.le_size (hends : e.EndsAfter x k i) : k ≤ e.scopes.size := by
  have hscope (m : Nat) : ∃ j, m < k → e.EndsAfter x (m + 1) j := by
    by_cases hlt : m < k
    · obtain ⟨j, hj⟩ := hends.exists_scope hlt
      exact ⟨j, fun _ => hj⟩
    · exact ⟨i, fun h => absurd h hlt⟩
  choose scope hscope using hscope
  have hinto : Set.MapsTo scope (Finset.range k) (Finset.range e.scopes.size) := by
    intro m hm
    obtain ⟨parent, hp, -⟩ := (hscope m (Finset.mem_range.1 hm)).outward
    exact Finset.mem_coe.2 (Finset.mem_range.2 (lt_size_of_parent? hp))
  have hinj : Set.InjOn scope (Finset.range k) := by
    intro m hm n hn heq
    have hn' := hscope n (Finset.mem_range.1 hn)
    rw [← heq] at hn'
    exact Nat.succ_inj.1 ((hscope m (Finset.mem_range.1 hm)).unique hn')
  simpa using Finset.card_le_card_of_injOn scope hinto hinj

theorem exists_endsAfter (hgoes : e.resolveWithin x m i = .endless) (more : Nat)
    (hends : e.resolveWithin x (m + more) i ≠ .endless) : ∃ k, m ≤ k ∧ e.EndsAfter x k i := by
  induction more with
  | zero => exact absurd hgoes hends
  | succ more ih =>
    by_cases hgoes' : e.resolveWithin x (m + more) i = .endless
    · exact ⟨m + more, Nat.le_add_right .., hgoes', hends⟩
    · exact ih hgoes'

/-- **The bound on the steps outward tells the truth**: what has not ended by then never does. -/
theorem Lookup.ends_iff_returns (l : Lookup) : l.Ends e ↔ e.returns l.scope l.name = true := by
  rw [returns, bne_iff_ne]
  refine ⟨fun ⟨steps, hends⟩ hgoes => ?_, fun hends => ⟨_, hends⟩⟩
  have hlater : e.resolveWithin l.name (e.scopes.size + 1 + steps) l.scope ≠ .endless := by
    rw [Nat.add_comm]
    exact resolveWithin_ne_endless_mono hends _
  obtain ⟨k, hk, hafter⟩ := exists_endsAfter hgoes steps hlater
  exact absurd (hafter.le_size) (Nat.not_le_of_lt hk)

/-! ## Circles -/

theorem exists_unbound (e : Environment) : ∃ x, ∀ i, e.binding? i x = none := by
  obtain ⟨x, hx⟩ := Infinite.exists_notMem_finset (e.scopes.toList.flatMap (·.bindings.keys)).toFinset
  refine ⟨x, fun i => ?_⟩
  rw [List.mem_toFinset, List.mem_flatMap] at hx
  rw [binding?]
  cases hs : e.scopes[i]? with
  | none => rfl
  | some s =>
    refine Std.TreeMap.getElem?_eq_none fun hmem => hx ⟨s, ?_, Std.TreeMap.mem_keys.2 hmem⟩
    exact Array.mem_toList_iff.2 (Array.mem_of_getElem? hs)

/-- Every scope that a circle leads to lies on it. -/
theorem exists_parent_of_circle (hcircle : Relation.TransGen (fun i parent => e.parent? i = some parent) i i)
    (hleads : e.Leads i j) : ∃ parent, e.parent? j = some parent := by
  have hround : Relation.TransGen (fun i parent => e.parent? i = some parent) j j := by
    induction hleads with
    | refl => exact hcircle
    | tail _ hp ih =>
      obtain ⟨parent, hparent, hback⟩ := Relation.TransGen.head'_iff.1 ih
      obtain rfl := Option.some.inj (hp.symm.trans hparent)
      exact Relation.TransGen.tail' hback hp
  obtain ⟨parent, hparent, -⟩ := Relation.TransGen.head'_iff.1 hround
  exact ⟨parent, hparent⟩

/-! ## What requests change -/

theorem parent?_serve (e : Environment) (r : Request) (i : ScopeId) : (e.serve r).parent? i =
    match r with
    | .push parent => if i = e.scopes.size then some parent else e.parent? i
    | .define .. | .assign .. => e.parent? i := by
  cases r with
  | push parent => exact parent?_pushScope ..
  | define scope name b => exact parent?_define ..
  | assign scope name b =>
    simp only [serve, assign]
    cases e.resolve scope name with
    | found owner => exact parent?_define ..
    | unbound | endless => rfl

theorem parent?_serve_of_some (hp : e.parent? i = some p) (r : Request) : (e.serve r).parent? i = some p := by
  rw [parent?_serve]
  cases r with
  | push parent => exact (if_neg (Nat.ne_of_lt (lt_size_of_parent? hp))).trans hp
  | define _ _ _ | assign _ _ _ => exact hp

/-- A scope stays in the one that it was opened around. -/
theorem parent?_replay_of_suffix (hsuffix : earlier <:+ h) (hp : earlier.replay.parent? i = some p) :
    h.replay.parent? i = some p := by
  obtain ⟨later, rfl⟩ := hsuffix
  induction later with
  | nil => exact hp
  | cons r later ih => exact parent?_serve_of_some ih r

section
variable {r : Request}

theorem History.OpensNoCircle.tail (hopens : OpensNoCircle (r :: h)) : OpensNoCircle h :=
  fun parent earlier hsuffix => hopens parent earlier (hsuffix.trans (List.suffix_cons ..))

theorem History.OpensInside.of_suffix (hopens : h.OpensInside) (hsuffix : earlier <:+ h) : earlier.OpensInside :=
  fun parent before hbefore => hopens parent before (hbefore.trans hsuffix)

end

/-- Requests that open no circle leave every way outward with an end. -/
theorem History.OpensNoCircle.exists_outermost (hopens : h.OpensNoCircle) (i : ScopeId) :
    ∃ j, h.replay.Leads i j ∧ h.replay.parent? j = none := by
  induction h generalizing i with
  | nil =>
    refine ⟨i, .refl, ?_⟩
    rcases Nat.eq_zero_or_pos i with rfl | hpos
    · rfl
    · exact parent?_of_size_le hpos
  | cons r h ih =>
    have hnew := parent?_serve (replay h) r
    have hkeeps {i j} : (replay h).Leads i j → (replay (r :: h)).Leads i j :=
      Relation.ReflTransGen.mono (fun _ _ hp => parent?_serve_of_some hp r) _ _
    obtain ⟨j, hleads, hend⟩ := ih hopens.tail i
    cases r with
    | push parent =>
      -- An end stays one unless it is the number that the new scope gets; then the way goes on around that scope.
      by_cases hj : j = (replay h).scopeCount
      · obtain ⟨j', hleads', hend'⟩ := ih hopens.tail parent
        have hother : j' ≠ (replay h).scopeCount := by
          rintro rfl
          exact hopens parent h List.suffix_rfl hleads'
        have hstep : (replay (.push parent :: h)).parent? j = some parent := (hnew j).trans (if_pos hj)
        exact ⟨j', (hkeeps hleads).trans (.head hstep (hkeeps hleads')), (hnew j').trans ((if_neg hother).trans hend')⟩
      · exact ⟨j, hkeeps hleads, (hnew j).trans ((if_neg hj).trans hend)⟩
    | define _ _ _ | assign _ _ _ => exact ⟨j, hkeeps hleads, (hnew j).trans hend⟩

/-- A scope opened around a way to its own number closes a circle. -/
theorem circle_of_push (hsuffix : .push p :: earlier <:+ h)
    (hleads : earlier.replay.Leads p earlier.replay.scopeCount) :
    Relation.TransGen (fun i parent => h.replay.parent? i = some parent) earlier.replay.scopeCount
      earlier.replay.scopeCount := by
  have hstep : (History.replay (.push p :: earlier)).parent? earlier.replay.scopeCount = some p := by
    rw [History.replay, parent?_serve]
    exact if_pos rfl
  have hkeeps {i j} : earlier.replay.Leads i j → h.replay.Leads i j :=
    Relation.ReflTransGen.mono
      (fun _ _ hp => parent?_replay_of_suffix ((List.suffix_cons ..).trans hsuffix) hp) _ _
  exact .head' (parent?_replay_of_suffix hsuffix hstep) (hkeeps hleads)

/-- **All lookups end** exactly when no circle was opened. -/
theorem History.ends_iff_opensNoCircle (h : History) : (∀ l : Lookup, l.Ends h.replay) ↔ h.OpensNoCircle := by
  constructor
  · intro hall parent earlier hsuffix hleads
    obtain ⟨x, hx⟩ := exists_unbound h.replay
    obtain ⟨j, hj, hstop⟩ := (Lookup.ends_iff _).1 (hall (.get earlier.replay.scopeCount x))
    obtain ⟨around, haround⟩ := exists_parent_of_circle (circle_of_push hsuffix hleads) hj
    simp [haround, Lookup.name, hx] at hstop
  · intro hopens l
    obtain ⟨j, hleads, hend⟩ := hopens.exists_outermost l.scope
    exact l.ends_iff.2 ⟨j, hleads, .inr hend⟩

/-- Scopes opened around scopes that are there lie in scopes with smaller numbers. -/
theorem History.OpensInside.parent_lt (hopens : h.OpensInside) (hp : h.replay.parent? i = some p) : p < i := by
  induction h with
  | nil =>
    obtain rfl := Nat.lt_one_iff.1 (lt_size_of_parent? hp)
    cases hp
  | cons r h ih =>
    have ih := ih (hopens.of_suffix (List.suffix_cons ..))
    rw [replay, parent?_serve] at hp
    cases r with
    | push parent =>
      by_cases hi : i = (replay h).scopes.size
      · obtain rfl := Option.some.inj ((if_pos hi).symm.trans hp)
        exact hi ▸ hopens parent h List.suffix_rfl
      · exact ih ((if_neg hi).symm.trans hp)
    | define _ _ _ | assign _ _ _ => exact ih hp

theorem History.OpensInside.le_of_leads (hopens : h.OpensInside) (hleads : h.replay.Leads i j) : j ≤ i := by
  induction hleads using Relation.ReflTransGen.head_induction_on with
  | refl => exact Nat.le_refl _
  | head hp _ ih => exact Nat.le_trans ih (Nat.le_of_lt (hopens.parent_lt hp))

theorem History.OpensInside.opensNoCircle (hopens : h.OpensInside) : h.OpensNoCircle := by
  intro parent earlier hsuffix hleads
  have hearlier : earlier.OpensInside := hopens.of_suffix ((List.suffix_cons ..).trans hsuffix)
  exact Nat.not_lt_of_le (hearlier.le_of_leads hleads) (hopens parent earlier hsuffix)

/-! ## All environments of a pool -/

/-- **Each environment** is what its requests have made of it. -/
theorem Pool.Reached.eq_replay {pool : Pool} (reached : pool.Reached) (he : (h, e) ∈ pool.environments) :
    e = h.replay := by
  induction reached generalizing h e with
  | start => cases he
  | create _ ih =>
    rcases List.mem_cons.1 he with heq | he
    · cases heq
      rfl
    · exact ih he
  | createWithBuiltins _ ih =>
    rcases List.mem_cons.1 he with heq | he
    · cases heq
      rfl
    · exact ih he
  | clone _ hof ih =>
    rcases List.mem_cons.1 he with heq | he
    · cases heq
      exact ih hof
    · exact ih he
  | request _ r _ _ _ ih =>
    rcases List.mem_append.1 he with he | he
    · exact ih (List.mem_append_left _ he)
    · rcases List.mem_cons.1 he with heq | he
      · cases heq
        rw [History.replay, ← ih (List.mem_append_right _ List.mem_cons_self)]
      · exact ih (List.mem_append_right _ (List.mem_cons_of_mem _ he))

/-- **Which lookups end**, in every environment of every pool. -/
theorem Pool.Reached.endings {pool : Pool} (reached : pool.Reached) (he : (h, e) ∈ pool.environments) :
    Endings h e := by
  obtain rfl := reached.eq_replay he
  exact ⟨Lookup.ends_iff, Lookup.ends_iff_returns, h.ends_iff_opensNoCircle,
    fun hopens => h.ends_iff_opensNoCircle.2 hopens.opensNoCircle⟩

end

/-! ## Scopes around foreign numbers -/

/-- Two rooms in one house, and in a second house a room around a number that only the first house has given out. -/
def houses : Pool :=
  ⟨[([.push 2], empty.serve (.push 2)), ([.push 1, .push 0], (empty.serve (.push 0)).serve (.push 1))],
    [1, 0, 2, 1, 0]⟩

theorem houses_reached : houses.Reached :=
  have hall := Pool.Reached.start.create.request [] (.push 0) (by decide) trivial
  have attic := hall.request [] (.push 1) (by decide) trivial
  attic.create.request [] (.push 2) (by decide) trivial

theorem houses_endings : houses.Reached ∧
    ([.push 2], empty.serve (.push 2)) ∈ houses.environments ∧ Endings [.push 2] (empty.serve (.push 2)) :=
  ⟨houses_reached, List.mem_cons_self, houses_reached.endings List.mem_cons_self⟩

/-- With one more room, the two rooms of the second house lie around each other. -/
def stairs : Environment := (empty.serve (.push 2)).serve (.push 1)

/-- **Lookups that do not end**, with numbers that were all given out before. -/
theorem lookups_in_circle : ∃ pool : Pool, pool.Reached ∧ ([.push 1, .push 2], stairs) ∈ pool.environments ∧
    stairs.parent? 1 = some 2 ∧ stairs.parent? 2 = some 1 ∧ ∀ b, ¬ (Lookup.get 1 "door").Ends stairs ∧
      ¬ (Lookup.assign 1 "door" b).Ends stairs ∧ ¬ (Lookup.contains 1 "door").Ends stairs := by
  have hpool := houses_reached.request [] (.push 1) (by decide) trivial
  refine ⟨_, hpool, List.mem_cons_self, rfl, rfl, fun b => ?_⟩
  have hcircle : stairs.returns 1 "door" = false := rfl
  simp [Lookup.ends_iff_returns, Lookup.scope, Lookup.name, hcircle]

end Grimoire.Session.Environment
