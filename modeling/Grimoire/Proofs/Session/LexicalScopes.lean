import Grimoire.Proofs.Session.Scopes

/-!
# Lexical scopes

An environment is asked to open scopes, to define names and to assign to them. The requests alone say which
scopes lie around a scope (`History.chain`) and what was last written to a name in a scope (`History.written?`).
After any requests that name scopes which are there, the environment holds just that (`Reflects.serve`), and a
name stands for what was last written to it in the nearest scope around that defines it (`Reached.lexical`).
-/
namespace Grimoire.Session.Environment

/-! ## Requests and histories -/

/-- What changes an environment. -/
inductive Request
  | push (parent : ScopeId)
  | define (scope : ScopeId) (name : String) (b : Binding)
  | assign (scope : ScopeId) (name : String) (b : Binding)

/-- The scope that a request is about. -/
def Request.scope : Request → ScopeId
  | push parent => parent
  | define scope _ _ | assign scope _ _ => scope

/-- The environment after a request; an assignment that fails leaves it as it was. -/
def serve (e : Environment) : Request → Environment
  | .push parent => (e.pushScope parent).2
  | .define scope name b => e.define scope name b
  | .assign scope name b =>
    match e.assign scope name b with
    | .ok changed => changed
    | .error _ => e

/-- Requests, the latest first. -/
abbrev History := List Request

namespace History

/-- How many scopes there are, the global one included. -/
def scopeCount : History → Nat
  | [] => 1
  | .push _ :: h => scopeCount h + 1
  | _ :: h => scopeCount h

/-- A scope and those around it, the nearest first; none when there is no such scope. -/
def chain : History → ScopeId → List ScopeId
  | [], i => if i = globalScope then [i] else []
  | .push parent :: h, i => if i = scopeCount h then i :: chain h parent else chain h i
  | _ :: h, i => chain h i

/-- What was last written to a name in a scope, by a definition there or by an assignment for which the scope was
the nearest one that defined the name. -/
def written? : History → ScopeId → String → Option Binding
  | [], _, _ => none
  | .push _ :: h, i, x => written? h i x
  | .define scope name b :: h, i, x => if i = scope ∧ x = name then some b else written? h i x
  | .assign scope name b :: h, i, x =>
    if (chain h scope).find? (fun j => (written? h j name).isSome) = some i ∧ x = name then some b
    else written? h i x

/-- The nearest scope that defines a name, from a scope outward. -/
def nearest? (h : History) (i : ScopeId) (x : String) : Option ScopeId :=
  (h.chain i).find? fun j => (h.written? j x).isSome

/-- The functions that every session knows, defined in the global scope. -/
def builtins : History := (Builtin.all.map fun b => .define globalScope b.name (.builtin b)).reverse

end History

/-- The environments that come about by requests which name scopes that are there. -/
inductive Reached : History → Environment → Prop
  | empty : Reached [] empty
  | withBuiltins : Reached History.builtins withBuiltins
  | serve {h : History} {e : Environment} (r : Request) :
    Reached h e → r.scope < e.scopeCount → Reached (r :: h) (e.serve r)

/-! ## Lexical lookup -/

/-- What the name is bound to in the scope itself. -/
def binding? (e : Environment) (i : ScopeId) (x : String) : Option Binding :=
  (e.scopes[i]?).bind (·.bindings[x]?)

/-- Names are looked up as the history says. -/
structure Lexical (h : History) (e : Environment) : Prop where
  /-- The global scope is the outermost one. -/
  outermost : e.parent? globalScope = none
  /-- Every other scope lies in one with a smaller number. -/
  inward : ∀ i < e.scopeCount, i ≠ globalScope → ∃ parent < i, e.parent? i = some parent
  /-- The scopes around a scope are those around its parent, and its parent. -/
  chain : ∀ i < e.scopeCount, h.chain i = i :: ((e.parent? i).map h.chain).getD []
  /-- Every way outward ends, in the nearest scope that defines the name or outside. -/
  resolve : ∀ i x, e.resolve i x = ((h.nearest? i x).map .found).getD .unbound
  /-- A name stands for what was last written to it in the nearest scope that defines it. -/
  get : ∀ i x b, e.get i x = .ok b ↔ ∃ owner, h.nearest? i x = some owner ∧ h.written? owner x = some b
  /-- It stands for nothing when no scope around defines it. -/
  get_error : ∀ i x, e.get i x = .error (.undefinedVariable x) ↔ ∀ j ∈ h.chain i, h.written? j x = none
  /-- A definition is seen from where its scope is now the nearest one that defines the name. -/
  define : ∀ scope < e.scopeCount, ∀ name b i x, (e.define scope name b).get i x =
    if x = name ∧ History.nearest? (.define scope name b :: h) i name = some scope then .ok b else e.get i x
  /-- An assignment fails where the name stands for nothing, and then nothing changes. -/
  assign_error : ∀ scope name b,
    (e.assign scope name b = .error (.undefinedVariable name) ↔
      e.get scope name = .error (.undefinedVariable name)) ∧
    (e.get scope name = .error (.undefinedVariable name) → e.serve (.assign scope name b) = e)
  /-- Else it changes the binding in the nearest scope that defines the name, and that alone, and it is seen from
  where that scope is the nearest one. -/
  assign : ∀ scope name b owner, h.nearest? scope name = some owner →
    ∃ e', e.assign scope name b = .ok e' ∧ e.serve (.assign scope name b) = e' ∧
      e'.scopeCount = e.scopeCount ∧ (∀ i, e'.parent? i = e.parent? i) ∧
      (∀ i x, e'.binding? i x = if i = owner ∧ x = name then some b else e.binding? i x) ∧
      ∀ i x, e'.get i x = if x = name ∧ h.nearest? i name = some owner then .ok b else e.get i x

/-! ## Bindings and parents after a change -/

section
variable (e : Environment) (scope : ScopeId) (name : String) (b : Binding)

theorem parent?_define (i : ScopeId) : (e.define scope name b).parent? i = e.parent? i := by
  unfold parent?
  rw [getElem?_define]
  split
  · rw [Option.bind_map]
    rfl
  · rfl

theorem binding?_define (hscope : scope < e.scopes.size) (i : ScopeId) (x : String) :
    (e.define scope name b).binding? i x = if i = scope ∧ x = name then some b else e.binding? i x := by
  unfold binding?
  rw [getElem?_define]
  by_cases hi : scope = i
  · subst hi
    by_cases hx : name = x
    · simp [hx, hscope]
    · have hcompare : compare name x ≠ .eq := by simpa [Std.compare_eq_iff_eq] using hx
      simp [Ne.symm hx, hscope, Std.TreeMap.getElem?_insert, hcompare]
  · rw [if_neg hi, if_neg fun hboth => hi hboth.1.symm]

theorem parent?_pushScope (i : ScopeId) :
    (e.pushScope scope).2.parent? i = if i = e.scopes.size then some scope else e.parent? i := by
  simp only [parent?, pushScope, Array.getElem?_push]
  split <;> rfl

theorem binding?_pushScope (i : ScopeId) (x : String) : (e.pushScope scope).2.binding? i x = e.binding? i x := by
  simp only [binding?, pushScope, Array.getElem?_push]
  split
  · next hi => simp [hi]
  · rfl

theorem binding?_of_size_le {i : ScopeId} (hi : e.scopes.size ≤ i) (x : String) : e.binding? i x = none := by
  rw [binding?, Array.getElem?_eq_none hi, Option.bind_none]

end

/-! ## What the history says of the environment -/

/-- The environment holds what the history says. -/
structure Reflects (h : History) (e : Environment) : Prop where
  size : e.scopes.size = h.scopeCount
  outermost : e.parent? globalScope = none
  inward : ∀ i < e.scopes.size, i ≠ globalScope → ∃ parent < i, e.parent? i = some parent
  chain : ∀ i < e.scopes.size, h.chain i = i :: ((e.parent? i).map h.chain).getD []
  nowhere : ∀ i, e.scopes.size ≤ i → h.chain i = []
  binding : ∀ i x, e.binding? i x = h.written? i x

section
variable {h h' : History} {e : Environment} {i scope owner : ScopeId} {x name : String} {b : Binding}

theorem Reflects.parent_lt (H : Reflects h e) (hi : i < e.scopes.size) {parent : ScopeId}
    (hp : e.parent? i = some parent) : parent < i := by
  by_cases hglobal : i = globalScope
  · rw [hglobal, H.outermost] at hp
    cases hp
  · obtain ⟨parent', hlt, hp'⟩ := H.inward i hi hglobal
    obtain rfl := Option.some.inj (hp.symm.trans hp')
    exact hlt

/-- The way outward from a scope takes no more steps than its number allows. -/
theorem Reflects.resolveWithin (H : Reflects h e) (x : String) : ∀ (steps : Nat) (i : ScopeId), i < steps →
    e.resolveWithin x steps i = ((h.nearest? i x).map .found).getD .unbound
  | 0, _, hi => absurd hi (Nat.not_lt_zero _)
  | steps + 1, i, hi => by
    unfold Environment.resolveWithin History.nearest?
    by_cases hlt : i < e.scopes.size
    · have hcontains : e.scopes[i].bindings.contains x = (h.written? i x).isSome := by
        rw [← H.binding, binding?, Array.getElem?_eq_getElem hlt, Option.bind_some,
          Std.TreeMap.contains_eq_isSome_getElem?]
      have hparent : e.parent? i = e.scopes[i].parent := by
        rw [parent?, Array.getElem?_eq_getElem hlt, Option.bind_some]
      rw [Array.getElem?_eq_getElem hlt, H.chain i hlt, List.find?_cons]
      simp only [hcontains]
      cases hw : (h.written? i x).isSome with
      | true => rfl
      | false =>
        cases hp : e.scopes[i].parent with
        | none => simp [hparent, hp]
        | some parent =>
          have hless := H.parent_lt hlt (hparent.trans hp)
          have ih := Reflects.resolveWithin H x steps parent (Nat.lt_of_lt_of_le hless (Nat.le_of_lt_succ hi))
          simpa [hparent, hp, History.nearest?] using ih
    · have hle := Nat.le_of_not_lt hlt
      rw [Array.getElem?_eq_none hle, H.nowhere i hle]
      rfl

theorem Reflects.resolve (H : Reflects h e) (i : ScopeId) (x : String) :
    e.resolve i x = ((h.nearest? i x).map .found).getD .unbound := by
  by_cases hlt : i < e.scopes.size
  · exact H.resolveWithin x _ i (Nat.lt_succ_of_lt hlt)
  · have hle := Nat.le_of_not_lt hlt
    unfold Environment.resolve Environment.resolveWithin History.nearest?
    rw [Array.getElem?_eq_none hle, H.nowhere i hle]
    rfl

/-- The name is bound in the nearest scope that defines it. -/
theorem History.written?_of_nearest? (hn : h.nearest? i x = some owner) : ∃ b, h.written? owner x = some b := by
  have hdefines := List.find?_some (p := fun j => (h.written? j x).isSome) hn
  exact Option.isSome_iff_exists.1 hdefines

theorem Reflects.owner_lt (H : Reflects h e) (hw : h.written? owner x = some b) : owner < e.scopes.size := by
  refine Nat.lt_of_not_le fun hle => ?_
  rw [← H.binding, e.binding?_of_size_le hle] at hw
  cases hw

/-- What a name stands for, along the scopes around. -/
theorem Reflects.get (H : Reflects h e) (i : ScopeId) (x : String) :
    e.get i x = match (h.nearest? i x).bind (h.written? · x) with
      | some b => .ok b
      | none => .error (.undefinedVariable x) := by
  unfold Environment.get
  rw [H.resolve]
  cases hn : h.nearest? i x with
  | none => rfl
  | some owner =>
    have hbinding : (e.scopes[owner]?).bind (·.bindings[x]?) = h.written? owner x := H.binding owner x
    cases hw : h.written? owner x <;> simp [hbinding, hw]

/-! ## One request -/

/-- Something is written to a name in one scope. -/
theorem Reflects.write (H : Reflects h e) (howner : owner < e.scopes.size) (hcount : h'.scopeCount = h.scopeCount)
    (hchain : h'.chain = h.chain)
    (hwritten : ∀ i x, h'.written? i x = if i = owner ∧ x = name then some b else h.written? i x) :
    Reflects h' (e.define owner name b) where
  size := by rw [size_define, H.size, hcount]
  outermost := (parent?_define ..).trans H.outermost
  inward i hi hne := by
    rw [size_define] at hi
    simpa only [parent?_define] using H.inward i hi hne
  chain i hi := by
    rw [size_define] at hi
    rw [hchain, parent?_define]
    exact H.chain i hi
  nowhere i hi := by
    rw [size_define] at hi
    rw [hchain]
    exact H.nowhere i hi
  binding i x := by rw [binding?_define _ _ _ _ howner, hwritten, H.binding]

theorem Reflects.push (H : Reflects h e) {parent : ScopeId} (hparent : parent < e.scopes.size) :
    Reflects (.push parent :: h) (e.pushScope parent).2 := by
  have hsize : (e.pushScope parent).2.scopes.size = e.scopes.size + 1 := Array.size_push ..
  have hchain (i : ScopeId) : History.chain (.push parent :: h) i =
      if i = e.scopes.size then i :: h.chain parent else h.chain i := by
    rw [History.chain, H.size]
  refine ⟨hsize.trans (congrArg (· + 1) H.size), ?_, fun i hi hne => ?_, fun i hi => ?_, fun i hi => ?_, ?_⟩
  · rw [parent?_pushScope, if_neg, H.outermost]
    exact Nat.ne_of_lt (Nat.zero_lt_of_lt hparent)
  · rw [hsize] at hi
    rw [parent?_pushScope]
    split
    · next heq => exact ⟨parent, heq ▸ hparent, rfl⟩
    · next hlast => exact H.inward i (Nat.lt_of_le_of_ne (Nat.le_of_lt_succ hi) hlast) hne
  · rw [hsize] at hi
    rw [hchain, parent?_pushScope]
    split
    · rw [Option.map_some, Option.getD_some, hchain, if_neg (Nat.ne_of_lt hparent)]
    · next hlast =>
      have hlt := Nat.lt_of_le_of_ne (Nat.le_of_lt_succ hi) hlast
      rw [H.chain i hlt]
      cases hp : e.parent? i with
      | none => rfl
      | some p =>
        have hless := Nat.lt_trans (H.parent_lt hlt hp) hlt
        rw [Option.map_some, Option.map_some, hchain, if_neg (Nat.ne_of_lt hless)]
  · rw [hsize] at hi
    rw [hchain, if_neg (Nat.ne_of_gt hi), H.nowhere i (Nat.le_of_succ_le hi)]
  · exact fun i x => (binding?_pushScope ..).trans (H.binding i x)

theorem Reflects.define (H : Reflects h e) (hscope : scope < e.scopes.size) :
    Reflects (.define scope name b :: h) (e.define scope name b) :=
  H.write hscope rfl (funext fun _ => rfl) fun _ _ => rfl

/-- An assignment writes in the nearest scope that defines the name, or fails when there is none. -/
theorem Reflects.assign_eq (H : Reflects h e) (scope : ScopeId) (name : String) (b : Binding) :
    e.assign scope name b = match h.nearest? scope name with
      | some owner => .ok (e.define owner name b)
      | none => .error (.undefinedVariable name) := by
  unfold Environment.assign
  rw [H.resolve]
  cases h.nearest? scope name <;> rfl

theorem Reflects.serve_assign (H : Reflects h e) (scope : ScopeId) (name : String) (b : Binding) :
    e.serve (.assign scope name b) = match h.nearest? scope name with
      | some owner => e.define owner name b
      | none => e := by
  have heq := H.assign_eq scope name b
  simp only [Environment.serve, heq]
  cases h.nearest? scope name <;> rfl

theorem Reflects.assign (H : Reflects h e) (hn : h.nearest? scope name = some owner) :
    Reflects (.assign scope name b :: h) (e.define owner name b) := by
  obtain ⟨old, hold⟩ := History.written?_of_nearest? hn
  refine H.write (H.owner_lt hold) rfl (funext fun _ => rfl) fun i x => ?_
  have hfind : (h.chain scope).find? (fun j => (h.written? j name).isSome) = some owner := hn
  simp only [History.written?, hfind, Option.some.injEq, eq_comm]

theorem Reflects.assign_none (H : Reflects h e) (hn : h.nearest? scope name = none) :
    Reflects (.assign scope name b :: h) e := by
  have hfind : (h.chain scope).find? (fun j => (h.written? j name).isSome) = none := hn
  refine ⟨H.size, H.outermost, H.inward, H.chain, H.nowhere, fun i x => ?_⟩
  simp [History.written?, hfind, H.binding]

/-- **One request**: the environment goes on to hold what the history says. -/
theorem Reflects.serve (H : Reflects h e) (r : Request) (hr : r.scope < e.scopeCount) :
    Reflects (r :: h) (e.serve r) := by
  cases r with
  | push parent => exact H.push hr
  | define scope name b => exact H.define hr
  | assign scope name b =>
    rw [H.serve_assign]
    cases hn : h.nearest? scope name with
    | none => exact H.assign_none hn
    | some owner => exact H.assign hn

/-! ## Any requests -/

theorem reflects_empty : Reflects [] empty where
  size := rfl
  outermost := rfl
  inward i hi hne := absurd (Nat.lt_one_iff.1 hi) hne
  chain i hi := by
    obtain rfl := Nat.lt_one_iff.1 hi
    rfl
  nowhere i hi := if_neg (Nat.ne_of_gt hi)
  binding i x := by
    rcases Nat.eq_zero_or_pos i with rfl | hpos
    · simp [binding?, Environment.empty, History.written?]
    · exact binding?_of_size_le _ hpos x

/-- Functions defined one after another in the global scope. -/
theorem Reflects.functions (H : Reflects h e) (hsize : 0 < e.scopes.size) (functions : List Builtin) :
    Reflects ((functions.map fun f => .define globalScope f.name (.builtin f)).reverse ++ h)
      (functions.foldl (fun e f => e.define globalScope f.name (.builtin f)) e) := by
  induction functions generalizing h e with
  | nil => exact H
  | cons f functions ih =>
    rw [List.map_cons, List.reverse_cons, List.append_assoc]
    exact ih (H.define hsize) (by rw [size_define]; exact hsize)

/-- **All requests**: an environment that is reached holds what its history says. -/
theorem Reached.reflects (H : Reached h e) : Reflects h e := by
  induction H with
  | empty => exact reflects_empty
  | withBuiltins =>
    have hfunctions := reflects_empty.functions Nat.one_pos Builtin.all
    rwa [List.append_nil] at hfunctions
  | serve r _ hr ih => exact ih.serve r hr

/-! ## What lookups see of a change -/

/-- Along scopes, what one of them gets is found where that scope is now the first that holds something. -/
theorem find_write {f written : ScopeId → Option Binding}
    (hwritten : ∀ j, written j = if j = owner then some b else f j) (scopes : List ScopeId) :
    (scopes.find? fun j => (written j).isSome).bind written =
      if scopes.find? (fun j => (written j).isSome) = some owner then some b
      else (scopes.find? fun j => (f j).isSome).bind f := by
  induction scopes with
  | nil => rfl
  | cons j scopes ih =>
    by_cases hj : j = owner
    · simp [hwritten, hj]
    · have hsame : written j = f j := (hwritten j).trans (if_neg hj)
      rw [List.find?_cons, List.find?_cons, hsame]
      cases hf : f j with
      | none => exact ih
      | some old => simp [hj, hf, hsame]

/-- **A definition is seen** from where its scope is then the nearest one that defines the name. -/
theorem Reflects.get_define (H : Reflects h e) (hscope : scope < e.scopes.size) (b : Binding) (i : ScopeId)
    (x : String) : (e.define scope name b).get i x =
      if x = name ∧ History.nearest? (.define scope name b :: h) i name = some scope then .ok b else e.get i x := by
  by_cases hx : x = name
  · subst hx
    have hwritten (j : ScopeId) : History.written? (.define scope x b :: h) j x =
        if j = scope then some b else h.written? j x := by
      simp [History.written?]
    have hfind : (History.nearest? (.define scope x b :: h) i x).bind
        (History.written? (.define scope x b :: h) · x) =
          if History.nearest? (.define scope x b :: h) i x = some scope then some b
          else (h.nearest? i x).bind (h.written? · x) := find_write hwritten (h.chain i)
    rw [(H.define hscope).get, H.get, hfind]
    by_cases hnear : History.nearest? (.define scope x b :: h) i x = some scope
    · simp [hnear]
    · simp [hnear]
  · rw [get_define_of_ne _ _ _ hx, if_neg fun hboth => hx hboth.1]

/-- A scope that defines a name already is the nearest one from the same scopes when the name is defined anew. -/
theorem History.nearest?_define_of_written (hw : h.written? owner name = some b) (b' : Binding) (i : ScopeId) :
    History.nearest? (.define owner name b' :: h) i name = h.nearest? i name := by
  have hsame : (fun j => (History.written? (.define owner name b' :: h) j name).isSome) =
      fun j => (h.written? j name).isSome := by
    funext j
    by_cases hj : j = owner <;> simp [History.written?, hj, hw]
  exact congrArg (List.find? · (h.chain i)) hsame

theorem Reflects.get_error_iff (H : Reflects h e) :
    e.get i x = .error (.undefinedVariable x) ↔ h.nearest? i x = none := by
  rw [H.get]
  cases hn : h.nearest? i x with
  | none => simp
  | some owner =>
    obtain ⟨b, hb⟩ := History.written?_of_nearest? hn
    simp [hb]

/-- **Scopes are lexical**: after any requests that name scopes which are there, the way outward from a scope
ends, a name stands for what was last written to it in the nearest scope around that defines it, and definitions
and assignments change what is seen just from where their scope is the nearest one. -/
theorem Reached.lexical (reached : Reached h e) : Lexical h e := by
  have H := reached.reflects
  refine ⟨H.outermost, H.inward, H.chain, H.resolve, ?_, ?_, ?_, ?_, ?_⟩
  case refine_1 =>
    intro i x b
    rw [H.get]
    cases hn : h.nearest? i x with
    | none => simp
    | some owner =>
      obtain ⟨b', hb'⟩ := History.written?_of_nearest? hn
      simp [hb']
  case refine_2 =>
    intro i x
    rw [H.get_error_iff, History.nearest?, List.find?_eq_none]
    simp
  case refine_3 => exact fun scope hscope name b i x => H.get_define hscope b i x
  case refine_4 =>
    intro scope name b
    have hserve := H.serve_assign scope name b
    rw [H.assign_eq, H.get_error_iff]
    cases hn : h.nearest? scope name with
    | none =>
      rw [hn] at hserve
      simpa using hserve
    | some owner => simp
  case refine_5 =>
    intro scope name b owner hn
    obtain ⟨old, hold⟩ := History.written?_of_nearest? hn
    have howner := H.owner_lt hold
    have hassign := H.assign_eq scope name b
    have hserve := H.serve_assign scope name b
    rw [hn] at hassign hserve
    refine ⟨e.define owner name b, hassign, hserve, size_define .., fun i => parent?_define .., ?_, fun i x => ?_⟩
    · exact binding?_define _ _ _ _ howner
    · rw [H.get_define howner, History.nearest?_define_of_written hold]

end

/-- A hut in a valley that has a weather of its own, and another valley that has none. -/
def valleys : History :=
  [.assign 2 "snow" (.value .null), .assign 3 "weather" (.value (.string "fog")),
    .assign 2 "weather" (.value (.string "hail")), .define 1 "weather" (.value (.string "storm")), .push 0, .push 1,
    .push 0, .define 0 "weather" (.value (.string "calm"))]

def overValleys : Environment := valleys.foldr (fun r e => e.serve r) withBuiltins

theorem valleys_lexical : Reached (valleys ++ History.builtins) overValleys ∧
    overValleys.get 2 "weather" = .ok (.value (.string "hail")) ∧
    overValleys.get 3 "weather" = .ok (.value (.string "fog")) ∧
    overValleys.get 3 "summon" = .ok (.builtin .summon) ∧
    overValleys.get 2 "snow" = .error (.undefinedVariable "snow") ∧
    Lexical (valleys ++ History.builtins) overValleys := by
  have calm : Reached _ _ := Reached.withBuiltins.serve (.define 0 "weather" (.value (.string "calm"))) (by decide)
  have scopes := ((calm.serve (.push 0) (by decide)).serve (.push 1) (by decide)).serve (.push 0) (by decide)
  have storm := scopes.serve (.define 1 "weather" (.value (.string "storm"))) (by decide)
  have hail := storm.serve (.assign 2 "weather" (.value (.string "hail"))) (by decide)
  have fog := hail.serve (.assign 3 "weather" (.value (.string "fog"))) (by decide)
  have reached : Reached (valleys ++ History.builtins) overValleys :=
    fog.serve (.assign 2 "snow" (.value .null)) (by decide)
  exact ⟨reached, rfl, rfl, rfl, rfl, reached.lexical⟩

end Grimoire.Session.Environment
