import Grimoire.Session.Basic
import Grimoire.Proofs.Registry
import Grimoire.Proofs.Session.Scopes

/-!
# What interpreting comes to

The calls made for a declaration, with their replies, are its exchanges; `interpretation` lists the
declarations with their exchanges, by the provider alone. What a session holds after programs is read off
this list (`Account`): in every registry, and among the names of the global scope, the last declaration of a
name counts; each slot holds what its own call gave; and the host was asked, and was told of, nothing else.
One declaration keeps the account (`Account.register`), and so do programs (`interpret_programs`).
-/
namespace Grimoire

open Source (Declaration)
open Provider (Query Reply ProviderError)

namespace Source.Declaration

def spell? : Declaration → Option Spell
  | spell s => some s
  | _ => none

def character? : Declaration → Option Character
  | character c => some c
  | _ => none

def world? : Declaration → Option World
  | world w => some w
  | _ => none

def archetype? : Declaration → Option Archetype
  | archetype a => some a
  | _ => none

end Source.Declaration

namespace Session

/-! ## Exchanges with the provider -/

/-- The calls that fill the slots of a declaration. -/
def slotCalls (config : Config) : Declaration → List SlotCall
  | .character c => characterCalls config c
  | .world w => worldCalls w
  | .spell _ | .archetype _ => []

/-- A call for a slot, with the reply if it was made. -/
structure Exchange where
  call : SlotCall
  reply? : Option Reply

namespace Exchange

/-- The query, if it was made. -/
def query? (x : Exchange) : Option Query := x.reply?.map fun _ => x.call.query

/-- What a call gave, or why it failed. -/
def result? (x : Exchange) : Option (Except ProviderError Json) :=
  x.reply?.map fun reply => Provider.payload reply (answerer x.call.query)

def value? (x : Exchange) : Option Json := x.result?.bind Except.toOption

def slot (x : Exchange) : String × Option Json := (x.call.slot, x.value?)

/-- What is announced of a call that failed. -/
def failure? (entity : String) (x : Exchange) : Option Event :=
  match x.result? with
  | some (.error e) => some (.enrichmentFailed entity x.call.slot e.message)
  | _ => none

/-- Did the call not get through, or not succeed? -/
def failed (x : Exchange) : Bool :=
  match x.reply? with
  | some (.ok r) => !r.success
  | some (.error _) => true
  | none => false

end Exchange

/-- The queries made, in order. -/
def queriesIn (xs : List Exchange) : List Query := xs.filterMap Exchange.query?

/-- Calls one after another, to a provider that has answered some queries before. -/
def callAll (p : Provider) (answered : List Query) : List SlotCall → List Exchange
  | [] => []
  | c :: calls => ⟨c, some (p.reply answered c.query)⟩ :: callAll p (c.query :: answered) calls

/-- The calls are made only when enrichment is on. -/
def exchanges (config : Config) (p : Provider) (answered : List Query) (calls : List SlotCall) : List Exchange :=
  if config.enableEnrichment then callAll p answered calls else calls.map (⟨·, none⟩)

section
variable {config : Config} (p : Provider) (answered : List Query) (calls : List SlotCall)

theorem exchanges_on (hon : config.enableEnrichment = true) :
    exchanges config p answered calls = callAll p answered calls := if_pos hon

theorem exchanges_off (hoff : config.enableEnrichment = false) :
    exchanges config p answered calls = calls.map (⟨·, none⟩) := if_neg (by simp [hoff])

end

/-! ## Declarations with their exchanges -/

/-- What is announced of a declaration. -/
def announcement : Declaration → Event
  | .spell s => .spellRegistered s.name
  | .character c => .characterCreated c.name
  | .world w => .worldBuilt w.name
  | .archetype a => .archetypeDefined a.name

structure Interpreted where
  declaration : Declaration
  exchanges : List Exchange

namespace Interpreted

/-- The record of a declaration of one kind, each slot with the value of its exchange. -/
def record? {α : Type} (kind? : Declaration → Option α) (i : Interpreted) : Option (Enriched α) :=
  (kind? i.declaration).map fun x => ⟨x, i.exchanges.map Exchange.slot⟩

/-- What is announced: each call that failed, and then the declaration. -/
def events (i : Interpreted) : List Event :=
  i.exchanges.filterMap (Exchange.failure? i.declaration.name) ++ [announcement i.declaration]

end Interpreted

/-- The queries made for declarations, in order. -/
def queriesFor (told : List Interpreted) : List Query := told.flatMap fun i => queriesIn i.exchanges

/-- Declarations with their exchanges, one after another. -/
def interpretation (config : Config) (p : Provider) (answered : List Query) : List Declaration → List Interpreted
  | [] => []
  | d :: ds =>
    let xs := exchanges config p answered (slotCalls config d)
    ⟨d, xs⟩ :: interpretation config p ((queriesIn xs).reverse ++ answered) ds

/-! ## Filling slots -/

/-- The host has heard exchanges about an entity. -/
structure Heard (entity : String) (xs : List Exchange) (h h' : Host) : Prop where
  provider : h'.provider = h.provider
  asked : h'.asked = (queriesIn xs).reverse ++ h.asked
  answered : h'.answered = (queriesIn xs).reverse ++ h.answered
  announced : h'.announced = (xs.filterMap (Exchange.failure? entity)).reverse ++ h.announced

section
variable {entity : String} {h h' h'' : Host} {xs ys : List Exchange}

theorem Heard.refl : Heard entity [] h h := ⟨rfl, rfl, rfl, rfl⟩

theorem queriesIn_append (xs ys : List Exchange) : queriesIn (xs ++ ys) = queriesIn xs ++ queriesIn ys :=
  List.filterMap_append

theorem Heard.append (hx : Heard entity xs h h') (hy : Heard entity ys h' h'') : Heard entity (xs ++ ys) h h'' where
  provider := hy.provider.trans hx.provider
  asked := by rw [hy.asked, hx.asked, queriesIn_append, List.reverse_append, List.append_assoc]
  answered := by rw [hy.answered, hx.answered, queriesIn_append, List.reverse_append, List.append_assoc]
  announced := by rw [hy.announced, hx.announced, List.filterMap_append, List.reverse_append, List.append_assoc]

/-- Calls that are not made. -/
theorem Heard.silent (calls : List SlotCall) : Heard entity (calls.map (⟨·, none⟩)) h h := by
  induction calls with
  | nil => exact .refl
  | cons c calls ih =>
    have hone : Heard entity [⟨c, none⟩] h h := ⟨rfl, rfl, rfl, rfl⟩
    exact hone.append ih

end

section
variable {α β : Type} (s : Session)

theorem run_bind (x : Act α) (f : α → Act β) : (x >>= f).run s = (f (x.run s).1).run (x.run s).2 := rfl

theorem run_pure (a : α) : (pure a : Act α).run s = (a, s) := rfl

end

theorem fillSlot_run (entity : String) (c : SlotCall) (s : Session) :
    ∃ h', (fillSlot entity c).run s =
        (Exchange.slot ⟨c, some (s.host.provider.reply s.host.answered c.query)⟩, { s with host := h' }) ∧
      Heard entity [⟨c, some (s.host.provider.reply s.host.answered c.query)⟩] s.host h' := by
  set reply := s.host.provider.reply s.host.answered c.query
  have hcall : (call c.query).run s = (reply, { s with host := (s.host.call c.query).2 }) := rfl
  cases hpayload : Provider.payload reply (answerer c.query) with
  | ok value =>
    refine ⟨(s.host.call c.query).2, ?_, rfl, rfl, rfl, ?_⟩
    · simp only [fillSlot, run_bind, hcall, hpayload, run_pure, Exchange.slot, Exchange.value?, Exchange.result?,
        Option.map_some, Option.bind_some]
      rfl
    · simp only [Exchange.failure?, Exchange.result?, Option.map_some, hpayload, List.filterMap_cons]
      rfl
  | error e =>
    refine ⟨(s.host.call c.query).2.announce (.enrichmentFailed entity c.slot e.message), ?_, rfl, rfl, rfl, ?_⟩
    · simp only [fillSlot, run_bind, hcall, hpayload, run_pure, Exchange.slot, Exchange.value?, Exchange.result?,
        Option.map_some, Option.bind_some]
      rfl
    · simp only [Exchange.failure?, Exchange.result?, Option.map_some, hpayload, List.filterMap_cons]
      rfl

theorem mapM_fillSlot_run (entity : String) (calls : List SlotCall) (s : Session) :
    ∃ h', (calls.mapM (fillSlot entity)).run s =
        ((callAll s.host.provider s.host.answered calls).map Exchange.slot, { s with host := h' }) ∧
      Heard entity (callAll s.host.provider s.host.answered calls) s.host h' := by
  induction calls generalizing s with
  | nil => exact ⟨s.host, rfl, .refl⟩
  | cons c calls ih =>
    obtain ⟨h₁, hrun₁, hheard₁⟩ := fillSlot_run entity c s
    obtain ⟨h₂, hrun₂, hheard₂⟩ := ih { s with host := h₁ }
    have hafter : h₁.answered = c.query :: s.host.answered := hheard₁.answered
    -- The other calls are made where the first one left the host.
    simp only [hheard₁.provider, hafter] at hrun₂ hheard₂
    refine ⟨h₂, ?_, hheard₁.append hheard₂⟩
    simp only [List.mapM_cons, run_bind, hrun₁, hrun₂, run_pure]
    rfl

/-- **The slots of a declaration** hold what their exchanges gave. -/
theorem enrich_run (entity : String) (calls : List SlotCall) (s : Session) :
    ∃ h', (enrich entity calls).run s =
        ((exchanges s.config s.host.provider s.host.answered calls).map Exchange.slot, { s with host := h' }) ∧
      Heard entity (exchanges s.config s.host.provider s.host.answered calls) s.host h' := by
  have hget : (get : Act Session).run s = (s, s) := rfl
  cases hon : s.config.enableEnrichment with
  | true =>
    obtain ⟨h', hrun, hheard⟩ := mapM_fillSlot_run entity calls s
    rw [exchanges_on _ _ _ hon]
    refine ⟨h', ?_, hheard⟩
    simpa only [enrich, run_bind, hget, hon, if_true] using hrun
  | false =>
    rw [exchanges_off _ _ _ hon, List.map_map]
    refine ⟨s.host, ?_, .silent calls⟩
    simp only [enrich, run_bind, hget, hon]
    rfl

/-! ## One declaration -/

/-- The host has heard of declarations, and nothing else. -/
structure Told (told : List Interpreted) (h h' : Host) : Prop where
  provider : h'.provider = h.provider
  asked : h'.asked = (queriesFor told).reverse ++ h.asked
  answered : h'.answered = (queriesFor told).reverse ++ h.answered
  announced : h'.announced = (told.flatMap Interpreted.events).reverse ++ h.announced

theorem queriesFor_concat (told : List Interpreted) (i : Interpreted) :
    queriesFor (told ++ [i]) = queriesFor told ++ queriesIn i.exchanges := by
  rw [queriesFor, List.flatMap_append, List.flatMap_singleton]
  rfl

theorem Told.concat {told : List Interpreted} {h h' h'' : Host} {d : Declaration} {xs : List Exchange}
    (ht : Told told h h') (hx : Heard d.name xs h' h'') :
    Told (told ++ [⟨d, xs⟩]) h (h''.announce (announcement d)) where
  provider := hx.provider.trans ht.provider
  asked := by
    rw [queriesFor_concat, List.reverse_append, List.append_assoc, ← ht.asked]
    exact hx.asked
  answered := by
    rw [queriesFor_concat, List.reverse_append, List.append_assoc, ← ht.answered]
    exact hx.answered
  announced := by
    simp only [List.flatMap_append, List.flatMap_singleton, List.reverse_append, List.append_assoc, ← ht.announced,
      Interpreted.events, List.reverse_singleton, List.cons_append]
    exact congrArg (announcement d :: ·) hx.announced

/-- Each archetype in turn gives its name to its description. -/
def bindAll (e : Environment) (archetypes : List Source.Archetype) : Environment :=
  archetypes.foldl (fun e a => e.define Environment.globalScope a.name (.value (.string a.description))) e

/-- A session has interpreted declarations since it was new. -/
structure Account (start : Session) (told : List Interpreted) (s : Session) : Prop where
  config : s.config = start.config
  host : Told told start.host s.host
  spells : s.spells = .gather Source.Spell.name (told.filterMap (·.declaration.spell?))
  characters : s.characters = .gather (·.declaration.name) (told.filterMap (Interpreted.record? (·.character?)))
  worlds : s.worlds = .gather (·.declaration.name) (told.filterMap (Interpreted.record? (·.world?)))
  environment : s.environment = bindAll start.environment (told.filterMap (·.declaration.archetype?))
  history : s.history = start.history

section
variable {α β : Type} {f : β → Option α} {ys : List β} {y : β}

theorem filterMap_concat_none (hf : f y = none) : (ys ++ [y]).filterMap f = ys.filterMap f := by
  rw [List.filterMap_append, List.filterMap_cons_none hf, List.filterMap_nil, List.append_nil]

theorem filterMap_concat_some {x : α} (hf : f y = some x) : (ys ++ [y]).filterMap f = ys.filterMap f ++ [x] := by
  rw [List.filterMap_append, List.filterMap_cons_some hf, List.filterMap_nil]

end

section
variable {start s : Session} {told : List Interpreted} {i : Interpreted} {α : Type} {f : Interpreted → Option α}

theorem gathered_same {key : α → String} {r : Registry α} (h : r = .gather key (told.filterMap f))
    (hf : f i = none) : r = .gather key ((told ++ [i]).filterMap f) := by
  rw [filterMap_concat_none hf, h]

theorem gathered_new {key : α → String} {r : Registry α} {x : α} (h : r = .gather key (told.filterMap f))
    (hf : f i = some x) : r.put (key x) x = .gather key ((told ++ [i]).filterMap f) := by
  rw [filterMap_concat_some hf, Registry.gather_concat, h]

section
variable {f : Interpreted → Option Source.Archetype} {e e' : Environment} (h : e' = bindAll e (told.filterMap f))
include h

theorem bound_same (hf : f i = none) : e' = bindAll e ((told ++ [i]).filterMap f) := by
  rw [filterMap_concat_none hf, h]

theorem bound_new {a : Source.Archetype} (hf : f i = some a) :
    e'.define Environment.globalScope a.name (.value (.string a.description)) =
      bindAll e ((told ++ [i]).filterMap f) := by
  rw [filterMap_concat_some hf, h, bindAll, bindAll, List.foldl_append]
  rfl

end

theorem exchanges_nil (config : Config) (p : Provider) (answered : List Query) :
    exchanges config p answered [] = [] := by
  unfold exchanges
  split <;> rfl

/-- **One declaration**: the session has interpreted it too. -/
theorem Account.register (h : Account start told s) (d : Declaration) :
    Account start
      (told ++ [⟨d, exchanges s.config s.host.provider s.host.answered (slotCalls s.config d)⟩])
      ((register d).run s).2 := by
  cases d with
  | spell spell =>
    rw [slotCalls, exchanges_nil]
    exact
      { config := h.config
        host := h.host.concat .refl
        spells := gathered_new h.spells rfl
        characters := gathered_same h.characters rfl
        worlds := gathered_same h.worlds rfl
        environment := bound_same h.environment rfl
        history := h.history }
  | character c =>
    obtain ⟨h', hrun, hheard⟩ := enrich_run c.name (characterCalls s.config c) s
    have hafter : ((Session.register (.character c)).run s).2 =
        let after := (enrich c.name (characterCalls s.config c)).run s
        { after.2 with
          characters := after.2.characters.put c.name ⟨c, after.1⟩
          host := after.2.host.announce (.characterCreated c.name) } := rfl
    rw [hafter, hrun]
    exact
      { config := h.config
        host := h.host.concat hheard
        spells := gathered_same h.spells rfl
        characters := gathered_new (x := ⟨c, _⟩) h.characters rfl
        worlds := gathered_same h.worlds rfl
        environment := bound_same h.environment rfl
        history := h.history }
  | world w =>
    obtain ⟨h', hrun, hheard⟩ := enrich_run w.name (worldCalls w) s
    have hafter : ((Session.register (.world w)).run s).2 =
        let after := (enrich w.name (worldCalls w)).run s
        { after.2 with
          worlds := after.2.worlds.put w.name ⟨w, after.1⟩
          host := after.2.host.announce (.worldBuilt w.name) } := rfl
    rw [hafter, hrun]
    exact
      { config := h.config
        host := h.host.concat hheard
        spells := gathered_same h.spells rfl
        characters := gathered_same h.characters rfl
        worlds := gathered_new (x := ⟨w, _⟩) h.worlds rfl
        environment := bound_same h.environment rfl
        history := h.history }
  | archetype a =>
    rw [slotCalls, exchanges_nil]
    exact
      { config := h.config
        host := h.host.concat .refl
        spells := gathered_same h.spells rfl
        characters := gathered_same h.characters rfl
        worlds := gathered_same h.worlds rfl
        environment := bound_new h.environment rfl
        history := h.history }

end

/-! ## Programs -/

section
variable (config : Config) (p : Provider)

theorem interpretation_concat (d : Declaration) (ds : List Declaration) (answered : List Query) :
    interpretation config p answered (ds ++ [d]) = interpretation config p answered ds ++
      [⟨d, exchanges config p ((queriesFor (interpretation config p answered ds)).reverse ++ answered)
        (slotCalls config d)⟩] := by
  induction ds generalizing answered with
  | nil => rfl
  | cons d' ds ih =>
    simp only [List.cons_append, interpretation, ih, queriesFor, List.flatMap_cons, List.reverse_append,
      List.append_assoc]

theorem declaration_interpretation (ds : List Declaration) (answered : List Query) :
    (interpretation config p answered ds).map (·.declaration) = ds := by
  induction ds generalizing answered with
  | nil => rfl
  | cons d ds ih => rw [interpretation, List.map_cons, ih]

theorem filterMap_interpretation {α : Type} (f : Declaration → Option α) (ds : List Declaration)
    (answered : List Query) :
    (interpretation config p answered ds).filterMap (fun i => f i.declaration) = ds.filterMap f := by
  conv => rhs; rw [← declaration_interpretation config p ds answered, List.filterMap_map]
  rfl

/-- The names of records are those of the declarations. -/
theorem names_records {α : Type} (kind? : Declaration → Option α) (name : α → String) (ds : List Declaration)
    (answered : List Query) :
    ((interpretation config p answered ds).filterMap (Interpreted.record? kind?)).map (name ·.declaration) =
      (ds.filterMap kind?).map name := by
  rw [List.map_filterMap, List.map_filterMap, ← filterMap_interpretation config p _ ds answered]
  refine List.filterMap_congr fun i _ => ?_
  rw [Interpreted.record?, Option.map_map]
  rfl

end

/-- The session has interpreted the declarations since it was new. -/
def Holds (start : Session) (ds : List Declaration) (s : Session) : Prop :=
  Account start (interpretation start.config start.host.provider start.host.answered ds) s

/-- What an execution reports: how many names were declared so far. -/
def tally (history : List CastRecord) (ds : List Declaration) : Summary where
  spells := ((ds.filterMap (·.spell?)).map (·.name)).eraseDups.length
  characters := ((ds.filterMap (·.character?)).map (·.name)).eraseDups.length
  worlds := ((ds.filterMap (·.world?)).map (·.name)).eraseDups.length
  history

section
variable {start s : Session} {ds : List Declaration}

theorem Holds.register (h : Holds start ds s) (d : Declaration) : Holds start (ds ++ [d]) ((register d).run s).2 := by
  have hone := Account.register h d
  rw [Account.config h, (Account.host h).provider, (Account.host h).answered] at hone
  rw [Holds, interpretation_concat]
  exact hone

theorem Holds.forM (h : Holds start ds s) (more : List Declaration) :
    Holds start (ds ++ more) ((more.forM Session.register).run s).2 := by
  induction more generalizing ds s with
  | nil => rwa [List.append_nil]
  | cons d more ih =>
    have hrest := ih (h.register d)
    rw [List.append_assoc, List.singleton_append] at hrest
    exact hrest

/-! ### The registries -/

theorem Holds.spells (h : Holds start ds s) : s.spells = .gather Source.Spell.name (ds.filterMap (·.spell?)) := by
  rw [Account.spells h, filterMap_interpretation _ _ fun d => d.spell?]

theorem Holds.environment (h : Holds start ds s) :
    s.environment = bindAll start.environment (ds.filterMap (·.archetype?)) := by
  rw [Account.environment h, filterMap_interpretation _ _ fun d => d.archetype?]

theorem Holds.names_spells (h : Holds start ds s) :
    s.spells.names = ((ds.filterMap (·.spell?)).map (·.name)).eraseDups := by
  rw [h.spells, Registry.names_gather]

theorem Holds.names_characters (h : Holds start ds s) :
    s.characters.names = ((ds.filterMap (·.character?)).map (·.name)).eraseDups := by
  rw [Account.characters h, Registry.names_gather, names_records _ _ _ Source.Character.name]

theorem Holds.names_worlds (h : Holds start ds s) :
    s.worlds.names = ((ds.filterMap (·.world?)).map (·.name)).eraseDups := by
  rw [Account.worlds h, Registry.names_gather, names_records _ _ _ Source.World.name]

theorem Holds.summary (h : Holds start ds s) : s.summary = tally start.history ds := by
  simp only [Session.summary, tally, Registry.size_eq, h.names_spells, h.names_characters, h.names_worlds,
    Account.history h]

/-! ### One program and many -/

theorem Holds.interpret (h : Holds start ds s) (program : List Declaration) :
    ((interpret program).run s).1 = tally start.history (ds ++ program) ∧
      Holds start (ds ++ program) ((interpret program).run s).2 :=
  ⟨(h.forM program).summary, h.forM program⟩

theorem Holds.new (config : Config) (host : Host) (history : List CastRecord) :
    Holds { config, host, history } [] { config, host, history } :=
  ⟨rfl, ⟨rfl, rfl, rfl, rfl⟩, rfl, rfl, rfl, rfl, rfl⟩

end

/-! ## What the calls come to -/

section
variable {config : Config} (p : Provider) (answered : List Query) (calls : List SlotCall)

end

section
variable {config : Config} (p : Provider) (ds : List Declaration) (answered : List Query)

end

/-! ### Names of the global scope -/

end Session

end Grimoire
