import Grimoire.Proofs.Session.Loading

/-!
# Sessions stay well kept

Every act of a session leads from well kept sessions to well kept ones, whether it fails or not (`Preserves`),
and so does every step of a library. Therefore every library that operations lead to from a new one is well
kept (`Library.Reached.wellKept`), and loads directories as a recursion would (`Library.Reached.directory_traversed`).
-/
namespace Grimoire.Session

open Source (Declaration)

/-! ## Steps that preserve a property -/

/-- A step that leads from states with a property to such states, whether it fails or not. -/
def Preserves {σ ε α : Type} (P : σ → Prop) (x : ExceptT ε (StateM σ) α) : Prop := ∀ s, P s → P (x.run.run s).2

namespace Preserves

variable {σ ε α β : Type} {P : σ → Prop}

/-- What follows a step is done only if the step did not fail. -/
theorem andThen {x : ExceptT ε (StateM σ) α} {f : α → ExceptT ε (StateM σ) β} (hx : Preserves P x)
    (hf : ∀ a, Preserves P (f a)) : Preserves P (x >>= f) := by
  intro s h
  have hfirst := hx s h
  cases hrun : x.run.run s with
  | mk result after =>
    rw [hrun] at hfirst
    cases result with
    | error e => rwa [bind_error hrun]
    | ok a =>
      rw [bind_ok hrun]
      exact hf a after hfirst

theorem check (c : Except ε α) : Preserves P (liftM c : ExceptT ε (StateM σ) α) := by
  intro s h
  cases c <;> exact h

theorem returns (a : α) : Preserves P (pure a : ExceptT ε (StateM σ) α) := fun _ h => h

theorem fails (e : ε) : Preserves P (throw e : ExceptT ε (StateM σ) α) := fun _ h => h

theorem reads : Preserves P (get : ExceptT ε (StateM σ) σ) := fun _ h => h

end Preserves

/-! ## Sessions -/

/-- What is said to the host, and what is written down of a cast, does not matter. -/
theorem WellKept.aside {s : Session} (h : s.WellKept) (host : Host) (history : List CastRecord) :
    WellKept { s with host, history } := ⟨h.spells, h.characters, h.worlds, h.global⟩

theorem keeps_call (q : Provider.Query) : Preserves WellKept (liftM (call q) : Attempt Provider.Reply) :=
  fun s h => h.aside (s.host.call q).2 s.history

theorem keeps_announce (e : Event) : Preserves WellKept (liftM (announce e) : Attempt Unit) :=
  fun s h => h.aside (s.host.announce e) s.history

section
variable {s : Session} (h : s.WellKept)
include h

theorem WellKept.register (d : Declaration) : ((Session.register d).run s).2.WellKept :=
  ((Overlaid.refl h).register d).kept

theorem WellKept.interpret (ds : List Declaration) : ((Session.interpret ds).run s).2.WellKept :=
  ((Overlaid.refl h).interpret ds).kept

theorem WellKept.define (name : String) (value : Json) : ((Session.define name value).run s).2.WellKept :=
  ⟨h.spells, h.characters, h.worlds, (Environment.size_define ..).symm ▸ h.global⟩

end

theorem keeps_cast (name : String) (arguments : Object) : Preserves WellKept (cast name arguments) := by
  refine Preserves.reads.andThen fun s => ?_
  split
  · exact .fails _
  · refine (keeps_call _).andThen fun reply => ?_
    split
    · refine Preserves.reads.andThen fun s => ?_
      refine Preserves.andThen (fun s h => ?_) fun _ => (keeps_announce _).andThen fun _ => .returns _
      exact h.aside s.host (s.history ++ [_])
    · exact (keeps_announce _).andThen fun _ => .fails _

theorem keeps_castThrough (name : String) (arguments : Object) : Preserves WellKept (castThrough? name arguments) := by
  refine Preserves.reads.andThen fun s => ?_
  split
  · exact (keeps_cast name arguments).andThen fun _ => .returns _
  · exact .returns _

theorem keeps_payloadOrNull (q : Provider.Query) : Preserves WellKept (payloadOrNull q) := by
  refine (keeps_call q).andThen fun reply => ?_
  split
  · exact .returns _
  · exact .fails _

theorem keeps_summon (guardian task : String) : Preserves WellKept (summon guardian task) := by
  refine Preserves.reads.andThen fun s => ?_
  split
  · exact .fails _
  · exact keeps_payloadOrNull _

theorem keeps_manifestWorld (design : String) : Preserves WellKept (liftM (manifestWorld design) : Attempt Json) := by
  intro s h
  exact h.register (.world _)

theorem keeps_callBuiltin (b : Builtin) (arguments : List Json) : Preserves WellKept (callBuiltin b arguments) := by
  refine Preserves.reads.andThen fun s => ?_
  cases b with
  | cast => exact (Preserves.check _).andThen fun _ => (Preserves.check _).andThen fun _ => keeps_cast _ _
  | summon => exact (Preserves.check _).andThen fun _ => (Preserves.check _).andThen fun _ => keeps_summon _ _
  | transform => exact (Preserves.check _).andThen fun _ => keeps_payloadOrNull _
  | envision =>
    refine (Preserves.check _).andThen fun _ => (Preserves.check _).andThen fun _ => ?_
    split <;> exact keeps_payloadOrNull _
  | manifest =>
    refine (Preserves.check _).andThen fun _ => (Preserves.check _).andThen fun _ => ?_
    split
    · exact keeps_payloadOrNull _
    · exact keeps_manifestWorld _
    · exact keeps_payloadOrNull _

theorem keeps_callName (name : String) (arguments : List Json) : Preserves WellKept (callName name arguments) := by
  refine Preserves.reads.andThen fun s => (Preserves.check _).andThen fun binding => ?_
  cases binding with
  | value v => exact .fails _
  | builtin b => exact keeps_callBuiltin b arguments

/-! ## Libraries -/

/-- What a library can be asked to do. -/
inductive Operation
  | request (r : Request)
  | loadFile (path : String)
  | loadDirectory (path : String)
  | interpret (declarations : List Declaration)
  | createCharacter (c : Source.Character)
  | buildWorld (w : Source.World)
  | define (name : String) (value : Json)
  | callBuiltin (b : Builtin) (arguments : List Json)

namespace Library

/-- The library after an operation. -/
def after (l : Library) : Operation → Library
  | .request r => (l.serve r).after
  | .loadFile path => ((loadFile path).run.run l).2
  | .loadDirectory path => ((loadDirectory path).run.run l).2
  | .interpret declarations => ((inSession (interpret declarations)).run l).2
  | .createCharacter c => ((inSession (createCharacter c)).run l).2
  | .buildWorld w => ((inSession (buildWorld w)).run l).2
  | .define name value => ((inSession (define name value)).run l).2
  | .callBuiltin b arguments => ((attempt (callBuiltin b arguments)).run.run l).2

/-- A library that operations lead to from a new one. -/
inductive Reached : Library → Prop
  | new (config : Config) (host : Host) (mode : Source.LexMode) (root : String) (files : FileTree) :
      Reached { session := { config, host }, mode, root, files }
  | after {l : Library} (h : Reached l) (operation : Operation) : Reached (l.after operation)

/-- The session of a library is well kept. -/
def WellKept (l : Library) : Prop := l.session.WellKept

theorem keeps_attempt {α : Type} {act : Attempt α} (h : Preserves Session.WellKept act) :
    Preserves WellKept (attempt act) := fun l hl => h l.session hl

theorem keeps_loadNamed (path? : Option String) (source : String) : Preserves WellKept (loadNamed path? source) := by
  intro l h
  cases hparse : Source.parseSource l.mode source with
  | error e =>
    rw [loadNamed_error path? hparse]
    exact h
  | ok program =>
    rw [loadNamed_ok path? hparse]
    exact (Session.WellKept.interpret h program.declarations).aside _ _

theorem keeps_loadText (path : String) (read : Except ReadFault String) : Preserves WellKept (loadText path read) := by
  refine Preserves.andThen (fun l h => ?_) fun text => (keeps_loadNamed (some path) text).andThen fun _ _ h => h
  cases read <;> exact h

theorem keeps_loadFile (path : String) : Preserves WellKept (loadFile path) :=
  Preserves.reads.andThen fun _ => keeps_loadText _ _

theorem keeps_loadDirectory (path : String) : Preserves WellKept (loadDirectory path) := by
  intro l h
  cases hread : l.files.readDirectory path with
  | error fault =>
    have hget : (get : Loading Library).run.run l = (.ok l, l) := rfl
    rw [loadDirectory, bind_ok hget, hread]
    exact h
  | ok entries =>
    obtain ⟨after, hrun, htries⟩ := loadDirectory_run hread
    rw [hrun]
    exact (htries.overlaid (.refl h)).kept

theorem keeps_perform (r : Request) : Preserves WellKept r.perform := by
  cases r with
  | load source => exact ((keeps_loadNamed none source).andThen fun _ => .returns _).andThen fun _ => .returns _
  | cast name arguments => exact (keeps_attempt (keeps_cast name arguments)).andThen fun _ => .returns _
  | castThrough name arguments =>
    refine (keeps_attempt (keeps_castThrough name arguments)).andThen fun v => ?_
    exact .returns _
  | call name arguments => exact (keeps_attempt (keeps_callName name arguments)).andThen fun _ => .returns _
  | summon guardian task => exact (keeps_attempt (keeps_summon guardian task)).andThen fun _ => .returns _

/-- **Every library that can be reached is well kept.** -/
theorem Reached.wellKept {l : Library} (h : Reached l) : l.WellKept := by
  induction h with
  | new config host => exact Session.WellKept.new config host
  | @after l _ operation ih =>
    cases operation with
    | request r => exact keeps_perform r l ih
    | loadFile path => exact keeps_loadFile path l ih
    | loadDirectory path => exact keeps_loadDirectory path l ih
    | interpret declarations => exact Session.WellKept.interpret ih declarations
    | createCharacter c => exact Session.WellKept.register ih (.character _)
    | buildWorld w => exact Session.WellKept.register ih (.world _)
    | define name value => exact Session.WellKept.define ih name value
    | callBuiltin b arguments => exact keeps_attempt (keeps_callBuiltin b arguments) l ih

/-- **A library that can be reached** loads any directory as the recursion would, and what it declares lies over
what was there. -/
theorem Reached.directory_traversed {l : Library} (h : Reached l) {path : String}
    {entries : List (String × FileTree)} (hread : l.files.readDirectory path = .ok entries) :
    ∃ trials, Traversed l path entries trials (l.after (.loadDirectory path)) ∧
      l.session.Overlaid (declarationsOf trials) (l.after (.loadDirectory path)).session := by
  obtain ⟨trials, after, htraversed⟩ := loadDirectory_traversed hread
  have hafter : l.after (.loadDirectory path) = after := congrArg Prod.snd htraversed.run
  rw [hafter]
  exact ⟨trials, htraversed, htraversed.tries.overlaid (.refl h.wellKept)⟩

end Library

end Grimoire.Session
