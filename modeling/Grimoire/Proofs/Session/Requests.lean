import Grimoire.Session.Library
import Grimoire.Proofs.Session.Interpreting

/-!
# Requests to a library

What comes of one request is one of four things (`Outcome`): it is refused and nothing happens, the
provider fails and only the host has noticed, a cast is recorded, or it succeeds without a record. Each
operation has a lemma that says so, and `serve_sound` gathers them. Over any requests, one after another,
nothing that failed has left a trace in the session, and the history is the list of the casts that
succeeded (`requests_recorded`).
-/
namespace Grimoire.Session

open Source (Declaration Spell)
open Provider (Query ProviderError)

/-! ## Requests -/

inductive Request
  | load (source : String)
  | cast (name : String) (arguments : Object)
  /-- Cast through the handle of a spell. -/
  | castThrough (name : String) (arguments : Object)
  /-- Call the function that a name stands for. -/
  | call (name : String) (arguments : List Json)
  | summon (guardian task : String)

inductive Answer
  | loaded (s : Summary)
  | value (v : Json)
  /-- There is no such spell, so there is no handle. -/
  | noHandle

namespace Request

open Library (Loading)

def perform : Request → Loading Answer
  | load source => return .loaded (← Library.loadSource source)
  | cast name arguments => return .value (← Library.attempt (Session.cast name arguments))
  | castThrough name arguments => return match ← Library.attempt (castThrough? name arguments) with
    | some v => .value v
    | none => .noHandle
  | call name arguments => return .value (← Library.attempt (callName name arguments))
  | summon guardian task => return .value (← Library.attempt (Session.summon guardian task))

/-- The spell and the arguments of positional arguments, if they fit. -/
def castArguments? : List Json → Option (String × Object)
  | [.string spell] | .string spell :: .null :: _ => some (spell, [])
  | .string spell :: .object arguments :: _ => some (spell, arguments)
  | _ => none

/-- The spell that a request casts, with its arguments. -/
def cast? (s : Session) : Request → Option (String × Object)
  | cast name arguments => some (name, arguments)
  | castThrough name arguments => if s.spells.contains name then some (name, arguments) else none
  | call name arguments =>
    match s.environment.get Environment.globalScope name with
    | .ok (.builtin .cast) => castArguments? arguments
    | _ => none
  | load _ | summon _ _ => none

end Request

/-- A request with what it was made of and what came of it. -/
structure Served where
  before : Library
  request : Request
  answer : Except SessionError Answer
  after : Library

/-- The library performs a request. -/
def Library.serve (l : Library) (r : Request) : Served :=
  let (answer, after) := r.perform.run.run l
  ⟨l, r, answer, after⟩

/-- Requests, one after another. -/
def Library.serveAll (l : Library) : List Request → List Served
  | [] => []
  | r :: rs => l.serve r :: Library.serveAll (l.serve r).after rs

/-- What a record says of a cast: the spell, its arguments, and the result. -/
def CastRecord.told (r : CastRecord) : String × Object × Json := (r.spell, r.arguments, r.result)

/-- The cast that a request came to, if it succeeded. -/
def Served.casts (s : Served) : Option (String × Object × Json) :=
  match s.request.cast? s.before.session, s.answer with
  | some (name, arguments), .ok (.value result) => some (name, arguments, result)
  | _, _ => none

def SessionError.isProvider : SessionError → Bool
  | provider _ => true
  | _ => false

/-- A request that failed has left the library as it was, but for the host, and if the provider did not
fail the host as well. The history has grown by the cast that succeeded, if there is one. -/
structure Served.Sound (s : Served) : Prop where
  intact : ∀ e, s.answer = .error e → ∃ host, s.after = { s.before with session := { s.before.session with host } }
  silent : ∀ e, s.answer = .error e → e.isProvider = false → s.after = s.before
  recorded : ∃ records, s.after.session.history = s.before.session.history ++ records ∧
    records.map CastRecord.told = s.casts.toList

/-! ## Steps that may fail -/

section
variable {σ ε α β : Type} {s s' : σ} {e : ε} {a : α} {x : ExceptT ε (StateM σ) α} {f : α → ExceptT ε (StateM σ) β}

theorem bind_ok (h : x.run.run s = (.ok a, s')) : (x >>= f).run.run s = (f a).run.run s' := by
  show ((x.run >>= ExceptT.bindCont f).run s) = _
  rw [StateT.run_bind, h]
  rfl

theorem bind_error (h : x.run.run s = (.error e, s')) : (x >>= f).run.run s = (.error e, s') := by
  show ((x.run >>= ExceptT.bindCont f).run s) = _
  rw [StateT.run_bind, h]
  rfl

theorem run_ok (a : α) (s : σ) : (pure a : ExceptT ε (StateM σ) α).run.run s = (.ok a, s) := rfl

/-- A check does not touch the state. -/
theorem bind_check {c : Except ε α} : ((liftM c : ExceptT ε (StateM σ) α) >>= f).run.run s =
    match c with
    | .ok a => (f a).run.run s
    | .error e => (.error e, s) := by
  cases c <;> rfl

end

/-! ## Spells under their own names -/

/-- Every spell is registered under its own name. -/
def OwnNames (spells : Registry Spell) : Prop := ∃ declared, spells = .gather Spell.name declared

theorem OwnNames.put {spells : Registry Spell} (h : OwnNames spells) (spell : Spell) :
    OwnNames (spells.put spell.name spell) := by
  obtain ⟨declared, rfl⟩ := h
  exact ⟨declared ++ [spell], (Registry.gather_concat _ _ _).symm⟩

theorem OwnNames.name {spells : Registry Spell} (h : OwnNames spells) {name : String} {spell : Spell}
    (hget : spells.get? name = some spell) : spell.name = name := by
  obtain ⟨declared, rfl⟩ := h
  rw [Registry.get?_gather] at hget
  simpa using List.find?_some hget

/-! ## What comes of a request -/

variable {α β : Type} {s : Session} {name : String}

/-- What can come of an act on a session that is to make this cast. -/
inductive Outcome (s : Session) (cast? : Option (String × Object)) : Except SessionError Json × Session → Prop
  | refused (e : SessionError) (reason : e.isProvider = false) : Outcome s cast? (.error e, s)
  | failed (p : ProviderError) (host : Host) : Outcome s cast? (.error (.provider p), { s with host })
  | recorded (name : String) (record : CastRecord) (host : Host) (wanted : cast? = some (name, record.arguments))
      (named : record.spell = name) :
      Outcome s cast? (.ok record.result, { s with host, history := s.history ++ [record] })
  | quiet (v : Json) (s' : Session) (none : cast? = none) (spells : OwnNames s.spells → OwnNames s'.spells)
      (history : s'.history = s.history) : Outcome s cast? (.ok v, s')

/-- What a check refuses changes nothing; what it lets pass goes on. -/
theorem Outcome.check {cast? : Option (String × Object)} {c : Except SessionError α} {f : α → Attempt Json}
    (hrefused : ∀ e, c = .error e → e.isProvider = false) (hpassed : ∀ a, c = .ok a → Outcome s cast? ((f a).run.run s)) :
    Outcome s cast? ((liftM c >>= f : Attempt Json).run.run s) := by
  rw [bind_check]
  cases hc : c with
  | ok a => exact hpassed a hc
  | error e => exact .refused e (hrefused e hc)

/-! ### Casts -/

theorem outcome_cast (hown : OwnNames s.spells) (name : String) (arguments : Object) :
    Outcome s (some (name, arguments)) ((cast name arguments).run.run s) := by
  have hget : (get : Attempt Session).run.run s = (.ok s, s) := rfl
  rw [cast, bind_ok hget]
  cases hspell : s.spells.get? name with
  | none => exact .refused (.unknownSpell name) rfl
  | some spell =>
    have hname := hown.name hspell
    let request := castRequest s.config spell arguments
    let reply := (s.host.call (.text request)).1
    let heard : Session := { s with host := (s.host.call (.text request)).2 }
    have hcall : (liftM (call (.text request)) : Attempt Provider.Reply).run.run s = (.ok reply, heard) := rfl
    dsimp only
    rw [bind_ok hcall]
    cases hpayload : Provider.payload reply request.provider with
    | error p =>
      have hrun : Outcome s (some (name, arguments)) _ :=
        .failed p (heard.host.announce (.spellFailed spell.name p.message))
      exact hrun
    | ok result =>
      let record : CastRecord :=
        { spell := spell.name, arguments, result, duration := heard.host.clock - s.host.clock
          ended := heard.host.clock, provider := request.provider, guardian := request.options.guardian }
      let event := Event.spellCast spell.name request.provider request.options.guardian record.duration
      have hrun : Outcome s (some (name, arguments)) _ :=
        .recorded name record (heard.host.announce event) rfl hname
      exact hrun

/-! ### Plain calls -/

theorem outcome_payloadOrNull (q : Query) : Outcome s none ((payloadOrNull q).run.run s) := by
  let reply := (s.host.call q).1
  let heard : Session := { s with host := (s.host.call q).2 }
  have hcall : (liftM (call q) : Attempt Provider.Reply).run.run s = (.ok reply, heard) := rfl
  rw [payloadOrNull, bind_ok hcall]
  cases hreply : reply with
  | ok r => exact .quiet _ heard rfl id rfl
  | error p => exact .failed p heard.host

theorem outcome_summon (guardian task : String) : Outcome s none ((summon guardian task).run.run s) := by
  have hget : (get : Attempt Session).run.run s = (.ok s, s) := rfl
  rw [summon, bind_ok hget]
  cases s.guardians.get? (Text.lowerString guardian) with
  | none => exact .refused (.unknownGuardian guardian) rfl
  | some g => exact outcome_payloadOrNull _

/-! ### Declarations -/

theorem register_keeps (d : Declaration) (s : Session) :
    (OwnNames s.spells → OwnNames ((register d).run s).2.spells) ∧ ((register d).run s).2.history = s.history := by
  cases d with
  | spell spell => exact ⟨fun h => h.put spell, rfl⟩
  | character c =>
    obtain ⟨host, hrun, -⟩ := enrich_run c.name (characterCalls s.config c) s
    have hget : (get : Act Session).run s = (s, s) := rfl
    simp only [register, registerCharacter, run_bind, hget, hrun]
    exact ⟨id, rfl⟩
  | world w =>
    obtain ⟨host, hrun, -⟩ := enrich_run w.name (worldCalls w) s
    simp only [register, registerWorld, run_bind, hrun]
    exact ⟨id, rfl⟩
  | archetype a => exact ⟨id, rfl⟩

theorem interpret_keeps (declarations : List Declaration) (s : Session) :
    (OwnNames s.spells → OwnNames ((interpret declarations).run s).2.spells) ∧
      ((interpret declarations).run s).2.history = s.history := by
  have hafter : ((interpret declarations).run s).2 = ((declarations.forM register).run s).2 := rfl
  rw [hafter]
  induction declarations generalizing s with
  | nil => exact ⟨id, rfl⟩
  | cons d declarations ih =>
    obtain ⟨hspells, hhistory⟩ := register_keeps d s
    obtain ⟨hspells', hhistory'⟩ := ih ((register d).run s).2 rfl
    exact ⟨fun h => hspells' (hspells h), hhistory'.trans hhistory⟩

theorem outcome_manifestWorld (design : String) :
    Outcome s none ((liftM (manifestWorld design) : Attempt Json).run.run s) := by
  let world : Source.World :=
    { name := "World_" ++ toString s.host.clock, cosmology := [("description", .string design)] }
  obtain ⟨hspells, hhistory⟩ := register_keeps (.world world) s
  exact .quiet _ ((register (.world world)).run s).2 rfl hspells hhistory

/-! ### Functions -/

theorem stringArgument_error {b : Builtin} {arguments : List Json} {place : Nat} {e : SessionError}
    (h : stringArgument b arguments place = .error e) : e.isProvider = false := by
  unfold stringArgument at h
  split at h <;> cases h <;> rfl

theorem stringArgumentOr_error {default : String} {b : Builtin} {arguments : List Json} {place : Nat}
    {e : SessionError} (h : stringArgumentOr default b arguments place = .error e) : e.isProvider = false := by
  unfold stringArgumentOr at h
  split at h
  · cases h
  · cases h
  · exact stringArgument_error h

theorem spellArguments_error {arguments : List Json} {e : SessionError} (h : spellArguments arguments = .error e) :
    e.isProvider = false := by
  unfold spellArguments at h
  split at h
  · cases h
  · cases h
  · cases h
  · cases h
    rfl

/-- Arguments that pass both checks are the arguments of a cast. -/
theorem castArguments_eq {arguments : List Json} {spell : String} {o : Object}
    (hspell : stringArgument .cast arguments 0 = .ok spell) (ho : spellArguments arguments = .ok o) :
    Request.castArguments? arguments = some (spell, o) := by
  unfold stringArgument at hspell
  unfold spellArguments at ho
  match arguments with
  | [] => cases hspell
  | first :: rest =>
    cases first with
    | string name =>
      obtain rfl := Except.ok.inj hspell
      match rest with
      | [] => cases ho; rfl
      | second :: more =>
        cases second with
        | null => cases ho; rfl
        | object o => cases ho; rfl
        | _ => cases ho
    | _ => cases hspell

/-- The cast that a function makes with these arguments. -/
def castBy (b : Builtin) (arguments : List Json) : Option (String × Object) :=
  match b with
  | .cast => Request.castArguments? arguments
  | _ => none

theorem outcome_callBuiltin (hown : OwnNames s.spells) (b : Builtin) (arguments : List Json) :
    Outcome s (castBy b arguments) ((callBuiltin b arguments).run.run s) := by
  have hget : (get : Attempt Session).run.run s = (.ok s, s) := rfl
  rw [callBuiltin, bind_ok hget]
  cases b with
  | cast =>
    refine .check (fun e h => stringArgument_error h) fun spell hspell => ?_
    refine .check (fun e h => spellArguments_error h) fun o ho => ?_
    rw [castBy, castArguments_eq hspell ho]
    exact outcome_cast hown spell o
  | summon =>
    refine .check (fun e h => stringArgument_error h) fun guardian _ => ?_
    refine .check (fun e h => stringArgumentOr_error h) fun task _ => ?_
    exact outcome_summon guardian task
  | transform =>
    refine .check (fun e h => stringArgument_error h) fun transformation _ => ?_
    exact outcome_payloadOrNull _
  | envision =>
    refine .check (fun e h => stringArgument_error h) fun idea _ => ?_
    refine .check (fun e h => stringArgumentOr_error h) fun medium _ => ?_
    split <;> exact outcome_payloadOrNull _
  | manifest =>
    refine .check (fun e h => stringArgument_error h) fun design _ => ?_
    refine .check (fun e h => stringArgumentOr_error h) fun medium _ => ?_
    split
    · exact outcome_payloadOrNull _
    · exact outcome_manifestWorld design
    · exact outcome_payloadOrNull _

theorem environment_error {e : Environment} {scope : ScopeId} {fault : SessionError}
    (h : e.get scope name = .error fault) : fault.isProvider = false := by
  unfold Environment.get at h
  split at h
  · split at h <;> cases h
    rfl
  · cases h
    rfl

theorem outcome_callName (hown : OwnNames s.spells) (name : String) (arguments : List Json) :
    Outcome s ((Request.call name arguments).cast? s) ((callName name arguments).run.run s) := by
  have hget : (get : Attempt Session).run.run s = (.ok s, s) := rfl
  rw [callName, bind_ok hget]
  refine .check (fun e h => environment_error h) fun binding hbinding => ?_
  cases binding with
  | value v => exact .refused (.notCallable name) rfl
  | builtin b =>
    have hcast : (Request.call name arguments).cast? s = castBy b arguments := by
      simp only [Request.cast?, hbinding]
      cases b <;> rfl
    rw [hcast]
    exact outcome_callBuiltin hown b arguments

/-! ## One request -/

section
variable {l : Library} {r : Request}

theorem attempt_run (act : Attempt α) (l : Library) :
    (Library.attempt act).run.run l = ((act.run.run l.session).1, { l with session := (act.run.run l.session).2 }) := rfl

/-- What comes of a request that acts on the session and answers with the value. -/
theorem sound_of_outcome {act : Attempt Json} (h : Outcome l.session (r.cast? l.session) (act.run.run l.session))
    (hperform : r.perform.run.run l = (Library.attempt act >>= fun v => pure (Answer.value v)).run.run l) :
    (l.serve r).Sound ∧ (OwnNames l.session.spells → OwnNames (l.serve r).after.session.spells) := by
  have hserve : l.serve r = ⟨l, r, (r.perform.run.run l).1, (r.perform.run.run l).2⟩ := rfl
  rw [hserve, hperform]
  generalize hout : act.run.run l.session = out at h
  have hrun := attempt_run act l
  rw [hout] at hrun
  cases h with
  | refused e reason =>
    rw [bind_error hrun]
    exact ⟨⟨fun _ _ => ⟨l.session.host, rfl⟩, fun _ _ _ => rfl, [], by simp, by simp [Served.casts]⟩, id⟩
  | failed p host =>
    rw [bind_error hrun]
    refine ⟨⟨fun _ _ => ⟨host, rfl⟩, ?_, [], by simp, by simp [Served.casts]⟩, id⟩
    intro e he hnot
    cases he
    cases hnot
  | recorded name record host wanted named =>
    rw [bind_ok hrun, run_ok]
    refine ⟨⟨fun e he => (by cases he), fun e he => (by cases he), [record], rfl, ?_⟩, id⟩
    simp [Served.casts, wanted, CastRecord.told, named]
  | quiet v s' none spells history =>
    rw [bind_ok hrun, run_ok]
    refine ⟨⟨fun e he => (by cases he), fun e he => (by cases he), [], ?_, ?_⟩, spells⟩
    · simpa using history
    · simp [Served.casts, none]

/-- Nothing comes of a handle that there is not. -/
theorem sound_of_noHandle {arguments : Object} (hno : l.session.spells.contains name = false) :
    (l.serve (.castThrough name arguments)).Sound ∧
      (OwnNames l.session.spells → OwnNames (l.serve (.castThrough name arguments)).after.session.spells) := by
  have hget : (get : Attempt Session).run.run l.session = (.ok l.session, l.session) := rfl
  have hact : (castThrough? name arguments).run.run l.session = (.ok none, l.session) := by
    rw [castThrough?, bind_ok hget, hno]
    rfl
  have hrun := attempt_run (castThrough? name arguments) l
  rw [hact] at hrun
  have hserve : l.serve (.castThrough name arguments) = ⟨l, .castThrough name arguments, .ok .noHandle, l⟩ := by
    have hperform : (Request.castThrough name arguments).perform.run.run l = (.ok .noHandle, l) := bind_ok hrun
    simp only [Library.serve, hperform]
  rw [hserve]
  exact ⟨⟨fun e he => (by cases he), fun e he => (by cases he), [], by simp, by simp [Served.casts]⟩, id⟩

theorem perform_castThrough {arguments : Object} (hhandle : l.session.spells.contains name = true) :
    (Request.castThrough name arguments).perform.run.run l =
      (Library.attempt (cast name arguments) >>= fun v => pure (Answer.value v)).run.run l := by
  have hget : (get : Attempt Session).run.run l.session = (.ok l.session, l.session) := rfl
  have hact : (castThrough? name arguments).run.run l.session =
      (cast name arguments >>= fun v => pure (some v)).run.run l.session := by
    rw [castThrough?, bind_ok hget, hhandle]
    rfl
  have hthrough := attempt_run (castThrough? name arguments) l
  have hdirect := attempt_run (cast name arguments) l
  rw [hact] at hthrough
  cases hcast : (cast name arguments).run.run l.session with
  | mk result session =>
    rw [hcast] at hdirect
    cases result with
    | ok v =>
      rw [bind_ok hcast] at hthrough
      rw [bind_ok hdirect]
      exact bind_ok hthrough
    | error e =>
      rw [bind_error hcast] at hthrough
      rw [bind_error hdirect]
      exact bind_error hthrough

/-! ### Sources -/

/-- The library after a program was interpreted, from a file or not. -/
def Library.interpreting (l : Library) (path? : Option String) (program : Source.Program) : Library :=
  let session := ((interpret program.declarations).run l.session).2
  let event := Event.sourceLoaded path? program.declarations.length program.errors.length
  { l with session := { session with host := session.host.announce event } }

theorem Library.loadNamed_ok {source : String} {program : Source.Program} (path? : Option String)
    (h : Source.parseSource l.mode source = .ok program) :
    (loadNamed path? source).run.run l =
      (.ok ⟨program, ((interpret program.declarations).run l.session).1⟩, l.interpreting path? program) := by
  have hget : (get : Loading Library).run.run l = (.ok l, l) := rfl
  rw [loadNamed, bind_ok hget, h]
  rfl

theorem Library.loadNamed_error {source : String} {e : Source.LexError} (path? : Option String)
    (h : Source.parseSource l.mode source = .error e) :
    (loadNamed path? source).run.run l = (.error (.source e), l) := by
  have hget : (get : Loading Library).run.run l = (.ok l, l) := rfl
  rw [loadNamed, bind_ok hget, h]
  rfl

/-- A source that is loaded leaves the history as it is; one without tokens does nothing. -/
theorem sound_of_load (source : String) :
    (l.serve (.load source)).Sound ∧
      (OwnNames l.session.spells → OwnNames (l.serve (.load source)).after.session.spells) := by
  have hserve : l.serve (.load source) = ⟨l, .load source, ((Request.load source).perform.run.run l).1,
    ((Request.load source).perform.run.run l).2⟩ := rfl
  rw [hserve]
  cases hparse : Source.parseSource l.mode source with
  | error e =>
    have hload : (Library.loadSource source).run.run l = (.error (.source e), l) :=
      bind_error (Library.loadNamed_error none hparse)
    have hrun : (Request.load source).perform.run.run l = (.error (.source e), l) := bind_error hload
    rw [hrun]
    exact ⟨⟨fun _ _ => ⟨l.session.host, rfl⟩, fun _ _ _ => rfl, [], by simp, by simp [Served.casts]⟩, id⟩
  | ok program =>
    let summary := ((interpret program.declarations).run l.session).1
    obtain ⟨hspells, hhistory⟩ := interpret_keeps program.declarations l.session
    have hload : (Library.loadSource source).run.run l = (.ok summary, l.interpreting none program) :=
      bind_ok (Library.loadNamed_ok none hparse)
    have hrun : (Request.load source).perform.run.run l = (.ok (.loaded summary), l.interpreting none program) :=
      bind_ok hload
    rw [hrun]
    refine ⟨⟨fun e he => (by cases he), fun e he => (by cases he), [], ?_, by simp [Served.casts]⟩, hspells⟩
    rw [List.append_nil]
    exact hhistory

/-! ### Any of them -/

/-- **One request** of a library whose spells have their own names, which they still have after it. -/
theorem serve_sound (hown : OwnNames l.session.spells) (r : Request) :
    (l.serve r).Sound ∧ OwnNames (l.serve r).after.session.spells := by
  have main : (l.serve r).Sound ∧ (OwnNames l.session.spells → OwnNames (l.serve r).after.session.spells) := by
    cases r with
    | load source => exact sound_of_load source
    | cast name arguments => exact sound_of_outcome (outcome_cast hown name arguments) rfl
    | castThrough name arguments =>
      by_cases hhandle : l.session.spells.contains name = true
      · refine sound_of_outcome ?_ (perform_castThrough hhandle)
        rw [Request.cast?, if_pos hhandle]
        exact outcome_cast hown name arguments
      · exact sound_of_noHandle (by simpa using hhandle)
    | call name arguments => exact sound_of_outcome (outcome_callName hown name arguments) rfl
    | summon guardian task => exact sound_of_outcome (outcome_summon guardian task) rfl
  exact ⟨main.1, main.2 hown⟩

end

/-! ## Any requests -/

/-- **What failed leaves no trace, and the history is the casts that succeeded.** To a library whose spells
were registered under their own names, such as a new one, come any requests, and the provider answers as it
likes. Each that fails leaves the library as it was but for the host, and if it was not the provider that
failed, then without a call or an event. The history only grows, by the casts that succeeded, in order. -/
theorem requests_recorded (l : Library) (hown : OwnNames l.session.spells) (rs : List Request) :
    (∀ s ∈ l.serveAll rs, s.Sound) ∧
    ∃ records, (rs.foldl (fun l r => (l.serve r).after) l).session.history = l.session.history ++ records ∧
      records.map CastRecord.told = (l.serveAll rs).filterMap Served.casts := by
  induction rs generalizing l with
  | nil => exact ⟨by simp [Library.serveAll], [], by simp, rfl⟩
  | cons r rs ih =>
    obtain ⟨hsound, hafter⟩ := serve_sound hown r
    obtain ⟨hrest, more, hmore, htold⟩ := ih (l.serve r).after hafter
    obtain ⟨records, hrecords, hcasts⟩ := hsound.recorded
    refine ⟨?_, records ++ more, ?_, ?_⟩
    · intro s hs
      rcases List.mem_cons.1 hs with rfl | hs
      · exact hsound
      · exact hrest s hs
    · have hbefore : (l.serve r).before = l := rfl
      rw [List.foldl_cons, hmore, hrecords, hbefore, List.append_assoc]
    · rw [List.map_append, hcasts, htold, Library.serveAll, List.filterMap_cons]
      cases (l.serve r).casts <;> rfl

/-- A library with a provider that answers once and then does not get through. -/
def faltering : Library :=
  { session := { host := { provider :=
      { reply := fun answered _ =>
          if answered.isEmpty then .ok (.ok (.string "a spark")) else .error (.requestFailed "oracle" "unreachable")
        delay := fun _ => 40
        note? := fun _ => none } } }
    root := "", files := .directory [] }

/-- Only the second and the fourth request reach the provider, and only the second one succeeds. -/
def attempts : List Request :=
  [.load "@spell Ignite\n  @implementation \"Kindle\"\n", .call "cast" [.string "Ignite"], .call "cast" [.null],
    .castThrough "Ignite" [("near", .bool true)], .cast "Douse" [], .summon "Nobody" ""]

theorem attempts_recorded : OwnNames faltering.session.spells ∧
    ((faltering.serveAll attempts).filterMap Served.casts).map (·.1) = ["Ignite"] ∧
    (∀ s ∈ faltering.serveAll attempts, s.Sound) ∧
    ∃ records, (attempts.foldl (fun l r => (l.serve r).after) faltering).session.history =
        faltering.session.history ++ records ∧
      records.map CastRecord.told = (faltering.serveAll attempts).filterMap Served.casts := by
  have hown : OwnNames faltering.session.spells := ⟨[], rfl⟩
  have hcasts : ((faltering.serveAll attempts).filterMap Served.casts).map (·.1) = ["Ignite"] := by
    decide +kernel
  exact ⟨hown, hcasts, requests_recorded faltering hown attempts⟩

end Grimoire.Session
