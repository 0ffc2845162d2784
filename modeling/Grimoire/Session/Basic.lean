import Grimoire.Host
import Grimoire.Registry
import Grimoire.Template
import Grimoire.Session.Environment
import Grimoire.Session.Guardian
import Grimoire.Session.Record
import Grimoire.Session.Enrichment

/-!
# Sessions

A session registers declarations, enriches characters and worlds through the provider, casts spells
and calls the functions that every session knows. Where names are declared again the last declaration
counts. A failed call leaves its slot empty; a failed cast leaves no record.

| here | there |
| --- | --- |
| `Session`                                             | `Interpreter` |
| `registerSpell`, `registerCharacter`, `registerWorld` | `register_spell`, `register_character`, `register_world` |
| `defineArchetype`                                     | `define_archetype` |
| `fillSlot`                                            | `enrich` |
| `interpret`                                           | `interpret`, with `Summary` for `ExecutionSummary` |
| `createCharacter`, `buildWorld`                       | `Runtime::create_character`, `Runtime::build_world` |
| `castRequest`, `cast`                                 | `cast_spell` |
| `payloadOrNull`                                       | `text_or_null`, `image_or_null`, `payload_or_null` |
| `summon`                                              | `summon` |
| `stringArgument`, `stringArgumentOr`                  | `string_arg`, `optional_string_arg` |
| `callBuiltin`, `callName`                             | `call_builtin`, `call` |
| `castThrough?`                                        | `spell` and the three calls of `SpellHandle` |

The stages that `trace_state` writes to the log are left out.
-/
namespace Grimoire

open Session
open Provider (Generation Query Reply)

structure Session where
  config : Config := {}
  host : Host
  environment : Environment := .withBuiltins
  spells : Registry Source.Spell := .empty
  characters : Registry CharacterRecord := .empty
  worlds : Registry WorldRecord := .empty
  guardians : Registry Guardian := .ofList (Guardian.all.map fun g => (g.id, g))
  /-- The casts that succeeded, in order. -/
  history : List CastRecord := []

namespace Session

/-- What a session does. -/
abbrev Act := StateM Session

/-- What a session does and may fail at. -/
abbrev Attempt := ExceptT SessionError Act

/-! ## The host -/

def announce (e : Event) : Act Unit := modify fun s => { s with host := s.host.announce e }

def call (q : Query) : Act Reply := modifyGet fun s =>
  let (reply, host) := s.host.call q
  (reply, { s with host })

/-! ## Declarations -/

def registerSpell (spell : Source.Spell) : Act Unit := do
  modify fun s => { s with spells := s.spells.put spell.name spell }
  announce (.spellRegistered spell.name)

/-- Who answers a query. -/
def answerer : Query → String
  | .text r | .image r => r.provider
  | .content _ r => r.providerName

/-- Fill a slot; a failure is announced and leaves it empty. -/
def fillSlot (entity : String) (c : SlotCall) : Act (String × Option Json) := do
  match Provider.payload (← call c.query) (answerer c.query) with
  | .ok value => return (c.slot, some value)
  | .error e =>
    announce (.enrichmentFailed entity c.slot e.message)
    return (c.slot, none)

/-- Fill the slots one after another, or leave them all empty when enrichment is off. -/
def enrich (entity : String) (calls : List SlotCall) : Act (List (String × Option Json)) := do
  if (← get).config.enableEnrichment then calls.mapM (fillSlot entity)
  else return calls.map fun c => (c.slot, none)

def registerCharacter (c : Source.Character) : Act CharacterRecord := do
  let record := ⟨c, ← enrich c.name (characterCalls (← get).config c)⟩
  modify fun s => { s with characters := s.characters.put c.name record }
  announce (.characterCreated c.name)
  return record

def registerWorld (w : Source.World) : Act WorldRecord := do
  let record := ⟨w, ← enrich w.name (worldCalls w)⟩
  modify fun s => { s with worlds := s.worlds.put w.name record }
  announce (.worldBuilt w.name)
  return record

/-- Let a name of the global scope stand for a value. -/
def define (name : String) (value : Json) : Act Unit := modify fun s =>
  { s with environment := s.environment.define Environment.globalScope name (.value value) }

/-- The name of an archetype stands for its description. -/
def defineArchetype (a : Source.Archetype) : Act Unit := do
  define a.name (.string a.description)
  announce (.archetypeDefined a.name)

def register : Source.Declaration → Act Unit
  | .spell s => registerSpell s
  | .character c => do let _ ← registerCharacter c
  | .world w => do let _ ← registerWorld w
  | .archetype a => defineArchetype a

def summary (s : Session) : Summary :=
  { spells := s.spells.size
    characters := s.characters.size
    worlds := s.worlds.size
    history := s.history }

/-- Register the declarations in order. -/
def interpret (declarations : List Source.Declaration) : Act Summary := do
  declarations.forM register
  return (← get).summary

/-- Register a character made without a source; one without an archetype gets `unknown`. -/
def createCharacter (c : Source.Character) : Act CharacterRecord :=
  registerCharacter
    { c with archetype := if c.archetype.isEmpty then "unknown" else c.archetype, line := 0 }

def buildWorld (w : Source.World) : Act WorldRecord := registerWorld { w with line := 0 }

/-! ## Casting -/

/-- The request of a cast: the template filled, with the spell and its arguments beside it. -/
def castRequest (config : Config) (spell : Source.Spell) (arguments : Object) : Generation where
  provider := selectProvider spell.archetypes config.textProvider
  prompt := Template.fill spell.implementation arguments
  options :=
    { temperature := some config.spellTemperature
      maxTokens := some config.spellMaxTokens
      guardian := selectGuardian? spell.archetypes
      extra :=
        [("spell_context", .object
          [("spell_name", .string spell.name), ("archetypes", Json.strings spell.archetypes),
           ("parameters", .object arguments)])] }

/-- Cast a registered spell. -/
def cast (name : String) (arguments : Object) : Attempt Json := do
  let s ← get
  match s.spells.get? name with
  | none => throw (.unknownSpell name)
  | some spell =>
    let request := castRequest s.config spell arguments
    let reply ← call (.text request)
    match Provider.payload reply request.provider with
    | .ok result =>
      let ended := (← get).host.clock
      let duration := ended - s.host.clock
      modify fun s =>
        { s with history := s.history ++
            [{ spell := spell.name, arguments, result, duration, ended
               provider := request.provider, guardian := request.options.guardian }] }
      announce (.spellCast spell.name request.provider request.options.guardian duration)
      return result
    | .error e =>
      announce (.spellFailed spell.name e.message)
      throw (.provider e)

/-! ## Functions -/

/-- A plain call: the payload, or null when the provider reports a failure. -/
def payloadOrNull (q : Query) : Attempt Json := do
  match ← call q with
  | .ok r => return if r.success then Json.ofOption r.data else .null
  | .error e => throw (.provider e)

/-- Ask a guardian, named in any case, to approach a task. -/
def summon (guardian task : String) : Attempt Json := do
  match (← get).guardians.get? (Text.lowerString guardian) with
  | none => throw (.unknownGuardian guardian)
  | some g =>
    let prompt := "As " ++ g.name ++ ", Guardian of " ++ g.element ++ ", I approach this task: " ++ task
    let request := textRequest narrativeProvider prompt 0.8 1000
    payloadOrNull (.text { request with options.guardian := some g.id })

/-- An argument that must be a string. -/
def stringArgument (b : Builtin) (arguments : List Json) (place : Nat) : Except SessionError String :=
  match arguments[place]? with
  | some (.string s) => .ok s
  | some other => .error (.invalidArgument b.name
      ("argument " ++ toString (place + 1) ++ " must be a string, got " ++ other.text))
  | none => .error (.invalidArgument b.name ("missing argument " ++ toString (place + 1)))

/-- A string, or the default where the argument is missing or null. -/
def stringArgumentOr (default : String) (b : Builtin) (arguments : List Json) (place : Nat) :
    Except SessionError String :=
  match arguments[place]? with
  | none | some .null => .ok default
  | some _ => stringArgument b arguments place

/-- The arguments of a spell: an object, or nothing. -/
def spellArguments (arguments : List Json) : Except SessionError Object :=
  match (arguments[1]? : Option Json) with
  | none | some .null => .ok []
  | some (.object o) => .ok o
  | some other => .error (.invalidArgument Builtin.cast.name
      ("expected an object of arguments, got " ++ other.text))

/-- The world made from a design, named by the clock: of two made in one millisecond the second takes the place of
the first. -/
def manifestWorld (design : String) : Act Json := do
  let world : Source.World :=
    { name := "World_" ++ toString (← get).host.clock
      cosmology := [("description", .string design)] }
  return (← registerWorld world).toJson

def callBuiltin (b : Builtin) (arguments : List Json) : Attempt Json := do
  let config := (← get).config
  match b with
  | .cast =>
    let spell ← stringArgument b arguments 0
    cast spell (← spellArguments arguments)
  | .summon =>
    let guardian ← stringArgument b arguments 0
    summon guardian (← stringArgumentOr "" b arguments 1)
  | .transform =>
    let object := arguments.headD .null
    let transformation ← stringArgument b arguments 1
    let prompt := "Transform this object through magical means: " ++ object.text
      ++ ". Desired transformation: " ++ transformation
    payloadOrNull (.text (textRequest creativeProvider prompt 0.9 1200))
  | .envision =>
    let idea ← stringArgument b arguments 0
    match ← stringArgumentOr "text" b arguments 1 with
    | "image" => payloadOrNull (.image (imageRequest config idea "concept-art"))
    | _ =>
      payloadOrNull (.text (textRequest narrativeProvider ("Envision and describe: " ++ idea) 0.8 800))
  | .manifest =>
    let design ← stringArgument b arguments 0
    match ← stringArgumentOr "text" b arguments 1 with
    | "image" => payloadOrNull (.image (imageRequest config design "photorealistic"))
    | "world" => manifestWorld design
    | _ =>
      payloadOrNull
        (.text (textRequest creativeProvider ("Manifest into reality: " ++ design) 0.7 1500))

/-- Call the function that a name of the global scope stands for. -/
def callName (name : String) (arguments : List Json) : Attempt Json := do
  match ← (← get).environment.get Environment.globalScope name with
  | .builtin b => callBuiltin b arguments
  | .value _ => throw (.notCallable name)

/-- Cast through the handle of a spell; without the spell there is no handle. -/
def castThrough? (name : String) (arguments : Object) : Attempt (Option Json) := do
  if (← get).spells.contains name then return some (← cast name arguments) else return none

end Session

end Grimoire
