import Grimoire.Source.Codec
import Grimoire.Provider.Request

/-!
# Records of a session

Characters and worlds with what the provider added to them, one named slot for each addition, and the
casts that succeeded.

| here | there |
| --- | --- |
| `Enriched`   | `CharacterRecord`, `WorldRecord`; the slots are `CharacterEnrichment`, `WorldEnrichment` |
| `CastRecord` | `ExecutionRecord` |
| `Summary`    | `ExecutionSummary`, whose `success` is always true and whose `error` is always empty |
-/
namespace Grimoire.Session

/-- A declaration and its slots; a slot is empty when its call failed or was never made. -/
structure Enriched (α : Type) where
  declaration : α
  slots : List (String × Option Json)

abbrev CharacterRecord := Enriched Source.Character

abbrev WorldRecord := Enriched Source.World

/-- A cast that succeeded. -/
structure CastRecord where
  spell : String
  arguments : Object
  result : Json
  /-- Milliseconds. -/
  duration : Nat
  /-- When the cast ended, on the clock of the host. -/
  ended : Nat
  provider : String
  guardian : Option String

/-- The state after a program was interpreted; the counts include what earlier programs declared. -/
structure Summary where
  spells : Nat
  characters : Nat
  worlds : Nat
  history : List CastRecord

/-! ## Report forms -/

/-- The declaration's members with the slots behind them. -/
def Enriched.toJson {α : Type} (members : α → Object) (r : Enriched α) : Json :=
  .object
    (members r.declaration
      ++ [("enrichment", .object (r.slots.map fun (slot, value) => (slot, Json.ofOption value)))])

def CharacterRecord.toJson (r : CharacterRecord) : Json := Enriched.toJson Source.Character.members r

def WorldRecord.toJson (r : WorldRecord) : Json := Enriched.toJson Source.World.members r

def CastRecord.toJson (r : CastRecord) : Json :=
  .object
    [("entity_name", .string r.spell), ("args", .object r.arguments), ("result", r.result),
     ("duration_ms", Json.ofNat r.duration), ("provider_id", .string r.provider),
     ("guardian_id", Provider.optionText r.guardian)]

def Summary.toJson (s : Summary) : Json :=
  .object
    [("success", .bool true), ("spells_registered", Json.ofNat s.spells),
     ("characters_created", Json.ofNat s.characters), ("worlds_built", Json.ofNat s.worlds),
     ("history", .array (s.history.map (·.toJson))), ("error", .null)]

end Grimoire.Session
