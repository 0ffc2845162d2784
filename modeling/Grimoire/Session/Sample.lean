/-!
# Sample sources

A source with every kind of declaration, and one with a broken declaration between two good ones.

`sampleSource` is `SAMPLE_LIBRARY`, and `malformedSource` is `MALFORMED_LIBRARY`.
-/
namespace Grimoire.Session

def ofLines (lines : List String) : String := "\n".intercalate lines ++ "\n"

def sampleSource : String := ofLines
  ["# Sample library",
   "@archetype Mentor :: \"Guides the hero across the threshold\"",
   "",
   "@spell Ignite",
   "  @description \"Kindle a creative spark\"",
   "  @archetypes [creative, fire]",
   "  @parameters \x7b\"element\": \"fire\", \"intensity\": 3\x7d",
   "  @example \"cast Ignite with element=storm\"",
   "  @implementation \"Summon $\x7belement\x7d at intensity $\x7bintensity\x7d\"",
   "",
   "@spell Chronicle",
   "  @archetypes [narrative]",
   "  @implementation \"Write the chronicle of $\x7bsubject\x7d\"",
   "",
   "@character Seraphine",
   "  @archetype \"Mentor\"",
   "  @elements [water, earth]",
   "  @data \x7b\"age\": 312, \"title\": \"Keeper of Tides\"\x7d",
   "  @backstory \"Once a river spirit.\"",
   "  @relationships [\x7b\"name\": \"Kael\", \"bond\": \"student\"\x7d]",
   "  @arc_spells [",
   "    @spell Tidecall",
   "      @implementation \"Call the tide for $\x7breason\x7d\"",
   "  ]",
   "",
   "@world Emberfall",
   "  @cosmology \x7b\"suns\": 2, \"moons\": [\"Ash\", \"Cinder\"]\x7d",
   "  @geography \x7b\"regions\": [\"Glass Desert\"]\x7d",
   "  @cultures [\x7b\"name\": \"Flamewardens\"\x7d]",
   "  @history [\"The Kindling\", \"The Long Dusk\"]"]

def malformedSource : String := ofLines
  ["@spell First",
   "  @implementation \"one\"",
   "@spell Broken",
   "  @description \"has no implementation\"",
   "@character Wren",
   "  @data \x7bnot json\x7d"]

end Grimoire.Session
