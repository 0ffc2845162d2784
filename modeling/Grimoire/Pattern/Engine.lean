import Grimoire.Pattern.Machine
import Grimoire.Trigger.Regex

/-!
# The engine of this library

One engine for the patterns of triggers: it reads the notation of `Pattern.parse?` and searches with
`Pattern.find?`. It knows the scripts of its tables and no others, bounds the size of a pattern by `maxCost`, and
gives one reason for all that it does not read. What is proved of patterns holds of every engine; the running
program takes this one, and so do statements about one run of a trigger.

It takes the place of `RegexBuilder` there; the limits, the tables and the messages of that one are not rendered.
-/
namespace Grimoire

open Trigger

/-- A pattern as triggers use it. -/
def Pattern.toRegex (p : Pattern) : Regex where
  isMatch text := p.isMatch text
  captures? text := (p.find? text).map fun m => { text := m.text, groups := m.groups }

instance Pattern.engine : RegexEngine where
  compile ignoreCase pattern :=
    match Pattern.compile? ignoreCase pattern with
    | some p => .ok p.toRegex
    | none => .error "not a pattern"

end Grimoire
