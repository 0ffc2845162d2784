/-!
# Engines for patterns

What triggers need of an engine for patterns: it reads the text of a pattern, in its own case or in any, or says
why it cannot; a pattern that was read tells whether it matches a text, and what it captures there. Which patterns
there are, and what they match, is left to the engine.

`Regex` is what `FieldCondition` and `Matcher` use of a compiled pattern: `is_match` and `captures`.
`RegexEngine.compile` is `RegexBuilder` with its `case_insensitive`, and the reason is the text of its error.
-/
namespace Grimoire.Trigger

/-- What a pattern captures in a text: the part that it matches, and the text of each named group that took part. -/
structure Captures where
  text : String
  groups : List (String × String)

/-- A pattern that was read. -/
structure Regex where
  isMatch : String → Bool
  captures? : String → Option Captures

/-- An engine reads the text of a pattern, or gives the reason why it is none. -/
class RegexEngine where
  compile (ignoreCase : Bool) (pattern : String) : Except String Regex

end Grimoire.Trigger
