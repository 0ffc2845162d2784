import Grimoire.Source.Token
import Grimoire.Source.Lexer
import Grimoire.Provider.Request

/-!
# Failures of a session

Names that are not known, arguments that do not fit, sources that cannot be read, and failures of the
provider.

`SessionError` is `InterpreterError`, and `SessionError.message` its `Display`.
-/
namespace Grimoire.Session

inductive SessionError
  | undefinedVariable (name : String)
  | unknownSpell (name : String)
  | unknownGuardian (name : String)
  | notCallable (name : String)
  | invalidArgument (builtin reason : String)
  /-- A file or directory could not be read. -/
  | unreadable (path reason : String)
  | source (e : Source.LexError)
  | provider (e : Provider.ProviderError)

def SessionError.message : SessionError → String
  | undefinedVariable name => "Undefined variable: " ++ name
  | unknownSpell name => "Unknown spell: " ++ name
  | unknownGuardian name => "Unknown guardian: " ++ name
  | notCallable name => name ++ " is not callable"
  | invalidArgument builtin reason => "Invalid argument for " ++ builtin ++ ": " ++ reason
  | unreadable path reason => "Failed to read " ++ path ++ ": " ++ reason
  | source e => "Lex error: " ++ e.message
  | provider e => "Capability error: " ++ e.message

end Grimoire.Session
