import Grimoire.Session.Basic
import Grimoire.Session.FileTree
import Grimoire.Source.Parser

/-!
# Libraries

A library loads sources into a session: from text, from a file, or from all sources under a directory,
where a source that does not load is passed over. Each file that was loaded is kept as a module under
its path.

| here | there |
| --- | --- |
| `Library`, `Module`        | `Runtime`, `LoadedModule` |
| `loadNamed`, `loadSource`  | `Runtime::load_named`, `Runtime::load_source` |
| `loadText`, `loadFile`     | `Runtime::load_file` |
| `tryLoad`, `loadDirectory` | `Runtime::load_directory` |
| `module?`                  | `Runtime::module` |

The instant at which a module was loaded is left out; nothing reads it.
-/
namespace Grimoire.Session

/-- A file that was loaded, with what it produced. -/
structure Module where
  program : Source.Program
  summary : Summary

structure Library where
  session : Session
  mode : Source.LexMode := .lenient
  /-- The path of the tree of files. -/
  root : String
  files : FileTree
  modules : Registry Module := .empty

namespace Library

/-- What a library does and may fail at. -/
abbrev Loading := ExceptT SessionError (StateM Library)

/-- Act on the session. -/
def inSession {α : Type} (act : Act α) : StateM Library α := modifyGet fun l =>
  let (a, session) := act l.session
  (a, { l with session })

/-- Act on the session while loading. -/
def perform {α : Type} (act : Act α) : Loading α := ExceptT.lift (inSession act)

/-- Act on the session, where the act may fail. -/
def attempt {α : Type} (act : Attempt α) : Loading α := ExceptT.mk (inSession act.run)

/-- Interpret a source; only a source without tokens fails. -/
def loadNamed (path? : Option String) (source : String) : Loading Module := do
  match Source.parseSource (← get).mode source with
  | .error e => throw (.source e)
  | .ok program =>
    let summary ← perform (interpret program.declarations)
    perform (announce (.sourceLoaded path? program.declarations.length program.errors.length))
    return ⟨program, summary⟩

def loadSource (source : String) : Loading Summary := do return (← loadNamed none source).summary

/-- Two paths with the same key lead to the same module. -/
def moduleKey (path : String) : String := "/".intercalate (FileTree.plainParts path)

def readable {α : Type} (path : String) (r : Except ReadFault α) : Except SessionError α :=
  r.mapError fun fault => .unreadable path fault.message

/-- Load the text of a file and keep it as a module. -/
def loadText (path : String) (text : Except ReadFault String) : Loading Summary := do
  let loaded ← loadNamed (some path) (← readable path text)
  modify fun l => { l with modules := l.modules.put (moduleKey path) loaded }
  return loaded.summary

/-- The path of a place in the tree of files, which begins at the root; a path that begins with a
slash leads out of the tree. -/
def fullPath (l : Library) (path : String) : String :=
  if FileTree.isAbsolute path then path else FileTree.joinPath l.root path

def loadFile (path : String) : Loading Summary := do
  let l ← get
  loadText (l.fullPath path) (l.files.readText path)

/-- Load a source; whether it loaded. -/
def tryLoad (source : String × ByteArray) : StateM Library Bool := do
  match ← (loadText source.1 (FileTree.decode source.2)).run with
  | .ok _ => return true
  | .error _ => return false

/-- Load all sources under a directory; how many loaded. -/
def loadDirectory (path : String) : Loading Nat := do
  let l ← get
  let entries ← readable (l.fullPath path) (l.files.readDirectory path)
  let outcomes ← (FileTree.pendingSources [(l.fullPath path, entries)]).mapM fun s => tryLoad s
  return (outcomes.filter id).length

/-- The module loaded from a path. -/
def module? (l : Library) (path : String) : Option Module :=
  l.modules.get? (moduleKey (l.fullPath path))

end Library

end Grimoire.Session
