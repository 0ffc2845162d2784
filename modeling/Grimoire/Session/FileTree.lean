import Grimoire.Text.Basic

/-!
# Trees of files

The files a session can load, as a tree in memory: files are bytes, directories hold named entries in
any order. Paths are texts with slashes; an empty part or a dot stays where it is, two dots lead to
the directory above. `sources` lists the sources under a directory in the order in which they are
loaded: the files of a directory by name, then each of its directories by name.

| here | there |
| --- | --- |
| `FileTree`, `readText`         | the files of the host and `read_to_string` |
| `readDirectory`, `inNameOrder` | `read_dir_sorted` |
| `isSource`                     | the test of the extension in `Runtime::load_directory` |
| `pendingSources`               | the loop of `Runtime::load_directory`, its stack as a list |

Links, rights and files that change while they are read are left out.
-/
namespace Grimoire.Session

inductive FileTree
  | file (content : ByteArray)
  | directory (entries : List (String × FileTree))

/-- Why a path cannot be read. -/
inductive ReadFault
  | notFound | isDirectory | notDirectory | notText
deriving DecidableEq, Repr

def ReadFault.message : ReadFault → String
  | notFound => "No such file or directory (os error 2)"
  | isDirectory => "Is a directory (os error 21)"
  | notDirectory => "Not a directory (os error 20)"
  | notText => "stream did not contain valid UTF-8"

namespace FileTree

/-! ## Building -/

/-- Put an entry under a name, in the place of an older one. -/
def setEntry (name : String) (t : FileTree) : List (String × FileTree) → List (String × FileTree)
  | [] => [(name, t)]
  | (n, u) :: rest => if n == name then (n, t) :: rest else (n, u) :: setEntry name t rest

/-- Put a tree at the end of a path; directories on the way are made. -/
def place (t : FileTree) : List String → FileTree → FileTree
  | [], _ => t
  | name :: path, directory entries =>
    let old := ((entries.find? (·.1 == name)).map (·.2)).getD (directory [])
    directory (setEntry name (place t path old) entries)
  | name :: path, file _ => directory [(name, place t path (directory []))]

/-! ## Paths -/

/-- The parts of a path. -/
def parts (path : String) : List String := (Text.split '/' path.toList).map String.ofList

/-- A path without parts that stay where they are. -/
def plainParts (path : String) : List String := (parts path).filter fun p => p != "" && p != "."

/-- The path of an entry of a directory. -/
def joinPath (directory name : String) : String :=
  if directory.toList.getLast? = some '/' then directory ++ name else directory ++ "/" ++ name

/-- Follow the parts of a path; `above` holds the directories around the tree, the nearest first. -/
def follow (above : List FileTree) (t : FileTree) : List String → Except ReadFault FileTree
  | [] => .ok t
  | part :: path =>
    match t with
    | file _ => .error .notDirectory
    | directory entries =>
      if part = "" ∨ part = "." then follow above t path
      else if part = ".." then
        match above with
        | up :: above => follow above up path
        | [] => .error .notFound
      else
        match entries.find? (·.1 == part) with
        | some (_, u) => follow (t :: above) u path
        | none => .error .notFound

def isAbsolute (path : String) : Bool := path.toList.head? == some '/'

/-- The tree at a path; an absolute path leads out of the tree. -/
def find (t : FileTree) (path : String) : Except ReadFault FileTree :=
  if isAbsolute path then .error .notFound else t.follow [] (parts path)

/-- Bytes as text. -/
def decode (content : ByteArray) : Except ReadFault String :=
  match String.fromUTF8? content with
  | some s => .ok s
  | none => .error .notText

/-- The text of the file at a path. -/
def readText (t : FileTree) (path : String) : Except ReadFault String := do
  match ← t.find path with
  | file content => decode content
  | directory _ => .error .isDirectory

/-- The entries of the directory at a path. -/
def readDirectory (t : FileTree) (path : String) : Except ReadFault (List (String × FileTree)) := do
  match ← t.find path with
  | directory entries => return entries
  | file _ => .error .notDirectory

/-! ## Traversal -/

/-- What follows the last point of a name, unless that point comes first. -/
def extension? (name : String) : Option String :=
  match Text.splitOnce '.' name.toList.reverse with
  | some (extension, _ :: _) => some (String.ofList extension.reverse)
  | _ => none

def isSource (name : String) : Bool := extension? name == some "arc"

def inNameOrder (entries : List (String × FileTree)) : List (String × FileTree) :=
  entries.mergeSort fun a b => a.1 ≤ b.1

/-- The sources among the entries of a directory, with their paths. -/
def sourcesAmong (path : String) (entries : List (String × FileTree)) : List (String × ByteArray) :=
  entries.filterMap fun (name, t) =>
    match t with
    | file content => if isSource name then some (joinPath path name, content) else none
    | directory _ => none

/-- A directory with its path. -/
abbrev Folder := String × List (String × FileTree)

/-- The directories among the entries of a directory. -/
def foldersAmong (path : String) (entries : List (String × FileTree)) : List Folder :=
  entries.filterMap fun (name, t) =>
    match t with
    | file _ => none
    | directory inner => some (joinPath path name, inner)

mutual

/-- How many directories the tree holds, itself included. -/
def folders : FileTree → Nat
  | file _ => 0
  | directory entries => 1 + foldersIn entries
termination_by structural t => t

def foldersIn : List (String × FileTree) → Nat
  | [] => 0
  | (_, t) :: rest => folders t + foldersIn rest
termination_by structural entries => entries

end

/-- How many directories are still to be visited. -/
def pendingFolders (pending : List Folder) : Nat := (pending.map fun f => 1 + foldersIn f.2).foldr (· + ·) 0

theorem pendingFolders_cons (f : Folder) (pending : List Folder) :
    pendingFolders (f :: pending) = 1 + foldersIn f.2 + pendingFolders pending := rfl

theorem pendingFolders_append (pending more : List Folder) :
    pendingFolders (pending ++ more) = pendingFolders pending + pendingFolders more := by
  induction pending with
  | nil => exact (Nat.zero_add _).symm
  | cons f pending ih =>
    rw [List.cons_append, pendingFolders_cons, pendingFolders_cons, ih]
    omega

theorem foldersIn_inNameOrder (entries : List (String × FileTree)) :
    foldersIn (inNameOrder entries) = foldersIn entries := by
  have hsum (es : List (String × FileTree)) : foldersIn es = (es.map fun e => e.2.folders).sum := by
    induction es with
    | nil => simp [foldersIn]
    | cons e rest ih => obtain ⟨n, t⟩ := e; simp [foldersIn, ih]
  rw [hsum, hsum]
  exact (List.Perm.map _ (List.mergeSort_perm _ _)).sum_nat

theorem pendingFolders_foldersAmong (path : String) (entries : List (String × FileTree)) :
    pendingFolders (foldersAmong path entries) = foldersIn entries := by
  induction entries with
  | nil => rfl
  | cons e rest ih =>
    obtain ⟨n, t⟩ := e
    cases t with
    | file c => simpa [foldersAmong, foldersIn, folders] using ih
    | directory es =>
      simp only [foldersAmong, List.filterMap_cons, pendingFolders_cons, foldersIn, folders] at ih ⊢
      omega

/-- The sources of the pending directories: the first directory's own, then those of its directories
before those of the others. -/
def pendingSources (pending : List Folder) : List (String × ByteArray) :=
  match pending with
  | [] => []
  | (path, entries) :: rest =>
    sourcesAmong path (inNameOrder entries)
      ++ pendingSources (foldersAmong path (inNameOrder entries) ++ rest)
termination_by pendingFolders pending
decreasing_by
  have h : pendingFolders (foldersAmong path (inNameOrder entries) ++ rest)
      = foldersIn entries + pendingFolders rest := by
    rw [← foldersIn_inNameOrder entries, ← pendingFolders_foldersAmong path, pendingFolders_append]
  simp only [h, pendingFolders_cons]
  omega

end FileTree

end Grimoire.Session
