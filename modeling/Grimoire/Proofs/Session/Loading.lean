import Grimoire.Proofs.Session.Overlay
import Grimoire.Proofs.Session.Requests
import Grimoire.Proofs.Session.Traversal

/-!
# Loading the sources of a directory

Whether a source loads is settled by its content and the mode (`programOf?`), and one that fails changes
nothing (`tryLoad_run`). So a list of sources that are tried one after another (`Tries`) comes to the programs
among them, interpreted in order, and a directory to the programs under it in the order of the recursion
(`loadDirectory_traverses`).
-/
namespace Grimoire.Session.Library

open Source (Program Declaration)

/-! ## One source -/

/-- The program of a source, if it is text with tokens; nothing but the mode of the library matters. -/
def programOf? (l : Library) (source : String × ByteArray) : Option Program :=
  (FileTree.decode source.2).toOption.bind fun text => (Source.parseSource l.mode text).toOption

/-- The library after a program was loaded from a file. -/
def loading (l : Library) (path : String) (program : Program) : Library :=
  let summary := ((interpret program.declarations).run l.session).1
  { l.interpreting (some path) program with modules := l.modules.put (moduleKey path) ⟨program, summary⟩ }

variable {l : Library} {path text : String}

theorem loadText_ok {program : Program} (h : Source.parseSource l.mode text = .ok program) :
    (loadText path (.ok text)).run.run l =
      (.ok ((interpret program.declarations).run l.session).1, l.loading path program) := by
  have hread : (liftM (readable path (.ok text)) : Loading String).run.run l = (.ok text, l) := rfl
  rw [loadText, bind_ok hread, bind_ok (loadNamed_ok (some path) h)]
  rfl

theorem loadText_unread (fault : ReadFault) :
    (loadText path (.error fault)).run.run l = (.error (.unreadable path fault.message), l) := bind_error rfl

theorem loadText_unparsed {e : Source.LexError} (h : Source.parseSource l.mode text = .error e) :
    (loadText path (.ok text)).run.run l = (.error (.source e), l) := by
  have hread : (liftM (readable path (.ok text)) : Loading String).run.run l = (.ok text, l) := rfl
  rw [loadText, bind_ok hread, bind_error (loadNamed_error (some path) h)]

theorem tryLoad_eq (source : String × ByteArray) :
    (tryLoad source).run l =
      let (loaded, after) := (loadText source.1 (FileTree.decode source.2)).run.run l
      (loaded.isOk, after) := by
  show ((loadText source.1 (FileTree.decode source.2)).run >>= _ : StateM Library Bool).run l = _
  rw [StateT.run_bind]
  rcases (loadText source.1 (FileTree.decode source.2)).run.run l with ⟨_ | _, after⟩ <;> rfl

/-- **One source** loads if it has a program; otherwise nothing happens. -/
theorem tryLoad_run (l : Library) (source : String × ByteArray) :
    (tryLoad source).run l =
      match l.programOf? source with
      | some program => (true, l.loading source.1 program)
      | none => (false, l) := by
  obtain ⟨path, content⟩ := source
  rw [tryLoad_eq]
  dsimp only
  cases hdecode : FileTree.decode content with
  | error fault =>
    have hprogram : l.programOf? (path, content) = none := by simp [programOf?, hdecode, Except.toOption]
    rw [loadText_unread, hprogram]
    rfl
  | ok text =>
    cases hparse : Source.parseSource l.mode text with
    | error e =>
      have hprogram : l.programOf? (path, content) = none := by simp [programOf?, hdecode, hparse, Except.toOption]
      rw [loadText_unparsed hparse, hprogram]
      rfl
    | ok program =>
      have hprogram : l.programOf? (path, content) = some program := by
        simp [programOf?, hdecode, hparse, Except.toOption]
      rw [loadText_ok hparse, hprogram]
      rfl

/-! ## One source after another -/

/-- A source that was tried, with its program if it loaded. -/
structure Trial where
  source : String × ByteArray
  program? : Option Program

/-- Sources were tried one after another: each has loaded, or has failed and changed nothing. -/
inductive Tries : Library → List Trial → Library → Prop
  | done {l : Library} : Tries l [] l
  | loaded {l after : Library} {source : String × ByteArray} {program : Program} {trials : List Trial}
      (run : (tryLoad source).run l = (true, l.loading source.1 program))
      (others : Tries (l.loading source.1 program) trials after) : Tries l (⟨source, some program⟩ :: trials) after
  | failed {l after : Library} {source : String × ByteArray} {trials : List Trial}
      (run : (tryLoad source).run l = (false, l)) (others : Tries l trials after) :
      Tries l (⟨source, none⟩ :: trials) after

/-- The declarations of the programs that loaded, in order. -/
def declarationsOf (trials : List Trial) : List Declaration :=
  (trials.filterMap (·.program?)).flatMap (·.declarations)

/-- What comes of a source does not depend on what was loaded before. -/
def trialsOf (l : Library) (sources : List (String × ByteArray)) : List Trial :=
  sources.map fun source => ⟨source, l.programOf? source⟩

theorem lift_tryLoad_run (source : String × ByteArray) :
    (liftM (tryLoad source) : Loading Bool).run.run l = (.ok ((tryLoad source).run l).1, ((tryLoad source).run l).2) :=
  rfl

theorem mapM_tryLoad (l : Library) (sources : List (String × ByteArray)) :
    ∃ after, (sources.mapM fun source => (tryLoad source : Loading Bool)).run.run l =
        (.ok ((l.trialsOf sources).map (·.program?.isSome)), after) ∧
      Tries l (l.trialsOf sources) after := by
  induction sources generalizing l with
  | nil => exact ⟨l, rfl, .done⟩
  | cons source sources ih =>
    have hone := lift_tryLoad_run (l := l) source
    have hrun := tryLoad_run l source
    have htrials : l.trialsOf (source :: sources) = ⟨source, l.programOf? source⟩ :: l.trialsOf sources := rfl
    rw [List.mapM_cons, htrials]
    cases hprogram : l.programOf? source with
    | none =>
      rw [hprogram] at hrun
      rw [hrun] at hone
      obtain ⟨after, hothers, htries⟩ := ih l
      exact ⟨after, by rw [bind_ok hone, bind_ok hothers]; rfl, .failed hrun htries⟩
    | some program =>
      rw [hprogram] at hrun
      rw [hrun] at hone
      obtain ⟨after, hothers, htries⟩ := ih (l.loading source.1 program)
      exact ⟨after, by rw [bind_ok hone, bind_ok hothers]; rfl, .loaded hrun htries⟩

/-- What was loaded lies over all that was there. -/
theorem Tries.overlaid {before after : Library} {trials : List Trial} (h : Tries before trials after)
    {start : Session} {ds : List Declaration} (hover : start.Overlaid ds before.session) :
    start.Overlaid (ds ++ declarationsOf trials) after.session := by
  induction h generalizing ds with
  | done => rwa [declarationsOf, List.filterMap_nil, List.flatMap_nil, List.append_nil]
  | @loaded l after source program trials _ _ ih =>
    have hloaded : start.Overlaid (ds ++ program.declarations) (l.loading source.1 program).session :=
      (hover.interpret program.declarations).host _
    have hdeclarations : declarationsOf (⟨source, some program⟩ :: trials) =
        program.declarations ++ declarationsOf trials := rfl
    rw [hdeclarations, ← List.append_assoc]
    exact ih hloaded
  | failed _ _ ih => exact ih hover

theorem loadDirectory_run {path : String} {entries : List (String × FileTree)}
    (h : l.files.readDirectory path = .ok entries) :
    let trials := l.trialsOf (FileTree.pendingSources [(l.fullPath path, entries)])
    ∃ after, (loadDirectory path).run.run l = (.ok (trials.countP (·.program?.isSome)), after) ∧
      Tries l trials after := by
  obtain ⟨after, hrun, htries⟩ := mapM_tryLoad l (FileTree.pendingSources [(l.fullPath path, entries)])
  refine ⟨after, ?_, htries⟩
  have hget : (get : Loading Library).run.run l = (.ok l, l) := rfl
  have hread : (liftM (readable (l.fullPath path) (.ok entries)) : Loading (List (String × FileTree))).run.run l =
    (.ok entries, l) := rfl
  rw [loadDirectory, bind_ok hget, h, bind_ok hread, bind_ok hrun, run_ok, List.filter_map, List.length_map,
    List.countP_eq_length_filter]
  rfl

/-- What has come of a directory that a library has loaded: the sources tried, each with its program if it has
one, and the library after them. -/
structure Traversed (l : Library) (path : String) (entries : List (String × FileTree)) (trials : List Trial)
    (after : Library) : Prop where
  /-- The count is that of the sources that loaded. -/
  run : (loadDirectory path).run.run l = (.ok (trials.countP (·.program?.isSome)), after)
  order : FileTree.Traversal (l.fullPath path, entries) (trials.map (·.source))
  /-- The sources tried are the files with the extension, each of them once. -/
  sources : (trials.map (·.source)).Perm (FileTree.sourcesIn (l.fullPath path) entries)
  extension : ∀ source, source ∈ trials.map (·.source) ↔ FileTree.SourceUnder (l.fullPath path) entries source
  /-- No path is tried twice where no directory has a name twice, and then no other order is possible. -/
  once : FileTree.NamedIn entries → (trials.map (·.source.1)).Nodup ∧
    ∀ sources, FileTree.Traversal (l.fullPath path, entries) sources → sources = trials.map (·.source)
  /-- What comes of a source depends on its content and the mode alone. -/
  program : ∀ trial ∈ trials, trial.program? = l.programOf? trial.source
  tries : Tries l trials after

theorem loadDirectory_traversed {path : String} {entries : List (String × FileTree)}
    (h : l.files.readDirectory path = .ok entries) : ∃ trials after, Traversed l path entries trials after := by
  obtain ⟨after, hrun, htries⟩ := loadDirectory_run h
  let sources := FileTree.pendingSources [(l.fullPath path, entries)]
  have htrials : (l.trialsOf sources).map (·.source) = sources := by
    rw [trialsOf, List.map_map]
    exact List.map_id _
  have hpaths : (l.trialsOf sources).map (·.source.1) = sources.map (·.1) := by
    rw [trialsOf, List.map_map]
    rfl
  have horder : FileTree.Traversal (l.fullPath path, entries) sources := FileTree.pendingSources_traversal _
  have hperm : sources.Perm (FileTree.sourcesIn (l.fullPath path) entries) :=
    (FileTree.pendingSources_perm _).trans (by simp)
  refine ⟨l.trialsOf sources, after, hrun, htrials.symm ▸ horder, htrials.symm ▸ hperm, fun source => ?_,
    fun hnamed => ⟨?_, fun other hother => ?_⟩, fun trial htrial => ?_, htries⟩
  · rw [htrials, hperm.mem_iff]
    exact FileTree.mem_sourcesIn
  · rw [hpaths]
    exact (hperm.map _).nodup_iff.2 (FileTree.nodup_sourcesIn _ entries hnamed)
  · rw [htrials]
    exact hother.unique horder hnamed
  · obtain ⟨source, -, rfl⟩ := List.mem_map.1 htrial
    rfl

/-- The trials are those of their sources. -/
theorem Traversed.trials_eq {path : String} {entries : List (String × FileTree)} {trials : List Trial}
    {after : Library} (h : Traversed l path entries trials after) : trials = l.trialsOf (trials.map (·.source)) := by
  rw [trialsOf, List.map_map]
  refine (List.map_id _).symm.trans (List.map_congr_left fun trial htrial => ?_)
  exact congrArg (Trial.mk trial.source) (h.program trial htrial)

/-- **A directory is loaded as a recursion would load it**, whatever is in it. The sources that are tried are
the files with the extension under the directory, each once, in the order of the recursion; what comes of a
source depends on its content and the mode alone; one that fails changes nothing; the count is that of those
that loaded; and their declarations lie over what was there, so that of two of one kind and name the later
counts. The library is any whose session is well kept, as in every library that operations lead to from a new
one (`Reached.wellKept`). -/
theorem loadDirectory_traverses (l : Library) (hl : l.session.WellKept) {path : String}
    {entries : List (String × FileTree)} (h : l.files.readDirectory path = .ok entries) :
    ∃ trials after, Traversed l path entries trials after ∧
      l.session.Overlaid (declarationsOf trials) after.session := by
  obtain ⟨trials, after, htraversed⟩ := loadDirectory_traversed h
  exact ⟨trials, after, htraversed, htraversed.tries.overlaid (.refl hl)⟩

/-- Two spells of one name, a file that does not load between them in the order of the recursion, and a file that
is no source. -/
def shelf : List (String × FileTree) :=
  [("tales.arc", .file "@spell Gale\n  @implementation \"blow\"\n".toUTF8), ("notes.txt", .file "Gale".toUTF8),
   ("north", .directory
     [("wind.arc", .file "@spell Gale\n  @implementation \"howl\"\n".toUTF8),
      ("torn.arc", .file "@spell \"Gale".toUTF8)])]

def shelved : Library := { faltering with root := "shelf", files := .directory shelf }

/-- The sources of the shelf in their order. -/
def shelfSources : List (String × ByteArray) :=
  [("shelf/./tales.arc", "@spell Gale\n  @implementation \"blow\"\n".toUTF8),
   ("shelf/./north/torn.arc", "@spell \"Gale".toUTF8),
   ("shelf/./north/wind.arc", "@spell Gale\n  @implementation \"howl\"\n".toUTF8)]

theorem shelf_traversal : FileTree.Traversal (shelved.fullPath ".", shelf) shelfSources := by
  have hnorth : FileTree.Traversal ("shelf/./north",
      [("wind.arc", .file "@spell Gale\n  @implementation \"howl\"\n".toUTF8),
       ("torn.arc", .file "@spell \"Gale".toUTF8)]) (shelfSources.drop 1) :=
    .visit (List.reverse_perm _) (by decide) .nil
  exact .visit (List.reverse_perm shelf) (by decide) (.cons hnorth .nil)

theorem shelved_traverses : shelved.session.WellKept ∧ shelved.files.readDirectory "." = .ok shelf ∧
    ∃ trials after, Traversed shelved "." shelf trials after ∧
      shelved.session.Overlaid (declarationsOf trials) after.session ∧
      trials.map (·.source.1) = ["shelf/./tales.arc", "shelf/./north/torn.arc", "shelf/./north/wind.arc"] ∧
      trials.map (·.program?.isSome) = [true, false, true] ∧
      (loadDirectory ".").run.run shelved = (.ok 2, after) ∧
      (after.session.spells.get? "Gale").map (·.implementation) = some "howl" := by
  have hkept : shelved.session.WellKept := .new _ _
  have hread : shelved.files.readDirectory "." = .ok shelf := rfl
  have hnamed : FileTree.NamedIn shelf := by
    simp [shelf, FileTree.NamedIn, FileTree.Named, FileTree.IsName]
  obtain ⟨trials, after, h, hover⟩ := loadDirectory_traverses shelved hkept hread
  have hsources : trials.map (·.source) = shelfSources := ((h.once hnamed).2 _ shelf_traversal).symm
  have htrials : trials = shelved.trialsOf shelfSources := hsources ▸ h.trials_eq
  refine ⟨hkept, hread, trials, after, h, hover, ?_, ?_, ?_, ?_⟩
  · rw [htrials]
    rfl
  · rw [htrials]
    decide +kernel
  · have hcount : trials.countP (·.program?.isSome) = 2 := by
      rw [htrials]
      decide +kernel
    rw [h.run, hcount]
  · rw [hover.spells, htrials]
    decide +kernel

end Grimoire.Session.Library
