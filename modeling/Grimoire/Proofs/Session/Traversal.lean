import Grimoire.Session.FileTree
import Grimoire.Proofs.Text.Splitting
import Mathlib.Data.List.Flatten
import Mathlib.Data.List.Nodup
import Mathlib.Data.List.Perm.Basic
import Mathlib.Data.String.Basic

/-!
# Trees of files, directory by directory

The directories that are still to be visited lie on a stack. `Traversal` is the recursion that the stack
stands for: the sources of a directory, in name order, and after them all that is under each of its
directories. The stack visits what the recursion visits, in the same order (`pendingSources_traversals`),
and so every source of the tree once (`pendingSources_perm`), under a path of its own (`nodup_sourcesIn`).
Where no directory has a name twice the recursion has one order (`Traversal.unique`).
-/
namespace Grimoire.Session.FileTree

open scoped List

/-! ## The recursion -/

mutual

/-- The recursion over a directory: its own sources in name order, then all that is under its directories,
again in name order. -/
inductive Traversal : Folder → List (String × ByteArray) → Prop
  | visit {path : String} {entries ordered : List (String × FileTree)} {below : List (String × ByteArray)}
      (same : ordered.Perm entries) (byName : ordered.Pairwise fun a b => a.1 ≤ b.1)
      (directories : Traversals (foldersAmong path ordered) below) :
      Traversal (path, entries) (sourcesAmong path ordered ++ below)

/-- The recursion over directories, one after another. -/
inductive Traversals : List Folder → List (String × ByteArray) → Prop
  | nil : Traversals [] []
  | cons {f : Folder} {folders : List Folder} {under below : List (String × ByteArray)} (first : Traversal f under)
      (others : Traversals folders below) : Traversals (f :: folders) (under ++ below)

end

mutual

/-- All sources under a directory, with their paths. -/
def sourcesIn (path : String) : List (String × FileTree) → List (String × ByteArray)
  | [] => []
  | (name, t) :: entries => sourcesOf path name t ++ sourcesIn path entries
termination_by structural entries => entries

/-- All sources of an entry of a directory. -/
def sourcesOf (path name : String) : FileTree → List (String × ByteArray)
  | file content => if isSource name then [(joinPath path name, content)] else []
  | directory entries => sourcesIn (joinPath path name) entries
termination_by structural t => t

end

/-- The files under a directory whose names end in `.arc`, with something before it. -/
inductive SourceUnder : String → List (String × FileTree) → String × ByteArray → Prop
  | here {path stem : String} {content : ByteArray} {entries : List (String × FileTree)} (something : stem ≠ "")
      (entry : (stem ++ ".arc", file content) ∈ entries) :
      SourceUnder path entries (joinPath path (stem ++ ".arc"), content)
  | inside {path name : String} {inner entries : List (String × FileTree)} {source : String × ByteArray}
      (entry : (name, directory inner) ∈ entries) (under : SourceUnder (joinPath path name) inner source) :
      SourceUnder path entries source

/-! ## Names -/

/-- An extension follows the last point of a name, and something comes before that point. -/
theorem extension?_eq_some {name extension : String} : extension? name = some extension ↔
    '.' ∉ extension.toList ∧ ∃ stem : String, stem ≠ "" ∧ name = stem ++ "." ++ extension := by
  -- The name is split from its end.
  have hreverse (stem : String) : name = stem ++ "." ++ extension ↔
      name.toList.reverse = extension.toList.reverse ++ '.' :: stem.toList.reverse := by
    rw [← String.toList_inj, List.reverse_eq_iff]
    simp
  unfold extension?
  constructor
  · intro h
    split at h
    · next back c front hsplit =>
      obtain ⟨hname, hpoint⟩ := Text.splitOnce_eq_some.1 hsplit
      obtain rfl := Option.some.inj h
      refine ⟨by simpa using hpoint, String.ofList (c :: front).reverse, by simp, (hreverse _).2 ?_⟩
      simpa using hname
    · cases h
  · rintro ⟨hpoint, stem, hstem, hname⟩
    have hsplit : Text.splitOnce '.' name.toList.reverse =
        some (extension.toList.reverse, stem.toList.reverse) :=
      Text.splitOnce_eq_some.2 ⟨(hreverse stem).1 hname, by simpa using hpoint⟩
    rw [hsplit]
    cases hfront : stem.toList.reverse with
    | nil => exact absurd (by simpa using hfront) hstem
    | cons c front => simp

/-- A source is a file whose name ends in the extension, with something before it. -/
theorem isSource_iff {name : String} : isSource name = true ↔ ∃ stem : String, stem ≠ "" ∧ name = stem ++ ".arc" := by
  rw [isSource, beq_iff_eq, extension?_eq_some]
  simp [String.append_assoc]

theorem SourceUnder.mono {path : String} {entries more : List (String × FileTree)} {source : String × ByteArray}
    (h : SourceUnder path entries source) (sub : entries ⊆ more) : SourceUnder path more source := by
  cases h with
  | here something entry => exact .here something (sub entry)
  | inside entry under => exact .inside (sub entry) under

mutual

theorem sourceUnder_of_mem (path : String) (source : String × ByteArray) : ∀ entries : List (String × FileTree),
    source ∈ sourcesIn path entries → SourceUnder path entries source
  | [], h => by cases h
  | (name, t) :: entries, h => by
    rw [sourcesIn, List.mem_append] at h
    rcases h with h | h
    · exact sourceUnder_of_mem_entry path name source t h
    · exact (sourceUnder_of_mem path source entries h).mono (List.subset_cons_self ..)

theorem sourceUnder_of_mem_entry {entries : List (String × FileTree)} (path name : String) (source : String × ByteArray) :
    ∀ t : FileTree, source ∈ sourcesOf path name t → SourceUnder path ((name, t) :: entries) source
  | file content, h => by
    rw [sourcesOf] at h
    split at h
    · next hsource =>
      obtain rfl := List.mem_singleton.1 h
      obtain ⟨stem, hstem, rfl⟩ := isSource_iff.1 hsource
      exact .here hstem List.mem_cons_self
    · cases h
  | directory inner, h => by
    rw [sourcesOf] at h
    exact .inside List.mem_cons_self (sourceUnder_of_mem _ source inner h)

end

theorem mem_sourcesIn_of_entry {path name : String} {t : FileTree} {entries : List (String × FileTree)}
    {source : String × ByteArray} (entry : (name, t) ∈ entries) (h : source ∈ sourcesOf path name t) :
    source ∈ sourcesIn path entries := by
  induction entries with
  | nil => cases entry
  | cons e entries ih =>
    rw [sourcesIn, List.mem_append]
    rcases List.mem_cons.1 entry with rfl | entry
    · exact .inl h
    · exact .inr (ih entry)

/-- **The sources under a directory** are the files with the extension. -/
theorem mem_sourcesIn {path : String} {entries : List (String × FileTree)} {source : String × ByteArray} :
    source ∈ sourcesIn path entries ↔ SourceUnder path entries source := by
  refine ⟨sourceUnder_of_mem path source entries, fun h => ?_⟩
  induction h with
  | @here path stem content entries something entry =>
    refine mem_sourcesIn_of_entry entry ?_
    rw [sourcesOf, if_pos (isSource_iff.2 ⟨stem, something, rfl⟩)]
    exact List.mem_singleton_self _
  | inside entry under ih =>
    refine mem_sourcesIn_of_entry entry ?_
    rw [sourcesOf]
    exact ih

theorem inNameOrder_perm (entries : List (String × FileTree)) : (inNameOrder entries).Perm entries :=
  List.mergeSort_perm ..

theorem inNameOrder_sorted (entries : List (String × FileTree)) :
    (inNameOrder entries).Pairwise fun a b => a.1 ≤ b.1 := by
  have htrans (a b c : String × FileTree) (hab : decide (a.1 ≤ b.1) = true) (hbc : decide (b.1 ≤ c.1) = true) :
      decide (a.1 ≤ c.1) = true := by
    simpa using String.le_trans (by simpa using hab) (by simpa using hbc)
  have htotal (a b : String × FileTree) : (decide (a.1 ≤ b.1) || decide (b.1 ≤ a.1)) = true := by
    simpa using String.le_total a.1 b.1
  simpa [inNameOrder] using List.pairwise_mergeSort htrans htotal entries

/-! ## The stack -/

theorem Traversals.split {folders more : List Folder} {sources : List (String × ByteArray)}
    (h : Traversals (folders ++ more) sources) :
    ∃ under below, sources = under ++ below ∧ Traversals folders under ∧ Traversals more below := by
  induction folders generalizing sources with
  | nil => exact ⟨[], sources, rfl, .nil, h⟩
  | cons f folders ih =>
    cases h with
    | @cons _ _ first _ hfirst hothers =>
      obtain ⟨under, below, rfl, hunder, hbelow⟩ := ih hothers
      exact ⟨first ++ under, below, (List.append_assoc ..).symm, .cons hfirst hunder, hbelow⟩

/-- **The stack of pending directories** goes through them as the recursion does. -/
theorem pendingSources_traversals (pending : List Folder) : Traversals pending (pendingSources pending) := by
  fun_induction pendingSources pending with
  | case1 => exact .nil
  | case2 path entries rest ih =>
    obtain ⟨under, below, hsplit, hunder, hbelow⟩ := ih.split
    rw [hsplit, ← List.append_assoc]
    exact .cons (.visit (inNameOrder_perm entries) (inNameOrder_sorted entries) hunder) hbelow

/-- From one directory the stack goes as the recursion does from there. -/
theorem pendingSources_traversal (f : Folder) : Traversal f (pendingSources [f]) := by
  have hstack := pendingSources_traversals [f]
  generalize pendingSources [f] = sources at hstack ⊢
  cases hstack with
  | cons first others =>
    cases others
    rwa [List.append_nil]

theorem sourcesIn_perm (path : String) (entries : List (String × FileTree)) : (sourcesIn path entries).Perm
    (sourcesAmong path entries ++ (foldersAmong path entries).flatMap fun f => sourcesIn f.1 f.2) := by
  induction entries with
  | nil => exact .nil
  | cons e entries ih =>
    obtain ⟨name, t⟩ := e
    cases t with
    | file content =>
      by_cases hsource : isSource name = true
      · simpa [sourcesIn, sourcesOf, sourcesAmong, foldersAmong, hsource] using ih
      · simpa [sourcesIn, sourcesOf, sourcesAmong, foldersAmong, hsource] using ih
    | directory inner =>
      have hfolders : foldersAmong path ((name, directory inner) :: entries) =
          (joinPath path name, inner) :: foldersAmong path entries := rfl
      have hsources : sourcesAmong path ((name, directory inner) :: entries) = sourcesAmong path entries := rfl
      rw [hfolders, hsources, List.flatMap_cons, sourcesIn, sourcesOf]
      -- The sources of the entries come before those of the directories.
      exact (ih.append_left _).trans (List.perm_append_comm_assoc ..)

/-- Every source comes once. -/
theorem pendingSources_perm (pending : List Folder) :
    (pendingSources pending).Perm (pending.flatMap fun f => sourcesIn f.1 f.2) := by
  fun_induction pendingSources pending with
  | case1 => exact .nil
  | case2 path entries rest ih =>
    have hordered := inNameOrder_perm entries
    have hown : (sourcesAmong path (inNameOrder entries)).Perm (sourcesAmong path entries) := hordered.filterMap _
    have hfolders : (foldersAmong path (inNameOrder entries)).Perm (foldersAmong path entries) := hordered.filterMap _
    rw [List.flatMap_append] at ih
    rw [List.flatMap_cons]
    calc sourcesAmong path (inNameOrder entries) ++ pendingSources (foldersAmong path (inNameOrder entries) ++ rest)
      _ ~ sourcesAmong path entries ++ ((foldersAmong path (inNameOrder entries)).flatMap (fun f => sourcesIn f.1 f.2) ++
            rest.flatMap fun f => sourcesIn f.1 f.2) := hown.append ih
      _ ~ sourcesAmong path entries ++ ((foldersAmong path entries).flatMap (fun f => sourcesIn f.1 f.2) ++
            rest.flatMap fun f => sourcesIn f.1 f.2) := ((hfolders.flatMap_right _).append_right _).append_left _
      _ ~ sourcesIn path entries ++ rest.flatMap fun f => sourcesIn f.1 f.2 := by
        rw [← List.append_assoc]
        exact (sourcesIn_perm path entries).symm.append_right _

/-! ## Paths -/

/-- A name in a directory. -/
def IsName (name : String) : Prop := name ≠ "" ∧ '/' ∉ name.toList

mutual

/-- In each directory every name is there once. -/
def Named : FileTree → Prop
  | file _ => True
  | directory entries => NamedIn entries
termination_by structural t => t

def NamedIn : List (String × FileTree) → Prop
  | [] => True
  | (name, t) :: entries => IsName name ∧ name ∉ entries.map (·.1) ∧ Named t ∧ NamedIn entries
termination_by structural entries => entries

end

/-- The path of a place that lies at a name in a directory or below it. -/
def Below (path name place : String) : Prop :=
  ∃ rest, place.toList = (joinPath path name).toList ++ rest ∧ (rest = [] ∨ rest.head? = some '/')

theorem joinPath_eq (path : String) : ∃ base : List Char, ∀ name, (joinPath path name).toList = base ++ name.toList := by
  unfold joinPath
  by_cases h : path.toList.getLast? = some '/'
  · exact ⟨path.toList, fun name => by rw [if_pos h, String.toList_append]⟩
  · exact ⟨path.toList ++ ['/'], fun name => by rw [if_neg h, String.toList_append, String.toList_append]; rfl⟩

theorem Below.self (path name : String) : Below path name (joinPath path name) := ⟨[], by simp, .inl rfl⟩

section
variable {path name other place : String}

/-- What lies below a name that is inside a directory lies below that directory. -/
theorem Below.outward (hname : IsName name) (h : Below (joinPath path name) other place) : Below path name place := by
  obtain ⟨rest, hplace, -⟩ := h
  obtain ⟨base, hbase⟩ := joinPath_eq path
  have hlast : (joinPath path name).toList.getLast? ≠ some '/' := by
    rw [hbase, List.getLast?_append_of_ne_nil _ (by simpa using hname.1)]
    exact fun h => hname.2 (List.mem_of_getLast? h)
  refine ⟨'/' :: (other.toList ++ rest), ?_, .inr rfl⟩
  rw [hplace, joinPath, if_neg hlast, String.toList_append, String.toList_append]
  simp

/-- No place lies below two names. -/
theorem Below.unique (hname : IsName name) (hother : IsName other) (h : Below path name place)
    (h' : Below path other place) : name = other := by
  obtain ⟨base, hbase⟩ := joinPath_eq path
  -- A name ends where the path goes on with a slash, or ends.
  have upTo {n : String} (hn : IsName n) {rest : List Char} (hrest : rest = [] ∨ rest.head? = some '/') :
      (n.toList ++ rest).takeWhile (· != '/') = n.toList := by
    have hfree : ∀ c ∈ n.toList, (c != '/') = true := fun c hc => by simpa using ne_of_mem_of_not_mem hc hn.2
    have hstop : rest.takeWhile (· != '/') = [] := by
      rcases hrest with rfl | hrest
      · rfl
      · obtain ⟨tail, rfl⟩ := List.head?_eq_some_iff.1 hrest
        rfl
    rw [List.takeWhile_append_of_pos hfree, hstop, List.append_nil]
  obtain ⟨rest, hplace, hrest⟩ := h
  obtain ⟨rest', hplace', hrest'⟩ := h'
  have hsame : name.toList ++ rest = other.toList ++ rest' := by
    rw [hbase, List.append_assoc] at hplace hplace'
    exact List.append_cancel_left (hplace.symm.trans hplace')
  rw [← String.toList_inj, ← upTo hname hrest, hsame, upTo hother hrest']

end

mutual

theorem below_of_mem_sourcesOf {path name : String} (hname : IsName name) :
    ∀ t : FileTree, Named t → ∀ source ∈ sourcesOf path name t, Below path name source.1
  | file content, _, source, hsource => by
    rw [sourcesOf] at hsource
    split at hsource
    · obtain rfl := List.mem_singleton.1 hsource
      exact .self path name
    · cases hsource
  | directory entries, h, source, hsource => by
    rw [sourcesOf] at hsource
    obtain ⟨other, -, -, hbelow⟩ := below_of_mem_sourcesIn entries h source hsource
    exact hbelow.outward hname

theorem below_of_mem_sourcesIn {path : String} : ∀ entries : List (String × FileTree), NamedIn entries →
    ∀ source ∈ sourcesIn path entries, ∃ name ∈ entries.map (·.1), IsName name ∧ Below path name source.1
  | [], _, _, hsource => by cases hsource
  | (name, t) :: entries, h, source, hsource => by
    obtain ⟨hname, -, ht, hentries⟩ := h
    rw [sourcesIn, List.mem_append] at hsource
    rcases hsource with hsource | hsource
    · exact ⟨name, by simp, hname, below_of_mem_sourcesOf hname t ht source hsource⟩
    · obtain ⟨other, hother, hisName, hbelow⟩ := below_of_mem_sourcesIn entries hentries source hsource
      exact ⟨other, List.mem_cons_of_mem _ hother, hisName, hbelow⟩

end

mutual

theorem nodup_sourcesOf (path name : String) : ∀ t : FileTree, Named t → ((sourcesOf path name t).map (·.1)).Nodup
  | file content, _ => by
    rw [sourcesOf]
    split <;> simp
  | directory entries, h => by
    rw [sourcesOf]
    exact nodup_sourcesIn (joinPath path name) entries h

/-- **No path comes twice** in a tree where no name does. -/
theorem nodup_sourcesIn (path : String) : ∀ entries : List (String × FileTree), NamedIn entries →
    ((sourcesIn path entries).map (·.1)).Nodup
  | [], _ => .nil
  | (name, t) :: entries, h => by
    obtain ⟨hname, hnew, ht, hentries⟩ := h
    rw [sourcesIn, List.map_append, List.nodup_append]
    refine ⟨nodup_sourcesOf path name t ht, nodup_sourcesIn path entries hentries, ?_⟩
    rintro place hplace _ hplace' rfl
    obtain ⟨source, hsource, rfl⟩ := List.mem_map.1 hplace
    obtain ⟨source', hsource', hsame⟩ := List.mem_map.1 hplace'
    obtain ⟨other, hother, hisName, hbelow⟩ := below_of_mem_sourcesIn entries hentries source' hsource'
    have hfirst : Below path name source.1 := below_of_mem_sourcesOf hname t ht source hsource
    rw [hsame] at hbelow
    obtain rfl := Below.unique hname hisName hfirst hbelow
    exact hnew hother

end

/-! ## One order -/

theorem NamedIn.nodup : ∀ {entries : List (String × FileTree)}, NamedIn entries → (entries.map (·.1)).Nodup
  | [], _ => .nil
  | (_, _) :: _, h => List.nodup_cons.2 ⟨h.2.1, h.2.2.2.nodup⟩

theorem NamedIn.named : ∀ {entries : List (String × FileTree)}, NamedIn entries → ∀ e ∈ entries, Named e.2
  | (_, _) :: _, h, e, he => by
    rcases List.mem_cons.1 he with rfl | he
    · exact h.2.2.1
    · exact h.2.2.2.named e he

/-- Two orders by name are the same where no name comes twice. -/
theorem eq_of_byName {entries ordered ordered' : List (String × FileTree)} (h : NamedIn entries)
    (same : ordered.Perm entries) (same' : ordered'.Perm entries)
    (byName : ordered.Pairwise fun a b => a.1 ≤ b.1) (byName' : ordered'.Pairwise fun a b => a.1 ≤ b.1) :
    ordered = ordered' := by
  refine (same.trans same'.symm).eq_of_pairwise (fun a b ha hb hab hba => ?_) byName byName'
  have hname : a.1 = b.1 := String.le_antisymm hab hba
  exact List.inj_on_of_nodup_map h.nodup (same.subset ha) (same'.subset hb) hname

/-- The directories among entries have their names once. -/
theorem namedIn_foldersAmong {path : String} {entries ordered : List (String × FileTree)} (h : NamedIn entries)
    (same : ordered.Perm entries) : ∀ f ∈ foldersAmong path ordered, NamedIn f.2 := by
  intro f hf
  obtain ⟨⟨name, t⟩, hmem, ht⟩ := List.mem_filterMap.1 hf
  have hnamed := h.named _ (same.subset hmem)
  cases t with
  | file content => cases ht
  | directory inner =>
    cases ht
    rwa [Named] at hnamed

mutual

/-- **The recursion has one order** where no directory has a name twice. -/
theorem Traversal.unique : ∀ {f : Folder} {sources sources' : List (String × ByteArray)}, Traversal f sources →
    Traversal f sources' → NamedIn f.2 → sources = sources'
  | _, _, _, .visit same byName directories, .visit same' byName' directories', named => by
    obtain rfl := eq_of_byName named same same' byName byName'
    rw [directories.unique directories' (namedIn_foldersAmong named same)]

theorem Traversals.unique : ∀ {folders : List Folder} {sources sources' : List (String × ByteArray)},
    Traversals folders sources → Traversals folders sources' → (∀ f ∈ folders, NamedIn f.2) → sources = sources'
  | _, _, _, .nil, .nil, _ => rfl
  | _, _, _, .cons first others, .cons first' others', named => by
    rw [first.unique first' (named _ List.mem_cons_self),
      others.unique others' fun f hf => named f (List.mem_cons_of_mem _ hf)]

end

end Grimoire.Session.FileTree
