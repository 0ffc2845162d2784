import Grimoire.Proofs.Json.Objects
import Grimoire.Workflow.Input
import Mathlib.Data.List.Basic
import Mathlib.Data.List.Induction

/-!
# The input of a phase

The references of a phase are taken in their order, each writes what it leads to under its key, and what comes of
them all is said at once (`Resolved`): the keys with their order, the value of each key by the last reference that
writes it, and which part of the earlier outputs is read.
-/
namespace Grimoire.Workflow

/-! ## References -/

/-- The key of a reference. -/
def headOf (reference : String) : String := (splitReference reference).1

/-- The path of a reference into the output under its key; none when the reference is a bare key. -/
def restOf (reference : String) : String := (splitReference reference).2

/-- The value that a reference leads to. -/
def target? (results : Object) (reference : String) : Option Json :=
  (Object.get? results (headOf reference)).bind (·.lookup? (restOf reference))

/-- Outputs that agree at the path of a reference: where it is a bare key at that key, else at the whole path. -/
def AgreeAt (results results' : Object) (reference : String) : Prop :=
  if restOf reference = "" then
    Object.get? results (headOf reference) = Object.get? results' (headOf reference)
  else (Json.object results).lookup? reference = (Json.object results').lookup? reference

/-- The references that lead somewhere. -/
def leading (results : Object) (references : List String) : List String :=
  references.filter fun reference => (target? results reference).isSome

/-- What the references with a key lead to, in their order. -/
def targetsAt (results : Object) (key : String) (references : List String) : List Json :=
  (references.filter (headOf · == key)).filterMap (target? results)

/-- What the input of a phase is. -/
structure Resolved (p : Phase) (results input : Object) : Prop where
  /-- The keys of the parameters, and then the new keys of references that lead somewhere, in the order of the first
  such reference. -/
  keys : Object.keys input = Object.keys p.parameters ++
    ((leading results p.inputs).map headOf).eraseDups.filter (· ∉ Object.keys p.parameters)
  /-- The last reference with a key that leads somewhere gives its value, else the parameter does. -/
  value : ∀ key, Object.get? input key =
    (targetsAt results key p.inputs).getLast?.or (Object.get? p.parameters key)
  /-- A reference that leads nowhere changes nothing. -/
  idle : ∀ before reference after, p.inputs = before ++ reference :: after → target? results reference = none →
    resolveInputs { p with inputs := before ++ after } results = input
  /-- A reference is a key, a point and a path, or a bare key. -/
  parts : ∀ reference,
    reference = headOf reference ++ "." ++ restOf reference ∧ '.' ∉ (headOf reference).toList ∨
      reference = headOf reference ∧ '.' ∉ reference.toList ∧ restOf reference = ""
  /-- A bare key leads to the output under it. -/
  bare : ∀ reference, restOf reference = "" → target? results reference = Object.get? results (headOf reference)
  /-- A reference with a key and a path leads to what the whole reference leads to in the outputs as one object. -/
  whole : ∀ reference, headOf reference ≠ "" → restOf reference ≠ "" →
    ∀ v, target? results reference = some v ↔ (Json.object results).lookup? reference = some v
  /-- A path in two parts is followed one part after the other. -/
  join : ∀ (j : Json) (path more : String), path ≠ "" → more ≠ "" →
    j.lookup? (path ++ "." ++ more) = (j.lookup? path).bind (·.lookup? more)
  /-- A path of one part leads to a member of an object by its key. -/
  member : ∀ (members : Object) (key : String), key ≠ "" → '.' ∉ key.toList →
    (Json.object members).lookup? key = Object.get? members key
  /-- Of an array it leads to the item whose index it spells. -/
  item : ∀ (items : List Json) (index : String), index ≠ "" → '.' ∉ index.toList →
    ∀ v, (Json.array items).lookup? index = some v ↔ ∃ i, Decimal.Spells 64 index.toList i ∧ items[i]? = some v
  /-- Into anything else no path leads. -/
  leaf : ∀ (j : Json) (path : String), path ≠ "" → (∀ members, j ≠ .object members) →
    (∀ items, j ≠ .array items) → j.lookup? path = none
  /-- Nothing else of the outputs is read. -/
  agree : ∀ results', (∀ reference ∈ p.inputs, AgreeAt results results' reference) →
    resolveInputs p results' = input

section
variable (results : Object) (reference : String)

theorem reference_parts :
    reference = headOf reference ++ "." ++ restOf reference ∧ '.' ∉ (headOf reference).toList ∨
      reference = headOf reference ∧ '.' ∉ reference.toList ∧ restOf reference = "" := by
  unfold headOf restOf splitReference
  cases hsplit : Text.splitOnce '.' reference.toList with
  | none => exact .inr ⟨rfl, Text.splitOnce_eq_none.1 hsplit, rfl⟩
  | some parts =>
    obtain ⟨key, path⟩ := parts
    obtain ⟨htext, hkey⟩ := Text.splitOnce_eq_some.1 hsplit
    exact .inl ⟨String.toList_inj.1 (by simp [htext]), by simpa using hkey⟩

/-- The output under a key is what the empty path leads to. -/
theorem target?_bare (h : restOf reference = "") :
    target? results reference = Object.get? results (headOf reference) := by
  rw [target?, h]
  exact Option.bind_fun_some _

theorem resolve?_eq : resolve? results reference = (target? results reference).map (headOf reference, ·) := by
  unfold resolve? target? headOf restOf
  obtain ⟨key, path⟩ := splitReference reference
  cases houtput : Object.get? results key with
  | none => simp [houtput]
  | some output => cases hvalue : output.lookup? path <;> simp [houtput, hvalue]

theorem addReference_eq (input : Object) : addReference results input reference =
    match target? results reference with
    | some v => Object.insert input (headOf reference) v
    | none => input := by
  rw [addReference, resolve?_eq]
  cases target? results reference <;> rfl

/-- **A reference with a path** leads to what the whole reference leads to in the outputs as one object. -/
theorem target?_eq_lookup? (h : restOf reference ≠ "") :
    target? results reference = (Json.object results).lookup? reference := by
  unfold target? headOf restOf splitReference at *
  cases hsplit : Text.splitOnce '.' reference.toList with
  | none => simp [hsplit] at h
  | some parts =>
    obtain ⟨key, path⟩ := parts
    simp only [hsplit] at h ⊢
    obtain ⟨htext, hkey⟩ := Text.splitOnce_eq_some.1 hsplit
    have hreference : reference ≠ "" := by
      rintro rfl
      simp at htext
    rw [Json.lookup?_of_ne_empty _ hreference, htext, Text.split_append, Text.split_of_notMem hkey,
      List.singleton_append, Json.follow?, Json.child?]
    refine Option.bind_congr fun output _ => ?_
    rw [Json.lookup?_of_ne_empty _ h, String.toList_ofList]

end

theorem AgreeAt.target?_eq {results results' : Object} {reference : String}
    (h : AgreeAt results results' reference) : target? results' reference = target? results reference := by
  unfold AgreeAt at h
  split at h
  · rw [target?, target?, h]
  · next hrest => rw [target?_eq_lookup? _ _ hrest, target?_eq_lookup? _ _ hrest, h]

/-! ## One reference after another -/

section
variable (results input : Object) (references : List String) (reference : String)

theorem leading_concat : leading results (references ++ [reference]) =
    if (target? results reference).isSome then leading results references ++ [reference]
    else leading results references := by
  rw [leading, List.filter_append, List.filter_cons, List.filter_nil, ← leading]
  split
  · rfl
  · exact List.append_nil _

theorem foldl_addReference_concat : (references ++ [reference]).foldl (addReference results) input =
    addReference results (references.foldl (addReference results) input) reference := by
  rw [List.foldl_append]
  rfl

/-- A new key is the last one. -/
theorem filter_eraseDups_concat (known keys : List String) (key : String) :
    (keys ++ [key]).eraseDups.filter (· ∉ known) =
      if key ∈ known ++ keys.eraseDups.filter (· ∉ known) then keys.eraseDups.filter (· ∉ known)
      else keys.eraseDups.filter (· ∉ known) ++ [key] := by
  rw [List.eraseDups_append, List.filter_append]
  by_cases hknown : key ∈ known
  · by_cases hkeys : key ∈ keys <;> simp [List.removeAll, hknown, hkeys]
  · by_cases hkeys : key ∈ keys
    · simp [List.removeAll, hknown, hkeys]
    · have hkeep : [key].removeAll keys = [key] := by simpa [List.removeAll] using hkeys
      have hone : [key].eraseDups = [key] := rfl
      simp [hkeep, hone, hknown, hkeys]

theorem keys_foldl_addReference : Object.keys (references.foldl (addReference results) input) =
    Object.keys input ++ ((leading results references).map headOf).eraseDups.filter (· ∉ Object.keys input) := by
  induction references using List.reverseRecOn with
  | nil => simp [leading]
  | append_singleton references reference ih =>
    rw [foldl_addReference_concat, addReference_eq, leading_concat]
    cases target? results reference with
    | none => exact ih
    | some v =>
      rw [Object.keys_insert, ih, Option.isSome_some, if_pos rfl, List.map_append, List.map_singleton,
        filter_eraseDups_concat]
      split
      · rfl
      · rw [List.append_assoc]

theorem get?_foldl_addReference (key : String) :
    Object.get? (references.foldl (addReference results) input) key =
      (targetsAt results key references).getLast?.or (Object.get? input key) := by
  induction references using List.reverseRecOn with
  | nil => rfl
  | append_singleton references reference ih =>
    rw [foldl_addReference_concat, addReference_eq, targetsAt, List.filter_append, List.filterMap_append, ← targetsAt]
    by_cases hkey : headOf reference = key
    · cases htarget : target? results reference with
      | none => simpa [hkey, htarget] using ih
      | some v => simp [hkey, htarget, Object.get?_insert]
    · cases htarget : target? results reference with
      | none => simpa [hkey] using ih
      | some v => simpa [hkey, Object.get?_insert] using ih

end

/-- **The input of a phase** is that of its parameters and its references, one after another. -/
theorem resolveInputs_resolved (p : Phase) (results : Object) : Resolved p results (resolveInputs p results) where
  keys := keys_foldl_addReference ..
  value key := get?_foldl_addReference ..
  idle before reference after hinputs hnone := by
    rw [resolveInputs, resolveInputs, hinputs, List.foldl_append, List.foldl_append, List.foldl_cons,
      addReference_eq, hnone]
  parts reference := reference_parts reference
  bare reference hrest := target?_bare results reference hrest
  whole reference _ hrest v := by rw [target?_eq_lookup? _ _ hrest]
  join j _ _ hpath hmore := j.lookup?_join hpath hmore
  member members _ hkey hpoint := Json.lookup?_member members hkey hpoint
  item items _ hindex hpoint v := Json.lookup?_item items hindex hpoint v
  leaf j _ hpath hobject harray := j.lookup?_leaf hpath hobject harray
  agree results' hagree := by
    refine List.foldl_ext _ _ _ fun input reference hreference => ?_
    rw [addReference_eq, addReference_eq, (hagree reference hreference).target?_eq]

end Grimoire.Workflow
