import Grimoire.Registry
import Mathlib.Data.List.Induction
import Mathlib.Data.List.Nodup

/-!
# Registries as maps that remember the order

The index of a registry leads each name to the entry of that name, whatever was inserted
(`Indexed.put`). So a registry is a map in which the last value of a name counts (`get?_put`), listed in
the order in which the names first came (`names_put`); what a list of entries comes to is said by
`get?_ofList` and `names_ofList`.
-/
namespace Grimoire.Registry

variable {α : Type} {r : Registry α} {name : String}

/-- The index leads a name to a place exactly when the entry there has that name. -/
def Indexed (r : Registry α) : Prop :=
  ∀ (name : String) (place : Nat), r.index[name]? = some place ↔ (r.entries[place]?).map (·.1) = some name

theorem indexed_empty : (empty : Registry α).Indexed := by
  intro name place
  simp [empty]

theorem get?_eq (r : Registry α) (name : String) :
    r.get? name = (r.index[name]?).bind fun place => (r.entries[place]?).map (·.2) := by
  unfold get?
  cases r.index[name]? with
  | none => rfl
  | some place => cases hentry : r.entries[place]? <;> simp [hentry]

theorem Indexed.entry (h : r.Indexed) {place : Nat} (hplace : r.index[name]? = some place) :
    ∃ hlt : place < r.entries.size, r.entries[place].1 = name := by
  obtain ⟨entry, hentry, hname⟩ := Option.map_eq_some_iff.1 ((h name place).1 hplace)
  obtain ⟨hlt, rfl⟩ := Array.getElem?_eq_some_iff.1 hentry
  exact ⟨hlt, hname⟩

theorem Indexed.mem_names (h : r.Indexed) : name ∈ r.names ↔ (r.index[name]?).isSome := by
  simp only [names, toList, List.mem_map, Array.mem_toList_iff, Option.isSome_iff_exists]
  constructor
  · rintro ⟨entry, hentry, rfl⟩
    obtain ⟨place, hlt, rfl⟩ := Array.mem_iff_getElem.1 hentry
    exact ⟨place, (h _ _).2 (by rw [Array.getElem?_eq_getElem hlt, Option.map_some])⟩
  · rintro ⟨place, hplace⟩
    obtain ⟨hlt, hname⟩ := h.entry hplace
    exact ⟨_, Array.getElem_mem hlt, hname⟩

theorem Indexed.contains_iff (h : r.Indexed) (name : String) : r.contains name = true ↔ name ∈ r.names := by
  rw [h.mem_names, Registry.contains, ← Std.TreeMap.isSome_getElem?_eq_contains]

/-- The index leads the name of an entry to this entry. -/
theorem Indexed.get?_of_mem (h : r.Indexed) {entry : String × α} (hentry : entry ∈ r.toList) :
    r.get? entry.1 = some entry.2 := by
  obtain ⟨place, hplace⟩ := Array.mem_iff_getElem?.1 (Array.mem_toList_iff.1 hentry)
  rw [get?_eq, (h entry.1 place).2 (by rw [hplace]; rfl), Option.bind_some, hplace]
  rfl

theorem getElem?_names (r : Registry α) (place : Nat) : r.names[place]? = (r.entries[place]?).map (·.1) := by
  rw [names, toList, List.getElem?_map, Array.getElem?_toList]

/-- Two places of one name would both be where the index leads. -/
theorem Indexed.nodup_names (h : r.Indexed) : r.names.Nodup := by
  rw [List.nodup_iff_getElem?_ne_getElem?]
  intro i j hlt hsize heq
  have hname : r.names[j]? = some r.names[j] := List.getElem?_eq_getElem hsize
  have hi := (h _ i).2 ((getElem?_names r i).symm.trans (heq.trans hname))
  have hj := (h _ j).2 ((getElem?_names r j).symm.trans hname)
  exact Nat.ne_of_lt hlt (Option.some.inj (hi.symm.trans hj))

/-! ## One insertion -/

section
variable (value : α)

theorem put_known {place : Nat} (hplace : r.index[name]? = some place) :
    r.put name value = { r with entries := r.entries.setIfInBounds place (name, value) } := by
  simp [put, insert, hplace]

theorem put_new (hnew : r.index[name]? = none) :
    r.put name value =
      { entries := r.entries.push (name, value), index := r.index.insert name r.entries.size } := by
  simp [put, insert, hnew]

/-- A known name gets a new value, and all names stay where they are. -/
theorem Indexed.key_set (h : r.Indexed) {place : Nat} (hplace : r.index[name]? = some place) (i : Nat) :
    ((r.entries.setIfInBounds place (name, value))[i]?).map (·.1) = (r.entries[i]?).map (·.1) := by
  obtain ⟨hlt, -⟩ := h.entry hplace
  rw [Array.getElem?_setIfInBounds]
  split
  · next heq =>
    subst heq
    rw [(h name place).1 hplace]
    rfl
  · rfl

theorem Indexed.put (h : r.Indexed) : (r.put name value).Indexed := by
  intro other place
  cases hname : r.index[name]? with
  | some known =>
    rw [put_known value hname]
    exact (h other place).trans (by rw [h.key_set value hname])
  | none =>
    rw [put_new value hname]
    simp only [Std.TreeMap.getElem?_insert, Array.getElem?_push, Std.compare_eq_iff_eq]
    by_cases hother : name = other
    · subst hother
      have hno := h name place
      rw [hname] at hno
      by_cases hlast : place = r.entries.size
      · simp [hlast]
      · simpa [hlast, Ne.symm hlast] using hno
    · rw [if_neg hother, h other place]
      by_cases hlast : place = r.entries.size
      · simp [hlast, hother]
      · simp [hlast]

/-- **The last value counts.** -/
theorem Indexed.get?_put (h : r.Indexed) (other : String) :
    (r.put name value).get? other = if name = other then some value else r.get? other := by
  cases hname : r.index[name]? with
  | some known =>
    obtain ⟨hlt, hentry⟩ := h.entry hname
    rw [put_known value hname, get?_eq, get?_eq]
    by_cases hother : name = other
    · subst hother
      simp [hname, hlt]
    · rw [if_neg hother]
      refine Option.bind_congr fun place hplace => ?_
      obtain ⟨hlt', hentry'⟩ := h.entry hplace
      have hne : known ≠ place := by
        rintro rfl
        exact hother (hentry.symm.trans hentry')
      rw [Array.getElem?_setIfInBounds_ne hne]
  | none =>
    rw [put_new value hname, get?_eq, get?_eq]
    simp only [Std.TreeMap.getElem?_insert, Std.compare_eq_iff_eq]
    by_cases hother : name = other
    · simp [hother]
    · rw [if_neg hother, if_neg hother]
      refine Option.bind_congr fun place hplace => ?_
      obtain ⟨hlt, -⟩ := h.entry hplace
      rw [Array.getElem?_push_lt hlt, Array.getElem?_eq_getElem hlt]

/-- **A name keeps its first place**, and a new one comes last. -/
theorem Indexed.names_put (h : r.Indexed) :
    (r.put name value).names = if name ∈ r.names then r.names else r.names ++ [name] := by
  cases hname : r.index[name]? with
  | some known =>
    rw [if_pos (h.mem_names.2 (by rw [hname, Option.isSome_some])), put_known value hname]
    refine List.ext_getElem? fun i => ?_
    rw [getElem?_names, getElem?_names]
    exact h.key_set value hname i
  | none =>
    rw [if_neg fun hmem => by simp [h.mem_names, hname] at hmem, put_new value hname]
    simp [names, toList]

theorem insert_fst (r : Registry α) (name : String) (value : α) : (r.insert name value).1 = r.get? name := by
  rw [get?_eq, Registry.insert]
  cases r.index[name]? <;> rfl

end

/-! ## Lists of entries -/

theorem ofList_concat (entries : List (String × α)) (name : String) (value : α) :
    ofList (entries ++ [(name, value)]) = (ofList entries).put name value := by
  rw [ofList, List.foldl_append]
  rfl

theorem indexed_ofList (entries : List (String × α)) : (ofList entries).Indexed := by
  induction entries using List.reverseRecOn with
  | nil => exact indexed_empty
  | append_singleton entries entry ih =>
    rw [ofList_concat]
    exact ih.put _

theorem get?_ofList (entries : List (String × α)) (name : String) :
    (ofList entries).get? name = entries.reverse.lookup name := by
  induction entries using List.reverseRecOn with
  | nil => simp [ofList, get?, empty]
  | append_singleton entries entry ih =>
    rw [ofList_concat, (indexed_ofList entries).get?_put, ih, List.reverse_append, List.reverse_singleton,
      List.singleton_append, List.lookup_cons]
    by_cases hname : entry.1 = name
    · simp [hname]
    · have hne : (name == entry.1) = false := by simpa using Ne.symm hname
      rw [if_neg hname, hne]

theorem names_ofList (entries : List (String × α)) :
    (ofList entries).names = (entries.map (·.1)).eraseDups := by
  induction entries using List.reverseRecOn with
  | nil => rfl
  | append_singleton entries entry ih =>
    rw [ofList_concat, (indexed_ofList entries).names_put, ih, List.map_append, List.eraseDups_append]
    by_cases hmem : entry.1 ∈ entries.map (·.1)
    · rw [if_pos (List.mem_eraseDups.2 hmem)]
      simp [List.removeAll, hmem]
    · rw [if_neg fun h => hmem (List.mem_eraseDups.1 h)]
      have hkeep : [entry.1].removeAll (entries.map (·.1)) = [entry.1] := by
        simpa [List.removeAll] using hmem
      rw [List.map_singleton, hkeep]
      rfl

theorem size_eq (r : Registry α) : r.size = r.names.length := by
  simp [size, names, toList]

theorem Indexed.size_put (h : r.Indexed) (name : String) (value : α) :
    (r.put name value).size = if name ∈ r.names then r.size else r.size + 1 := by
  rw [size_eq, size_eq, h.names_put, apply_ite List.length, List.length_append, List.length_singleton]

/-! ## Values with names of their own -/

/-- Values one after another, each under its name. -/
def gather (key : α → String) (values : List α) : Registry α := ofList (values.map fun x => (key x, x))

/-- The last of the values with a name. -/
def lastNamed (key : α → String) (name : String) (values : List α) : Option α :=
  values.reverse.find? (key · == name)

section
variable (key : α → String) (values : List α)

theorem gather_concat (value : α) : gather key (values ++ [value]) = (gather key values).put (key value) value := by
  rw [gather, List.map_append]
  exact ofList_concat ..

theorem lookup_keyed (name : String) :
    (values.map fun x => (key x, x)).lookup name = values.find? (key · == name) := by
  induction values with
  | nil => rfl
  | cons x values ih =>
    rw [List.map_cons, List.lookup_cons, List.find?_cons, ih, Bool.beq_comm]

theorem lastNamed_concat (value : α) (name : String) :
    lastNamed key name (values ++ [value]) = if key value = name then some value else lastNamed key name values := by
  rw [lastNamed, List.reverse_append, List.reverse_singleton, List.singleton_append, List.find?_cons]
  by_cases h : key value = name
  · simp [h]
  · rw [beq_false_of_ne h, if_neg h]
    rfl

theorem get?_gather (name : String) : (gather key values).get? name = lastNamed key name values := by
  rw [gather, get?_ofList, ← List.map_reverse, lookup_keyed, lastNamed]

theorem names_gather : (gather key values).names = (values.map key).eraseDups := by
  rw [gather, names_ofList, List.map_map]
  rfl

end

end Grimoire.Registry
