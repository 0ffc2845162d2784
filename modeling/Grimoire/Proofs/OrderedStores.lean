import Grimoire.Proofs.Registry
import Grimoire.Workflow.Orchestrator

/-!
# Stores that remember the order

Two stores keep an index beside an order: a registry, whose index leads to places among its entries, and a
catalog, whose index holds the values. Both behave as one map that remembers in which order its names first
came (`Shown.Follows`): registries after any insertions, and the catalog of an orchestrator after any
registrations (`stores_follow_insertions`).
-/
namespace Grimoire

/-! ## What stores show -/

structure Shown (α : Type) where
  /-- The names that the order holds. -/
  order : List String
  /-- Does the index know the name? -/
  indexed : String → Bool
  get? : String → Option α
  listing : List (String × α)
  size : Nat

/-- What is shown after insertions one after another: each name once, in the order of its first insertion, with the
value of its last. -/
structure Shown.Follows {α : Type} (s : Shown α) (insertions : List (String × α)) : Prop where
  nodup : s.order.Nodup
  order : s.order = (insertions.map (·.1)).eraseDups
  indexed : ∀ name, s.indexed name = true ↔ name ∈ s.order
  get? : ∀ name, s.get? name = insertions.reverse.lookup name
  keys : s.listing.map (·.1) = s.order
  latest : ∀ entry ∈ s.listing, s.get? entry.1 = some entry.2
  size : s.size = s.order.length

variable {α : Type}

/-! ## Registries -/

namespace Registry

def shown (r : Registry α) : Shown α where
  order := r.names
  indexed := r.contains
  get? := r.get?
  listing := r.toList
  size := r.size

theorem shown_ofList (insertions : List (String × α)) : (ofList insertions).shown.Follows insertions where
  nodup := (indexed_ofList insertions).nodup_names
  order := names_ofList insertions
  indexed := (indexed_ofList insertions).contains_iff
  get? := get?_ofList insertions
  keys := rfl
  latest _ hentry := (indexed_ofList insertions).get?_of_mem hentry
  size := size_eq _

end Registry

/-! ## Catalogs -/

namespace Catalog

def shown (c : Catalog α) : Shown α where
  order := c.order.toList
  indexed := c.index.contains
  get? := c.get?
  listing := c.toList
  size := c.size

/-- Insertions one after another. -/
def ofList (insertions : List (String × α)) : Catalog α :=
  insertions.foldl (fun c entry => c.put entry.1 entry.2) empty

/-- The order holds the names of the index, each once. -/
structure Paired (c : Catalog α) : Prop where
  nodup : c.order.toList.Nodup
  contains_iff : ∀ name, c.index.contains name = true ↔ name ∈ c.order.toList
  size : c.size = c.order.toList.length

theorem paired_empty : (empty : Catalog α).Paired where
  nodup := List.nodup_nil
  contains_iff name := by simp [empty]
  size := rfl

variable {c : Catalog α}

theorem get?_put (c : Catalog α) (name : String) (value : α) (other : String) :
    (c.put name value).get? other = if name = other then some value else c.get? other := by
  simp [get?, put, Std.TreeMap.getElem?_insert]

/-- A name keeps its first place, and a new one comes last. -/
theorem Paired.order_put (h : c.Paired) (name : String) (value : α) :
    (c.put name value).order.toList =
      if name ∈ c.order.toList then c.order.toList else c.order.toList ++ [name] := by
  rw [put, apply_ite Array.toList, Array.toList_push]
  simp only [h.contains_iff]

theorem Paired.size_put (h : c.Paired) (name : String) (value : α) :
    (c.put name value).size = if name ∈ c.order.toList then c.size else c.size + 1 := by
  rw [Catalog.put, Catalog.size, Std.TreeMap.size_insert]
  simp only [← h.contains_iff, Std.TreeMap.contains_iff_mem]
  rfl

theorem Paired.put (h : c.Paired) (name : String) (value : α) : (c.put name value).Paired where
  nodup := by
    rw [h.order_put]
    split
    · exact h.nodup
    · next hnew =>
      rw [← List.concat_eq_append]
      exact (List.nodup_concat _ _).2 ⟨hnew, h.nodup⟩
  contains_iff other := by
    rw [h.order_put, Catalog.put, Std.TreeMap.contains_insert, Bool.or_eq_true, h.contains_iff, beq_iff_eq,
      Std.compare_eq_iff_eq]
    split
    · next hold => exact ⟨fun hor => hor.elim (fun heq => heq ▸ hold) id, .inr⟩
    · rw [List.mem_append, List.mem_singleton, or_comm, eq_comm]
  size := by
    rw [h.size_put, h.order_put, h.size]
    split
    · rfl
    · rw [List.length_append, List.length_singleton]

/-- The index and the order of a catalog come to what a registry comes to. -/
theorem ofList_eq_registry (insertions : List (String × α)) :
    (ofList insertions).Paired ∧ (ofList insertions).order.toList = (Registry.ofList insertions).names ∧
      ∀ name, (ofList insertions).get? name = (Registry.ofList insertions).get? name := by
  induction insertions using List.reverseRecOn with
  | nil =>
    refine ⟨paired_empty, rfl, fun name => ?_⟩
    simp [ofList, Registry.ofList, get?, Registry.get?, empty, Registry.empty]
  | append_singleton insertions entry ih =>
    obtain ⟨hpaired, horder, hget⟩ := ih
    have hindexed := Registry.indexed_ofList insertions
    rw [ofList, List.foldl_append, ← ofList, Registry.ofList_concat]
    refine ⟨hpaired.put _ _, ?_, fun name => ?_⟩
    · rw [List.foldl_cons, List.foldl_nil, hpaired.order_put, hindexed.names_put, horder]
    · rw [List.foldl_cons, List.foldl_nil, get?_put, hindexed.get?_put, hget]

/-- The listing has all names of the order, each with its value. -/
theorem Paired.keys (h : c.Paired) : c.toList.map (·.1) = c.order.toList := by
  -- The listing would leave out a name that the index does not know.
  have hvalue : ∀ name ∈ c.order.toList, (c.get? name).map (fun _ => name) = some name := by
    intro name hname
    have hsome : (c.get? name).isSome := by
      rw [get?, Std.TreeMap.isSome_getElem?_eq_contains]
      exact (h.contains_iff name).2 hname
    obtain ⟨value, hvalue⟩ := Option.isSome_iff_exists.1 hsome
    rw [hvalue, Option.map_some]
  rw [toList, List.map_filterMap]
  simp only [Option.map_map, Function.comp_def]
  rw [List.filterMap_congr hvalue, List.filterMap_some]

theorem get?_of_mem {entry : String × α} (hentry : entry ∈ c.toList) : c.get? entry.1 = some entry.2 := by
  obtain ⟨name, -, hname⟩ := List.mem_filterMap.1 hentry
  obtain ⟨value, hvalue, rfl⟩ := Option.map_eq_some_iff.1 hname
  exact hvalue

theorem shown_ofList (insertions : List (String × α)) : (ofList insertions).shown.Follows insertions := by
  obtain ⟨hpaired, horder, hget⟩ := ofList_eq_registry insertions
  exact
    { nodup := hpaired.nodup
      order := horder.trans (Registry.names_ofList insertions)
      indexed := hpaired.contains_iff
      get? := fun name => (hget name).trans (Registry.get?_ofList insertions name)
      keys := hpaired.keys
      latest := fun _ hentry => get?_of_mem hentry
      size := hpaired.size }

end Catalog

/-! ## Registered workflows -/

namespace Workflow

theorem definitions_register (s : Stage) (ds : List Definition) :
    (ds.foldl Stage.register { s with orchestrator.definitions := .empty }).orchestrator.definitions =
      Catalog.ofList (ds.map fun d => (d.id, d)) := by
  rw [Catalog.ofList, List.foldl_map]
  exact (List.foldl_hom (fun s : Stage => s.orchestrator.definitions) fun _ _ => rfl).symm

/-- The listing of an orchestrator has the definition last registered under each id. -/
theorem list_eq {o : Orchestrator} {ds : List Definition}
    (h : o.definitions = Catalog.ofList (ds.map fun d => (d.id, d))) :
    o.list = ((ds.map (·.id)).eraseDups.filterMap (Registry.lastNamed (·.id) · ds)).map
      fun d => ⟨d.id, d.name, d.description, d.phases.length, d.orchestrator⟩ := by
  obtain ⟨-, horder, hget⟩ := Catalog.ofList_eq_registry (ds.map fun d => (d.id, d))
  have hkeys : o.definitions.order.toList = (ds.map (·.id)).eraseDups := by
    rw [h, horder]
    exact Registry.names_gather ..
  have hlast (name : String) : o.definitions.get? name = Registry.lastNamed (·.id) name ds := by
    rw [h, hget]
    exact Registry.get?_gather ..
  simp only [Orchestrator.list, Catalog.toList, hkeys, hlast, List.map_filterMap, Option.map_map, Function.comp_def]

end Workflow

/-- **Both stores follow their insertions.** A registry and the catalog of an orchestrator show each name once, in
the order of its first insertion, with the value of its last, and grow by one with each new name. The index of a
registry leads each name to the place of the entry of that name; an insertion gives back the value it replaces. -/
theorem stores_follow_insertions :
    (∀ insertions : List (String × α),
      let r := Registry.ofList insertions
      r.shown.Follows insertions ∧ r.Indexed ∧ ∀ name value,
        (r.insert name value).1 = r.get? name ∧
          (r.put name value).size = if name ∈ insertions.map (·.1) then r.size else r.size + 1) ∧
    ∀ (s : Workflow.Stage) (ds : List Workflow.Definition),
      let t := ds.foldl Workflow.Stage.register { s with orchestrator.definitions := .empty }
      t.orchestrator.definitions.shown.Follows (ds.map fun d => (d.id, d)) ∧
        t.orchestrator.list = ((ds.map (·.id)).eraseDups.filterMap (Registry.lastNamed (·.id) · ds)).map
          (fun d => ⟨d.id, d.name, d.description, d.phases.length, d.orchestrator⟩) ∧
        ∀ d, (t.register d).orchestrator.definitions.size =
          if d.id ∈ ds.map (·.id) then t.orchestrator.definitions.size else t.orchestrator.definitions.size + 1 := by
  refine ⟨fun insertions => ⟨Registry.shown_ofList insertions, Registry.indexed_ofList insertions,
    fun name value => ⟨Registry.insert_fst .., ?_⟩⟩, fun s ds => ?_⟩
  · rw [(Registry.indexed_ofList insertions).size_put, Registry.names_ofList]
    simp only [List.mem_eraseDups]
  · have hdefinitions := Workflow.definitions_register s ds
    have hfollows := Catalog.shown_ofList (ds.map fun d => (d.id, d))
    obtain ⟨hpaired, -, -⟩ := Catalog.ofList_eq_registry (ds.map fun d => (d.id, d))
    rw [← hdefinitions] at hpaired hfollows
    refine ⟨hfollows, Workflow.list_eq hdefinitions, fun d => ?_⟩
    refine (hpaired.size_put d.id d).trans (if_congr ?_ rfl rfl)
    rw [hdefinitions, (Catalog.ofList_eq_registry _).2.1]
    change d.id ∈ (Registry.gather (·.id) ds).names ↔ _
    rw [Registry.names_gather, List.mem_eraseDups]

end Grimoire
