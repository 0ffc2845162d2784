import Grimoire.Proofs.Session.Interpreting

/-!
# Declarations over what was there

A session is well kept when the index of each of its registries leads to the entries, and it has the global
scope. Declarations made in such a session lie over what it held before: of each kind, a name stands for the
last declaration of that name, and for what it stood for before if there is none (`Overlaid`). One declaration
keeps this (`Overlaid.register`), and so do any number of them (`Overlaid.forM`).
-/
namespace Grimoire

open Source (Declaration)

/-! ## Registries -/

namespace Registry

variable {α β : Type}

/-- A registry in which the last of some values counts gets one more. -/
theorem Indexed.get?_put_over {r : Registry β} (h : r.Indexed) (view : β → α) (key : α → String)
    {values : List α} {before : String → Option α}
    (hr : ∀ name, (r.get? name).map view = (lastNamed key name values).or (before name)) (y : β) (name : String) :
    ((r.put (key (view y)) y).get? name).map view = (lastNamed key name (values ++ [view y])).or (before name) := by
  rw [h.get?_put, lastNamed_concat]
  by_cases hname : key (view y) = name
  · rw [if_pos hname, if_pos hname]
    rfl
  · rw [if_neg hname, if_neg hname, hr]

end Registry

namespace Session

/-! ## What a session holds -/

/-- The registries and the global scope are in order, as in every session of a library that operations lead to
from a new one. -/
structure WellKept (s : Session) : Prop where
  spells : s.spells.Indexed
  characters : s.characters.Indexed
  worlds : s.worlds.Indexed
  global : Environment.globalScope < s.environment.scopes.size

theorem WellKept.new (config : Config) (host : Host) : WellKept { config, host } :=
  ⟨Registry.indexed_empty, Registry.indexed_empty, Registry.indexed_empty, Nat.one_pos⟩

/-- What a session holds are declarations over what another one held: of each kind, the last declaration of
a name counts. An archetype has no registry; its name stands for its description. -/
structure Overlaid (start : Session) (ds : List Declaration) (s : Session) : Prop where
  kept : s.WellKept
  spells : ∀ name, s.spells.get? name =
    (Registry.lastNamed (·.name) name (ds.filterMap (·.spell?))).or (start.spells.get? name)
  characters : ∀ name, (s.characters.get? name).map (·.declaration) =
    (Registry.lastNamed (·.name) name (ds.filterMap (·.character?))).or
      ((start.characters.get? name).map (·.declaration))
  worlds : ∀ name, (s.worlds.get? name).map (·.declaration) =
    (Registry.lastNamed (·.name) name (ds.filterMap (·.world?))).or
      ((start.worlds.get? name).map (·.declaration))
  names : ∀ name, s.environment.get Environment.globalScope name =
    match Registry.lastNamed (·.name) name (ds.filterMap (·.archetype?)) with
    | some a => .ok (.value (.string a.description))
    | none => start.environment.get Environment.globalScope name

section
variable {start s : Session} {ds : List Declaration}

theorem Overlaid.refl (h : start.WellKept) : Overlaid start [] start :=
  ⟨h, fun _ => rfl, fun _ => rfl, fun _ => rfl, fun _ => rfl⟩

/-- Another host makes no difference. -/
theorem Overlaid.host (h : Overlaid start ds s) (host : Host) : Overlaid start ds { s with host } :=
  ⟨⟨h.kept.spells, h.kept.characters, h.kept.worlds, h.kept.global⟩, h.spells, h.characters, h.worlds, h.names⟩

/-! ### One declaration -/

/-- **One declaration** lies over all that was there. -/
theorem Overlaid.register (h : Overlaid start ds s) (d : Declaration) :
    Overlaid start (ds ++ [d]) ((Session.register d).run s).2 := by
  -- What a declaration of another kind leaves as it was.
  have spells (hd : d.spell? = none) := fun name => (filterMap_concat_none hd).symm ▸ h.spells name
  have characters (hd : d.character? = none) := fun name => (filterMap_concat_none hd).symm ▸ h.characters name
  have worlds (hd : d.world? = none) := fun name => (filterMap_concat_none hd).symm ▸ h.worlds name
  have names (hd : d.archetype? = none) := fun name => (filterMap_concat_none hd).symm ▸ h.names name
  cases d with
  | spell spell =>
    have hown : (ds ++ [Declaration.spell spell]).filterMap (·.spell?) = ds.filterMap (·.spell?) ++ [spell] :=
      filterMap_concat_some rfl
    have hput : ∀ name, ((s.spells.put spell.name spell).get? name).map id = _ :=
      h.kept.spells.get?_put_over id Source.Spell.name (fun name => by rw [Option.map_id_apply]; exact h.spells name) spell
    refine ⟨⟨h.kept.spells.put _, h.kept.characters, h.kept.worlds, h.kept.global⟩, fun name => ?_,
      characters rfl, worlds rfl, names rfl⟩
    rw [hown]
    exact (Option.map_id_apply ..).symm.trans (hput name)
  | character c =>
    have hown : (ds ++ [Declaration.character c]).filterMap (·.character?) = ds.filterMap (·.character?) ++ [c] :=
      filterMap_concat_some rfl
    obtain ⟨host, hrun, -⟩ := enrich_run c.name (characterCalls s.config c) s
    have hafter : ((Session.register (.character c)).run s).2 =
        let after := (enrich c.name (characterCalls s.config c)).run s
        { after.2 with
          characters := after.2.characters.put c.name ⟨c, after.1⟩
          host := after.2.host.announce (.characterCreated c.name) } := rfl
    rw [hafter, hrun]
    refine ⟨⟨h.kept.spells, h.kept.characters.put _, h.kept.worlds, h.kept.global⟩, spells rfl, fun name => ?_,
      worlds rfl, names rfl⟩
    rw [hown]
    exact h.kept.characters.get?_put_over (·.declaration) Source.Character.name h.characters ⟨c, _⟩ name
  | world w =>
    have hown : (ds ++ [Declaration.world w]).filterMap (·.world?) = ds.filterMap (·.world?) ++ [w] := filterMap_concat_some rfl
    obtain ⟨host, hrun, -⟩ := enrich_run w.name (worldCalls w) s
    have hafter : ((Session.register (.world w)).run s).2 =
        let after := (enrich w.name (worldCalls w)).run s
        { after.2 with
          worlds := after.2.worlds.put w.name ⟨w, after.1⟩
          host := after.2.host.announce (.worldBuilt w.name) } := rfl
    rw [hafter, hrun]
    refine ⟨⟨h.kept.spells, h.kept.characters, h.kept.worlds.put _, h.kept.global⟩, spells rfl, characters rfl,
      fun name => ?_, names rfl⟩
    rw [hown]
    exact h.kept.worlds.get?_put_over (·.declaration) Source.World.name h.worlds ⟨w, _⟩ name
  | archetype a =>
    have hown : (ds ++ [Declaration.archetype a]).filterMap (·.archetype?) = ds.filterMap (·.archetype?) ++ [a] :=
      filterMap_concat_some rfl
    have hglobal := h.kept.global
    have hafter : ((Session.register (.archetype a)).run s).2.environment =
        s.environment.define Environment.globalScope a.name (.value (.string a.description)) := rfl
    refine ⟨⟨h.kept.spells, h.kept.characters, h.kept.worlds, ?_⟩, spells rfl, characters rfl, worlds rfl,
      fun name => ?_⟩
    · rwa [hafter, Environment.size_define]
    · rw [hafter, hown, Registry.lastNamed_concat]
      by_cases hname : a.name = name
      · subst hname
        rw [if_pos rfl]
        exact Environment.get_define_self _ _ _ _ hglobal
      · rw [if_neg hname, Environment.get_define_of_ne _ _ _ (Ne.symm hname)]
        exact h.names name

/-! ### Programs -/

theorem Overlaid.forM (h : Overlaid start ds s) (more : List Declaration) :
    Overlaid start (ds ++ more) ((more.forM Session.register).run s).2 := by
  induction more generalizing ds s with
  | nil => rwa [List.append_nil]
  | cons d more ih =>
    have hrest := ih (h.register d)
    rw [List.append_assoc, List.singleton_append] at hrest
    exact hrest

/-- **A program** lies over all that was there. -/
theorem Overlaid.interpret (h : Overlaid start ds s) (program : List Declaration) :
    Overlaid start (ds ++ program) ((Session.interpret program).run s).2 := h.forM program

end

end Session

end Grimoire
