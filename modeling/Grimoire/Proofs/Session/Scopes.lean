import Grimoire.Session.Environment
import Mathlib.Data.List.Basic

/-!
# Names in scopes

To define a name in a scope changes neither the way outward nor what other names stand for
(`get_define_of_ne`), and in a scope that exists the name stands for its new value there
(`get_define_self`).
-/
namespace Grimoire.Session.Environment

variable (e : Environment) (scope : ScopeId) (name : String) (b : Binding)

@[simp] theorem size_define : (e.define scope name b).scopes.size = e.scopes.size := Array.size_modify

theorem getElem?_define (other : ScopeId) :
    (e.define scope name b).scopes[other]? =
      if scope = other then (e.scopes[other]?).map fun s => { s with bindings := s.bindings.insert name b }
      else e.scopes[other]? :=
  Array.getElem?_modify

/-- A scope after a definition, to all other names. -/
theorem scope_define {name other : String} (hne : other ≠ name) (i : ScopeId) :
    ((e.define scope name b).scopes[i]?).map (fun s => (s.bindings[other]?, s.parent)) =
      (e.scopes[i]?).map fun s => (s.bindings[other]?, s.parent) := by
  rw [getElem?_define]
  split
  · rw [Option.map_map]
    refine congrArg (Option.map · e.scopes[i]?) (funext fun s => ?_)
    have hcompare : compare name other ≠ .eq := by simpa [Std.compare_eq_iff_eq] using Ne.symm hne
    simp [Std.TreeMap.getElem?_insert, hcompare]
  · rfl

theorem resolveWithin_define_of_ne {name other : String} (hne : other ≠ name) :
    ∀ (steps : Nat) (i : ScopeId), (e.define scope name b).resolveWithin other steps i = e.resolveWithin other steps i
  | 0, _ => rfl
  | steps + 1, i => by
    have hscope := e.scope_define scope b hne i
    have ih := resolveWithin_define_of_ne hne steps
    unfold resolveWithin
    cases hnew : (e.define scope name b).scopes[i]? with
    | none =>
      rw [hnew] at hscope
      rw [Option.map_eq_none_iff.1 hscope.symm]
    | some s' =>
      rw [hnew] at hscope
      obtain ⟨s, hs, heq⟩ := Option.map_eq_some_iff.1 hscope.symm
      obtain ⟨hbinding, hparent⟩ := Prod.mk.inj heq
      have hcontains : s'.bindings.contains other = s.bindings.contains other := by
        rw [Std.TreeMap.contains_eq_isSome_getElem?, Std.TreeMap.contains_eq_isSome_getElem?, hbinding]
      simp only [hs, hcontains, hparent, ih]

theorem get_define_of_ne {name other : String} (hne : other ≠ name) (i : ScopeId) :
    (e.define scope name b).get i other = e.get i other := by
  have hresolve : (e.define scope name b).resolve i other = e.resolve i other := by
    rw [resolve, resolve, size_define, resolveWithin_define_of_ne e scope b hne]
  have hbinding (owner : ScopeId) : ((e.define scope name b).scopes[owner]?).bind (·.bindings[other]?) =
      (e.scopes[owner]?).bind (·.bindings[other]?) := by
    have hscope := congrArg (Option.bind · Prod.fst) (e.scope_define scope b hne owner)
    simpa only [Option.bind_map, Function.comp_def] using hscope
  simp only [get, hresolve, hbinding]

theorem get_define_self (hscope : scope < e.scopes.size) : (e.define scope name b).get scope name = .ok b := by
  have hat : (e.define scope name b).scopes[scope]? =
      some { e.scopes[scope] with bindings := e.scopes[scope].bindings.insert name b } := by
    rw [getElem?_define, if_pos rfl, Array.getElem?_eq_getElem hscope, Option.map_some]
  have hresolve : (e.define scope name b).resolve scope name = .found scope := by
    unfold resolve resolveWithin
    rw [hat]
    simp
  simp only [get, hresolve, hat]
  simp

end Grimoire.Session.Environment
