import Grimoire.Json.Path
import Grimoire.Proofs.Decimal.Words
import Grimoire.Proofs.Text.Splitting

/-!
# Objects and paths

What an insertion does to the keys (`keys_insert`) and to the values (`get?_insert`) of an object; and where a path
leads: one part by a key or an index (`lookup?_member`, `lookup?_item`), more parts one after the other
(`lookup?_join`).
-/
namespace Grimoire

/-! ## Insertion -/

namespace Object

variable (o : Object) (key : String) (value : Json)

theorem get?_insert (other : String) :
    get? (insert o key value) other = if key = other then some value else get? o other := by
  induction o with
  | nil => by_cases h : key = other <;> simp [insert, get?, h]
  | cons m o ih =>
    obtain ⟨k, v⟩ := m
    by_cases hk : k = key
    · subst hk
      by_cases hother : k = other <;> simp [insert, get?, hother]
    · have hinsert : insert ((k, v) :: o) key value = (k, v) :: insert o key value := by simp [insert, hk]
      rw [hinsert]
      by_cases hother : k = other
      · simp [get?, hother, show ¬ key = other from fun h => hk (hother.trans h.symm)]
      · simpa [get?, hother] using ih

/-- A key that is present keeps its place, and a new one comes last. -/
theorem keys_insert : keys (insert o key value) = if key ∈ keys o then keys o else keys o ++ [key] := by
  induction o with
  | nil => simp [insert, keys]
  | cons m o ih =>
    obtain ⟨k, v⟩ := m
    by_cases hk : k = key
    · simp [insert, keys, hk]
    · have hinsert : insert ((k, v) :: o) key value = (k, v) :: insert o key value := by simp [insert, hk]
      have hmem : key ∈ keys ((k, v) :: o) ↔ key ∈ keys o := by simp [keys, Ne.symm hk]
      rw [hinsert, if_congr hmem rfl rfl]
      change k :: keys (insert o key value) = _
      rw [ih]
      split <;> rfl

theorem keys_prefix_insert : keys o <+: keys (insert o key value) := by
  rw [keys_insert]
  split
  · exact List.prefix_rfl
  · exact List.prefix_append ..

end Object

/-! ## Paths -/

namespace Json

theorem follow?_append (j : Json) (parts more : List (List Char)) :
    j.follow? (parts ++ more) = (j.follow? parts).bind (·.follow? more) := by
  induction parts generalizing j with
  | nil => rfl
  | cons part parts ih =>
    rw [List.cons_append, follow?, follow?, Option.bind_assoc]
    exact Option.bind_congr fun child _ => ih child

theorem lookup?_of_ne_empty (j : Json) {path : String} (h : path ≠ "") :
    j.lookup? path = j.follow? (Text.split '.' path.toList) := by
  rw [lookup?, if_neg (by simpa using h)]

/-- A path of one part. -/
theorem lookup?_part (j : Json) {part : String} (h : part ≠ "") (hpoint : '.' ∉ part.toList) :
    j.lookup? part = j.child? part.toList := by
  rw [lookup?_of_ne_empty j h, Text.split_of_notMem hpoint]
  exact Option.bind_fun_some _

theorem lookup?_member (members : Object) {key : String} (h : key ≠ "") (hpoint : '.' ∉ key.toList) :
    (object members).lookup? key = Object.get? members key := by
  rw [lookup?_part _ h hpoint, child?, String.ofList_toList]

theorem lookup?_item (items : List Json) {index : String} (h : index ≠ "") (hpoint : '.' ∉ index.toList) (v : Json) :
    (array items).lookup? index = some v ↔ ∃ i, Decimal.Spells 64 index.toList i ∧ items[i]? = some v := by
  rw [lookup?_part _ h hpoint, child?, Option.bind_eq_some_iff]
  simp only [Decimal.readWord?_eq_some]

/-- No path leads into data without parts. -/
theorem lookup?_leaf (j : Json) {path : String} (h : path ≠ "") (hobject : ∀ members, j ≠ .object members)
    (harray : ∀ items, j ≠ .array items) : j.lookup? path = none := by
  rw [lookup?_of_ne_empty j h]
  cases hparts : Text.split '.' path.toList with
  | nil => exact absurd hparts (Text.split_ne_nil _ _)
  | cons part parts =>
    cases j with
    | object members => exact absurd rfl (hobject members)
    | array items => exact absurd rfl (harray items)
    | null | bool | number | string => rfl

/-- **A path in two parts** is followed one part after the other. -/
theorem lookup?_join (j : Json) {path more : String} (hpath : path ≠ "") (hmore : more ≠ "") :
    j.lookup? (path ++ "." ++ more) = (j.lookup? path).bind (·.lookup? more) := by
  have hsplit : Text.split '.' (path ++ "." ++ more).toList =
      Text.split '.' path.toList ++ Text.split '.' more.toList := by
    rw [String.toList_append, String.toList_append, List.append_assoc]
    exact Text.split_append '.' path.toList more.toList
  have hne : path ++ "." ++ more ≠ "" := by
    intro h
    have := congrArg String.toList h
    simp at this
  rw [lookup?_of_ne_empty j hne, lookup?_of_ne_empty j hpath, hsplit, follow?_append]
  exact Option.bind_congr fun child _ => (child.lookup?_of_ne_empty hmore).symm

end Json

end Grimoire
