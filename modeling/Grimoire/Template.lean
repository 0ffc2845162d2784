import Grimoire.Json.Coercion

/-!
# Templates

A template is text with slots `${name}`. Filling it is one pass from left to right: the text of an
argument is never searched for slots again, and a slot without an argument stays as it is.

| here | there |
| --- | --- |
| `slotName?` | the pattern `PLACEHOLDER` |
| `fill`      | `substitute_placeholders` |
| `names`     | `placeholder_names` |
-/
namespace Grimoire.Template

inductive Piece
  | char (c : Char)
  | slot (name : List Char)
deriving DecidableEq, Repr

/-- The name up to the next closing brace, and what follows the brace. -/
def slotName? : List Char → Option (List Char × List Char)
  | [] => none
  | c :: cs => if c = '}' then some ([], cs) else (slotName? cs).map fun (name, rest) => (c :: name, rest)

theorem length_lt_of_slotName? {cs name rest : List Char} (h : slotName? cs = some (name, rest)) :
    rest.length < cs.length := by
  induction cs generalizing name with
  | nil => simp [slotName?] at h
  | cons c cs ih =>
    simp only [slotName?] at h
    split at h
    · simp_all
    · obtain ⟨⟨n, r⟩, hr, he⟩ := Option.map_eq_some_iff.1 h
      have := @ih n (by simp_all)
      simp_all
      omega

/-- A slot begins at `${` where a closing brace follows; every other character stands for itself. -/
def pieces : List Char → List Piece
  | [] => []
  | [c] => [.char c]
  | c :: d :: cs =>
    if c = '$' ∧ d = '{' then
      match h : slotName? cs with
      | some (name, rest) =>
        have := length_lt_of_slotName? h
        .slot name :: pieces rest
      | none => .char c :: pieces (d :: cs)
    else .char c :: pieces (d :: cs)
termination_by cs => cs.length

/-- A piece as it was written. -/
def Piece.source : Piece → List Char
  | .char c => [c]
  | .slot name => '$' :: '{' :: (name ++ ['}'])

/-- A piece with the arguments put in. -/
def Piece.fill (arguments : Object) : Piece → List Char
  | .char c => [c]
  | .slot name =>
    match Object.get? arguments (String.ofList name) with
    | some value => value.coerceChars
    | none => (Piece.slot name).source

def Piece.name? : Piece → Option String
  | .char _ => none
  | .slot name => some (String.ofList name)

/-- The template with its slots filled. -/
def fill (template : String) (arguments : Object) : String :=
  String.ofList ((pieces template.toList).flatMap (Piece.fill arguments))

/-- The names of the slots, in order. -/
def names (template : String) : List String := (pieces template.toList).filterMap Piece.name?

end Grimoire.Template
