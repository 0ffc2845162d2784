import Grimoire.Text.CaseTable

/-!
# Lower case

Every character has its own lower-case form, with two exceptions: `İ` becomes two characters, and a
capital sigma at the end of a word becomes the final form of the letter. A word ends after a cased
letter that no cased letter follows, where characters that case ignores are stepped over.

`lower` is `to_lowercase`, which keywords, contexts, guardians and the router go through.
-/
namespace Grimoire.Text

def isCased (c : Char) : Bool := inRanges casedTable c

def isCaseIgnorable (c : Char) : Bool := inRanges ignorableTable c

/-- Is the first character that case does not ignore a cased one? -/
def startsCased (cs : List Char) : Bool :=
  match cs.dropWhile isCaseIgnorable with
  | c :: _ => isCased c
  | [] => false

/-- The lower-case form of a character by itself. -/
def lowerChar (c : Char) : List Char :=
  if c.toNat < 128 then [c.toLower]
  else if c = 'İ' then ['i', '\u0307']
  else [shiftBy lowerTable c]

/-- Lower case, given the characters before this part of the text, the nearest first. -/
def lowerAfter (before : List Char) : List Char → List Char
  | [] => []
  | c :: cs =>
    (if c = 'Σ' then if startsCased before && !startsCased cs then ['ς'] else ['σ'] else lowerChar c)
      ++ lowerAfter (c :: before) cs

/-- The lower-case form of a text. -/
def lower (cs : List Char) : List Char := lowerAfter [] cs

def lowerString (s : String) : String := String.ofList (lower s.toList)

/-- The character that stands for all characters equal to it up to case. -/
def foldChar (c : Char) : Char := if c.toNat < 128 then c.toLower else shiftBy foldTable c

end Grimoire.Text
