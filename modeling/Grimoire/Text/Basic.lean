/-!
# Text as a list of characters

Searching, splitting and trimming over `List Char`, so that proofs about them are inductions on
lists. A blank is a character with the White_Space property.

The operations on text that the library calls: `contains`, `split`, `split_once`, `trim`, `split_whitespace`, `join`.
-/
namespace Grimoire.Text

/-- Membership in a table of closed intervals of code points. -/
def inRanges (table : List (Nat × Nat)) (c : Char) : Bool :=
  table.any fun (low, high) => low ≤ c.toNat && c.toNat ≤ high

/-- The White_Space property. -/
def isBlank (c : Char) : Bool :=
  inRanges [(9, 13), (32, 32), (0x85, 0x85), (0xA0, 0xA0), (0x1680, 0x1680), (0x2000, 0x200A),
    (0x2028, 0x2029), (0x202F, 0x202F), (0x205F, 0x205F), (0x3000, 0x3000)] c

/-- Does the second text hold the first as a contiguous part? -/
def occursIn (part : List Char) : List Char → Bool
  | [] => part.isEmpty
  | c :: cs => part.isPrefixOf (c :: cs) || occursIn part cs

/-- The parts between separators; always one more than there are separators. -/
def split (separator : Char) : List Char → List (List Char)
  | [] => [[]]
  | c :: cs =>
    if c = separator then [] :: split separator cs
    else match split separator cs with
      | [] => [[c]]
      | part :: parts => (c :: part) :: parts

/-- The texts before and after the first separator. -/
def splitOnce (separator : Char) : List Char → Option (List Char × List Char)
  | [] => none
  | c :: cs =>
    if c = separator then some ([], cs)
    else (splitOnce separator cs).map fun (head, tail) => (c :: head, tail)

/-- Without blanks at the front. -/
def trimLeft (cs : List Char) : List Char := cs.dropWhile isBlank

/-- Without blanks at either end. -/
def trim (cs : List Char) : List Char := (trimLeft (trimLeft cs).reverse).reverse

/-- The nonempty parts between characters of a class. -/
def words (separates : Char → Bool) : List Char → List (List Char)
  | [] => []
  | c :: cs =>
    if separates c then words separates cs
    else match cs with
      | [] => [[c]]
      | d :: _ =>
        if separates d then [c] :: words separates cs
        else match words separates cs with
          | [] => [[c]]
          | word :: rest => (c :: word) :: rest

/-- Texts with a separator between neighbours. -/
def join (separator : List Char) : List (List Char) → List Char
  | [] => []
  | [part] => part
  | part :: parts => part ++ separator ++ join separator parts

/-- The number of bytes of a text in UTF-8. -/
def byteLength (cs : List Char) : Nat := (cs.map Char.utf8Size).foldr (· + ·) 0

end Grimoire.Text
