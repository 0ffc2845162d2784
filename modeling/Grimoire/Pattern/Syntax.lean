import Grimoire.Pattern.Node
import Grimoire.Decimal.Numeral

/-!
# Reading patterns

The usual notation: literals, classes with set operations, anchors, groups with names and flags, and
counted repetitions, but neither looking around nor references back to a group. `parse?` gives the
tree of a pattern and the names of its groups, or `none` when the pattern is not well formed.

These are the notation of `Pattern.engine`; triggers know of them through `RegexEngine` alone.
-/
namespace Grimoire.Pattern

/-! ## Flags -/

structure Flags where
  /-- `i`: case is ignored. -/
  ignoreCase : Bool := false
  /-- `m`: `^` and `$` stand at the ends of lines. -/
  multiLine : Bool := false
  /-- `s`: the dot takes a line end too. -/
  dotAll : Bool := false
  /-- `U`: repetitions prefer fewer rounds. -/
  swapGreed : Bool := false
  /-- `u`: classes and case are those of all scripts. -/
  unicode : Bool := true
  /-- `R`: a carriage return ends a line too. -/
  crlf : Bool := false
  /-- `x`: blanks and comments are skipped. -/
  verbose : Bool := false

def Flags.set? (f : Flags) (c : Char) (on : Bool) : Option Flags :=
  match c with
  | 'i' => some { f with ignoreCase := on }
  | 'm' => some { f with multiLine := on }
  | 's' => some { f with dotAll := on }
  | 'U' => some { f with swapGreed := on }
  | 'u' => some { f with unicode := on }
  | 'R' => some { f with crlf := on }
  | 'x' => some { f with verbose := on }
  | _ => none

def Flags.folding (f : Flags) : Folding :=
  if !f.ignoreCase then .exact else if f.unicode then .full else .ascii

/-- Blanks and comments at the front, which only the verbose notation has. -/
def skipVerbose (f : Flags) (inComment : Bool) : List Char → List Char
  | [] => []
  | c :: cs =>
    if !f.verbose then c :: cs
    else if inComment then skipVerbose f (c != '\n') cs
    else if Text.isBlank c then skipVerbose f false cs
    else if c = '#' then skipVerbose f true cs
    else c :: cs

/-! ## Escapes -/

/-- What an escape stands for. -/
inductive Escape
  | literal (c : Char)
  | set (s : CharSet)
  | look (l : Look)

def hexValue? (c : Char) : Option Nat :=
  if '0' ≤ c ∧ c ≤ '9' then some (c.toNat - '0'.toNat)
  else if 'a' ≤ c ∧ c ≤ 'f' then some (c.toNat - 'a'.toNat + 10)
  else if 'A' ≤ c ∧ c ≤ 'F' then some (c.toNat - 'A'.toNat + 10)
  else none

/-- The character with this code in hexadecimal digits. -/
def ofHex? (cs : List Char) : Option Char := do
  let ds ← cs.mapM hexValue?
  if ds.isEmpty then none
  else
    let n := ds.foldl (fun n d => 16 * n + d) 0
    if n < 0xD800 ∨ (0xDFFF < n ∧ n < 0x110000) then some (Char.ofNat n) else none

/-- The text up to the closing brace, and what follows the brace. -/
def untilBrace : List Char → Option (List Char × List Char)
  | [] => none
  | c :: cs => if c = '}' then some ([], cs) else (untilBrace cs).map fun (a, b) => (c :: a, b)

/-- Digits in braces, or exactly so many of them. -/
def readHex (count : Nat) (cs : List Char) : Option (Char × List Char) := do
  match cs with
  | '{' :: cs =>
    let (digits, rest) ← untilBrace cs
    return (← ofHex? digits, rest)
  | _ => if cs.length < count then none else return (← ofHex? (cs.take count), cs.drop count)

/-- The class after `\p`: one letter, a name, or a property and its value. -/
def readProperty (negated : Bool) (cs : List Char) : Option (CharSet × List Char) := do
  match cs with
  | '{' :: cs =>
    let (name, rest) ← untilBrace cs
    let valued (separator : List Char) (before after : List Char) : Option CharSet :=
      let set? := valueSet? before after
      if separator = ['!', '='] then set?.map .negation else set?
    let before := name.takeWhile fun c => c != '=' && c != ':' && c != '!'
    let set ← match name.drop before.length with
      | [] => namedSet? name
      | '!' :: '=' :: value => valued ['!', '='] before value
      | '=' :: value | ':' :: value => valued ['='] before value
      | _ => none
    return (set.negateIf negated, rest)
  | c :: rest =>
    let set ← namedSet? [c]
    return (set.negateIf negated, rest)
  | [] => none

/-- The class of `\d`, `\s` and `\w`, and their complements as capitals. -/
def perlSet? (f : Flags) (c : Char) : Option CharSet :=
  let pick (full : Property) (ascii : List (Nat × Nat)) : CharSet :=
    if f.unicode then .property full else .ofRanges ascii
  match c with
  | 'd' => some (pick .digit asciiDigit)
  | 's' => some (pick .space asciiSpace)
  | 'w' => some (pick .word asciiWord)
  | 'D' => if f.unicode then some (.negation (pick .digit asciiDigit)) else none
  | 'S' => if f.unicode then some (.negation (pick .space asciiSpace)) else none
  | 'W' => if f.unicode then some (.negation (pick .word asciiWord)) else none
  | _ => none

def isBoundaryNameChar (c : Char) : Bool := ('a' ≤ c && c ≤ 'z') || ('A' ≤ c && c ≤ 'Z') || c = '-'

/-- The test after `\b`; a brace that a letter follows must hold the name of one. -/
def readBoundary (f : Flags) (cs : List Char) : Option (Look × List Char) :=
  let ascii := !f.unicode
  match cs with
  | '{' :: inner =>
    match inner with
    | [] => none
    | c :: _ =>
      if isBoundaryNameChar c then
        match inner.takeWhile isBoundaryNameChar, inner.dropWhile isBoundaryNameChar with
        | name, '}' :: rest =>
          match String.ofList name with
          | "start" => some (.wordStart ascii, rest)
          | "end" => some (.wordEnd ascii, rest)
          | "start-half" => some (.wordStartHalf ascii, rest)
          | "end-half" => some (.wordEndHalf ascii, rest)
          | _ => none
        | _, _ => none
      else some (.boundary ascii false, cs)
  | _ => some (.boundary ascii false, cs)

/-- An escape after its backslash. ASCII signs stand for themselves; of the letters and digits only
those with a meaning may be escaped. -/
def readEscape (f : Flags) (cs : List Char) : Option (Escape × List Char) :=
  match cs with
  | [] => none
  | c :: rest =>
    let literal (c : Char) : Option (Escape × List Char) := some (.literal c, rest)
    let hex (count : Nat) : Option (Escape × List Char) :=
      (readHex count rest).bind fun (c, rest) =>
        if f.unicode || c.toNat < 128 then some (.literal c, rest) else none
    match c with
    | 'x' => hex 2
    | 'u' => hex 4
    | 'U' => hex 8
    | 'p' => if f.unicode then (readProperty false rest).map fun (s, r) => (.set s, r) else none
    | 'P' => if f.unicode then (readProperty true rest).map fun (s, r) => (.set s, r) else none
    | 'a' => literal '\x07'
    | 'f' => literal '\x0c'
    | 't' => literal '\t'
    | 'n' => literal '\n'
    | 'r' => literal '\r'
    | 'v' => literal '\x0b'
    | 'A' => some (.look .start, rest)
    | 'z' => some (.look .finish, rest)
    | 'b' => (readBoundary f rest).map fun (l, r) => (.look l, r)
    | 'B' => if f.unicode then some (.look (.boundary false true), rest) else none
    | '<' => some (.look (.wordStart (!f.unicode)), rest)
    | '>' => some (.look (.wordEnd (!f.unicode)), rest)
    | _ =>
      match perlSet? f c with
      | some s => some (.set s, rest)
      | none => if c.toNat < 128 && !c.isAlphanum then literal c else none

/-! ## Classes in brackets -/

/-- A set operation whose left side is known. -/
inductive SetOperation
  | intersection | difference | symmetricDifference

/-- An open bracket: is it negated, the left side of a pending operation, and the items so far. -/
structure OpenClass where
  negated : Bool
  pending : Option (SetOperation × CharSet) := none
  items : CharSet := .none

/-- The set of the pending operation and the items behind it. -/
def OpenClass.combined (o : OpenClass) : CharSet :=
  match o.pending with
  | none => o.items
  | some (.intersection, a) => .intersection a o.items
  | some (.difference, a) => .difference a o.items
  | some (.symmetricDifference, a) => .symmetricDifference a o.items

def OpenClass.add (o : OpenClass) (s : CharSet) : OpenClass := { o with items := .union o.items s }

def OpenClass.operate (o : OpenClass) (op : SetOperation) : OpenClass :=
  { o with pending := some (op, o.combined), items := .none }

/-- Hyphens at the front stand for themselves, and so does a closing bracket that comes first. -/
def leadingHyphens (f : Flags) : Nat → OpenClass → List Char → OpenClass × List Char
  | 0, o, cs => (o, cs)
  | fuel + 1, o, cs =>
    match cs with
    | '-' :: rest => leadingHyphens f fuel (o.add (.singleton '-')) (skipVerbose f false rest)
    | _ => (o, cs)

/-- What follows an opening bracket before the first ordinary item. -/
def openClass (f : Flags) (cs : List Char) : Option (OpenClass × List Char) :=
  let cs := skipVerbose f false cs
  let (negated, cs) := match cs with
    | '^' :: rest => (true, skipVerbose f false rest)
    | _ => (false, cs)
  if negated && !f.unicode then none
  else
    let (o, rest) := leadingHyphens f cs.length { negated } cs
    match cs, rest with
    | ']' :: tail, _ => some (o.add (.singleton ']'), skipVerbose f false tail)
    | _, [] => none
    | _, _ => some (o, rest)

/-- A class `[:name:]`, if the text after the bracket is one. -/
def readAsciiClass (cs : List Char) : Option (CharSet × List Char) :=
  match cs with
  | ':' :: cs =>
    let (negated, cs) := match cs with
      | '^' :: rest => (true, rest)
      | _ => (false, cs)
    let name := cs.takeWhile (· != ':')
    match cs.drop name.length with
    | ':' :: ']' :: rest =>
      (asciiClasses.find? (·.1.toList == name)).map fun e =>
        ((CharSet.ofRanges e.2).negateIf negated, rest)
    | _ => none
  | _ => none

/-- One character or escape of a class. -/
def readClassItem (f : Flags) (cs : List Char) : Option (Escape × List Char) :=
  match cs with
  | [] => none
  | '\\' :: rest => readEscape f rest
  | c :: rest => if f.unicode || c.toNat < 128 then some (.literal c, rest) else none

/-- One character, one escaped class, or a range between two characters. -/
def readClassRange (f : Flags) (cs : List Char) : Option (CharSet × List Char) := do
  let (first, rest) ← readClassItem f cs
  let rest := skipVerbose f false rest
  let alone : Option (CharSet × List Char) := match first with
    | .literal c => some (.singleton c, rest)
    | .set s => some (s, rest)
    | .look _ => none
  match rest with
  | '-' :: after =>
    match skipVerbose f false after with
    | ']' :: _ | '-' :: _ => alone
    | after =>
      let (second, rest) ← readClassItem f after
      match first, second with
      | .literal a, .literal b => if a ≤ b then some (.range a b, rest) else none
      | _, _ => none
  | [] => none
  | _ => alone

/-- A class after its opening bracket; brackets inside open further classes. -/
def readClass (f : Flags) : Nat → List OpenClass → List Char → Option (CharSet × List Char)
  | 0, _, _ => none
  | _ + 1, [], _ => none
  | fuel + 1, o :: outer, cs =>
    match skipVerbose f false cs with
    | [] => none
    | '[' :: rest =>
      match readAsciiClass rest with
      | some (s, rest) => readClass f fuel (o.add s :: outer) rest
      | none =>
        match openClass f rest with
        | some (inner, rest) => readClass f fuel (inner :: o :: outer) rest
        | none => none
    | ']' :: rest =>
      let set := o.combined.negateIf o.negated
      match outer with
      | [] => some (set, rest)
      | up :: outer => readClass f fuel (up.add set :: outer) rest
    | '&' :: '&' :: rest => readClass f fuel (o.operate .intersection :: outer) rest
    | '-' :: '-' :: rest => readClass f fuel (o.operate .difference :: outer) rest
    | '~' :: '~' :: rest => readClass f fuel (o.operate .symmetricDifference :: outer) rest
    | cs =>
      match readClassRange f cs with
      | some (s, rest) => readClass f fuel (o.add s :: outer) rest
      | none => none

/-! ## Repetitions -/

/-- A count with blanks around it. -/
def readCount (cs : List Char) : Option (Nat × List Char) :=
  match Decimal.takeDigits (cs.dropWhile Text.isBlank) with
  | ([], _) => none
  | (ds, rest) =>
    if Decimal.ofDigits ds < Nat.pow 2 32 then some (Decimal.ofDigits ds, rest.dropWhile Text.isBlank)
    else none

/-- The bounds after an opening brace. -/
def readBounds (f : Flags) (cs : List Char) : Option (Nat × Option Nat × List Char) := do
  let (least, rest) ← readCount (skipVerbose f false cs)
  match rest with
  | '}' :: rest => return (least, some least, rest)
  | ',' :: rest =>
    match skipVerbose f false rest with
    | '}' :: rest => return (least, none, rest)
    | rest =>
      let (most, rest) ← readCount rest
      match rest with
      | '}' :: rest => if least ≤ most then return (least, some most, rest) else none
      | _ => none
  | _ => none

/-! ## Groups -/

/-- What stands between `(?` and the colon or closing parenthesis: flags, each at most once, those
after a hyphen switched off. -/
def readFlags : (seen : List Char) → (off : Bool) → (last : Bool) → Flags → List Char →
    Option (Flags × List Char)
  | _, _, _, _, [] => none
  | seen, off, last, f, c :: cs =>
    if c = ':' ∨ c = ')' then if last then none else some (f, c :: cs)
    else if c = '-' then if off then none else readFlags seen true true f cs
    else if seen.contains c then none
    else
      match f.set? c (!off) with
      | some f => readFlags (c :: seen) off false f cs
      | none => none

def isNameStart (c : Char) : Bool := c = '_' || Property.alphabetic.holds c

def continuesName (c : Char) : Bool :=
  c = '_' || c = '.' || c = '[' || c = ']' || Property.alphabetic.holds c
    || (match Text.Category.of c with
        | .decimal | .letterNumber | .otherNumber => true
        | _ => false)

/-- A group name up to the closing angle. -/
def readName (cs : List Char) : Option (String × List Char) :=
  match cs with
  | c :: _ =>
    if isNameStart c then
      match cs.dropWhile continuesName with
      | '>' :: rest => some (String.ofList (cs.takeWhile continuesName), rest)
      | _ => none
    else none
  | [] => none

/-- The groups opened so far: the name of each, if it has one. -/
abbrev GroupNames := List (Option String)

/-- Groups stand inside each other at most so deep. -/
def maxNesting : Nat := 250

/-- One item of a sequence; flags are no operand of a repetition. -/
abbrev Item := Option Node

/-- The choice of the finished alternatives and the sequence in progress, all in reverse. -/
def finish (done : List Node) (items : List Item) : Node :=
  Node.ofChoices ((Node.ofList (items.reverse.filterMap id) :: done).reverse)

def dot (f : Flags) : Option Node :=
  if !f.unicode then none
  else if f.dotAll then some (.set .all .exact)
  else
    let lineEnd := if f.crlf then .union (.singleton '\n') (.singleton '\r') else .singleton '\n'
    some (.set (.negation lineEnd) .exact)

/-- The alternatives up to the closing parenthesis or the end of the pattern. -/
def readChoices (depth : Nat) : Nat → Flags → GroupNames → List Node → List Item → List Char →
    Option (Node × GroupNames × List Char)
  | 0, _, _, _, _, _ => none
  | fuel + 1, f, names, done, items, cs =>
    let go (items : List Item) (rest : List Char) := readChoices depth fuel f names done items rest
    let repeated (least : Nat) (most : Option Nat) (rest : List Char) :=
      match items with
      | some body :: before =>
        let (lazy, rest) := match rest with
          | '?' :: rest => (true, rest)
          | _ => (false, rest)
        go (some (.repetition (lazy == f.swapGreed) least most body) :: before) rest
      | _ => none
    match skipVerbose f false cs with
    | [] => some (finish done items, names, [])
    | ')' :: rest => some (finish done items, names, ')' :: rest)
    | '|' :: rest =>
      readChoices depth fuel f names (Node.ofList (items.reverse.filterMap id) :: done) [] rest
    | '*' :: rest => repeated 0 none (skipVerbose f false rest)
    | '+' :: rest => repeated 1 none (skipVerbose f false rest)
    | '?' :: rest => repeated 0 (some 1) (skipVerbose f false rest)
    | '{' :: rest =>
      match readBounds f rest with
      | some (least, most, rest) => repeated least most (skipVerbose f false rest)
      | none => none
    | '[' :: rest =>
      match openClass f rest with
      | none => none
      | some (o, rest) =>
        match readClass f (rest.length + 1) [o] rest with
        | some (s, rest) => go (some (.set s f.folding) :: items) rest
        | none => none
    | '.' :: rest =>
      match dot f with
      | some n => go (some n :: items) rest
      | none => none
    | '^' :: rest =>
      go (some (.look (if f.multiLine then .lineStart f.crlf else .start)) :: items) rest
    | '$' :: rest =>
      go (some (.look (if f.multiLine then .lineEnd f.crlf else .finish)) :: items) rest
    | '\\' :: rest =>
      match readEscape f rest with
      | some (.literal c, rest) => go (some (.set (.singleton c) f.folding) :: items) rest
      | some (.set s, rest) => go (some (.set s f.folding) :: items) rest
      | some (.look l, rest) => go (some (.look l) :: items) rest
      | none => none
    | '(' :: rest =>
      let rest := skipVerbose f false rest
      let inner (g : Flags) (number? : Option Nat) (names : GroupNames) (rest : List Char) :=
        match depth with
        | 0 => none
        | depth + 1 =>
          match readChoices depth fuel g names [] [] rest with
          | some (body, names, ')' :: rest) =>
            let node := number?.elim body (Node.group · body)
            readChoices (depth + 1) fuel f names done (some node :: items) rest
          | _ => none
      let named (rest : List Char) :=
        match readName rest with
        | some (name, rest) =>
          if names.contains (some name) then none
          else inner f (some (names.length + 1)) (names ++ [some name]) rest
        | none => none
      match rest with
      | '?' :: '=' :: _ | '?' :: '!' :: _ | '?' :: '<' :: '=' :: _ | '?' :: '<' :: '!' :: _ => none
      | '?' :: 'P' :: '<' :: rest | '?' :: '<' :: rest => named rest
      | '?' :: rest =>
        match readFlags [] false false f rest with
        | some (g, ':' :: after) => inner g none names after
        | some (g, ')' :: after) =>
          if rest.head? = some ')' then none
          else readChoices depth fuel g names done (none :: items) after
        | _ => none
      | rest => inner f (some (names.length + 1)) (names ++ [none]) rest
    | c :: rest => go (some (.set (.singleton c) f.folding) :: items) rest
termination_by structural fuel => fuel

/-- A pattern's tree may compile to so many instructions. -/
def maxCost : Nat := 400000

/-- The tree of a pattern and the names of its groups, from the first on. -/
def parse? (ignoreCase : Bool) (pattern : List Char) : Option (Node × GroupNames) :=
  match readChoices maxNesting (pattern.length + 1) { ignoreCase } [] [] [] pattern with
  | some (node, names, []) => if node.cost ≤ maxCost then some (node, names) else none
  | _ => none

end Grimoire.Pattern
