import Grimoire.Source.Token
import Grimoire.Decimal.Numeral

/-!
# Reading tokens

`readToken` recognises one token at the front of a text, by its characters alone; `tokens` repeats it
over a source and adds the places. Blanks, tabs and carriage returns separate tokens and a newline is
a token. A character that starts no token is an error in the strict mode and is skipped in the
lenient one.

| here | there |
| --- | --- |
| `LexMode`, `LexError`       | `LexMode`, `LexError` |
| `Position.advance`          | `Lexer::advance` |
| `readQuoted`                | `Lexer::scan_string` |
| `splitNumber`, `readNumber` | `Lexer::scan_number_from_pos`, `Lexer::consume_digits` |
| `readWord`                  | `Lexer::scan_identifier` |
| `readToken`                 | `Lexer::next_token` |
| `tokensFrom`, `tokens`      | `Lexer::tokenize` with `Lexer::skip_whitespace`; `scan`, `scan_lenient` |
-/
namespace Grimoire.Source

inductive LexMode
  | strict
  | lenient
deriving DecidableEq, Repr

/-- Why a source has no tokens. -/
inductive LexError
  | unexpectedCharacter (c : Char) (line column : Nat)
  | unterminatedString (line column : Nat)
deriving DecidableEq, Repr

def LexError.line : LexError → Nat
  | .unexpectedCharacter _ line _ => line
  | .unterminatedString line _ => line

def LexError.message : LexError → String
  | .unexpectedCharacter c line column =>
    "Unexpected character '" ++ String.ofList [c] ++ "' at line " ++ toString line ++ ", column "
      ++ toString column
  | .unterminatedString line column =>
    "Unterminated string starting at line " ++ toString line ++ ", column " ++ toString column

/-! ## Places -/

/-- A place between two characters of a source. -/
structure Position where
  byte : Nat
  line : Nat
  column : Nat
deriving DecidableEq, Repr

namespace Position

def start : Position := ⟨0, 1, 1⟩

/-- The place after one character. -/
def advance (p : Position) (c : Char) : Position :=
  if c = '\n' then ⟨p.byte + c.utf8Size, p.line + 1, 1⟩ else ⟨p.byte + c.utf8Size, p.line, p.column + 1⟩

def advanceAll (p : Position) (cs : List Char) : Position := cs.foldl advance p

end Position

/-! ## One token -/

def isSeparator (c : Char) : Bool := c = ' ' || c = '\t' || c = '\r'

def isAsciiDigit (c : Char) : Bool := '0' ≤ c && c ≤ '9'

def startsWord (c : Char) : Bool := ('a' ≤ c && c ≤ 'z') || ('A' ≤ c && c ≤ 'Z') || c = '_'

def continuesWord (c : Char) : Bool := startsWord c || isAsciiDigit c

/-- What stands at the front of a text. -/
inductive Reading
  | token (kind : Kind) (lexeme rest : List Char)
  /-- A string without its closing quote. -/
  | unterminated
  /-- A character that starts no token. -/
  | unexpected

/-- The character that a backslash and this one stand for in a string. -/
def unescape? : Char → Option Char
  | 'n' => some '\n'
  | 't' => some '\t'
  | 'r' => some '\r'
  | '\\' => some '\\'
  | '"' => some '"'
  | _ => none

/-- The part of a string after its opening quote. -/
structure Quoted where
  value : List Char
  /-- The characters read, the closing quote included. -/
  lexeme : List Char
  rest : List Char

/-- Read up to the closing quote. A backslash before any other character stands for itself. -/
def readQuoted : List Char → Option Quoted
  | [] => none
  | '"' :: rest => some ⟨[], ['"'], rest⟩
  | '\\' :: c :: rest =>
    match unescape? c with
    | some x => (readQuoted rest).map fun q => ⟨x :: q.value, '\\' :: c :: q.lexeme, q.rest⟩
    | none => (readQuoted (c :: rest)).map fun q => ⟨'\\' :: q.value, '\\' :: q.lexeme, q.rest⟩
  | c :: rest => (readQuoted rest).map fun q => ⟨c :: q.value, c :: q.lexeme, q.rest⟩

/-- The digits at the front, a point and more digits if a digit follows the point, and the rest. -/
def splitNumber (cs : List Char) : List Char × List Char × List Char :=
  let whole := cs.takeWhile isAsciiDigit
  match cs.dropWhile isAsciiDigit with
  | '.' :: d :: rest =>
    if isAsciiDigit d then
      (whole, (d :: rest).takeWhile isAsciiDigit, (d :: rest).dropWhile isAsciiDigit)
    else (whole, [], '.' :: d :: rest)
  | rest => (whole, [], rest)

/-- The number token of a sign and the digits after it. -/
def readNumber (sign : List Char) (cs : List Char) : Reading :=
  let (whole, fraction, rest) := splitNumber cs
  let value := Decimal.Numeral.nearest
    ⟨!sign.isEmpty, (Decimal.takeDigits whole).1, (Decimal.takeDigits fraction).1, none⟩
  let point := if fraction.isEmpty then [] else ['.']
  .token (.number value) (sign ++ whole ++ point ++ fraction) rest

/-- A word is reserved or an identifier. -/
def readWord (cs : List Char) : Reading :=
  let word := cs.takeWhile continuesWord
  .token ((Kind.ofReserved? word).getD (.identifier word)) word (cs.dropWhile continuesWord)

/-- The token at the front of the text `c :: cs`, which starts with no separator. -/
def readToken (c : Char) (cs : List Char) : Reading :=
  let sign (s : Symbol) : Reading := .token (.symbol s) [c] cs
  match c with
  | '@' => sign .at
  | '{' => sign .openBrace
  | '}' => sign .closeBrace
  | '[' => sign .openBracket
  | ']' => sign .closeBracket
  | '(' => sign .openParen
  | ')' => sign .closeParen
  | ',' => sign .comma
  | '#' => sign .hash
  | '\n' => .token .newline [c] cs
  | ':' =>
    match cs with
    | ':' :: rest => .token (.symbol .doubleColon) [':', ':'] rest
    | _ => sign .colon
  | '"' =>
    match readQuoted cs with
    | some q => .token (.string q.value) ('"' :: q.lexeme) q.rest
    | none => .unterminated
  | '-' =>
    match cs with
    | d :: _ => if isAsciiDigit d then readNumber ['-'] cs else .unexpected
    | [] => .unexpected
  | c =>
    if isAsciiDigit c then readNumber [] (c :: cs)
    else if startsWord c then readWord (c :: cs)
    else .unexpected

/-! ## A token leaves less to read -/

theorem suffix_of_readQuoted {cs : List Char} {q : Quoted} (h : readQuoted cs = some q) : q.rest <:+ cs := by
  fun_induction readQuoted cs generalizing q with
  | case1 => cases h
  | case2 rest =>
    obtain rfl := Option.some.inj h
    exact List.suffix_cons _ _
  | case3 c rest x hx ih =>
    obtain ⟨q', hq, rfl⟩ := Option.map_eq_some_iff.1 h
    exact ((ih hq).trans (List.suffix_cons _ _)).trans (List.suffix_cons _ _)
  | case4 c rest hx ih =>
    obtain ⟨q', hq, rfl⟩ := Option.map_eq_some_iff.1 h
    exact (ih hq).trans (List.suffix_cons _ _)
  | case5 c rest _ _ ih =>
    obtain ⟨q', hq, rfl⟩ := Option.map_eq_some_iff.1 h
    exact (ih hq).trans (List.suffix_cons _ _)

/-- The rest of a number is an end of what is left after its first digits. -/
theorem suffix_of_splitNumber {cs tail : List Char} (h : cs.dropWhile isAsciiDigit <:+ tail) :
    (splitNumber cs).2.2 <:+ tail := by
  unfold splitNumber
  dsimp only
  split
  · next d rest hdrop =>
    rw [hdrop] at h
    split
    · exact ((List.dropWhile_suffix _).trans (List.suffix_cons _ _)).trans h
    · exact h
  · exact h

/-- **Every token takes at least the first character**: what is left is an end of what follows that. -/
theorem suffix_of_readToken {c : Char} {cs lexeme rest : List Char} {kind : Kind}
    (h : readToken c cs = .token kind lexeme rest) : rest <:+ cs := by
  unfold readToken at h
  split at h
  all_goals try
    obtain ⟨-, -, rfl⟩ := Reading.token.inj h
    exact List.suffix_refl _
  · split at h
    · obtain ⟨-, -, rfl⟩ := Reading.token.inj h
      exact List.suffix_cons _ _
    · obtain ⟨-, -, rfl⟩ := Reading.token.inj h
      exact List.suffix_refl _
  · split at h
    · next q hq =>
      obtain ⟨-, -, rfl⟩ := Reading.token.inj h
      exact suffix_of_readQuoted hq
    · cases h
  · split at h
    · split at h
      · obtain ⟨-, -, rfl⟩ := Reading.token.inj h
        exact suffix_of_splitNumber (List.dropWhile_suffix _)
      · cases h
    · cases h
  · split at h
    · next hdigit =>
      obtain ⟨-, -, rfl⟩ := Reading.token.inj h
      refine suffix_of_splitNumber ?_
      rw [List.dropWhile_cons_of_pos hdigit]
      exact List.dropWhile_suffix _
    · split at h
      · next hstart =>
        have hword : continuesWord c = true := by simp [continuesWord, hstart]
        obtain ⟨-, -, rfl⟩ := Reading.token.inj h
        rw [List.dropWhile_cons_of_pos hword]
        exact List.dropWhile_suffix _
      · cases h

theorem length_rest_readToken {c : Char} {cs lexeme rest : List Char} {kind : Kind}
    (h : readToken c cs = .token kind lexeme rest) : rest.length < (c :: cs).length :=
  Nat.lt_succ_of_le (suffix_of_readToken h).length_le

/-! ## All tokens -/

/-- The token of a kind and a lexeme that starts at a place. -/
def Token.at (p : Position) (kind : Kind) (lexeme : List Char) : Token :=
  ⟨kind, lexeme, p.byte, (p.advanceAll lexeme).byte, p.line, p.column⟩

/-- The tokens of a text that starts at a place, and the end of input after them. -/
def tokensFrom (mode : LexMode) (p : Position) : List Char → Except LexError (List Token)
  | [] => .ok [Token.at p .endOfInput []]
  | c :: cs =>
    if isSeparator c then tokensFrom mode (p.advance c) cs
    else
      match h : readToken c cs with
      | .token kind lexeme rest =>
        have := length_rest_readToken h
        match tokensFrom mode (p.advanceAll lexeme) rest with
        | .ok ts => .ok (Token.at p kind lexeme :: ts)
        | .error e => .error e
      | .unterminated => .error (.unterminatedString p.line p.column)
      | .unexpected =>
        match mode with
        | .strict => .error (.unexpectedCharacter c p.line p.column)
        | .lenient => tokensFrom mode (p.advance c) cs
termination_by cs => cs.length
decreasing_by
  all_goals
    simp only [List.length_cons] at *
    omega

/-- The tokens of a source; the last and only the last is the end of input. -/
def tokens (mode : LexMode) (source : List Char) : Except LexError (List Token) :=
  tokensFrom mode .start source

end Grimoire.Source
