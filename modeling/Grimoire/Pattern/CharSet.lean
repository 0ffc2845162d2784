import Grimoire.Pattern.Script
import Grimoire.Text.Category
import Grimoire.Text.Lowercase

/-!
# Sets of characters

The classes a pattern can write, as expressions over ranges and named properties, and their members.
When case is ignored, a range or property holds a character as soon as it holds one that is equal to
it up to case; complements and intersections are taken after that.

These are the classes of `Pattern.engine`; triggers know of them through `RegexEngine` alone.
-/
namespace Grimoire.Pattern

/-- Which characters are equal up to case. -/
inductive Folding
  | exact | ascii | full
deriving DecidableEq, Repr

/-- The characters equal to this one up to case. -/
def caseVariants (c : Char) : List Char :=
  let f := Text.foldChar c
  let moved := Text.foldTable.filterMap fun s =>
    let d := Char.ofNat ((f.toNat : Int) - s.distance).toNat
    if s.covers d.toNat then some d else none
  (c :: f :: f.toUpper :: moved).filter fun d => Text.foldChar d == f

def Folding.variants : Folding → Char → List Char
  | exact, c => [c]
  | ascii, c => [c, c.toLower, c.toUpper]
  | full, c => caseVariants c

/-- A property with a fixed table or test. -/
inductive Property
  | word | digit | space
  | categories (cs : List Text.Category)
  | table (ranges : List (Nat × Nat))
  | alphabetic | lowercase | uppercase | cased | ignorable
deriving DecidableEq

/-- Letters that the general category does not show as lower case. -/
def otherLowercase : List (Nat × Nat) :=
  [(0xAA, 0xAA), (0xBA, 0xBA), (0x2B0, 0x2B8), (0x2C0, 0x2C1), (0x2E0, 0x2E4), (0x345, 0x345),
   (0x37A, 0x37A), (0x10FC, 0x10FC), (0x1D2C, 0x1D6A), (0x1D78, 0x1D78), (0x1D9B, 0x1DBF),
   (0x2071, 0x2071), (0x207F, 0x207F), (0x2090, 0x209C), (0x2170, 0x217F), (0x24D0, 0x24E9),
   (0x2C7C, 0x2C7D), (0xA69C, 0xA69D), (0xA770, 0xA770), (0xA7F1, 0xA7F4), (0xA7F8, 0xA7F9),
   (0xAB5C, 0xAB5F), (0xAB69, 0xAB69), (0x10780, 0x10780), (0x10783, 0x10785), (0x10787, 0x107B0),
   (0x107B2, 0x107BA), (0x1E030, 0x1E06D)]

def otherUppercase : List (Nat × Nat) :=
  [(0x2160, 0x216F), (0x24B6, 0x24CF), (0x1F130, 0x1F149), (0x1F150, 0x1F169), (0x1F170, 0x1F189)]

/-- Marks that do not count as letters. -/
def nonAlphabeticMark (c : Char) : Bool :=
  match Text.Category.of c with
  | .nonspacing | .spacing | .enclosing | .decimal | .connector => true
  | _ => Text.inRanges [(0x200C, 0x200D)] c

def Property.holds : Property → Char → Bool
  | word, c => Text.isWordChar c
  | digit, c => Text.isDecimalDigit c
  | space, c => Text.isBlank c
  | categories cs, c => cs.contains (Text.Category.of c)
  | table ranges, c => Text.inRanges ranges c
  | alphabetic, c => Text.isWordChar c && !nonAlphabeticMark c
  | lowercase, c => Text.Category.of c == .lower || Text.inRanges otherLowercase c
  | uppercase, c => Text.Category.of c == .upper || Text.inRanges otherUppercase c
  | cased, c => Text.isCased c
  | ignorable, c => Text.isCaseIgnorable c

inductive CharSet
  | none
  | all
  | range (low high : Char)
  | property (p : Property)
  | negation (a : CharSet)
  | union (a b : CharSet)
  | intersection (a b : CharSet)

def CharSet.holds (f : Folding) : CharSet → Char → Bool
  | none, _ => false
  | all, _ => true
  | range low high, c => (f.variants c).any fun d => low ≤ d && d ≤ high
  | property p, c => (f.variants c).any p.holds
  | negation a, c => !a.holds f c
  | union a b, c => a.holds f c || b.holds f c
  | intersection a b, c => a.holds f c && b.holds f c

namespace CharSet

def singleton (c : Char) : CharSet := range c c

def difference (a b : CharSet) : CharSet := intersection a (negation b)

def symmetricDifference (a b : CharSet) : CharSet := union (difference a b) (difference b a)

def ofRanges (rs : List (Nat × Nat)) : CharSet := property (.table rs)

def negateIf (negated : Bool) (a : CharSet) : CharSet := if negated then negation a else a

end CharSet

/-! ## Named classes -/

def asciiWord : List (Nat × Nat) := [(48, 57), (65, 90), (95, 95), (97, 122)]

def asciiSpace : List (Nat × Nat) := [(9, 13), (32, 32)]

def asciiDigit : List (Nat × Nat) := [(48, 57)]

/-- The classes written `[:name:]`. -/
def asciiClasses : List (String × List (Nat × Nat)) :=
  [("alnum", [(48, 57), (65, 90), (97, 122)]), ("alpha", [(65, 90), (97, 122)]), ("ascii", [(0, 127)]),
   ("blank", [(9, 9), (32, 32)]), ("cntrl", [(0, 31), (127, 127)]), ("digit", asciiDigit),
   ("graph", [(33, 126)]), ("lower", [(97, 122)]), ("print", [(32, 126)]),
   ("punct", [(33, 47), (58, 64), (91, 96), (123, 126)]), ("space", asciiSpace), ("upper", [(65, 90)]),
   ("word", asciiWord), ("xdigit", [(48, 57), (65, 70), (97, 102)])]

/-- General categories by short and by long name, both without blanks and in lower case. -/
def categoryNames : List (List String × List Text.Category) :=
  [(["lu", "uppercaseletter"], [.upper]), (["ll", "lowercaseletter"], [.lower]),
   (["lt", "titlecaseletter"], [.title]), (["lm", "modifierletter"], [.modifier]),
   (["lo", "otherletter"], [.otherLetter]), (["lc", "casedletter"], [.upper, .lower, .title]),
   (["l", "letter"], [.upper, .lower, .title, .modifier, .otherLetter]),
   (["mn", "nonspacingmark"], [.nonspacing]), (["mc", "spacingmark"], [.spacing]),
   (["me", "enclosingmark"], [.enclosing]),
   (["m", "mark", "combiningmark"], [.nonspacing, .spacing, .enclosing]),
   (["nd", "decimalnumber", "digit"], [.decimal]), (["nl", "letternumber"], [.letterNumber]),
   (["no", "othernumber"], [.otherNumber]),
   (["n", "number"], [.decimal, .letterNumber, .otherNumber]),
   (["pc", "connectorpunctuation"], [.connector]), (["pd", "dashpunctuation"], [.dash]),
   (["ps", "openpunctuation"], [.openMark]), (["pe", "closepunctuation"], [.closeMark]),
   (["pi", "initialpunctuation"], [.initialQuote]), (["pf", "finalpunctuation"], [.finalQuote]),
   (["po", "otherpunctuation"], [.otherMark]),
   (["p", "punctuation", "punct"],
    [.connector, .dash, .openMark, .closeMark, .initialQuote, .finalQuote, .otherMark]),
   (["sm", "mathsymbol"], [.math]), (["sc", "currencysymbol"], [.currency]),
   (["sk", "modifiersymbol"], [.modifierSymbol]), (["so", "othersymbol"], [.otherSymbol]),
   (["s", "symbol"], [.math, .currency, .modifierSymbol, .otherSymbol]),
   (["zs", "spaceseparator"], [.space]), (["zl", "lineseparator"], [.line]),
   (["zp", "paragraphseparator"], [.paragraph]), (["z", "separator"], [.space, .line, .paragraph]),
   (["cc", "control", "cntrl"], [.control]), (["cf", "format"], [.format]),
   (["co", "privateuse"], [.privateUse]), (["cn", "unassigned"], [.unassigned]),
   (["c", "other"], [.control, .format, .surrogate, .privateUse, .unassigned])]

/-- Properties that have a test of their own. -/
def namedProperties : List (List String × CharSet) :=
  [(["any"], .all), (["ascii"], .ofRanges [(0, 127)]),
   (["assigned"], .negation (.property (.categories [.unassigned]))),
   (["alphabetic", "alpha"], .property .alphabetic), (["lowercase", "lower"], .property .lowercase),
   (["uppercase", "upper"], .property .uppercase), (["whitespace", "wspace", "space"], .property .space),
   (["cased"], .property .cased), (["caseignorable", "ci"], .property .ignorable)]

/-- A name without blanks, hyphens, underscores, capitals and a leading `is`. -/
def normalizedName (cs : List Char) : String :=
  let bare := (cs.filter fun c => !(Text.isBlank c || c = '_' || c = '-')).map Char.toLower
  match bare with
  | 'i' :: 's' :: c :: rest => String.ofList (c :: rest)
  | _ => String.ofList bare

def categorySet? (name : String) : Option CharSet :=
  (categoryNames.find? (·.1.contains name)).map fun e => .property (.categories e.2)

def scriptSet? (name : String) : Option CharSet :=
  (scriptTable.find? fun e => e.1 == name || e.2.1 == name).map fun e => .ofRanges e.2.2

/-- The class with a property, category or script of this name. -/
def namedSet? (cs : List Char) : Option CharSet :=
  let name := normalizedName cs
  ((namedProperties.find? (·.1.contains name)).map (·.2))
    <|> ((propertyTable.find? (·.1 == name)).map fun e => .ofRanges e.2)
    <|> categorySet? name <|> scriptSet? name

/-- The class where a property has a value. -/
def valueSet? (property value : List Char) : Option CharSet :=
  let value := normalizedName value
  match normalizedName property with
  | "gc" | "generalcategory" => categorySet? value
  | "sc" | "script" | "scx" | "scriptextensions" => scriptSet? value
  | _ => none

end Grimoire.Pattern
