import Grimoire.Decimal.Shortest
import Grimoire.Text.Basic

/-!
# Names of workflow runs

The runs of one orchestrator are numbered in the order of their start. An id read from stored data is
a UUID, written as 32 hexadecimal digits with or without hyphens, braces or the `urn:uuid:` label.

`InstanceId.numbered` stands for `new_instance_id`, whose ids differ and grow with time; only that is
used of them.
-/
namespace Grimoire.Event

inductive InstanceId
  | numbered (n : Nat)
  | uuid (value : Nat)
deriving DecidableEq, Repr, Inhabited

namespace InstanceId

def hexDigit? (c : Char) : Option Nat :=
  if '0' ≤ c ∧ c ≤ '9' then some (c.toNat - '0'.toNat)
  else if 'a' ≤ c ∧ c ≤ 'f' then some (c.toNat - 'a'.toNat + 10)
  else if 'A' ≤ c ∧ c ≤ 'F' then some (c.toNat - 'A'.toNat + 10)
  else none

/-- The value of 32 hexadecimal digits. -/
def ofHex? (cs : List Char) : Option Nat := do
  let ds ← cs.mapM hexDigit?
  if ds.length = 32 then return ds.foldl (fun n d => 16 * n + d) 0 else none

/-- Groups of 8, 4, 4, 4 and 12 digits between hyphens, or all digits in one group. -/
def ofPlain? (cs : List Char) : Option Nat :=
  match Text.split '-' cs with
  | [digits] => ofHex? digits
  | groups =>
    if groups.map List.length = [8, 4, 4, 4, 12] then ofHex? groups.flatten else none

def ofText? (s : String) : Option InstanceId :=
  let cs := s.toList
  let hyphenated? (cs : List Char) : Option Nat := if cs.length = 36 then ofPlain? cs else none
  let value? :=
    if cs.length = 38 ∧ cs.head? = some '{' ∧ cs.getLast? = some '}' then
      hyphenated? (cs.drop 1).dropLast
    else if "urn:uuid:".toList.isPrefixOf cs then hyphenated? (cs.drop 9)
    else ofPlain? cs
  value?.map uuid

/-- A numbered run is `instance-n`, a UUID has its five hyphenated groups. -/
def text : InstanceId → String
  | numbered n => "instance-" ++ toString n
  | uuid value =>
    let ds := Nat.toDigits 16 value
    let cs := List.replicate (32 - ds.length) '0' ++ ds
    String.ofList (Text.join ['-']
      [cs.take 8, (cs.drop 8).take 4, (cs.drop 12).take 4, (cs.drop 16).take 4, cs.drop 20])

end InstanceId

end Grimoire.Event
