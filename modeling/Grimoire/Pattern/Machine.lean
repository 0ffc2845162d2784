import Grimoire.Pattern.Syntax

/-!
# Searching for patterns

A pattern compiles to a list of instructions, and a search runs all ways through it side by side: a
thread for each instruction that can be reached, in the order of preference, so that the time taken
is bounded by the size of the program times the length of the text. The match found begins as early
as one can and takes the preferred way from there.

These are the search of `Pattern.engine`; triggers know of them through `RegexEngine` alone.
-/
namespace Grimoire.Pattern

/-! ## Programs -/

inductive Instruction
  | set (s : CharSet) (f : Folding)
  | look (l : Look)
  /-- Go on at the first address, or else at the second. -/
  | fork (first second : Nat)
  | jump (address : Nat)
  /-- Keep the place in the slot. -/
  | save (slot : Nat)
  | accept
deriving Inhabited

abbrev Program := Array Instruction

/-- A fork to the next instruction or to an address, in the order of greed. -/
def forkTo (greedy : Bool) (inside outside : Nat) : Instruction :=
  if greedy then .fork inside outside else .fork outside inside

/-- Append code as often as told. -/
def appendTimes (code : Program → Program) : Nat → Program → Program
  | 0, p => p
  | count + 1, p => appendTimes code count (code p)

/-- One more optional round, and behind it the rest; each may leave to the common end. -/
def appendOptional (greedy : Bool) (code : Program → Program) : Nat → Program → Program
  | 0, p => p
  | count + 1, p =>
    let fork := p.size
    let p := appendOptional greedy code count (code (p.push .accept))
    p.setIfInBounds fork (forkTo greedy (fork + 1) p.size)

/-- One round or more: behind each round a fork back. -/
def appendRounds (greedy : Bool) (code : Program → Program) (p : Program) : Program :=
  let start := p.size
  let p := code p
  p.push (forkTo greedy start (p.size + 1))

/-- Append the code of a node; it falls through to its end. Where the body of an unbounded repetition
may match nothing, no round at all is preferred last, not first, to an empty round. -/
def Node.append : Node → Program → Program
  | .empty, p => p
  | .set s f, p => p.push (.set s f)
  | .look l, p => p.push (.look l)
  | .seq a b, p => b.append (a.append p)
  | .choice a b, p =>
    let fork := p.size
    let p := a.append (p.push .accept)
    let leave := p.size
    let p := b.append (p.push .accept)
    (p.setIfInBounds fork (.fork (fork + 1) (leave + 1))).setIfInBounds leave (.jump p.size)
  | .repetition greedy least most body, p =>
    match most, least with
    | some most, _ =>
      appendOptional greedy body.append (most - least) (appendTimes body.append least p)
    | none, 0 =>
      let fork := p.size
      if body.nullable then
        let p := appendRounds greedy body.append (p.push .accept)
        p.setIfInBounds fork (forkTo greedy (fork + 1) p.size)
      else
        let p := (body.append (p.push .accept)).push (.jump fork)
        p.setIfInBounds fork (forkTo greedy (fork + 1) p.size)
    | none, least + 1 => appendRounds greedy body.append (appendTimes body.append least p)
  | .group number body, p =>
    (body.append (p.push (.save (2 * number)))).push (.save (2 * number + 1))

/-- The program of a whole pattern. -/
def Node.compile (n : Node) : Program := (n.append #[]).push .accept

/-! ## Threads -/

/-- The places kept, one for each slot. -/
abbrev Slots := Array (Option Nat)

structure Thread where
  address : Nat
  slots : Slots

/-- Where a thread stands in the text. -/
structure Place where
  index : Nat
  before : Option Char
  after : Option Char

/-- Follow all instructions that take no character, from the threads on the stack on; an address is
visited once, by the preferred thread. The threads found are in reverse. -/
def follow (p : Program) (place : Place) : (fuel : Nat) → (stack : List Thread) →
    (visited : Array Bool) → (found : List Thread) → Array Bool × List Thread
  | 0, _, visited, found | _ + 1, [], visited, found => (visited, found)
  | fuel + 1, t :: stack, visited, found =>
    if visited[t.address]?.getD true then follow p place fuel stack visited found
    else
      let visited := visited.setIfInBounds t.address true
      match p[t.address]? with
      | some (.fork a b) =>
        follow p place fuel ({ t with address := a } :: { t with address := b } :: stack) visited found
      | some (.jump a) => follow p place fuel ({ t with address := a } :: stack) visited found
      | some (.look l) =>
        let stack :=
          if l.holds place.before place.after then { t with address := t.address + 1 } :: stack else stack
        follow p place fuel stack visited found
      | some (.save slot) =>
        let t := ⟨t.address + 1, t.slots.setIfInBounds slot (some place.index)⟩
        follow p place fuel (t :: stack) visited found
      | _ => follow p place fuel stack visited (t :: found)

/-- The threads after one character, in order, up to the first that accepts; the slots of that one. -/
def advance (p : Program) (c? : Option Char) : List Thread → List Thread × Option Slots
  | [] => ([], none)
  | t :: ts =>
    match p[t.address]? with
    | some .accept => ([], some t.slots)
    | some (.set s f) =>
      let (next, accepted) := advance p c? ts
      if c?.any (s.holds f) then ({ t with address := t.address + 1 } :: next, accepted)
      else (next, accepted)
    | _ => advance p c? ts

/-- Search from a place on. New threads begin, behind all others, until something was found. -/
def search (p : Program) (slots : Nat) : (index : Nat) → (before : Option Char) → List Thread →
    (best : Option Slots) → List Char → Option Slots
  | index, before, threads, best, cs =>
    let place : Place := ⟨index, before, cs.head?⟩
    let fresh : Slots := (Array.replicate slots none).setIfInBounds 0 (some index)
    let threads := if best.isSome then threads else threads ++ [⟨0, fresh⟩]
    let (_, found) := follow p place (2 * p.size + threads.length + 1) threads
      (Array.replicate p.size false) []
    let (next, accepted) := advance p cs.head? found.reverse
    let best := (accepted.map fun s => s.setIfInBounds 1 (some index)).or best
    match cs with
    | [] => best
    | c :: rest =>
      if next.isEmpty && best.isSome then best else search p slots (index + 1) (some c) next best rest
termination_by structural _ _ _ _ cs => cs

end Pattern

/-! ## Patterns -/

/-- A pattern ready for searching. -/
structure Pattern where
  program : Pattern.Program
  /-- The names of the groups, from the first on. -/
  groups : Pattern.GroupNames

namespace Pattern

/-- What a search found: the whole match, and the text of each named group that took part. -/
structure Match where
  text : String
  groups : List (String × String)

/-- The pattern, if it is well formed. -/
def compile? (ignoreCase : Bool) (pattern : String) : Option Pattern :=
  (parse? ignoreCase pattern.toList).map fun (node, groups) => ⟨node.compile, groups⟩

/-- The text between the places of two slots. -/
def slice? (cs : List Char) (s : Slots) (number : Nat) : Option String := do
  let start ← (← s[2 * number]?)
  let stop ← (← s[2 * number + 1]?)
  return String.ofList ((cs.drop start).take (stop - start))

def find? (p : Pattern) (text : String) : Option Match := do
  let cs := text.toList
  let slots ← search p.program (2 * (p.groups.length + 1)) 0 none [] none cs
  let named := p.groups.zipIdx.filterMap fun (name?, i) => do
    return (← name?, ← slice? cs slots (i + 1))
  return ⟨(slice? cs slots 0).getD "", named⟩

def isMatch (p : Pattern) (text : String) : Bool := (p.find? text).isSome

end Pattern

end Grimoire
