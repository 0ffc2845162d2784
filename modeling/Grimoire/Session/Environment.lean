import Std.Data.TreeMap
import Grimoire.Json.Basic
import Grimoire.Session.Error

/-!
# Scopes

An environment holds numbered scopes; scope 0 is the global one, and every other scope names the one
around it. A name is looked up from a scope outward. A scope may be opened around a number that no
scope has yet, so the way outward is followed with a bound: when it has visited more scopes than there
are, it runs in a circle.

| here | there |
| --- | --- |
| `Environment`, `Scope`, `ScopeId`     | `Environment`, `Scope`, `ScopeId` |
| `Binding`, `Builtin`                  | `Binding`, `Builtin` |
| `pushScope`, `parent?`                | `push_scope`, `parent_of` |
| `define`, `get`, `assign`, `contains` | `define`, `get`, `assign`, `contains` |
| `resolve`                             | `resolve`; `Resolution` says when its loop does not end |
-/
namespace Grimoire.Session

/-- The number of a scope. -/
abbrev ScopeId := Nat

/-- Functions that every session knows. -/
inductive Builtin
  | cast | summon | transform | envision | manifest
deriving DecidableEq, Repr

namespace Builtin

def all : List Builtin := [cast, summon, transform, envision, manifest]

def name : Builtin → String
  | cast => "cast"
  | summon => "summon"
  | transform => "transform"
  | envision => "envision"
  | manifest => "manifest"

def ofName? (name : String) : Option Builtin := all.find? (·.name == name)

end Builtin

/-- What a name stands for. -/
inductive Binding
  | value (v : Json)
  | builtin (b : Builtin)

def Binding.value? : Binding → Option Json
  | value v => some v
  | builtin _ => none

structure Scope where
  bindings : Std.TreeMap String Binding := {}
  /-- The scope around this one. -/
  parent : Option ScopeId := none

structure Environment where
  scopes : Array Scope

/-- Where the way outward from a scope leads. -/
inductive Resolution
  /-- To the nearest scope that binds the name. -/
  | found (scope : ScopeId)
  /-- Out of the environment. -/
  | unbound
  /-- Around in a circle. -/
  | endless
deriving DecidableEq, Repr

namespace Environment

/-- The environment with the global scope alone. -/
def empty : Environment := ⟨#[{}]⟩

def globalScope : ScopeId := 0

/-- A new scope inside the given one, and its number. -/
def pushScope (e : Environment) (parent : ScopeId) : ScopeId × Environment :=
  (e.scopes.size, ⟨e.scopes.push { parent := some parent }⟩)

def parent? (e : Environment) (scope : ScopeId) : Option ScopeId :=
  (e.scopes[scope]?).bind (·.parent)

/-- Bind a name in a scope; a scope that does not exist binds nothing. -/
def define (e : Environment) (scope : ScopeId) (name : String) (b : Binding) : Environment :=
  ⟨e.scopes.modify scope fun s => { s with bindings := s.bindings.insert name b }⟩

/-- Follow the scopes outward, through so many at most. -/
def resolveWithin (e : Environment) (name : String) : Nat → ScopeId → Resolution
  | 0, _ => .endless
  | steps + 1, scope =>
    match e.scopes[scope]? with
    | none => .unbound
    | some s =>
      if s.bindings.contains name then .found scope
      else
        match s.parent with
        | none => .unbound
        | some parent => resolveWithin e name steps parent

def resolve (e : Environment) (scope : ScopeId) (name : String) : Resolution :=
  e.resolveWithin name (e.scopes.size + 1) scope

/-- Does a lookup come to an end? To one that runs in a circle, none of the calls below gives an answer. -/
def returns (e : Environment) (scope : ScopeId) (name : String) : Bool := e.resolve scope name != .endless

/-- What the name stands for in the nearest scope that binds it. -/
def get (e : Environment) (scope : ScopeId) (name : String) : Except SessionError Binding :=
  match e.resolve scope name with
  | .found owner =>
    match (e.scopes[owner]?).bind (·.bindings[name]?) with
    | some b => .ok b
    | none => .error (.undefinedVariable name)
  | _ => .error (.undefinedVariable name)

/-- Bind a name anew in the nearest scope that binds it. -/
def assign (e : Environment) (scope : ScopeId) (name : String) (b : Binding) :
    Except SessionError Environment :=
  match e.resolve scope name with
  | .found owner => .ok (e.define owner name b)
  | _ => .error (.undefinedVariable name)

def contains (e : Environment) (scope : ScopeId) (name : String) : Bool :=
  match e.resolve scope name with
  | .found _ => true
  | _ => false

def scopeCount (e : Environment) : Nat := e.scopes.size

/-- The global scope with every function bound. -/
def withBuiltins : Environment :=
  Builtin.all.foldl (fun e b => e.define globalScope b.name (.builtin b)) empty

end Environment

end Grimoire.Session
