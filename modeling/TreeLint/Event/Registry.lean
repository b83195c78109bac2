import Std.Data.HashMap
import TreeLint.Event.Registration
import TreeLint.Log.Record
import TreeLint.Selector.Printer

/-!
Contract: the index of all registered patterns.

Owns: `Registry`, in which each distinct pattern is registered once, in the order of first occurrence, and
found by the type of a node: first the patterns that are hinted for the type, then those without a hint.
-/

set_option autoImplicit false

namespace TreeLint

structure Registry where
  entries : Array Registration
  /-- The numbers of the entries that are hinted for a type, ascending. -/
  byKind : Std.HashMap String (List Nat)
  /-- The numbers of the entries without a hint, ascending. -/
  general : List Nat

namespace Registry

def empty : Registry := ⟨#[], ∅, []⟩

def size (registry : Registry) : Nat := registry.entries.size

def contains (registry : Registry) (pattern : String) : Bool :=
  registry.entries.any (·.raw == pattern)

/-- The index of types with one more number under each of the given types. -/
def addUnder (number : Nat) (kinds : NameSet) (byKind : Std.HashMap String (List Nat)) :
    Std.HashMap String (List Nat) :=
  kinds.foldl (fun index kind => index.insert kind (index.getD kind [] ++ [number])) byKind

def add (registry : Registry) (entry : Registration) : Registry :=
  let number := registry.size
  match entry.hint with
  | some kinds =>
      { entries := registry.entries.push entry
        byKind := addUnder number kinds registry.byKind
        general := registry.general }
  | none =>
      { entries := registry.entries.push entry
        byKind := registry.byKind
        general := registry.general ++ [number] }

/-- Registers patterns one after another, up to the first that does not parse. -/
def register (engine : RegexEngine) (registry : Registry) :
    List String → Except RegistrationError Registry
  | [] => .ok registry
  | pattern :: rest =>
      if registry.contains pattern then register engine registry rest
      else
        match Registration.ofPattern engine pattern with
        | .error error => .error error
        | .ok entry => register engine (registry.add entry) rest

def ofPatterns (engine : RegexEngine) (patterns : List String) :
    Except RegistrationError Registry :=
  register engine empty patterns

/-- The numbers of the entries that can match a node of a type. -/
def candidateNumbers (registry : Registry) (kind : String) : List Nat :=
  registry.byKind.getD kind [] ++ registry.general

def candidates (registry : Registry) (kind : String) : List (Nat × Registration) :=
  (registry.candidateNumbers kind).filterMap fun number =>
    (registry.entries[number]?).map fun entry => (number, entry)

def record (registry : Registry) : LogRecord :=
  ⟨.debug, .events, "registered selectors",
    [("selectors", .number registry.size), ("node_types", .number registry.byKind.size),
      ("general", .number registry.general.length)]⟩

/-- A description of every entry: its canonical text, when it fires, and its type hint. -/
def explain (registry : Registry) : String :=
  String.join <| registry.entries.toList.map fun entry =>
    entry.raw ++ "\n  parsed: " ++ entry.selector.text
      ++ "\n  fires:  on " ++ (if entry.onLeave then "leave" else "enter")
      ++ "\n  types:  "
      ++ (match entry.hint with
          | some kinds => ", ".intercalate kinds
          | none => "any (checked on every node)")
      ++ "\n"

end Registry

end TreeLint
