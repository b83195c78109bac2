import TreeLint.Yaml.Lexer
import TreeLint.Yaml.Node
import TreeLint.Yaml.Schema

/-!
Contract: from a YAML text to the value of its one document.

Owns: `Yaml.read?`. Aliases are replaced by copies of what they refer to. Collections may be nested 128 deep, a
document may follow at most a hundred times as many aliases as it has parts, and no key may occur twice in a
mapping.
-/

set_option autoImplicit false

namespace TreeLint.Yaml

def maxDepth : Nat := 128

/-- A step of evaluation; the state counts the aliases that may still be followed. -/
abbrev Evaluation := StateT Nat Option

def followAlias : Evaluation Unit := do
  match ← get with
  | 0 => failure
  | left + 1 => set left

/-- A value with the tag of its node, if that is a local tag. -/
def withTag (tag : Option String) (value : Yaml) : Yaml :=
  match localTag? tag with
  | some name => .tagged name value
  | none => value

def scalarValue (tag : Option String) (isPlain : Bool) (text : String) : Option Yaml :=
  match localTag? tag, tag with
  | some name, _ =>
      (if isPlain then plainValue text else some (.string text)).map (Yaml.tagged name)
  | none, some other => globallyTagged other text
  | none, none => if isPlain then plainValue text else some (.string text)

/-- A mapping with one more entry, unless its key is already there. -/
def addEntry (entries : List (Yaml × Yaml)) (key value : Yaml) : Option (List (Yaml × Yaml)) :=
  if entries.any fun entry => entry.1.same key then none else some (entries ++ [(key, value)])

mutual

/-- The value of a node whose collections may be nested `depth` deep. -/
def evaluate (document : Document) (depth : Nat) : Node → Evaluation Yaml
  | .alias anchor => do
      followAlias
      match document.find? anchor with
      | some target => evaluateTarget document depth target
      | none => failure
  | .scalar tag isPlain text => liftM (scalarValue tag isPlain text)
  | .sequence tag items =>
      match depth with
      | 0 => failure
      | depth + 1 => do return withTag tag (.sequence (← evaluateItems document depth items))
  | .mapping tag entries =>
      match depth with
      | 0 => failure
      | depth + 1 => do return withTag tag (.mapping (← evaluateEntries document depth [] entries))
termination_by node => (depth, 1, sizeOf node)

def evaluateTarget (document : Document) (depth : Nat) : Node → Evaluation Yaml
  | .alias _ => failure
  | .scalar tag isPlain text => liftM (scalarValue tag isPlain text)
  | .sequence tag items =>
      match depth with
      | 0 => failure
      | depth + 1 => do return withTag tag (.sequence (← evaluateItems document depth items))
  | .mapping tag entries =>
      match depth with
      | 0 => failure
      | depth + 1 => do return withTag tag (.mapping (← evaluateEntries document depth [] entries))
termination_by node => (depth, 0, sizeOf node)

def evaluateItems (document : Document) (depth : Nat) : List Node → Evaluation (List Yaml)
  | [] => return []
  | item :: rest => do
      let value ← evaluate document depth item
      return value :: (← evaluateItems document depth rest)
termination_by items => (depth, 2, sizeOf items)

def evaluateEntries (document : Document) (depth : Nat) (known : List (Yaml × Yaml)) :
    List (Node × Node) → Evaluation (List (Yaml × Yaml))
  | [] => return known
  | (key, value) :: rest => do
      let key ← evaluate document depth key
      let value ← evaluate document depth value
      let known ← liftM (addEntry known key value)
      evaluateEntries document depth known rest
termination_by entries => (depth, 2, sizeOf entries)

end

/-- The value of a document; without a root it is null. -/
def ofDocument (document : Document) : Option Yaml :=
  match document.root with
  | none => some .null
  | some root => (((evaluate document maxDepth root).run (100 * root.size))).map Prod.fst

def read? (text : String) : Option Yaml := do
  let tokens ← Token.ofText text.toList
  let document ← Document.ofTokens tokens
  ofDocument document

end TreeLint.Yaml
