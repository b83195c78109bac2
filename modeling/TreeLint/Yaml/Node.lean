import TreeLint.Yaml.Token

/-!
Contract: from tokens to the nodes of one document.

Owns: nodes, which are scalars, collections and aliases; and `Document.ofTokens`, which follows the YAML grammar of
streams and refuses a stream with more than one document. An alias refers to the node that had its anchor when the
alias was read, and an alias without such a node is refused.
-/

set_option autoImplicit false

namespace TreeLint.Yaml

inductive Node where
  | alias (anchor : Nat)
  | scalar (tag : Option String) (isPlain : Bool) (text : String)
  | sequence (tag : Option String) (items : List Node)
  | mapping (tag : Option String) (entries : List (Node × Node))
  deriving Repr

namespace Node

mutual

/-- The number of steps in which a node is read: one for a scalar or an alias, and two and those of its
contents for a collection. -/
def size : Node → Nat
  | .alias _ => 1
  | .scalar _ _ _ => 1
  | .sequence _ items => 2 + sizeOfItems items
  | .mapping _ entries => 2 + sizeOfEntries entries

def sizeOfItems : List Node → Nat
  | [] => 0
  | item :: rest => item.size + sizeOfItems rest

def sizeOfEntries : List (Node × Node) → Nat
  | [] => 0
  | (key, value) :: rest => key.size + value.size + sizeOfEntries rest

end

/-- What is written where nothing stands. -/
def blank : Node := .scalar none true ""

end Node

structure Anchored where
  anchor : Nat
  /-- The number of anchors that were read before. -/
  order : Nat
  node : Node
  deriving Repr

/-- A document: its root, if there is any, and its nodes with anchors. -/
structure Document where
  root : Option Node
  anchored : List Anchored
  deriving Repr

namespace Document

/-- The node that an anchor stands for: of several, the one that was begun last. -/
def find? (document : Document) (anchor : Nat) : Option Node :=
  let found := document.anchored.filter (·.anchor == anchor)
  (found.foldl
    (fun (best : Option Anchored) next =>
      match best with
      | some other => if next.order < other.order then best else some next
      | none => some next)
    none).map Anchored.node

end Document

structure NodeReader where
  tokens : List Token
  /-- The prefixes of tag handles. -/
  handles : List (String × String)
  /-- The anchors by name. -/
  names : List (String × Nat)
  anchored : List Anchored
  /-- The number of anchors read. -/
  order : Nat

namespace NodeReader

abbrev Step := StateT NodeReader Option

def peek : Step Token := do return ((← get).tokens.head?).getD .streamEnd

def skip : Step Unit := modify fun reader => { reader with tokens := reader.tokens.drop 1 }

/-- The full tag for a handle and what follows it. -/
def resolveTag (handle ending : String) : Step String := do
  if handle == "" then return ending
  else
    match (← get).handles.lookup handle with
    | some base => return base ++ ending
    | none => failure

/-- Gives the next anchor number to a name. Numbers count the names that are in use. -/
def addAnchor (name : String) : Step (Nat × Nat) := do
  let reader ← get
  let number := reader.names.length
  let others := reader.names.filter (·.1 != name)
  set { reader with names := (name, number) :: others, order := reader.order + 1 }
  return (number, reader.order)

def record (anchor : Option (Nat × Nat)) (node : Node) : Step Node := do
  match anchor with
  | some (number, order) =>
      modify fun reader => { reader with anchored := ⟨number, order, node⟩ :: reader.anchored }
      return node
  | none => return node

/-- The name and the tag before a node, in either order. -/
def properties : Step (Option String × Option String) := do
  let tag? : Step (Option String) := do
    match ← peek with
    | .tag handle ending => do
        skip
        return some (← resolveTag handle ending)
    | _ => return none
  let anchor? : Step (Option String) := do
    match ← peek with
    | .anchor name => do
        skip
        return some name
    | _ => return none
  match ← anchor? with
  | some name => return (some name, ← tag?)
  | none => do
      let tag ← tag?
      match tag with
      | some _ => return (← anchor?, tag)
      | none => return (none, none)

mutual

/-- A node. Where `block` is set it may be a block, and where `indentless` is set also a sequence whose dashes
stand in the column of the keys around it. -/
def node (fuel : Nat) (block indentless : Bool) : Step Node := do
  match fuel with
  | 0 => failure
  | fuel + 1 =>
    match ← peek with
    | .alias name => do
        skip
        match (← get).names.lookup name with
        | some anchor => return .alias anchor
        | none => failure
    | _ => do
        let (name, tag) ← properties
        let anchor ← name.mapM addAnchor
        match ← peek with
        | .scalar isPlain text => do
            skip
            record anchor (.scalar tag isPlain text)
        | .flowSequenceStart => do
            skip
            record anchor (.sequence tag (← flowItems fuel true))
        | .flowMappingStart => do
            skip
            record anchor (.mapping tag (← flowEntries fuel true))
        | next =>
            if next == .blockEntry && indentless then
              record anchor (.sequence tag (← indentlessItems fuel))
            else if next == .blockSequenceStart && block then do
              skip
              record anchor (.sequence tag (← blockItems fuel))
            else if next == .blockMappingStart && block then do
              skip
              record anchor (.mapping tag (← blockEntries fuel))
            else if name.isSome || tag.isSome then record anchor (.scalar tag true "")
            else failure

def blockItems (fuel : Nat) : Step (List Node) := do
  match fuel with
  | 0 => failure
  | fuel + 1 =>
    match ← peek with
    | .blockEntry => do
        skip
        let next ← peek
        let item ←
          if next == .blockEntry || next == .blockEnd then pure Node.blank else node fuel true false
        return item :: (← blockItems fuel)
    | .blockEnd => do
        skip
        return []
    | _ => failure

/-- The items of a sequence without an indentation of its own. -/
def indentlessItems (fuel : Nat) : Step (List Node) := do
  match fuel with
  | 0 => failure
  | fuel + 1 =>
    match ← peek with
    | .blockEntry => do
        skip
        let next ← peek
        let item ←
          if next == .blockEntry || next == .key || next == .value || next == .blockEnd then
            pure Node.blank
          else node fuel true false
        return item :: (← indentlessItems fuel)
    | _ => return []

def blockEntries (fuel : Nat) : Step (List (Node × Node)) := do
  match fuel with
  | 0 => failure
  | fuel + 1 =>
    match ← peek with
    | .key => do
        skip
        let key ← blockPart fuel
        let value ←
          match ← peek with
          | .value => do
              skip
              blockPart fuel
          | _ => pure Node.blank
        return (key, value) :: (← blockEntries fuel)
    | .blockEnd => do
        skip
        return []
    | _ => failure

/-- A key or a value of a block mapping, or nothing. -/
def blockPart (fuel : Nat) : Step Node := do
  match fuel with
  | 0 => failure
  | fuel + 1 =>
    let next ← peek
    if next == .key || next == .value || next == .blockEnd then return Node.blank
    else node fuel true true

def flowItems (fuel : Nat) (first : Bool) : Step (List Node) := do
  match fuel with
  | 0 => failure
  | fuel + 1 =>
    if (← peek) == .flowSequenceEnd then do
      skip
      return []
    else do
      if !first then
        if (← peek) == .flowEntry then skip else failure
      match ← peek with
      | .key => do
          skip
          let entry ← flowPair fuel
          return entry :: (← flowItems fuel false)
      | .flowSequenceEnd => do
          skip
          return []
      | _ => do
          let item ← node fuel false false
          return item :: (← flowItems fuel false)

/-- An item of a sequence in brackets that is a mapping of one entry. A token in the place of a missing key is
dropped. -/
def flowPair (fuel : Nat) : Step Node := do
  match fuel with
  | 0 => failure
  | fuel + 1 =>
    let next ← peek
    let key ←
      if next == .value || next == .flowEntry || next == .flowSequenceEnd then do
        skip
        pure Node.blank
      else node fuel false false
    let value ←
      match ← peek with
      | .value => do
          skip
          let next ← peek
          if next == .flowEntry || next == .flowSequenceEnd then pure Node.blank
          else node fuel false false
      | _ => pure Node.blank
    return .mapping none [(key, value)]

def flowEntries (fuel : Nat) (first : Bool) : Step (List (Node × Node)) := do
  match fuel with
  | 0 => failure
  | fuel + 1 =>
    if (← peek) == .flowMappingEnd then do
      skip
      return []
    else do
      if !first then
        if (← peek) == .flowEntry then skip else failure
      match ← peek with
      | .key => do
          skip
          let key ← flowPart fuel
          let value ←
            match ← peek with
            | .value => do
                skip
                flowPart fuel
            | _ => pure Node.blank
          return (key, value) :: (← flowEntries fuel false)
      | .flowMappingEnd => do
          skip
          return []
      | _ => do
          let key ← node fuel false false
          return (key, Node.blank) :: (← flowEntries fuel false)

def flowPart (fuel : Nat) : Step Node := do
  match fuel with
  | 0 => failure
  | fuel + 1 =>
    let next ← peek
    if next == .value || next == .flowEntry || next == .flowMappingEnd then return Node.blank
    else node fuel false false

end

/-- The directives before a document: at most one version, which must be 1.1 or 1.2, and handles that are each
given once. -/
def directives (version : Bool) (handles : List (String × String)) :
    List Token → Option (List (String × String) × List Token)
  | .version major minor :: rest =>
      if version || major != 1 || !(minor == 1 || minor == 2) then none
      else directives true handles rest
  | .tagHandle handle base :: rest =>
      if (handles.lookup handle).isSome then none
      else directives version ((handle, base) :: handles) rest
  | rest => some (handles, rest)

/-- The handles that need no directive. -/
def standardHandles : List (String × String) := [("!", "!"), ("!!", "tag:yaml.org,2002:")]

/-- The root of a document. After a document marker it may be missing. -/
def root (marked : Bool) (fuel : Nat) : Step Node := do
  match ← peek with
  | .version _ _ | .tagHandle _ _ | .documentStart | .documentEnd | .streamEnd =>
      if marked then return Node.blank else failure
  | _ => node fuel true false

end NodeReader

/-- The document of a stream. A stream without any document has no root; one with several is refused. -/
def Document.ofTokens (tokens : List Token) : Option Document := do
  match tokens with
  | [.streamEnd] => return ⟨none, []⟩
  | _ =>
      let (handles, rest) ← NodeReader.directives false [] tokens
      let (marked, body) ←
        match rest with
        | .documentStart :: body => some (true, body)
        | _ => if rest.length == tokens.length then some (false, rest) else none
      let reader : NodeReader := ⟨body, handles ++ NodeReader.standardHandles, [], [], 0⟩
      let (root, final) ← (NodeReader.root marked (3 * tokens.length + 3)).run reader
      match final.tokens.dropWhile (· == .documentEnd) with
      | [.streamEnd] => return ⟨some root, final.anchored⟩
      | _ => none

end TreeLint.Yaml
