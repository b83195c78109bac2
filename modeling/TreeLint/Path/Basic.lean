/-!
Contract: paths as texts and as lists of components.

Owns:
- the components of a path: repeated separators count once, and a component `.` counts only where a relative
  path begins with it;
- the parent, the name and the extension of a path, and the joining of paths;
- what remains of a path below a directory.
-/

set_option autoImplicit false

namespace TreeLint

/-- A component of a path, in the order in which paths are sorted. -/
inductive PathComponent where
  | root
  | current
  | parent
  | name (text : String)
  deriving DecidableEq, Repr

namespace PathComponent

def rank : PathComponent → Nat
  | .root => 0
  | .current => 1
  | .parent => 2
  | .name _ => 3

/-- Compares components: the special ones come first, names by their characters. -/
def compare : PathComponent → PathComponent → Ordering
  | .name left, .name right => compareOfLessAndEq left right
  | left, right => Ord.compare left.rank right.rank

end PathComponent

inductive PathStart where
  | absolute
  | current
  | plain
  deriving DecidableEq, Repr

/-- A path, cut at its separators. -/
structure Path where
  start : PathStart
  /-- The texts between the separators after the start. -/
  pieces : List String
  deriving DecidableEq, Repr

namespace Path

/-- The texts between slashes; `current` is the beginning of the first, reversed. -/
def split (current : List Char) : List Char → List String
  | [] => [String.ofList current.reverse]
  | '/' :: rest => String.ofList current.reverse :: split [] rest
  | c :: rest => split (c :: current) rest

def ofString (text : String) : Path :=
  match split [] text.toList with
  | [] => ⟨.plain, []⟩
  | "" :: first :: rest => ⟨.absolute, first :: rest⟩
  | "." :: rest => ⟨.current, rest⟩
  | pieces => ⟨.plain, pieces⟩

def text (path : Path) : String :=
  let body := "/".intercalate path.pieces
  match path.start with
  | .absolute => "/" ++ body
  | .current => if path.pieces.isEmpty then "." else "./" ++ body
  | .plain => body

/-- Whether a piece is no component of its own. -/
def isFiller (piece : String) : Bool := piece == "" || piece == "."

def component? (piece : String) : Option PathComponent :=
  if isFiller piece then none
  else if piece == ".." then some .parent
  else some (.name piece)

/-- The component that a path begins with before its pieces. -/
def startComponent? : PathStart → Option PathComponent
  | .absolute => some .root
  | .current => some .current
  | .plain => none

def components (path : Path) : List PathComponent :=
  (startComponent? path.start).toList ++ path.pieces.filterMap component?

def compareComponents : List PathComponent → List PathComponent → Ordering
  | [], [] => .eq
  | [], _ :: _ => .lt
  | _ :: _, [] => .gt
  | left :: lefts, right :: rights => (left.compare right).then (compareComponents lefts rights)

def compare (left right : Path) : Ordering := compareComponents left.components right.components

def dropFillersRight (pieces : List String) : List String :=
  (pieces.reverse.dropWhile isFiller).reverse

def trimRight (path : Path) : Path := ⟨path.start, dropFillersRight path.pieces⟩

/-- The directory that a path lies in, if the path has a component that is not the root. -/
def parent? (path : Path) : Option Path :=
  match (dropFillersRight path.pieces).reverse, path.start with
  | _ :: before, _ => some (trimRight ⟨path.start, before.reverse⟩)
  | [], .current => some ⟨.plain, []⟩
  | [], _ => none

/-- The last component, if it is a name. -/
def name? (path : Path) : Option String :=
  match path.components.getLast? with
  | some (.name text) => some text
  | _ => none

/-- What follows the last dot of a name, unless the name begins with that dot. -/
def extension? (path : Path) : Option String := do
  let name ← path.name?
  let letters := name.toList.reverse
  let after := letters.takeWhile (· != '.')
  match letters.drop after.length with
  | _ :: _ :: _ => some (String.ofList after.reverse)
  | _ => none

def below (directory name : String) : String :=
  if directory == "" then name
  else if directory.endsWith "/" then directory ++ name
  else directory ++ "/" ++ name

/-- What remains of pieces after the given components. -/
def dropComponents : List PathComponent → List String → Option (List String)
  | [], pieces => some pieces
  | _ :: _, [] => none
  | wanted :: others, piece :: rest =>
      match component? piece with
      | none => dropComponents (wanted :: others) rest
      | some found => if found = wanted then dropComponents others rest else none

/-- The path below a directory: what remains after the components of the directory, if the path begins with
them. -/
def relativeTo? (path base : Path) : Option Path :=
  match base.components with
  | [] => some path.trimRight
  | first :: others =>
      let rest? : Option (List String) :=
        match startComponent? path.start with
        | some own => if own = first then dropComponents others path.pieces else none
        | none => dropComponents (first :: others) path.pieces
      rest?.map fun pieces => trimRight ⟨.plain, pieces.dropWhile isFiller⟩

end Path

end TreeLint
