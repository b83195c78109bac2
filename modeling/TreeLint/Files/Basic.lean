import TreeLint.Path.Basic

/-!
Contract: file systems as values.

Owns: trees of directories and files; a file system with a working directory; and the resolution of paths in it.
A path is resolved step by step, and every step but the last must be a directory.
-/

set_option autoImplicit false

namespace TreeLint

inductive FileTree where
  | file (bytes : List UInt8)
  | directory (entries : List (String × FileTree))
  deriving Repr

namespace FileTree

def empty : FileTree := .directory []

def isFile : FileTree → Bool
  | .file _ => true
  | .directory _ => false

def isDirectory (tree : FileTree) : Bool := !tree.isFile

def entries : FileTree → List (String × FileTree)
  | .file _ => []
  | .directory entries => entries

def entry? (tree : FileTree) (name : String) : Option FileTree := tree.entries.lookup name

/-- What lies at the end of a list of names. -/
def at? (tree : FileTree) : List String → Option FileTree
  | [] => some tree
  | name :: rest => (tree.entry? name).bind (·.at? rest)

/-- The entries with one of them replaced, or added at the end. -/
def setEntry (name : String) (value : FileTree) :
    List (String × FileTree) → List (String × FileTree)
  | [] => [(name, value)]
  | (other, old) :: rest =>
      if other = name then (name, value) :: rest else (other, old) :: setEntry name value rest

/-- The tree with another tree in the place of what lies at the end of a list of names. Directories that are
missing on the way are made. -/
def put (tree value : FileTree) : List String → FileTree
  | [] => value
  | name :: rest =>
      let inner := (tree.entry? name).getD empty
      .directory (setEntry name (inner.put value rest) tree.entries)

def write (tree : FileTree) (bytes : List UInt8) (names : List String) : FileTree :=
  tree.put (.file bytes) names

/-- The text of a file, if its bytes are UTF-8. -/
def text? : FileTree → Option String
  | .file bytes => String.fromUTF8? ⟨bytes.toArray⟩
  | .directory _ => none

end FileTree

structure FileSystem where
  /-- The topmost directory. -/
  top : FileTree
  /-- The names that lead from the top to the working directory. -/
  working : List String
  /-- What is said about a path if no text can be read at it, or if a directory there cannot be searched. -/
  complaint : String → String

namespace FileSystem

/-- One step of resolution from the place at the end of a list of names. -/
def step? (files : FileSystem) (place : List String) (piece : String) : Option (List String) :=
  match files.top.at? place with
  | some (.directory entries) =>
      if Path.isFiller piece then some place
      else if piece == ".." then some place.dropLast
      else if (entries.lookup piece).isSome then some (place ++ [piece])
      else none
  | _ => none

/-- The names that lead from the top to what a path denotes. -/
def locate? (files : FileSystem) (path : String) : Option (List String) :=
  if path == "" then none
  else
    let parsed := Path.ofString path
    let begin := if parsed.start = .absolute then [] else files.working
    parsed.pieces.foldlM files.step? begin

def find? (files : FileSystem) (path : String) : Option FileTree :=
  (files.locate? path).bind files.top.at?

def pathExists (files : FileSystem) (path : String) : Bool := (files.find? path).isSome

def isFile (files : FileSystem) (path : String) : Bool :=
  ((files.find? path).map FileTree.isFile).getD false

def isDirectory (files : FileSystem) (path : String) : Bool :=
  ((files.find? path).map FileTree.isDirectory).getD false

def text? (files : FileSystem) (path : String) : Option String :=
  (files.find? path).bind FileTree.text?

end FileSystem

end TreeLint
