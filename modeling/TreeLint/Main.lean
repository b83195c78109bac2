import TreeLint.Program.Session
import TreeLint.Regex.Standard

/-!
Contract: the program.

Owns: the reading of the arguments, of one variable and of the files and directories that a run looks at, which are
turned into values once before the run; and the writing of what the run gives. It decides nothing.
-/

set_option autoImplicit false

namespace TreeLint

namespace Snapshot

/-- What is said about a path at which nothing could be read. -/
def complaint (path : String) : String := "nothing could be read at " ++ path

/-- The bytes of a file; a file that cannot be read is no text either. -/
def fileAt (path : String) : IO FileTree := do
  match ← (IO.FS.readBinFile path).toBaseIO with
  | .ok bytes => return .file bytes.toList
  | .error _ => return .file [0xFF]

def leadsToDirectory (path : String) : IO Bool := do
  match ← (IO.FS.realPath path).toBaseIO with
  | .ok place => place.isDir
  | .error _ => return false

/-- What lies at a path. Links inside directories are left out. -/
partial def treeAt? (path : String) : IO (Option FileTree) := do
  match ← (IO.FS.realPath path).toBaseIO with
  | .error _ => return none
  | .ok place =>
      if !(← place.isDir) then return some (← fileAt path)
      else
        let mut entries : List (String × FileTree) := []
        match ← place.readDir.toBaseIO with
        | .error _ => return some .empty
        | .ok found =>
            for entry in found do
              let kind := (← entry.path.symlinkMetadata).type
              if kind matches .dir || kind matches .file then
                if let some tree ← treeAt? entry.path.toString then
                  entries := (entry.fileName, tree) :: entries
            return some (.directory entries.reverse)

/-- The names in the directories around the searched ones that a search looks at. -/
def outerNames : List (List String) := [[".ignore"], [".gitignore"], [".git", "info", "exclude"]]

/-- Adds what lies at the end of a list of names, if there is anything. -/
def add (files : FileTree) (names : List String) : IO FileTree := do
  match ← treeAt? (FileSystem.absolutePath names) with
  | some tree => return files.put tree names
  | none => return files

/-- Adds the directories that a path passes, and what it leads to. -/
def follow (files : FileTree) (place : List String) : List String → IO FileTree
  | [] => add files place
  | piece :: rest => do
      let mut files := files
      if (files.at? place).isNone && (← leadsToDirectory (FileSystem.absolutePath place)) then
        files := files.put .empty place
      for names in outerNames do files ← add files (place ++ names)
      let next :=
        if Path.isFiller piece then place
        else if piece == ".." then place.dropLast
        else place ++ [piece]
      follow files next rest

def addPath (working : List String) (files : FileTree) (path : String) : IO FileTree := do
  let parsed := Path.ofString path
  let pieces := if parsed.start = .absolute then parsed.pieces else working ++ parsed.pieces
  follow files [] pieces

def forRun (options : Options) : IO FileSystem := do
  let working := ((← IO.currentDir).toString.splitOn "/").filter (!Path.isFiller ·)
  let mut files := FileTree.empty
  for path in options.config.toList ++ Config.fileName :: options.targets do
    files ← addPath working files path
    let named := Run.targetDirectory ⟨files, working, complaint⟩ [path]
    files ← addPath working files (Path.below (named.getD path) Config.fileName)
  return ⟨files, working, complaint⟩

end Snapshot

def runProgram (words : List String) : IO UInt32 := do
  let files ← match CommandLine.read words with
    | .ok (.run options) => Snapshot.forRun options
    | _ => pure ⟨.empty, [], Snapshot.complaint⟩
  let wanted ← IO.getEnv Session.logVariable
  let session := Session.ofWords .standard .standard .standard files wanted words
  for message in session.messages do IO.eprintln message
  IO.print session.output
  return session.exitCode.toUInt32

end TreeLint

def main (words : List String) : IO UInt32 := TreeLint.runProgram words
