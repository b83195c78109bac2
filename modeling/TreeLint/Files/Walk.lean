import TreeLint.Files.Ignore

/-!
Contract: the tree files below a directory.

Owns: the ignore files that count in a directory, which are its own and those of the directories around it; and
the walk that lists the files with the extension of trees. Excluded paths come first, then the files `.ignore`,
then `.gitignore` and the exclude file of a repository, but only inside one and only up to its top; what none of
them mentions is left out if its name begins with a dot.

This is how searches that respect `.gitignore` are documented. Below a directory that is left out nothing is
searched, so no rule takes a file there back in. Exclude files of the user, outside of any repository, are not part
of a file system here.
-/

set_option autoImplicit false

namespace TreeLint

/-- What one directory says about the paths below it. -/
structure IgnoreLevel where
  ignore : IgnoreFile
  gitIgnore : IgnoreFile
  gitExclude : IgnoreFile
  /-- Whether the directory is the top of a repository. -/
  isRepository : Bool
  /-- Whether the directory lies around the searched one; its rules are compared with absolute paths. -/
  isOuter : Bool
  deriving Repr

namespace IgnoreLevel

/-- The level of a directory, and whether all of its rules are well formed. -/
def ofDirectory (isOuter : Bool) (path : String) (directory : FileTree) : IgnoreLevel × Bool :=
  let (ignore, first) := IgnoreFile.ofFile path (directory.entry? ".ignore")
  let (gitIgnore, second) := IgnoreFile.ofFile path (directory.entry? ".gitignore")
  let (gitExclude, third) := IgnoreFile.ofFile path (directory.at? [".git", "info", "exclude"])
  let isRepository := (directory.entry? ".git").isSome
  (⟨ignore, gitIgnore, gitExclude, isRepository, isOuter⟩, first && second && third)

/-- What has been said about a path by the levels so far. -/
structure Said where
  ignore : IgnoreVerdict
  gitIgnore : IgnoreVerdict
  gitExclude : IgnoreVerdict
  /-- Whether the top of the repository has been passed. -/
  passedTop : Bool

def hear (inRepository : Bool) (path absolute : String) (isDirectory : Bool) (said : Said)
    (level : IgnoreLevel) : Said :=
  let compared := if level.isOuter then absolute else path
  let git := inRepository && !said.passedTop
  let ask (file : IgnoreFile) : IgnoreVerdict := file.verdict compared isDirectory
  { ignore := said.ignore.or (ask level.ignore)
    gitIgnore := if git then said.gitIgnore.or (ask level.gitIgnore) else said.gitIgnore
    gitExclude := if git then said.gitExclude.or (ask level.gitExclude) else said.gitExclude
    passedTop := said.passedTop || level.isRepository }

/-- The verdict of the levels around a path, the innermost first. -/
def verdict (levels : List IgnoreLevel) (path absolute : String) (isDirectory : Bool) :
    IgnoreVerdict :=
  let inRepository := levels.any isRepository
  let said := levels.foldl (hear inRepository path absolute isDirectory)
    ⟨.silent, .silent, .silent, false⟩
  (said.ignore.or said.gitIgnore).or said.gitExclude

end IgnoreLevel

namespace FileTree

def treeExtension : String := "json"

def isLeftOut (excludes : IgnoreFile) (levels : List IgnoreLevel) (path absolute name : String)
    (isDirectory : Bool) : Bool :=
  let path := String.ofList (IgnoreFile.withoutStart ['.', '/'] path.toList)
  if excludes.verdict path isDirectory ≠ .silent then true
  else
    match IgnoreLevel.verdict levels path absolute isDirectory with
    | .leaveOut => true
    | .takeIn => false
    | .silent => name.startsWith "."

/-- The tree files among the entries of a directory and below them. The directory is given by its path, its
absolute path, and the levels around its entries. -/
def walk (excludes : IgnoreFile) (levels : List IgnoreLevel) (path absolute : String) :
    List (String × FileTree) → List String
  | [] => []
  | (name, .file _) :: rest =>
      let own := Path.below path name
      let found :=
        if isLeftOut excludes levels own (Path.below absolute name) name false then []
        else if (Path.ofString own).extension? = some treeExtension then [own]
        else []
      found ++ walk excludes levels path absolute rest
  | (name, .directory entries) :: rest =>
      let own := Path.below path name
      let ownAbsolute := Path.below absolute name
      let found :=
        if isLeftOut excludes levels own ownAbsolute name true then []
        else
          let level := (IgnoreLevel.ofDirectory false own (.directory entries)).1
          walk excludes (level :: levels) own ownAbsolute entries
      found ++ walk excludes levels path absolute rest

end FileTree

namespace FileSystem

def absolutePath (names : List String) : String := "/" ++ "/".intercalate names

/-- The levels of the directories around a place, the innermost first, and whether all of their rules are well
formed. -/
def outerLevels (files : FileSystem) (names : List String) : List IgnoreLevel × Bool :=
  let outer := (List.range names.length).reverse.map fun count =>
    let place := names.take count
    IgnoreLevel.ofDirectory true (absolutePath place) ((files.top.at? place).getD FileTree.empty)
  (outer.map Prod.fst, outer.all Prod.snd)

/-- The tree files below a directory, unless a rule around it is malformed. -/
def treeFiles? (files : FileSystem) (excludes : IgnoreFile) (path : String) :
    Option (List String) := do
  let names ← files.locate? path
  let directory ← files.top.at? names
  let (outer, wellFormed) := files.outerLevels names
  if wellFormed then
    let own := (IgnoreLevel.ofDirectory false path directory).1
    return FileTree.walk excludes (own :: outer) path (absolutePath names) directory.entries
  else none

end FileSystem

end TreeLint
