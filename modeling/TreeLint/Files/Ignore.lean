import TreeLint.Files.Basic
import TreeLint.Glob.Match
import TreeLint.Glob.Parser
import TreeLint.Text.Blank

/-!
Contract: which paths are left out of a search.

Owns: the lines of ignore files, the rules that they denote, and the verdict of a list of rules about a path.
The last rule that covers a path decides; a rule after an exclamation mark takes a path back in, and a rule that
ends in a slash is for directories only. A rule without an inner slash covers names at any depth.

These are the rules of `.gitignore` files as they are documented: also blank lines, comments after a hash,
backslashes before special characters, trailing blanks that count only after a backslash, and doubled stars for any
number of directories. A line is read up to its feed, and a file up to its first line that is not UTF-8.
-/

set_option autoImplicit false

namespace TreeLint

structure IgnoreRule where
  glob : Glob
  /-- Whether the rule takes paths back in. -/
  negated : Bool
  directoriesOnly : Bool
  deriving Repr

namespace IgnoreRule

/-- The line without its exclamation mark or leading slash, and which of the two it had. A backslash keeps an
exclamation mark or a hash from being special. -/
def splitMarks (line : List Char) : List Char × Bool × Bool :=
  let slash (negated : Bool) : List Char → List Char × Bool × Bool
    | '/' :: rest => (rest, negated, true)
    | rest => (rest, negated, false)
  match line with
  | '\\' :: '!' :: rest => ('!' :: rest, false, false)
  | '\\' :: '#' :: rest => ('#' :: rest, false, false)
  | '!' :: rest => slash true rest
  | rest => slash false rest

/-- The line without its last slash, and whether it had one. -/
def splitLastSlash (line : List Char) : List Char × Bool :=
  match line.reverse with
  | '/' :: '\\' :: before => (before.reverse, true)
  | '/' :: before => (before.reverse, true)
  | _ => (line, false)

/-- The pattern for whole paths that a line stands for. -/
def pathPattern (anchored : Bool) (line : List Char) : List Char :=
  let anywhere :=
    if anchored || line.contains '/' || line == ['*', '*'] then line else '*' :: '*' :: '/' :: line
  if ['/', '*', '*'].isSuffixOf anywhere then anywhere ++ ['/', '*'] else anywhere

/-- The rule that a line denotes; blank lines and comments denote none. -/
def read (lenient : Bool) (line : String) : Except GlobFault (Option IgnoreRule) :=
  let letters := line.toList
  let trimmed := if ['\\', ' '].isSuffixOf letters then letters else Text.trimEnd letters
  if letters.head? == some '#' || trimmed.isEmpty then .ok none
  else
    let (body, negated, anchored) := splitMarks trimmed
    let (body, directoriesOnly) := splitLastSlash body
    let pattern := String.ofList (pathPattern anchored body)
    match (if lenient then Glob.readLenient pattern else Glob.read pattern) with
    | .ok glob => .ok (some ⟨glob, negated, directoriesOnly⟩)
    | .error fault => .error fault

end IgnoreRule

inductive IgnoreVerdict where
  | silent
  | leaveOut
  | takeIn
  deriving DecidableEq, Repr

namespace IgnoreVerdict

/-- The first verdict, or the second if the first is silent. -/
def or (first second : IgnoreVerdict) : IgnoreVerdict :=
  if first = .silent then second else first

end IgnoreVerdict

/-- Rules for the paths below a directory. -/
structure IgnoreFile where
  /-- The path of the directory. -/
  root : String
  rules : List IgnoreRule
  deriving Repr

namespace IgnoreFile

def dropStart? (start text : List Char) : Option (List Char) :=
  if start.isPrefixOf text then some (text.drop start.length) else none

def withoutStart (start text : List Char) : List Char := (dropStart? start text).getD text

def relative (file : IgnoreFile) (path : String) : String :=
  let own := withoutStart ['.', '/'] path.toList
  let root := withoutStart ['.', '/'] file.root.toList
  let isCurrent := (Path.ofString (String.ofList root)).components == [.current]
  if isCurrent || !own.contains '/' then String.ofList own
  else
    match dropStart? root own with
    | some rest => String.ofList (withoutStart ['/'] rest)
    | none => String.ofList own

def verdict (file : IgnoreFile) (path : String) (isDirectory : Bool) : IgnoreVerdict :=
  if file.rules.isEmpty then .silent
  else
    let relative := file.relative path
    let applies (rule : IgnoreRule) : Bool :=
      (!rule.directoriesOnly || isDirectory) && rule.glob.covers true relative
    match file.rules.reverse.find? applies with
    | some rule => if rule.negated then .takeIn else .leaveOut
    | none => .silent

/-- The text of a line whose bytes are given in reverse. -/
def lineText? (reversed : List UInt8) : Option String :=
  String.fromUTF8? ⟨reversed.reverse.toArray⟩

/-- The lines of a file, up to the first that is not UTF-8; `current` is the beginning of the first, reversed. -/
def linesOf (bytes : List UInt8) (current : List UInt8) : List String :=
  match bytes with
  | [] => if current.isEmpty then [] else (lineText? current).toList
  | byte :: rest =>
      if byte == 10 then
        match lineText? (if current.head? == some 13 then current.drop 1 else current) with
        | some line => line :: linesOf rest []
        | none => []
      else linesOf rest (byte :: current)

/-- The lines without a byte order mark before the first. -/
def withoutMark : List String → List String
  | [] => []
  | first :: rest => String.ofList (first.toList.dropWhile (·.toNat == 0xFEFF)) :: rest

/-- Rules for the paths below a directory, and whether all lines were well formed. Rules that cannot be compiled
are all left out. -/
def ofLines (root : String) (lines : List String) : IgnoreFile × Bool :=
  let read := lines.map (IgnoreRule.read true)
  let wellFormed := read.all fun line => line.isOk
  let rules := read.filterMap fun line => line.toOption.join
  if rules.all fun rule => rule.glob.depth true ≤ Glob.maxDepth then (⟨root, rules⟩, wellFormed)
  else (⟨root, []⟩, false)

/-- The rules in a file for the paths below a directory; a missing file has none. -/
def ofFile (root : String) (file? : Option FileTree) : IgnoreFile × Bool :=
  match file? with
  | some (.file bytes) => ofLines root (withoutMark (linesOf bytes []))
  | _ => (⟨root, []⟩, true)

end IgnoreFile

end TreeLint
