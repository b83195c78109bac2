/-!
Contract: path patterns as lists of tokens.

Owns: the tokens of a glob, and how deeply its groups are nested.
-/

set_option autoImplicit false

namespace TreeLint

inductive GlobToken where
  | literal (c : Char)
  /-- The wildcard `?`: one byte. -/
  | any
  /-- The wildcard `*`: any number of bytes. -/
  | many
  /-- A leading `**`: nothing, or whole leading components. -/
  | leadingComponents
  /-- A trailing `**`: everything below. -/
  | trailingComponents
  /-- A `**` between two components: a slash, or a slash around whole components. -/
  | innerComponents
  /-- One byte of a class, or of its complement. -/
  | oneOf (negated : Bool) (ranges : List (Char × Char))
  /-- A group of alternatives. -/
  | group (branches : List (List GlobToken))
  deriving Repr

abbrev Glob := List GlobToken

namespace GlobToken

mutual

/-- Whether a token stands for no text at all: a group with nothing in any alternative. -/
def isBlank : GlobToken → Bool
  | .group branches => areBlank branches
  | _ => false

def areBlank : List (List GlobToken) → Bool
  | [] => true
  | branch :: rest => isBlankBranch branch && areBlank rest

def isBlankBranch : List GlobToken → Bool
  | [] => true
  | token :: rest => token.isBlank && isBlankBranch rest

end

/-- The number of items that a sequence needs for a character: one for each of its bytes. -/
def itemCount : GlobToken → Nat
  | .literal c => c.utf8Size
  | .trailingComponents => 2
  | .group branches => if areBlank branches then 0 else 1
  | _ => 1

mutual

/-- How many constructs of an expression for the token lie within each other. Wildcards that stay within a
component are classes, and others are not. -/
def depth (within : Bool) : GlobToken → Nat
  | .literal _ => 0
  | .any => if within then 1 else 0
  | .many => if within then 2 else 1
  | .leadingComponents => 4
  | .trailingComponents => 1
  | .innerComponents => 4
  | .oneOf _ ranges =>
      let bytes := ranges.foldl (fun n (low, high) =>
        n + (if low = high then low.utf8Size else low.utf8Size + high.utf8Size - 1)) 0
      if bytes = 1 then 1 else 2
  | .group branches =>
      let (count, depth) := groupDepth within branches
      if count = 0 then 0 else if count = 1 then depth + 1 else depth + 2

/-- The number of alternatives that stand for some text, and the greatest of their depths. -/
def groupDepth (within : Bool) : List (List GlobToken) → Nat × Nat
  | [] => (0, 0)
  | branch :: rest =>
      let (items, inner) := branchDepth within branch
      let (count, depth) := groupDepth within rest
      if isBlankBranch branch then (count, depth)
      else (count + 1, max depth (if items = 1 then inner else inner + 1))

/-- The number of items of a sequence, and the greatest of their depths. -/
def branchDepth (within : Bool) : List GlobToken → Nat × Nat
  | [] => (0, 0)
  | token :: rest =>
      let (items, depth) := branchDepth within rest
      (token.itemCount + items, max (token.depth within) depth)

end

end GlobToken

namespace Glob

def depth (glob : Glob) (within : Bool) : Nat := (GlobToken.branchDepth within glob).2 + 1

def maxDepth : Nat := 250

/-- What is said about globs of which one is deeper. -/
def tooDeep : String := "groups are nested too deep"

end Glob

end TreeLint
