import TreeLint.Glob.Basic

/-!
Contract: which paths a pattern covers.

Owns: matching of whole paths, byte by byte. A set of positions in a path is a list of marks, one before each
byte and one at the end; every token carries a set of positions to the set of those that it can reach.
-/

set_option autoImplicit false

namespace TreeLint

/-- The positions of a path that are reached, from its beginning to its end. -/
abbrev Marks := List Bool

namespace Marks

def start (length : Nat) : Marks := true :: List.replicate length false

def union (left right : Marks) : Marks := List.zipWith (· || ·) left right

/-- One byte that satisfies a test. -/
def step (path : List UInt8) (test : UInt8 → Bool) (marks : Marks) : Marks :=
  false :: List.zipWith (fun byte mark => mark && test byte) path marks

/-- Any number of bytes that satisfy a test; `reached` tells whether the byte before can be passed. -/
def spread (test : UInt8 → Bool) (reached : Bool) : List UInt8 → Marks → Marks
  | _, [] => []
  | [], mark :: _ => [mark || reached]
  | byte :: path, mark :: marks =>
      (mark || reached) :: spread test ((mark || reached) && test byte) path marks

end Marks

namespace GlobToken

def slash : UInt8 := 47

def bytesOf (c : Char) : List UInt8 := (String.singleton c).toUTF8.toList

/-- Whether a byte is in a range of a class. The end points of a range are taken byte by byte: only the last
byte of the first and the first byte of the last span a range. -/
def inRange (byte : UInt8) (low high : Char) : Bool :=
  let first := bytesOf low
  let last := bytesOf high
  if low = high then first.contains byte
  else
    first.dropLast.contains byte || (last.drop 1).contains byte
      || (first.getLast?.getD 0 ≤ byte && byte ≤ last.headD 0)

def inClass (negated : Bool) (ranges : List (Char × Char)) (byte : UInt8) : Bool :=
  (ranges.any fun (low, high) => inRange byte low high) != negated

mutual

/-- The positions that a token reaches. If `within` is set, wildcards stay within a component. -/
def reach (path : List UInt8) (within : Bool) (marks : Marks) : GlobToken → Marks
  | .literal c => (bytesOf c).foldl (fun marks byte => marks.step path (· == byte)) marks
  | .any => marks.step path fun byte => !(within && byte == slash)
  | .many => marks.spread (fun byte => !(within && byte == slash)) false path
  | .leadingComponents =>
      marks.union ((Marks.spread (fun _ => true) false path marks).step path (· == slash))
  | .trailingComponents =>
      Marks.spread (fun _ => true) false path (marks.step path (· == slash))
  | .innerComponents =>
      let after := marks.step path (· == slash)
      after.union ((Marks.spread (fun _ => true) false path after).step path (· == slash))
  | .oneOf negated ranges => marks.step path (inClass negated ranges)
  | .group branches =>
      if areBlank branches then marks
      else reachAny path within marks branches

/-- The positions that one of several alternatives reaches; those that stand for no text are left out. -/
def reachAny (path : List UInt8) (within : Bool) (marks : Marks) :
    List (List GlobToken) → Marks
  | [] => List.replicate (path.length + 1) false
  | branch :: rest =>
      let others := reachAny path within marks rest
      if isBlankBranch branch then others
      else (reachAll path within marks branch).union others

def reachAll (path : List UInt8) (within : Bool) (marks : Marks) : List GlobToken → Marks
  | [] => marks
  | token :: rest => reachAll path within (reach path within marks token) rest

end

end GlobToken

namespace Glob

def isText : GlobToken → Bool
  | .literal _ => true
  | _ => false

def isSlash : GlobToken → Bool
  | .literal c => c == '/'
  | _ => false

/-- Whether a pattern asks for the name in which a path ends: it ends in a written-out dot and is not just a
text to which a path is equal, or in which it ends. -/
def asksForName (glob : Glob) : Bool :=
  let endsInDot :=
    match glob.getLast? with
    | some (.literal c) => c == '.'
    | _ => false
  let afterMany : Glob → Bool
    | .many :: rest => !rest.all isText || rest.length == 1
    | _ => true
  endsInDot &&
    match glob with
    | .leadingComponents :: rest => if rest.all isText then !rest.any isSlash else afterMany rest
    | _ => !glob.all isText && afterMany glob

/-- Whether a path ends in the component `..`, which is no name. -/
def endsInParent (path : String) : Bool :=
  let letters := path.toList.reverse
  letters.take 2 == ['.', '.'] && ((letters[2]?).getD '/') == '/'

/-- Whether a pattern covers a path. If `within` is set, wildcards stay within a component. -/
def covers (glob : Glob) (within : Bool) (path : String) : Bool :=
  match glob with
  | [.leadingComponents] => true
  | _ =>
      if asksForName glob && endsInParent path then false
      else
        let bytes := path.toUTF8.toList
        ((GlobToken.reachAll bytes within (Marks.start bytes.length) glob).getLast?).getD false

end Glob

end TreeLint
