import TreeLint.Regex.CharSet
import TreeLint.Regex.Fault

/-!
Contract: from the characters between square brackets to a set.

Owns: the reader of character classes: ranges, nested classes, ASCII classes, and the operators `&&`, `--`
and `~~`. Escapes have been read before, so a member of the list is either a character with its usual
meaning or a set that an escape denotes.
-/

set_option autoImplicit false

namespace TreeLint.Regex

inductive ClassToken where
  /-- A character that may have a meaning of its own. -/
  | raw (c : Char)
  /-- A character that stands for itself. -/
  | escaped (c : Char)
  /-- A set that an escape denotes. -/
  | escapedSet (set : CharSet)
  deriving Repr, BEq

namespace ClassParser

inductive Operator where
  | inter
  | difference
  | symmetric
  deriving Repr, BEq

def Operator.apply (ignoreCase : Bool) (operator : Operator) (left right : CharSet) : CharSet :=
  let left := left.folded ignoreCase
  let right := right.folded ignoreCase
  match operator with
  | .inter => .inter left right
  | .difference => .difference left right
  | .symmetric => .symmetricDifference left right

/-- What has been read of a class: the sets that are to be united, and what stands left of them. -/
structure Partial where
  members : List CharSet
  pending : Option (CharSet × Operator)

def Partial.combined (ignoreCase : Bool) (read : Partial) : CharSet :=
  let members := CharSet.union read.members.reverse
  match read.pending with
  | none => members
  | some (left, operator) => operator.apply ignoreCase left members

def Partial.add (read : Partial) (set : CharSet) : Partial :=
  { read with members := set :: read.members }

/-- With an operator after what has been read. -/
def Partial.operate (ignoreCase : Bool) (read : Partial) (operator : Operator) : Partial :=
  { members := [], pending := some (read.combined ignoreCase, operator) }

/-- The name of an ASCII class in `[:name:]`, after its opening bracket. -/
def asciiClass? (tokens : List ClassToken) : Option (CharSet × List ClassToken) :=
  match tokens with
  | .raw ':' :: rest =>
      let (negated, rest) :=
        match rest with
        | .raw '^' :: more => (true, more)
        | more => (false, more)
      let isLetter : ClassToken → Bool
        | .raw c => c != ':'
        | _ => false
      let name := (rest.takeWhile isLetter).filterMap fun token =>
        match token with
        | .raw c => some c
        | _ => none
      match rest.dropWhile isLetter with
      | .raw ':' :: .raw ']' :: after =>
          (CharSet.ascii? (String.ofList name)).map fun set => (set.negatedIf negated, after)
      | _ => none
  | _ => none

/-- The character that a token stands for as an end of a range. -/
def endOfRange? : ClassToken → Option Char
  | .raw c | .escaped c => some c
  | .escapedSet _ => none

def ownSet : ClassToken → CharSet
  | .raw c | .escaped c => .single c
  | .escapedSet set => set

/-- One member: a range, or a single character or set. -/
def member (tokens : List ClassToken) : Except Fault (CharSet × List ClassToken) :=
  match tokens with
  | [] => .error .unclosedClass
  | first :: .raw '-' :: rest =>
      match rest with
      | .raw ']' :: _ | .raw '-' :: _ => .ok (ownSet first, .raw '-' :: rest)
      | [] => .error .unclosedClass
      | last :: after =>
          match endOfRange? first, endOfRange? last with
          | some low, some high =>
              if low ≤ high then .ok (.range low high, after) else .error .invalidClass
          | _, _ => .error .invalidClass
  | first :: rest => .ok (ownSet first, rest)

/-- The beginning of a class, after its bracket: whether it is negated, and the members that may only stand
there, hyphens and a closing bracket. -/
def opening (tokens : List ClassToken) : Bool × List CharSet × List ClassToken :=
  let (negated, rest) :=
    match tokens with
    | .raw '^' :: rest => (true, rest)
    | rest => (false, rest)
  let hyphens := rest.takeWhile (· == .raw '-')
  match hyphens, rest.dropWhile (· == .raw '-') with
  | [], .raw ']' :: after => (negated, [.single ']'], after)
  | _, after => (negated, hyphens.map ownSet, after)

/-- The members of a class up to its closing bracket. `fuel` bounds the number of members and nested
classes; the number of tokens is enough. -/
def members (ignoreCase : Bool) :
    (fuel : Nat) → Partial → List ClassToken → Except Fault (CharSet × List ClassToken)
  | 0, _, _ => .error .unclosedClass
  | fuel + 1, read, tokens =>
      match tokens with
      | [] => .error .unclosedClass
      | .raw ']' :: rest => .ok (read.combined ignoreCase, rest)
      | .raw '&' :: .raw '&' :: rest => members ignoreCase fuel (read.operate ignoreCase .inter) rest
      | .raw '-' :: .raw '-' :: rest =>
          members ignoreCase fuel (read.operate ignoreCase .difference) rest
      | .raw '~' :: .raw '~' :: rest =>
          members ignoreCase fuel (read.operate ignoreCase .symmetric) rest
      | .raw '[' :: rest =>
          match asciiClass? rest with
          | some (set, after) => members ignoreCase fuel (read.add (set.folded ignoreCase)) after
          | none =>
              let (negated, first, inside) := opening rest
              match members ignoreCase fuel ⟨first, none⟩ inside with
              | .error fault => .error fault
              | .ok (set, after) =>
                  members ignoreCase fuel
                    (read.add ((set.folded ignoreCase).negatedIf negated)) after
      | _ =>
          match member tokens with
          | .error fault => .error fault
          | .ok (set, after) => members ignoreCase fuel (read.add set) after

end ClassParser

/-- The set that a class denotes; the tokens begin after the opening bracket and end with the closing
one. -/
def CharSet.ofClass (ignoreCase : Bool) (tokens : List ClassToken) : Except Fault CharSet :=
  let (negated, first, inside) := ClassParser.opening tokens
  match ClassParser.members ignoreCase (tokens.length + 1) ⟨first, none⟩ inside with
  | .error fault => .error fault
  | .ok (set, []) => .ok ((set.folded ignoreCase).negatedIf negated)
  | .ok (_, _ :: _) => .error .invalidClass

end TreeLint.Regex
