import TreeLint.Glob.Basic

/-!
Contract: reading path patterns.

Owns: `Glob.read`, which refuses a pattern whose class or group is not closed, whose range runs backwards,
which closes a group that is not open, or which ends in a lone backslash. A setting tells whether a class
that is not closed is taken as plain text instead.

A doubled star stands for whole components only where it is a whole component itself; elsewhere it is two
single stars.
-/

set_option autoImplicit false

namespace TreeLint

inductive GlobFault where
  | unclosedClass
  | reversedRange (low high : Char)
  | unclosedGroup
  | unopenedGroup
  | danglingEscape
  deriving DecidableEq, Repr

def GlobFault.message : GlobFault → String
  | .unclosedClass => "a character class is not closed"
  | .reversedRange low high =>
      "a range runs from \x60" ++ String.singleton low ++ "\x60 back to \x60" ++ String.singleton high ++ "\x60"
  | .unclosedGroup => "a group is not closed"
  | .unopenedGroup => "a closing brace has no opening one"
  | .danglingEscape => "a backslash ends the pattern"

namespace Glob

/-- The last range, ended at a character. -/
def endRange (last : Char) : List (Char × Char) → Except GlobFault (List (Char × Char))
  | [] => .ok [(last, last)]
  | (low, _) :: others =>
      if last < low then .error (.reversedRange low last) else .ok ((low, last) :: others)

/-- The ranges of a class after its first item, the latest first, up to the closing bracket. `open` tells
whether the last item is waiting for the end of a range. -/
def classRanges (text : List Char) (ranges : List (Char × Char)) (pending : Bool) :
    Except GlobFault (List (Char × Char) × { rest : List Char // rest.length < text.length }) :=
  match text with
  | [] => .error .unclosedClass
  | ']' :: rest =>
      .ok ((if pending then ('-', '-') :: ranges else ranges), ⟨rest, by simp⟩)
  | c :: rest =>
      let step : Except GlobFault (List (Char × Char) × Bool) :=
        if pending then (endRange c ranges).map fun ranges => (ranges, false)
        else if c = '-' then .ok (ranges, true)
        else .ok ((c, c) :: ranges, false)
      match step with
      | .error fault => .error fault
      | .ok (ranges, pending) =>
          match classRanges rest ranges pending with
          | .error fault => .error fault
          | .ok (ranges, after) => .ok (ranges, ⟨after.val, by have := after.property; simp; omega⟩)

/-- The items of a class. A bracket or a dash that comes first stands for itself. -/
def classItems (negated : Bool) :
    (text : List Char) → Except GlobFault (GlobToken × { rest : List Char // rest.length < text.length })
  | [] => .error .unclosedClass
  | c :: rest =>
      match classRanges rest [(c, c)] false with
      | .error fault => .error fault
      | .ok (ranges, after) =>
          .ok (.oneOf negated ranges.reverse, ⟨after.val, by have := after.property; simp; omega⟩)

def readClass (text : List Char) :
    Except GlobFault (GlobToken × { rest : List Char // rest.length < text.length }) :=
  match text with
  | [] => .error .unclosedClass
  | c :: rest =>
      if c = '!' || c = '^' then
        (classItems true rest).map fun (token, after) =>
          (token, ⟨after.val, by have := after.property; simp; omega⟩)
      else classItems false (c :: rest)

/-- The alternatives of a group that is being read. -/
structure OpenGroup where
  /-- What stands before the group, the latest first. -/
  before : List GlobToken
  /-- The finished alternatives, the latest first. -/
  branches : List (List GlobToken)
  deriving Repr

structure Partial where
  /-- The groups that are open, the innermost first. -/
  groups : List OpenGroup
  /-- The tokens of the innermost alternative, the latest first. -/
  tokens : List GlobToken
  deriving Repr

namespace Partial

def push (state : Partial) (token : GlobToken) : Partial :=
  ⟨state.groups, token :: state.tokens⟩

def openGroup (state : Partial) : Partial := ⟨⟨state.tokens, []⟩ :: state.groups, []⟩

/-- A new alternative of the innermost group, or a plain comma outside of groups. -/
def comma (state : Partial) : Partial :=
  match state.groups with
  | [] => state.push (.literal ',')
  | group :: others => ⟨⟨group.before, state.tokens.reverse :: group.branches⟩ :: others, []⟩

def closeGroup (state : Partial) : Except GlobFault Partial :=
  match state.groups with
  | [] => .error .unopenedGroup
  | group :: others =>
      .ok ⟨others, .group (state.tokens.reverse :: group.branches).reverse :: group.before⟩

/-- A doubled star after `previous` and before `rest`, and how many characters of `rest` belong to it. -/
def doubleStar (state : Partial) (previous : Option Char) (rest : List Char) : Partial × Nat :=
  let plain := (state.push .many).push .many
  let inGroup := !state.groups.isEmpty
  match state.tokens with
  | [] =>
      match rest with
      | [] => (state.push .leadingComponents, 0)
      | '/' :: _ => (state.push .leadingComponents, 1)
      | _ => (plain, 0)
  | last :: others =>
      let starts := previous = some '/'
        || (inGroup && (previous = some ',' || previous = some '\x7b'))
      let ends : Option (GlobToken × Nat) :=
        match rest with
        | [] => some (.trailingComponents, 0)
        | '/' :: _ => some (.innerComponents, 1)
        | c :: _ =>
            if inGroup && (c = ',' || c = '\x7d') then some (.trailingComponents, 0) else none
      match starts, ends with
      | true, some (token, used) =>
          match last with
          | .leadingComponents => (⟨state.groups, last :: others⟩, used)
          | .trailingComponents => (⟨state.groups, last :: others⟩, used)
          | _ => (⟨state.groups, token :: others⟩, used)
      | _, _ => (plain, 0)

end Partial

/-- Reads the characters of a pattern; `previous` is the character before them. -/
def readTokens (lenient classes : Bool) (text : List Char) (previous : Option Char) (state : Partial) :
    Except GlobFault Glob :=
  match text with
  | [] => if state.groups.isEmpty then .ok state.tokens.reverse else .error .unclosedGroup
  | '?' :: rest => readTokens lenient classes rest (some '?') (state.push .any)
  | '*' :: '*' :: rest =>
      let (next, used) := state.doubleStar previous rest
      readTokens lenient classes (rest.drop used) (some (if used = 0 then '*' else '/')) next
  | '*' :: rest => readTokens lenient classes rest (some '*') (state.push .many)
  | '[' :: rest =>
      if !classes then readTokens lenient classes rest (some '[') (state.push (.literal '['))
      else
        match readClass rest with
        | .ok (token, after) =>
            have := after.property
            readTokens lenient classes after.val (some ']') (state.push token)
        | .error .unclosedClass =>
            if lenient then readTokens lenient false rest (some '[') (state.push (.literal '['))
            else .error .unclosedClass
        | .error fault => .error fault
  | '\x7b' :: rest => readTokens lenient classes rest (some '\x7b') state.openGroup
  | '\x7d' :: rest =>
      match state.closeGroup with
      | .error fault => .error fault
      | .ok next => readTokens lenient classes rest (some '\x7d') next
  | ',' :: rest => readTokens lenient classes rest (some ',') state.comma
  | ['\\'] => .error .danglingEscape
  | '\\' :: c :: rest => readTokens lenient classes rest (some c) (state.push (.literal c))
  | c :: rest => readTokens lenient classes rest (some c) (state.push (.literal c))
termination_by text.length
decreasing_by all_goals simp <;> omega

def read (text : String) : Except GlobFault Glob :=
  readTokens false true text.toList none ⟨[], []⟩

/-- The pattern that a text denotes, in which a bracket without its partner stands for itself. -/
def readLenient (text : String) : Except GlobFault Glob :=
  readTokens true true text.toList none ⟨[], []⟩

end Glob

end TreeLint
