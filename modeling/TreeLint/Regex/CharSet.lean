import TreeLint.Text.Blank
import TreeLint.Unicode.CaseFolding
import TreeLint.Unicode.Classes

/-!
Contract: sets of characters, as regular expressions describe them.

Owns: the description of a set by ranges, properties and set operations, and membership. A set may be
closed under the equality of letters that ignores case.
-/

set_option autoImplicit false

namespace TreeLint.Regex

inductive CharSet where
  /-- The characters from `low` to `high`. -/
  | range (low high : Char)
  /-- Decimal digits of any script. -/
  | digit
  /-- White space. -/
  | blank
  /-- Characters of words. -/
  | word
  /-- Characters of certain general categories. -/
  | category (categories : List Unicode.GeneralCategory)
  /-- Characters whose numbers lie in certain ranges. -/
  | ranges (ranges : List (Nat × Nat))
  | complement (set : CharSet)
  | union (sets : List CharSet)
  | inter (left right : CharSet)
  /-- The set with every other case of its letters. -/
  | caseless (set : CharSet)
  deriving Repr, BEq

namespace CharSet

mutual

def contains : CharSet → Char → Bool
  | .range low high, c => low ≤ c && c ≤ high
  | .digit, c => Unicode.isDecimalDigit c
  | .blank, c => Text.isBlank c
  | .word, c => Unicode.isWordCharacter c
  | .category categories, c => categories.contains (Unicode.GeneralCategory.of c)
  | .ranges table, c => Unicode.inRanges table c.toNat
  | .complement set, c => !contains set c
  | .union sets, c => anyContains sets c
  | .inter left right, c => contains left c && contains right c
  | .caseless set, c => (Unicode.caseFamily c).any (contains set)

def anyContains : List CharSet → Char → Bool
  | [], _ => false
  | set :: rest, c => contains set c || anyContains rest c

end

def single (c : Char) : CharSet := .range c c

def difference (left right : CharSet) : CharSet := .inter left (.complement right)

def symmetricDifference (left right : CharSet) : CharSet :=
  .union [difference left right, difference right left]

/-- The set with every other case of its letters if `ignoreCase` is set. -/
def folded (ignoreCase : Bool) (set : CharSet) : CharSet :=
  if ignoreCase then .caseless set else set

/-- The complement of the set if `negated` is set. -/
def negatedIf (negated : Bool) (set : CharSet) : CharSet :=
  if negated then .complement set else set

def ascii? : String → Option CharSet
  | "alnum" => some (.union [.range '0' '9', .range 'A' 'Z', .range 'a' 'z'])
  | "alpha" => some (.union [.range 'A' 'Z', .range 'a' 'z'])
  | "ascii" => some (.range '\x00' '\x7f')
  | "blank" => some (.union [single '\t', single ' '])
  | "cntrl" => some (.union [.range '\x00' '\x1f', single '\x7f'])
  | "digit" => some (.range '0' '9')
  | "graph" => some (.range '!' '~')
  | "lower" => some (.range 'a' 'z')
  | "print" => some (.range ' ' '~')
  | "punct" => some (.union [.range '!' '/', .range ':' '@', .range '[' '\x60', .range '\x7b' '~'])
  | "space" => some (.union [.range '\t' '\r', single ' '])
  | "upper" => some (.range 'A' 'Z')
  | "word" => some (.union [.range '0' '9', .range 'A' 'Z', .range 'a' 'z', single '_'])
  | "xdigit" => some (.union [.range '0' '9', .range 'A' 'F', .range 'a' 'f'])
  | _ => none

end CharSet

end TreeLint.Regex
