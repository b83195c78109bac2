/-!
Contract: places in a YAML text.

Owns: the classes of characters that YAML tells apart, a place in a text with its line and column, and the ways
of moving on from it. The printable characters are those of YAML 1.2. A carriage return with a line feed is one line
break; as in YAML 1.1 the next-line character and the two Unicode separators are breaks too, and every break but
the separators reads as a line feed.
-/

set_option autoImplicit false

namespace TreeLint.Yaml

def isAllowed (c : Char) : Bool :=
  let n := c.toNat
  n == 9 || n == 10 || n == 13 || (0x20 ≤ n && n ≤ 0x7E) || n == 0x85
    || (0xA0 ≤ n && n ≤ 0xFFFD) || 0x10000 ≤ n

def isBlank (c : Char) : Bool := c == ' ' || c == '\t'

/-- The separators that are kept as they are. -/
def isSeparator (c : Char) : Bool := c.toNat == 0x2028 || c.toNat == 0x2029

def isBreak (c : Char) : Bool := c == '\r' || c == '\n' || c.toNat == 0x85 || isSeparator c

/-- The characters of directives, anchors and tag handles. -/
def isWord (c : Char) : Bool := c.isAlphanum || c == '_' || c == '-'

/-- Whether a text begins with a blank or a break, or ends. -/
def beginsBlank : List Char → Bool
  | [] => true
  | c :: _ => isBlank c || isBreak c

/-- Whether a text begins with a break, or ends. -/
def beginsBreak : List Char → Bool
  | [] => true
  | c :: _ => isBreak c

/-- Whether a line is a document marker: three times the given character, alone or before a blank. -/
def beginsMarker (mark : Char) : List Char → Bool
  | a :: b :: c :: rest => a == mark && b == mark && c == mark && beginsBlank rest
  | _ => false

/-- The line break that a text begins with: what it reads as, and how many characters it has after its first. -/
def lineBreak? : List Char → Option (List Char × Nat)
  | '\r' :: '\n' :: _ => some (['\n'], 1)
  | c :: _ => if isSeparator c then some ([c], 0) else if isBreak c then some (['\n'], 0) else none
  | [] => none

structure Cursor where
  rest : List Char
  /-- The number of characters before the place. -/
  index : Nat
  line : Nat
  column : Nat

namespace Cursor

def start (text : List Char) : Cursor := ⟨text, 0, 0, 0⟩

def advance (cursor : Cursor) (count : Nat) : Cursor :=
  ⟨cursor.rest.drop count, cursor.index + count, cursor.line, cursor.column + count⟩

/-- The place after a line break with some characters after its first. -/
def nextLine (cursor : Cursor) (further : Nat) : Cursor :=
  ⟨cursor.rest.drop (further + 1), cursor.index + further + 1, cursor.line + 1, 0⟩

/-- The place after all characters that satisfy a test, none of which is a line break. -/
def skipWhile (cursor : Cursor) (test : Char → Bool) : Cursor :=
  cursor.advance (cursor.rest.takeWhile test).length

/-- The place at the end of the line. -/
def skipComment (cursor : Cursor) : Cursor :=
  match cursor.rest with
  | '#' :: _ => cursor.skipWhile fun c => !isBreak c
  | _ => cursor

def skipBreak (cursor : Cursor) : Cursor :=
  match lineBreak? cursor.rest with
  | some (_, further) => cursor.nextLine further
  | none => cursor

def atMarker (cursor : Cursor) : Bool :=
  cursor.column == 0 && (beginsMarker '-' cursor.rest || beginsMarker '.' cursor.rest)

end Cursor

end TreeLint.Yaml
