import TreeLint.Json.Basic

/-!
Contract: JSON documents as indented text.

Owns: the written form of a document, with two blanks for each level and one item or member on a line, and
the escapes inside strings. Only quotes, backslashes and control characters are escaped, by the short escapes of
the JSON grammar where it has one. Empty arrays and objects stand on one line.
-/

set_option autoImplicit false

namespace TreeLint

namespace Json

/-- The digits of a byte in four hexadecimal places. -/
def fourDigits (n : Nat) : List Char :=
  let digit (d : Nat) : Char := Nat.digitChar (d % 16)
  [digit (n / 4096), digit (n / 256), digit (n / 16), digit n]

def escapeChar (c : Char) : List Char :=
  match c with
  | '"' => ['\\', '"']
  | '\\' => ['\\', '\\']
  | '\x08' => ['\\', 'b']
  | '\t' => ['\\', 't']
  | '\n' => ['\\', 'n']
  | '\x0c' => ['\\', 'f']
  | '\r' => ['\\', 'r']
  | c => if c.toNat < 32 then '\\' :: 'u' :: fourDigits c.toNat else [c]

def writeString (text : String) : List Char :=
  '"' :: (text.toList.flatMap escapeChar ++ ['"'])

def writeNumber : JsonNumber → List Char
  | .whole negative magnitude => (if negative then ['-'] else []) ++ Nat.toDigits 10 magnitude
  | .decimal value => value.text.toList

/-- The beginning of a line at a level. -/
def newLine (level : Nat) : List Char := '\n' :: List.replicate (2 * level) ' '

mutual

/-- A document whose first line stands at a level. -/
def write (level : Nat) : Json → List Char
  | .null => ['n', 'u', 'l', 'l']
  | .bool true => ['t', 'r', 'u', 'e']
  | .bool false => ['f', 'a', 'l', 's', 'e']
  | .number value => writeNumber value
  | .string text => writeString text
  | .array [] => ['[', ']']
  | .array (item :: rest) =>
      '[' :: newLine (level + 1) ++ write (level + 1) item ++ writeItems level rest
  | .object [] => ['\x7b', '\x7d']
  | .object ((key, value) :: rest) =>
      '\x7b' :: newLine (level + 1) ++ writeString key ++ [':', ' '] ++ write (level + 1) value
        ++ writeMembers level rest

/-- The further items of an array, and its end. -/
def writeItems (level : Nat) : List Json → List Char
  | [] => newLine level ++ [']']
  | item :: rest =>
      ',' :: newLine (level + 1) ++ write (level + 1) item ++ writeItems level rest

/-- The further members of an object, and its end. -/
def writeMembers (level : Nat) : List (String × Json) → List Char
  | [] => newLine level ++ ['\x7d']
  | (key, value) :: rest =>
      ',' :: newLine (level + 1) ++ writeString key ++ [':', ' '] ++ write (level + 1) value
        ++ writeMembers level rest

end

def text (document : Json) : String := String.ofList (write 0 document)

end Json

end TreeLint
