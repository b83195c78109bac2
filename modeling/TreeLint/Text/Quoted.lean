import TreeLint.Unicode.Classes

/-!
Contract: text shown between double quotes.

Owns: the quoted form in which a string literal is shown in a message. Quotes, backslashes and the usual
control characters are escaped by a letter; a character that cannot be shown, or that would join with
the character before it, is given by its hexadecimal number between braces.
-/

set_option autoImplicit false

namespace TreeLint.Text

/-- A number in lower-case hexadecimal digits. -/
def hexadecimal (n : Nat) : List Char := Nat.toDigits 16 n

def quoteChar (c : Char) : List Char :=
  match c with
  | '\x00' => ['\\', '0']
  | '\t' => ['\\', 't']
  | '\r' => ['\\', 'r']
  | '\n' => ['\\', 'n']
  | '"' => ['\\', '"']
  | '\\' => ['\\', '\\']
  | c =>
      if c.toNat < 127 && 32 ≤ c.toNat then [c]
      else if Unicode.extendsGrapheme c || !Unicode.isPrintable c then
        ['\\', 'u', '\x7b'] ++ hexadecimal c.toNat ++ ['\x7d']
      else [c]

def quoted (text : List Char) : List Char :=
  '"' :: (text.flatMap quoteChar ++ ['"'])

end TreeLint.Text
