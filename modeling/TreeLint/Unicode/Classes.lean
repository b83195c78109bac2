import TreeLint.Unicode.GeneralCategory

/-!
Contract: classes of characters that follow from the general category.

Owns: word characters, decimal digits, printable characters, and characters that extend the one before
them. Each class is a set of categories and a short list of further ranges.
-/

set_option autoImplicit false

namespace TreeLint.Unicode

/-- Characters with the property `Alphabetic` that are neither letters, nor letter numbers, nor
marks. -/
def alphabeticSymbols : List (Nat × Nat) :=
  [(0x24B6, 0x24E9), (0x1F130, 0x1F149), (0x1F150, 0x1F169), (0x1F170, 0x1F189)]

/-- Whether the character is a decimal digit of some script. -/
def isDecimalDigit (c : Char) : Bool :=
  GeneralCategory.of c == .decimalNumber

/-- Whether the character may occur in a word: letters, marks, decimal digits, letter numbers, connecting
punctuation, alphabetic symbols and the two joiners. -/
def isWordCharacter (c : Char) : Bool :=
  if c.toNat < 128 then c.isAlphanum || c == '_'
  else
    let category := GeneralCategory.of c
    category.isLetter || category.isMark || category == .decimalNumber || category == .letterNumber
      || category == .connectorPunctuation || inRanges alphabeticSymbols c.toNat
      || c.toNat == 0x200C || c.toNat == 0x200D

/-- Whether the character can be shown as it is: it is assigned, and neither a control, a format
character, a surrogate, of private use, nor a separator other than the space. -/
def isPrintable (c : Char) : Bool :=
  c == ' ' ||
    match GeneralCategory.of c with
    | .control | .format | .surrogate | .privateUse | .unassigned
    | .lineSeparator | .paragraphSeparator | .spaceSeparator => false
    | _ => true

/-- Spacing marks and others that extend the character before them, beside the marks that do so by their
category. -/
def extendingRanges : List (Nat × Nat) :=
  [(0x9BE, 0x9BE), (0x9D7, 0x9D7), (0xB3E, 0xB3E), (0xB57, 0xB57), (0xBBE, 0xBBE), (0xBD7, 0xBD7),
   (0xCC0, 0xCC0), (0xCC2, 0xCC2), (0xCC7, 0xCC8), (0xCCA, 0xCCB), (0xCD5, 0xCD6), (0xD3E, 0xD3E),
   (0xD57, 0xD57), (0xDCF, 0xDCF), (0xDDF, 0xDDF), (0x1715, 0x1715), (0x1734, 0x1734),
   (0x1B35, 0x1B35), (0x1B3B, 0x1B3B), (0x1B3D, 0x1B3D), (0x1B43, 0x1B44), (0x1BAA, 0x1BAA),
   (0x1BF2, 0x1BF3), (0x200C, 0x200C), (0x302E, 0x302F), (0xA953, 0xA953), (0xA9C0, 0xA9C0),
   (0xFF9E, 0xFF9F), (0x111C0, 0x111C0), (0x11235, 0x11235), (0x1133E, 0x1133E), (0x1134D, 0x1134D),
   (0x11357, 0x11357), (0x113B8, 0x113B8), (0x113C2, 0x113C2), (0x113C5, 0x113C5),
   (0x113C7, 0x113C9), (0x113CF, 0x113CF), (0x114B0, 0x114B0), (0x114BD, 0x114BD),
   (0x115AF, 0x115AF), (0x116B6, 0x116B6), (0x11930, 0x11930), (0x1193D, 0x1193D),
   (0x11F41, 0x11F41), (0x16FF0, 0x16FF1), (0x1D165, 0x1D166), (0x1D16D, 0x1D172),
   (0xE0020, 0xE007F)]

/-- Whether the character extends the one before it to a single visible unit. -/
def extendsGrapheme (c : Char) : Bool :=
  match GeneralCategory.of c with
  | .nonspacingMark | .enclosingMark => true
  | _ => inRanges extendingRanges c.toNat

end TreeLint.Unicode
