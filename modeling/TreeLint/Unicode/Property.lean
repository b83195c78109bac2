import TreeLint.Unicode.GeneralCategory

/-!
Contract: names of character properties in patterns.

Owns: the sets of categories that a name stands for. Names are compared without regard to case, spaces,
hyphens and underscores.
-/

set_option autoImplicit false

namespace TreeLint.Unicode

/-- A property name without case, spaces, hyphens and underscores, and without a leading `is`. -/
def normalizedName (name : List Char) : String :=
  let kept := (name.filter fun c => c != ' ' && c != '-' && c != '_').map Char.toLower
  String.ofList <|
    match kept with
    | 'i' :: 's' :: rest => if kept == ['i', 's', 'c'] then kept else rest
    | _ => kept

/-- The long names of the categories and of groups of categories, normalized. -/
def categoryNames : List (String × List String) :=
  [("l", ["Lu", "Ll", "Lt", "Lm", "Lo"]), ("letter", ["Lu", "Ll", "Lt", "Lm", "Lo"]),
   ("lc", ["Lu", "Ll", "Lt"]), ("casedletter", ["Lu", "Ll", "Lt"]),
   ("lu", ["Lu"]), ("uppercaseletter", ["Lu"]), ("ll", ["Ll"]), ("lowercaseletter", ["Ll"]),
   ("lt", ["Lt"]), ("titlecaseletter", ["Lt"]), ("lm", ["Lm"]), ("modifierletter", ["Lm"]),
   ("lo", ["Lo"]), ("otherletter", ["Lo"]),
   ("m", ["Mn", "Mc", "Me"]), ("mark", ["Mn", "Mc", "Me"]), ("combiningmark", ["Mn", "Mc", "Me"]),
   ("mn", ["Mn"]), ("nonspacingmark", ["Mn"]), ("mc", ["Mc"]), ("spacingmark", ["Mc"]),
   ("me", ["Me"]), ("enclosingmark", ["Me"]),
   ("n", ["Nd", "Nl", "No"]), ("number", ["Nd", "Nl", "No"]), ("nd", ["Nd"]), ("digit", ["Nd"]),
   ("decimalnumber", ["Nd"]), ("nl", ["Nl"]), ("letternumber", ["Nl"]), ("no", ["No"]),
   ("othernumber", ["No"]),
   ("p", ["Pc", "Pd", "Ps", "Pe", "Pi", "Pf", "Po"]),
   ("punct", ["Pc", "Pd", "Ps", "Pe", "Pi", "Pf", "Po"]),
   ("punctuation", ["Pc", "Pd", "Ps", "Pe", "Pi", "Pf", "Po"]),
   ("pc", ["Pc"]), ("connectorpunctuation", ["Pc"]), ("pd", ["Pd"]), ("dashpunctuation", ["Pd"]),
   ("ps", ["Ps"]), ("openpunctuation", ["Ps"]), ("pe", ["Pe"]), ("closepunctuation", ["Pe"]),
   ("pi", ["Pi"]), ("initialpunctuation", ["Pi"]), ("pf", ["Pf"]), ("finalpunctuation", ["Pf"]),
   ("po", ["Po"]), ("otherpunctuation", ["Po"]),
   ("s", ["Sm", "Sc", "Sk", "So"]), ("symbol", ["Sm", "Sc", "Sk", "So"]), ("sm", ["Sm"]),
   ("mathsymbol", ["Sm"]), ("sc", ["Sc"]), ("currencysymbol", ["Sc"]), ("sk", ["Sk"]),
   ("modifiersymbol", ["Sk"]), ("so", ["So"]), ("othersymbol", ["So"]),
   ("z", ["Zs", "Zl", "Zp"]), ("separator", ["Zs", "Zl", "Zp"]), ("zs", ["Zs"]),
   ("spaceseparator", ["Zs"]), ("zl", ["Zl"]), ("lineseparator", ["Zl"]), ("zp", ["Zp"]),
   ("paragraphseparator", ["Zp"]),
   ("c", ["Cc", "Cf", "Cs", "Co", "Cn"]), ("other", ["Cc", "Cf", "Cs", "Co", "Cn"]),
   ("cc", ["Cc"]), ("control", ["Cc"]), ("cntrl", ["Cc"]), ("cf", ["Cf"]), ("format", ["Cf"]),
   ("cn", ["Cn"]), ("unassigned", ["Cn"]), ("co", ["Co"]), ("privateuse", ["Co"]),
   ("cs", ["Cs"]), ("surrogate", ["Cs"])]

def categories? (name : String) : Option (List GeneralCategory) :=
  (categoryNames.find? fun entry => entry.1 == name).map fun entry =>
    entry.2.filterMap GeneralCategory.ofCode?

end TreeLint.Unicode
