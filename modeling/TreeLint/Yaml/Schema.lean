import TreeLint.Yaml.Value

/-!
Contract: what unquoted and tagged scalars mean.

Owns: the core schema of YAML 1.2. Null and the two truth values have three spellings each, and null also a tilde;
whole numbers are decimal, or have a prefix for hexadecimal, octal or, beyond the schema, binary digits; digits
after a leading zero are text. A tag of the schema asks for its kind of scalar; any other global tag makes text.
-/

set_option autoImplicit false

namespace TreeLint.Yaml

def isNullWord (text : String) : Bool :=
  text == "null" || text == "Null" || text == "NULL" || text == "~"

def boolWord? : String → Option Bool
  | "true" | "True" | "TRUE" => some true
  | "false" | "False" | "FALSE" => some false
  | _ => none

def digitValue? (c : Char) : Option Nat :=
  if c.isDigit then some (c.toNat - 48)
  else if 'a' ≤ c && c ≤ 'f' then some (c.toNat - 87)
  else if 'A' ≤ c && c ≤ 'F' then some (c.toNat - 55)
  else none

def digitsIn? (base value : Nat) : List Char → Option Nat
  | [] => some value
  | c :: rest =>
      match digitValue? c with
      | some digit => if digit < base then digitsIn? base (value * base + digit) rest else none
      | none => none

/-- The number that at least one digit of a base denotes. -/
def natural? (base : Nat) (digits : List Char) : Option Nat :=
  if digits.isEmpty then none else digitsIn? base 0 digits

/-- Whether a text is a leading zero with further digits, perhaps after a sign. -/
def isZeroPadded (text : List Char) : Bool :=
  let digits :=
    match text with
    | '-' :: rest => rest
    | '+' :: rest => rest
    | rest => rest
  match digits with
  | '0' :: c :: rest => (c :: rest).all Char.isDigit
  | _ => false

def magnitude? (zeroPadded : Bool) (text : List Char) : Option Nat :=
  let based : Option Nat :=
    match text with
    | '0' :: 'x' :: rest => natural? 16 rest
    | '0' :: 'o' :: rest => natural? 8 rest
    | '0' :: 'b' :: rest => natural? 2 rest
    | _ => none
  match based with
  | some value => some value
  | none => if zeroPadded then none else natural? 10 text

def whole? (text : List Char) : Option Int :=
  match text with
  | '-' :: rest => (magnitude? (isZeroPadded text) rest).map fun n => -(n : Int)
  | '+' :: rest => (magnitude? (isZeroPadded text) rest).map fun n => (n : Int)
  | rest => (magnitude? (isZeroPadded text) rest).map fun n => (n : Int)

def fitsWord (n : Int) : Bool := -(Nat.pow 2 63 : Int) ≤ n && n < Nat.pow 2 64

def fitsDoubleWord (n : Int) : Bool := -(Nat.pow 2 127 : Int) ≤ n && n < Nat.pow 2 128

def isFinite : Double → Bool
  | .nan => false
  | .signed _ magnitude => magnitude != Magnitude.infinity

def decimal? (text : String) : Option Double :=
  let letters := text.toList
  let unsigned? : Option (List Char) :=
    match letters with
    | '+' :: '+' :: _ => none
    | '+' :: '-' :: _ => none
    | '+' :: rest => some rest
    | rest => some rest
  match unsigned? with
  | none => none
  | some unsigned =>
      let word := String.ofList unsigned
      if word == ".inf" || word == ".Inf" || word == ".INF" then
        some (.signed false Magnitude.infinity)
      else if text == "-.inf" || text == "-.Inf" || text == "-.INF" then
        some (.signed true Magnitude.infinity)
      else if text == ".nan" || text == ".NaN" || text == ".NAN" then some .nan
      else (Double.read? unsigned).filter isFinite

/-- A whole number as a value. Those of more than 64 bits but at most 128 are refused, and longer ones are not
whole numbers; the outer option tells whether the text is one. -/
def wholeValue? (text : String) : Option (Option Yaml) :=
  match whole? text.toList with
  | none => none
  | some n =>
      if fitsWord n then some (some (.whole n))
      else if fitsDoubleWord n then some none
      else none

/-- The value of an unquoted scalar without a tag, unless it is refused. -/
def plainValue (text : String) : Option Yaml :=
  if text == "" || isNullWord text then some .null
  else
    match boolWord? text with
    | some truth => some (.bool truth)
    | none =>
        match wholeValue? text with
        | some value => value
        | none =>
            if isZeroPadded text.toList then some (.string text)
            else
              match decimal? text with
              | some value => some (.decimal value)
              | none => some (.string text)

/-- The value of a scalar with one of the tags of the core schema, or with any other global tag. -/
def globallyTagged (tag text : String) : Option Yaml :=
  match tag with
  | "tag:yaml.org,2002:bool" => (boolWord? text).map Yaml.bool
  | "tag:yaml.org,2002:int" => (wholeValue? text).join
  | "tag:yaml.org,2002:float" => (decimal? text).map Yaml.decimal
  | "tag:yaml.org,2002:null" => if isNullWord text then some .null else none
  | _ => some (.string text)

/-- The name that a local tag gives, which is what follows its exclamation mark. -/
def localTag? (tag : Option String) : Option String :=
  match tag.map String.toList with
  | some ['!'] => some "!"
  | some ('!' :: rest) => some (String.ofList rest)
  | _ => none

end TreeLint.Yaml
