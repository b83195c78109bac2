import TreeLint.Regex.Engine
import TreeLint.Selector.Printer
import TreeLint.Text.Blank
import TreeLint.Tree.Lookup

/-!
Contract: tests of the values in a tree.

Owns:
- whether a value counts as present, the name of its kind, and the text it is compared as;
- the order of a value and a literal;
- the outcome of a test.

Equality compares texts. The relational operators compare strings with strings, and otherwise numbers;
what cannot be compared fails to match. Only strings can match a regular expression.
-/

set_option autoImplicit false

namespace TreeLint

namespace Value

/-- Whether a value counts as present. -/
def isTruthy : Option Value → Bool
  | none | some .null => false
  | some (.bool value) => value
  | some (.number value) => !value.isZero && value != .nan
  | some (.string text) => !text.isEmpty
  | some (.array items) => !items.isEmpty
  | some (.object _) | some (.node _) => true

def typeName : Option Value → String
  | none => "undefined"
  | some (.bool _) => "boolean"
  | some (.number _) => "number"
  | some (.string _) => "string"
  | some .null | some (.array _) | some (.object _) | some (.node _) => "object"

/-- The text that a number is compared as. -/
def numberForm : Double → String
  | .nan => "NaN"
  | .signed negative magnitude =>
      if magnitude = Magnitude.infinity then if negative then "-Infinity" else "Infinity"
      else if magnitude.val = 0 then "0"
      else (Double.signed negative magnitude).text

mutual

/-- The text that a value is compared as. Null is empty inside an array. -/
def form (inArray : Bool) : Value → String
  | .null => if inArray then "" else "null"
  | .bool value => if value then "true" else "false"
  | .number value => numberForm value
  | .string text => text
  | .array items => formItems items
  | .object _ | .node _ => "[object Object]"

/-- The texts of items with commas between them. -/
def formItems : List Value → String
  | [] => ""
  | item :: rest => form true item ++ formFurther rest

/-- The texts of items, each after a comma. -/
def formFurther : List Value → String
  | [] => ""
  | item :: rest => "," ++ form true item ++ formFurther rest

end

/-- The text that a value, or the lack of one, is compared as. -/
def stringForm : Option Value → String
  | none => "undefined"
  | some value => form false value

/-- The number that a text denotes in a comparison; a blank text is zero. -/
def parseNumber? (text : String) : Option Double :=
  match Text.trim text.toList with
  | [] => some .zero
  | trimmed => Double.read? trimmed

/-- The number that a value counts as in a comparison. -/
def toNumber? : Value → Option Double
  | .number value => some value
  | .bool value => some (if value then .one else .zero)
  | .string text => parseNumber? text
  | _ => none

end Value

namespace Operand

def literalForm? : Operand → Option String
  | .string text => some text
  | .number value => some (Value.numberForm value)
  | _ => none

def toNumber? : Operand → Option Double
  | .string text => Value.parseNumber? text
  | .number value => some value
  | _ => none

end Operand

/-- How a value compares with a literal; strings compare by code points. -/
def orderOf? : Option Value → Operand → Option Ordering
  | some (.string left), .string right => some (compare left right)
  | some value, operand => do (← value.toNumber?).order? (← operand.toNumber?)
  | none, _ => none

def Comparison.accepts : Comparison → Ordering → Bool
  | .equal, order => order == .eq
  | .notEqual, order => order != .eq
  | .less, order => order == .lt
  | .lessOrEqual, order => order != .gt
  | .greater, order => order == .gt
  | .greaterOrEqual, order => order != .lt

structure Verdict where
  holds : Bool
  /-- The search for a regular expression was given up. -/
  gaveUp : Bool
  deriving DecidableEq, Repr

/-- The outcome of a test in which nothing is searched. -/
def Verdict.plain (holds : Bool) : Verdict := ⟨holds, false⟩

def RegexEngine.verdict (engine : RegexEngine) (source flags : String) (value : Option Value) :
    Verdict :=
  match value with
  | some (.string text) =>
      match engine.search source flags text with
      | .found => .plain true
      | .absent => .plain false
      | .gaveUp => ⟨false, true⟩
  | _ => .plain false

namespace Test

/-- The outcome of a test on a value. A test that is not well formed never holds. -/
def verdict (engine : RegexEngine) (test : Test) (value : Option Value) : Verdict :=
  match test.comparison, test.operand with
  | .equal, .regex source flags => engine.verdict source flags value
  | .notEqual, .regex source flags =>
      let found := engine.verdict source flags value
      ⟨!found.holds, found.gaveUp⟩
  | .equal, .typeName name => .plain (Value.typeName value == name)
  | .notEqual, .typeName name => .plain (Value.typeName value != name)
  | .equal, operand => .plain (some (Value.stringForm value) == operand.literalForm?)
  | .notEqual, operand => .plain (some (Value.stringForm value) != operand.literalForm?)
  | comparison, operand =>
      .plain (operand.isLiteral && (orderOf? value operand).any comparison.accepts)

end Test

end TreeLint
