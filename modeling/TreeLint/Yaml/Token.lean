/-!
Contract: the tokens of a YAML text.

Owns: the kinds of tokens. Blocks have tokens of their own where they begin and end, which indentation decides;
keys have one before them, also where the text marks them only by the colon that follows.
-/

set_option autoImplicit false

namespace TreeLint.Yaml

inductive Token where
  | streamEnd
  | version (major minor : Nat)
  | tagHandle (handle base : String)
  | documentStart
  | documentEnd
  | blockSequenceStart
  | blockMappingStart
  | blockEnd
  | flowSequenceStart
  | flowSequenceEnd
  | flowMappingStart
  | flowMappingEnd
  | blockEntry
  | flowEntry
  | key
  | value
  | alias (name : String)
  | anchor (name : String)
  | tag (handle ending : String)
  | scalar (isPlain : Bool) (text : String)
  deriving DecidableEq, Repr

end TreeLint.Yaml
