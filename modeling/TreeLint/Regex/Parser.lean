import TreeLint.Number.Decimal
import TreeLint.Regex.ClassParser
import TreeLint.Regex.Expression
import TreeLint.Unicode.Property

/-!
Contract: from the text of a pattern to an expression.

Owns: the pattern language: literals, classes, escapes, groups, named groups, inline flags, look-around,
atomic groups, possessive and lazy repetitions, back-references, conditionals and comments.

Groups may be nested 63 deep. Flags that are set inside a group hold from there to the end of the pattern,
unless the group itself is introduced by them.
-/

set_option autoImplicit false

namespace TreeLint.Regex

/-- The flags in force at a place of a pattern. -/
structure Flags where
  ignoreCase : Bool := false
  multiLine : Bool := false
  dotAll : Bool := false
  ignoreSpace : Bool := false
  swapGreed : Bool := false
  deriving Repr, DecidableEq

/-- What the reader of a pattern knows. -/
structure PatternState where
  /-- The text that is left. -/
  rest : List Char
  flags : Flags
  /-- The number of groups opened so far. -/
  groups : Nat
  /-- The names of groups and their numbers. -/
  names : List (String × Nat)
  /-- The groups that are referred to. -/
  referenced : List Nat
  /-- Whether a reference by number has been seen. -/
  numbered : Bool
  /-- The length of the whole pattern in bytes. -/
  size : Nat

/-- A step of the reader: it may fail, and changes what is known. -/
abbrev PatternReader := StateT PatternState (Except Fault)

structure Pattern where
  expression : Expression
  referenced : List Nat
  deriving Repr

namespace PatternReader

def fail {α : Type} (fault : Fault) : PatternReader α := throw fault

def remaining : PatternReader (List Char) := return (← get).rest

def continueWith (rest : List Char) : PatternReader Unit := modify fun s => { s with rest }

/-- The characters after a comment, which ends at an unescaped closing parenthesis. -/
def afterComment : List Char → Option (List Char)
  | [] => none
  | ')' :: rest => some rest
  | '\\' :: _ :: rest => afterComment rest
  | _ :: rest => afterComment rest

/-- Skips comments, and white space where it is ignored. `fuel` bounds the number of skips. -/
def skipIgnored (ignoreSpace : Bool) : (fuel : Nat) → List Char → Except Fault (List Char)
  | 0, text => .ok text
  | fuel + 1, text =>
      match text with
      | '(' :: '?' :: '#' :: rest =>
          match afterComment rest with
          | some after => skipIgnored ignoreSpace fuel after
          | none => .error .unclosedGroup
      | '#' :: rest =>
          if ignoreSpace then
            skipIgnored ignoreSpace fuel ((rest.dropWhile (· != '\n')).drop 1)
          else .ok text
      | c :: rest =>
          if ignoreSpace && Text.isLayout c then skipIgnored ignoreSpace fuel rest else .ok text
      | [] => .ok []

def skip : PatternReader Unit := do
  let s ← get
  match skipIgnored s.flags.ignoreSpace s.rest.length s.rest with
  | .ok rest => continueWith rest
  | .error fault => fail fault

def decimal? (text : List Char) : Option (Nat × List Char) :=
  match text.takeWhile Char.isDigit with
  | [] => none
  | digits => some (digitsValue 0 digits, text.dropWhile Char.isDigit)

/-- The bounds of a counted repetition, after its opening brace, if it is one. -/
def bounds? (ignoreSpace : Bool) (text : List Char) : Option (Nat × Option Nat × List Char) := do
  let skipped (text : List Char) : Option (List Char) :=
    (skipIgnored ignoreSpace text.length text).toOption
  let text ← skipped text
  let (least, rest) ←
    match text with
    | ',' :: _ => some (0, text)
    | _ => decimal? text
  match ← skipped rest with
  | '\x7d' :: after => some (least, some least, after)
  | ',' :: more =>
      let more ← skipped more
      let (most, rest) :=
        match decimal? more with
        | some (most, rest) => (some most, rest)
        | none => (none, more)
      match ← skipped rest with
      | '\x7d' :: after => some (least, most, after)
      | _ => none
  | _ => none

def hexValue (digits : List Char) : Nat :=
  digits.foldl (fun n c =>
    n * 16 + (if c.isDigit then c.toNat - '0'.toNat else c.toLower.toNat - 'a'.toNat + 10)) 0

def isHexDigit (c : Char) : Bool :=
  c.isDigit || ('a' ≤ c && c ≤ 'f') || ('A' ≤ c && c ≤ 'F')

/-- A character given by its number: so many hexadecimal digits, or up to eight between braces. -/
def hexEscape (count : Nat) (text : List Char) : Except Fault (Char × List Char) :=
  let plain := text.take count
  let digits? : Option (List Char × List Char) :=
    if plain.length = count ∧ plain.all isHexDigit then some (plain, text.drop count)
    else
      match text with
      | '\x7b' :: rest =>
          let digits := rest.takeWhile isHexDigit
          match rest.dropWhile isHexDigit with
          | '\x7d' :: after =>
              if digits.isEmpty || 8 < digits.length then none else some (digits, after)
          | _ => none
      | _ => none
  match digits? with
  | none => .error .invalidCodePoint
  | some (digits, after) =>
      let value := hexValue digits
      if value.isValidChar then .ok (Char.ofNat value, after) else .error .invalidCodePoint

def propertySet (ignoreCase : Bool) (name : List Char) : Except Fault CharSet :=
  let (negated, name) :=
    match name with
    | '^' :: rest => (true, rest)
    | rest => (false, rest)
  let key := name.takeWhile fun c => c != '=' && c != ':'
  let (differs, value) :=
    match name.dropWhile fun c => c != '=' && c != ':' with
    | [] => (false, none)
    | _ :: value => (key.getLast? == some '!', some value)
  let key := if differs then key.dropLast else key
  let set? : Option CharSet :=
    match value with
    | some value =>
        let property := Unicode.normalizedName key
        if property == "gc" || property == "generalcategory" then
          (Unicode.categories? (Unicode.normalizedName value)).map CharSet.category
        else none
    | none =>
        let normalized := Unicode.normalizedName name
        match normalized with
        | "any" => some (.range '\x00' (Char.ofNat 0x10FFFF))
        | "ascii" => some (.range '\x00' '\x7f')
        | "assigned" => some (.complement (.category [.unassigned]))
        | "whitespace" | "space" | "wspace" => some .blank
        | _ => (Unicode.categories? normalized).map CharSet.category
  match set? with
  | none => .error .unknownProperty
  | some set => .ok ((set.folded ignoreCase).negatedIf (negated != differs))

/-- What a backslash and the characters after it stand for, inside and outside classes alike. -/
inductive Escape where
  | character (c : Char)
  | set (set : CharSet)

/-- The escapes that have the same meaning inside and outside classes; the text begins after the
backslash. -/
def commonEscape (ignoreCase : Bool) (text : List Char) :
    Except Fault (Escape × List Char) :=
  match text with
  | [] => .error .trailingBackslash
  | c :: rest =>
      match c with
      | 'd' => .ok (.set .digit, rest)
      | 'D' => .ok (.set (.complement .digit), rest)
      | 's' => .ok (.set .blank, rest)
      | 'S' => .ok (.set (.complement .blank), rest)
      | 'w' => .ok (.set .word, rest)
      | 'W' => .ok (.set (.complement .word), rest)
      | 'h' => .ok (.set hexDigits, rest)
      | 'H' => .ok (.set (.complement hexDigits), rest)
      | 'x' => (hexEscape 2 rest).map fun (c, after) => (.character c, after)
      | 'u' => (hexEscape 4 rest).map fun (c, after) => (.character c, after)
      | 'U' => (hexEscape 8 rest).map fun (c, after) => (.character c, after)
      | 'a' => .ok (.character '\x07', rest)
      | 'e' => .ok (.character '\x1b', rest)
      | 'f' => .ok (.character '\x0c', rest)
      | 'n' => .ok (.character '\n', rest)
      | 'r' => .ok (.character '\r', rest)
      | 't' => .ok (.character '\t', rest)
      | 'v' => .ok (.character '\x0b', rest)
      | _ =>
          if c == 'p' || c == 'P' then
            match rest with
            | [] => .error (.unknownEscape c)
            | '\x7b' :: more =>
                let name := more.takeWhile (· != '\x7d')
                match more.dropWhile (· != '\x7d') with
                | [] => .error .unknownProperty
                | _ :: after =>
                    (propertySet ignoreCase name).map fun set =>
                      (.set (set.negatedIf (c == 'P')), after)
            | letter :: after =>
                (propertySet ignoreCase [letter]).map fun set =>
                  (.set (set.negatedIf (c == 'P')), after)
          else if c.isAlpha then .error (.unknownEscape c)
          else .ok (.character c, rest)
where
  /-- The hexadecimal digits. -/
  hexDigits : CharSet := .union [.range '0' '9', .range 'A' 'F', .range 'a' 'f']

/-- The text of a class, from after its opening bracket to its closing one. `depth` counts the brackets
that are open, and `fuel` the characters. -/
def classText (ignoreCase : Bool) :
    (fuel depth : Nat) → List ClassToken → List Char → Except Fault (List ClassToken × List Char)
  | 0, _, _, _ => .error .unclosedClass
  | fuel + 1, depth, read, text =>
      match text with
      | [] => .error .unclosedClass
      | ']' :: rest =>
          if depth = 1 then .ok ((ClassToken.raw ']' :: read).reverse, rest)
          else classText ignoreCase fuel (depth - 1) (.raw ']' :: read) rest
      | '[' :: rest => classText ignoreCase fuel (depth + 1) (.raw '[' :: read) rest
      | '\\' :: 'b' :: rest => classText ignoreCase fuel depth (.escaped '\x08' :: read) rest
      | '\\' :: rest =>
          if rest.head?.any Char.isDigit then .error .invalidClass
          else
            match commonEscape ignoreCase rest with
            | .error fault => .error fault
            | .ok (.character c, after) =>
                classText ignoreCase fuel depth (.escaped c :: read) after
            | .ok (.set set, after) =>
                classText ignoreCase fuel depth (.escapedSet set :: read) after
      | c :: rest => classText ignoreCase fuel depth (.raw c :: read) rest

def characterClass (text : List Char) : PatternReader Expression := do
  let ignoreCase := (← get).flags.ignoreCase
  let (first, text) :=
    match text with
    | '^' :: ']' :: rest => ([ClassToken.raw ']', .raw '^'], rest)
    | '^' :: rest => ([.raw '^'], rest)
    | ']' :: rest => ([.raw ']'], rest)
    | rest => ([], rest)
  match classText ignoreCase (text.length + 1) 1 first text with
  | .error fault => fail fault
  | .ok (tokens, rest) =>
      match CharSet.ofClass ignoreCase tokens with
      | .error fault => fail fault
      | .ok set =>
          continueWith rest
          return .oneOf set

def numberedReference (text : List Char) : PatternReader Nat := do
  match decimal? text with
  | some (index, rest) =>
      if index < (← get).size / 2 then
        modify fun s => { s with rest, numbered := true, referenced := index :: s.referenced }
        return index
      else fail .invalidReference
  | none => fail .invalidReference

def isGroupNameCharacter (c : Char) : Bool := c.isAlphanum || c == '_'

/-- A reference by name, up to the character that closes it. A number counts groups from the first, or
with a minus sign from the last one opened. -/
def namedReference (close : Char) (text : List Char) : PatternReader Nat := do
  let s ← get
  let (sign, body) :=
    match text with
    | '-' :: rest => (true, rest)
    | rest => (false, rest)
  let name := body.takeWhile isGroupNameCharacter
  match body.dropWhile isGroupNameCharacter with
  | c :: rest =>
      if c != close || name.isEmpty then fail .invalidGroupName
      else
        let index? : Option Nat :=
          if sign then
            if name.all Char.isDigit then
              let back := digitsValue 0 name
              if 0 < back ∧ back ≤ s.groups then some (s.groups + 1 - back) else none
            else none
          else
            match s.names.find? fun entry => entry.1 == String.ofList name with
            | some entry => some entry.2
            | none => if name.all Char.isDigit then some (digitsValue 0 name) else none
        match index? with
        | some index =>
            set { s with rest, referenced := index :: s.referenced }
            return index
        | none => fail .invalidReference
  | [] => fail .invalidGroupName

/-- Refuses references to groups that have not been opened. -/
def requireOpened (index : Nat) : PatternReader Unit := do
  if (← get).groups < index then fail .invalidReference

def escape (text : List Char) : PatternReader Expression := do
  let flags := (← get).flags
  match text with
  | [] => fail .trailingBackslash
  | 'k' :: rest => do
      let index ←
        match rest with
        | '\'' :: more => namedReference '\'' more
        | '<' :: more => namedReference '>' more
        | _ => fail .invalidGroupName
      requireOpened index
      return .reference index
  | 'A' :: rest => do continueWith rest; return .assertion .startText
  | 'z' :: rest => do continueWith rest; return .assertion .endText
  | 'b' :: '\x7b' :: _ => fail (.unknownEscape 'b')
  | 'b' :: rest => do continueWith rest; return .assertion .wordBoundary
  | 'B' :: rest => do continueWith rest; return .assertion .notWordBoundary
  | '<' :: rest => do continueWith rest; return .assertion .wordStart
  | '>' :: rest => do continueWith rest; return .assertion .wordEnd
  | 'K' :: rest => do continueWith rest; return .keep
  | 'G' :: rest => do continueWith rest; return .searchStart
  | c :: rest =>
      if c.isDigit then do
        let index ← numberedReference (c :: rest)
        requireOpened index
        return .reference index
      else
        match commonEscape flags.ignoreCase (c :: rest) with
        | .error fault => fail fault
        | .ok (.character c, after) => do
            continueWith after
            return .literal c flags.ignoreCase
        | .ok (.set set, after) => do
            continueWith after
            return .oneOf set

/-- The flags after one more letter of a group of inline flags. -/
def setFlag (flags : Flags) (on : Bool) : Char → Option Flags
  | 'i' => some { flags with ignoreCase := on }
  | 'm' => some { flags with multiLine := on }
  | 's' => some { flags with dotAll := on }
  | 'U' => some { flags with swapGreed := on }
  | 'x' => some { flags with ignoreSpace := on }
  | 'u' => if on then some flags else none
  | _ => none

/-- Reads inline flags up to a closing parenthesis or a colon; the answer is whether a group follows. -/
def inlineFlags : (fuel : Nat) → (started off dangling : Bool) → PatternReader Bool
  | 0, _, _, _ => fail .unclosedGroup
  | fuel + 1, started, off, dangling => do
      skip
      match ← remaining with
      | [] => fail .unclosedGroup
      | ')' :: rest =>
          if !started || dangling then fail .unknownFlag
          else do
            continueWith rest
            return false
      | ':' :: rest =>
          if dangling then fail .unknownFlag
          else do
            continueWith rest
            return true
      | '-' :: rest =>
          if off then fail .unknownFlag
          else do
            continueWith rest
            inlineFlags fuel true true true
      | c :: rest =>
          match setFlag (← get).flags (!off) c with
          | none => fail .unknownFlag
          | some flags => do
              modify fun s => { s with rest, flags }
              inlineFlags fuel true off false

def closeGroup : PatternReader Unit := do
  match ← remaining with
  | ')' :: rest => continueWith rest
  | [] => fail .unclosedGroup
  | _ => fail .unclosedGroup

def isRepeatable : Expression → Bool
  | .empty | .assertion _ | .look _ _ _ => false
  | _ => true

def repetition? : PatternReader (Option (Nat × Option Nat)) := do
  match ← remaining with
  | '?' :: rest => continueWith rest; return some (0, some 1)
  | '*' :: rest => continueWith rest; return some (0, none)
  | '+' :: rest => continueWith rest; return some (1, none)
  | '\x7b' :: rest =>
      match bounds? (← get).flags.ignoreSpace rest with
      | some (least, most, after) => continueWith after; return some (least, most)
      | none => return none
  | _ => return none

/-- An atom with the repetition that follows it. -/
def piece (atom : PatternReader Expression) : PatternReader Expression := do
  let body ← atom
  skip
  match ← repetition? with
  | none => return body
  | some (least, most) =>
      if !isRepeatable body then fail .nothingToRepeat
      else do
        skip
        let isLazy ← do
          match ← remaining with
          | '?' :: rest => continueWith rest; pure true
          | _ => pure false
        let greedy := isLazy == (← get).flags.swapGreed
        let node := Expression.repetition body least most greedy
        match ← remaining with
        | '+' :: rest => do
            continueWith rest
            return .atomic node
        | _ => return node

/-- Pieces that follow each other. `fuel` bounds their number. -/
def pieces (atom : PatternReader Expression) :
    (fuel : Nat) → List Expression → PatternReader (List Expression)
  | 0, read => return read.reverse
  | fuel + 1, read => do
      let before := (← remaining).length
      if before = 0 then return read.reverse
      else do
        let next ← piece atom
        if (← remaining).length = before then return read.reverse
        else pieces atom fuel (if next == .empty then read else next :: read)

def branch (atom : PatternReader Expression) : PatternReader Expression := do
  match ← pieces atom ((← remaining).length + 1) [] with
  | [] => return .empty
  | [only] => return only
  | several => return .concat several

/-- Further branches, each after a bar. `fuel` bounds their number. -/
def branches (atom : PatternReader Expression) :
    (fuel : Nat) → PatternReader (List Expression)
  | 0 => return []
  | fuel + 1 => do
      match ← remaining with
      | '|' :: rest => do
          continueWith rest
          let next ← branch atom
          skip
          return next :: (← branches atom fuel)
      | _ => return []

def choice (atom : PatternReader Expression) : PatternReader Expression := do
  let first ← branch atom
  skip
  match ← branches atom ((← remaining).length + 1) with
  | [] => do
      let s ← get
      if s.numbered && !s.names.isEmpty then fail .mixedReferences else return first
  | others => return .alternatives (first :: others)

/-- A group with a number of its own, and perhaps a name. -/
def capturing (atom : PatternReader Expression) (name : Option (List Char)) :
    PatternReader Expression := do
  let index := (← get).groups + 1
  modify fun s =>
    { s with
      groups := index
      names := (name.map fun letters => (String.ofList letters, index)).toList ++ s.names }
  let body ← choice atom
  closeGroup
  return .group index body

def namedGroup (atom : PatternReader Expression) (text : List Char) :
    PatternReader Expression := do
  let name := text.takeWhile isGroupNameCharacter
  match text.dropWhile isGroupNameCharacter with
  | '>' :: rest =>
      if name.isEmpty then fail .invalidGroupName
      else do
        continueWith rest
        capturing atom (some name)
  | _ => fail .invalidGroupName

def lookAround (atom : PatternReader Expression) (behind negative : Bool) (text : List Char) :
    PatternReader Expression := do
  continueWith text
  let body ← choice atom
  closeGroup
  return .look behind negative body

def condition (atom : PatternReader Expression) (text : List Char) :
    PatternReader Expression := do
  match text with
  | '\'' :: rest => return .matched (← namedReference '\'' rest)
  | '<' :: rest => return .matched (← namedReference '>' rest)
  | c :: _ =>
      if c.isDigit then return .matched (← numberedReference text)
      else do
        continueWith text
        choice atom
  | [] => fail .unclosedGroup

def conditionalGroup (atom : PatternReader Expression) (text : List Char) :
    PatternReader Expression := do
  let test ← condition atom text
  closeGroup
  let before := (← remaining).length
  let body ← choice atom
  let empty := (← remaining).length = before
  closeGroup
  if empty then
    match test with
    | .matched _ => return test
    | _ => fail .unclosedGroup
  else
    let (yes, no) :=
      match body with
      | .alternatives [yes, no] => (yes, no)
      | .alternatives (yes :: others) => (yes, .alternatives others)
      | yes => (yes, .empty)
    if yes == .empty && no == .empty then return test
    else return .conditional test yes no

def group (atom : PatternReader Expression) (text : List Char) :
    PatternReader Expression := do
  continueWith text
  skip
  match ← remaining with
  | '?' :: '=' :: rest => lookAround atom false false rest
  | '?' :: '!' :: rest => lookAround atom false true rest
  | '?' :: '<' :: '=' :: rest => lookAround atom true false rest
  | '?' :: '<' :: '!' :: rest => lookAround atom true true rest
  | '?' :: '<' :: rest => namedGroup atom rest
  | '?' :: 'P' :: '<' :: rest => namedGroup atom rest
  | '?' :: 'P' :: '=' :: rest => do
      let index ← namedReference ')' rest
      requireOpened index
      return .reference index
  | '?' :: '>' :: rest => do
      continueWith rest
      let body ← choice atom
      closeGroup
      return .atomic body
  | '?' :: '(' :: rest => conditionalGroup atom rest
  | '?' :: rest => do
      let flags := (← get).flags
      continueWith rest
      if ← inlineFlags (rest.length + 1) false false false then do
        let body ← choice atom
        closeGroup
        modify fun s => { s with flags }
        return body
      else return .empty
  | _ => capturing atom none

/-- An atom; `depth` is the number of groups that may still be opened inside each other. -/
def atom : (depth : Nat) → PatternReader Expression
  | 0 => fail .nestedTooDeep
  | depth + 1 => do
      skip
      let flags := (← get).flags
      match ← remaining with
      | [] => return .empty
      | '.' :: rest => do continueWith rest; return .any flags.dotAll
      | '^' :: rest => do
          continueWith rest
          return .assertion (if flags.multiLine then .startLine else .startText)
      | '$' :: rest => do
          continueWith rest
          return .assertion (if flags.multiLine then .endLine else .endText)
      | '(' :: rest =>
          if depth = 0 then fail .nestedTooDeep else group (atom depth) rest
      | '\\' :: rest => escape rest
      | '[' :: rest => characterClass rest
      | c :: rest =>
          if c == '+' || c == '*' || c == '?' || c == '|' || c == ')' then return .empty
          else do
            continueWith rest
            return .literal c flags.ignoreCase

end PatternReader

/-- Reads a pattern under the given flags. `size` is the length in bytes by which the pattern, flags
included, bounds the numbers of references. -/
def Pattern.read (flags : Flags) (size : Nat) (text : List Char) : Except Fault Pattern := do
  let start : PatternState :=
    { rest := text, flags, groups := 0, names := [], referenced := [], numbered := false, size }
  let (expression, finish) ← (PatternReader.choice (PatternReader.atom 64)).run start
  match finish.rest with
  | [] => return { expression, referenced := finish.referenced }
  | _ => throw .surplusText

end TreeLint.Regex
