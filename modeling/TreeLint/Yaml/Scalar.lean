import TreeLint.Yaml.Cursor

/-!
Contract: the three written forms of scalars.

Owns: plain scalars, quoted scalars and block scalars, each read from a place in a text. A gap between two words
of a plain or quoted scalar keeps its blanks within a line; over a single line break it becomes one blank, and
over several the first is dropped. This is the line folding of YAML, and block scalars are folded or literal and
chomped as it has them.
-/

set_option autoImplicit false

namespace TreeLint.Yaml

/-- What lies between two words of a scalar. -/
structure Gap where
  /-- The blanks before any line break. -/
  blanks : List Char
  /-- The first line break, if there is one. -/
  first : Option (List Char)
  /-- The further line breaks. -/
  more : List Char

namespace Gap

def none : Gap := ⟨[], .none, []⟩

def text (gap : Gap) : List Char :=
  match gap.first with
  | .none => gap.blanks
  | some first =>
      if first = ['\n'] then (if gap.more.isEmpty then [' '] else gap.more) else first ++ gap.more

/-- Reads a gap. Where a least column is given, a tab before it is refused after a line break. -/
def read (least : Option Nat) (cursor : Cursor) (gap : Gap) : Option (Gap × Cursor) :=
  match _read : cursor.rest with
  | [] => some (gap, cursor)
  | c :: _ =>
      if isBlank c then
        match gap.first with
        | .none => read least (cursor.advance 1) ⟨gap.blanks ++ [c], .none, gap.more⟩
        | some _ =>
            if c == '\t' && (least.map fun column => decide (cursor.column < column)) = some true then .none
            else read least (cursor.advance 1) gap
      else
        match lineBreak? cursor.rest with
        | .none => some (gap, cursor)
        | some (text, further) =>
            let next := cursor.nextLine further
            match gap.first with
            | .none => read least next ⟨[], some text, gap.more⟩
            | some _ => read least next ⟨gap.blanks, gap.first, gap.more ++ text⟩
termination_by cursor.rest.length
decreasing_by
  all_goals
    simp only [Cursor.advance, Cursor.nextLine, _read, List.length_drop, List.length_cons]
    omega

end Gap

/-! ### Plain scalars -/

def isFlowIndicator (c : Char) : Bool :=
  c == ',' || c == '[' || c == ']' || c == '{' || c == '}'

/-- A word of a plain scalar. A colon before an indicator is refused within brackets or braces. -/
def plainWord (inFlow : Bool) : List Char → Option (List Char)
  | [] => some []
  | c :: rest =>
      let beforeIndicator :=
        match rest with
        | next :: _ => next == '?' || isFlowIndicator next
        | [] => false
      if isBlank c || isBreak c then some []
      else if inFlow && c == ':' && beforeIndicator then none
      else if (c == ':' && beginsBlank rest) || (inFlow && isFlowIndicator c) then some []
      else (plainWord inFlow rest).map (c :: ·)

/-- Reads the words of a plain scalar that continues after a gap. The answer tells whether a line break was
passed at the end. -/
def plainWords (inFlow : Bool) (least : Nat) (cursor : Cursor) (read : List Char) (gap : Gap) :
    Option (List Char × Bool × Cursor) :=
  let broken := gap.first.isSome
  if cursor.atMarker || cursor.rest.head? == some '#' then some (read, broken, cursor)
  else
    match plainWord inFlow cursor.rest with
    | none => none
    | some word =>
        let after := cursor.advance word.length
        let read := if word.isEmpty then read else read ++ gap.text ++ word
        let gap := if word.isEmpty then gap else Gap.none
        match after.rest with
        | [] => some (read, gap.first.isSome, after)
        | c :: _ =>
            if !(isBlank c || isBreak c) then some (read, gap.first.isSome, after)
            else
              match Gap.read (some least) after gap with
              | none => none
              | some (gap, next) =>
                  if !inFlow && next.column < least then some (read, gap.first.isSome, next)
                  else if next.rest.length < cursor.rest.length then
                    plainWords inFlow least next read gap
                  else none
termination_by cursor.rest.length

def plainScalar (inFlow : Bool) (least : Nat) (cursor : Cursor) :
    Option (List Char × Bool × Cursor) :=
  plainWords inFlow least cursor [] Gap.none

/-! ### Quoted scalars -/

def escapedChar? : Char → Option Char
  | '0' => some '\x00'
  | 'a' => some '\x07'
  | 'b' => some '\x08'
  | 't' => some '\t'
  | '\t' => some '\t'
  | 'n' => some '\n'
  | 'v' => some '\x0b'
  | 'f' => some '\x0c'
  | 'r' => some '\r'
  | 'e' => some '\x1b'
  | ' ' => some ' '
  | '"' => some '"'
  | '/' => some '/'
  | '\\' => some '\\'
  | 'N' => some (Char.ofNat 0x85)
  | '_' => some (Char.ofNat 0xA0)
  | 'L' => some (Char.ofNat 0x2028)
  | 'P' => some (Char.ofNat 0x2029)
  | _ => none

/-- The number of hexadecimal digits that follow a letter after a backslash. -/
def escapeLength? : Char → Option Nat
  | 'x' => some 2
  | 'u' => some 4
  | 'U' => some 8
  | _ => none

def hexValue? (c : Char) : Option Nat :=
  if c.isDigit then some (c.toNat - 48)
  else if 'a' ≤ c && c ≤ 'f' then some (c.toNat - 87)
  else if 'A' ≤ c && c ≤ 'F' then some (c.toNat - 55)
  else none

def hexNumber? (value : Nat) : List Char → Option Nat
  | [] => some value
  | c :: rest => (hexValue? c).bind fun digit => hexNumber? (value * 16 + digit) rest

/-- The character that exactly `count` hexadecimal digits denote. -/
def hexChar? (count : Nat) (text : List Char) : Option Char := do
  let digits := text.take count
  if digits.length = count then
    let value ← hexNumber? 0 digits
    if (0xD800 ≤ value && value ≤ 0xDFFF) || 0x10FFFF < value then none
    else return Char.ofNat value
  else none

inductive WordEnd where
  /-- At a blank, a line break or the end of the text. -/
  | blank
  | quote
  /-- At a backslash before a line break. -/
  | escapedBreak
  deriving DecidableEq

/-- Reads a word of a quoted scalar: its text, its length in the source, and how it ends. -/
def quotedWord (double : Bool) (text : List Char) : Option (List Char × Nat × WordEnd) :=
  match text with
  | [] => some ([], 0, .blank)
  | c :: rest =>
      if isBlank c || isBreak c then some ([], 0, .blank)
      else if !double && c == '\'' then
        match rest with
        | '\'' :: after =>
            (quotedWord double after).map fun (word, length, wordEnd) => ('\'' :: word, length + 2, wordEnd)
        | _ => some ([], 0, .quote)
      else if double && c == '"' then some ([], 0, .quote)
      else if double && c == '\\' then
        match rest with
        | [] => none
        | letter :: after =>
            if isBreak letter then some ([], 0, .escapedBreak)
            else
              match escapedChar? letter with
              | some value =>
                  (quotedWord double after).map fun (word, length, wordEnd) =>
                    (value :: word, length + 2, wordEnd)
              | none =>
                  match escapeLength? letter with
                  | none => none
                  | some count =>
                      match hexChar? count after with
                      | none => none
                      | some value =>
                          (quotedWord double (after.drop count)).map fun (word, length, wordEnd) =>
                            (value :: word, length + 2 + count, wordEnd)
      else (quotedWord double rest).map fun (word, length, wordEnd) => (c :: word, length + 1, wordEnd)
termination_by text.length
decreasing_by all_goals simp <;> omega

def quotedWords (double : Bool) (cursor : Cursor) (read : List Char) : Option (List Char × Cursor) :=
  if cursor.atMarker || cursor.rest.isEmpty then none
  else
    match quotedWord double cursor.rest with
    | none => none
    | some (word, length, wordEnd) =>
        let after := cursor.advance length
        let read := read ++ word
        let continued (gap : Option (Gap × Cursor)) : Option (List Char × Cursor) :=
          match gap with
          | none => none
          | some (gap, next) =>
              if next.rest.length < cursor.rest.length then
                quotedWords double next (read ++ gap.text)
              else none
        match wordEnd with
        | .quote => some (read, after.advance 1)
        | .blank => continued (Gap.read none after Gap.none)
        | .escapedBreak => continued (Gap.read none (after.advance 1).skipBreak ⟨[], some [], []⟩)
termination_by cursor.rest.length

def quotedScalar (double : Bool) (cursor : Cursor) : Option (List Char × Cursor) :=
  quotedWords double (cursor.advance 1) []

/-! ### Block scalars -/

/-- What becomes of the line breaks at the end of a block scalar. -/
inductive Chomping where
  | strip
  | clip
  | keep
  deriving DecidableEq

/-- Reads the header of a block scalar after its indicator: the treatment of the last breaks and the stated
indentation, if there is one, in either order. -/
def blockHeader (cursor : Cursor) : Option (Chomping × Option Nat × Cursor) :=
  let chomping? : Char → Option Chomping
    | '+' => some .keep
    | '-' => some .strip
    | _ => none
  let digit? (c : Char) : Option Nat := if c.isDigit then some (c.toNat - 48) else none
  let header : Option (Chomping × Option Nat × Nat) :=
    match cursor.rest with
    | [] => some (.clip, none, 0)
    | first :: rest =>
        let second := rest.head?
        match chomping? first, digit? first with
        | some chomping, _ =>
            match second.bind digit? with
            | some 0 => none
            | some digit => some (chomping, some digit, 2)
            | none => some (chomping, none, 1)
        | none, some 0 => none
        | none, some digit =>
            match second.bind chomping? with
            | some chomping => some (chomping, some digit, 2)
            | none => some (.clip, some digit, 1)
        | none, none => some (.clip, none, 0)
  match header with
  | none => none
  | some (chomping, indentation, length) =>
      let after := ((cursor.advance length).skipWhile isBlank).skipComment
      if beginsBreak after.rest then some (chomping, indentation, after.skipBreak) else none

/-- Reads indentation and empty lines: the line breaks, the greatest column reached, and the place after them. A
tab among the blanks that indent a line is refused. -/
def blockBreaks (indent : Option Nat) (cursor : Cursor) (breaks : List Char) (greatest : Nat) :
    Option (List Char × Nat × Cursor) :=
  let blanks := (cursor.rest.takeWhile (· == ' ')).length
  let count :=
    match indent with
    | some column => min blanks (column - cursor.column)
    | none => blanks
  let after := cursor.advance count
  let greatest := max greatest after.column
  let inside :=
    match indent with
    | some column => decide (after.column < column)
    | none => true
  if inside && after.rest.head? == some '\t' then none
  else
    match lineBreak? after.rest with
    | none => some (breaks, greatest, after)
    | some (text, further) =>
        let next := after.nextLine further
        if next.rest.length < cursor.rest.length then blockBreaks indent next (breaks ++ text) greatest
        else none
termination_by cursor.rest.length

/-- What is known of a block scalar between two of its lines. -/
structure BlockState where
  text : List Char
  /-- The break at the end of the last line. -/
  lastBreak : List Char
  /-- The breaks of the empty lines after it. -/
  emptyLines : List Char
  /-- Whether the last line began with a blank. -/
  indented : Bool

/-- The text of a block scalar with what joins the next line to it. -/
def BlockState.joined (state : BlockState) (folded indented : Bool) : List Char :=
  if folded && state.lastBreak == ['\n'] && !state.indented && !indented then
    state.text ++ (if state.emptyLines.isEmpty then [' '] else state.emptyLines)
  else state.text ++ state.lastBreak ++ state.emptyLines

def blockLines (folded : Bool) (indent : Nat) (cursor : Cursor) (state : BlockState) :
    Option (BlockState × Cursor) :=
  if cursor.column != indent || cursor.rest.isEmpty then some (state, cursor)
  else
    let indented :=
      match cursor.rest with
      | c :: _ => isBlank c
      | [] => false
    let line := cursor.rest.takeWhile fun c => !isBreak c
    let after := cursor.advance line.length
    let (lastBreak, next) : List Char × Cursor :=
      match lineBreak? after.rest with
      | some (text, further) => (text, after.nextLine further)
      | none => ([], after)
    match blockBreaks (some indent) next [] 0 with
    | none => none
    | some (emptyLines, _, further) =>
        let state : BlockState := ⟨state.joined folded indented ++ line, lastBreak, emptyLines, indented⟩
        if further.rest.length < cursor.rest.length then blockLines folded indent further state
        else some (state, further)
termination_by cursor.rest.length

/-- A block scalar, from its indicator on, inside a block of the given indentation. -/
def blockScalar (folded : Bool) (outer : Int) (cursor : Cursor) : Option (List Char × Cursor) := do
  let (chomping, stated, after) ← blockHeader (cursor.advance 1)
  let known : Option Nat := stated.map fun count => ((max outer 0) + count).toNat
  let (emptyLines, greatest, next) ← blockBreaks known after [] 0
  let indent := known.getD (max (max greatest (outer + 1).toNat) 1)
  let (state, final) ← blockLines folded indent next ⟨[], [], emptyLines, false⟩
  let text :=
    match chomping with
    | .strip => state.text
    | .clip => state.text ++ state.lastBreak
    | .keep => state.text ++ state.lastBreak ++ state.emptyLines
  return (text, final)

end TreeLint.Yaml
