import TreeLint.Yaml.Scalar
import TreeLint.Yaml.Token

/-!
Contract: from a YAML text to its tokens.

Owns: `Token.ofText`, which follows the YAML rules for indicators, indentation and implicit keys. Outside of
brackets and braces the indentation of a token opens and closes blocks. Where a key may begin, the place is kept
until the colon after it is found; a key ends on the line it begins on and is at most 1024 characters long.
-/

set_option autoImplicit false

namespace TreeLint.Yaml

structure PossibleKey where
  /-- Whether nothing else than a key can stand there. -/
  required : Bool
  /-- The number of tokens before the place. -/
  tokens : Nat
  index : Nat
  line : Nat
  column : Nat
  deriving DecidableEq, Repr

structure Lexer where
  cursor : Cursor
  /-- The indentation of the innermost block; -1 outside of blocks. -/
  indent : Int
  /-- The indentations of the blocks around it. -/
  outer : List Int
  /-- Whether a key may begin at the next token. -/
  keyAllowed : Bool
  /-- Where a key may have begun, in the innermost collection. -/
  key : Option PossibleKey
  /-- The same for the collections around it, one for each open bracket or brace. -/
  outerKeys : List (Option PossibleKey)
  /-- The tokens, the latest first. -/
  tokens : List Token

namespace Lexer

def start (text : List Char) : Lexer :=
  ⟨Cursor.start text, -1, [], true, none, [], []⟩

/-- Whether the place is within brackets or braces. -/
def inFlow (lexer : Lexer) : Bool := !lexer.outerKeys.isEmpty

def emit (lexer : Lexer) (token : Token) : Lexer :=
  { lexer with tokens := token :: lexer.tokens }

def insert (lexer : Lexer) (count : Nat) (token : Token) : Lexer :=
  let later := lexer.tokens.length - count
  { lexer with tokens := lexer.tokens.take later ++ token :: lexer.tokens.drop later }

def advance (lexer : Lexer) (count : Nat) : Lexer :=
  { lexer with cursor := lexer.cursor.advance count }

/-- The lexer with permission for keys given or taken. -/
def allowKey (lexer : Lexer) (allowed : Bool) : Lexer := { lexer with keyAllowed := allowed }

/-- Gives up the possible key of the innermost collection, unless a key is required there. -/
def dropKey (lexer : Lexer) : Option Lexer :=
  match lexer.key with
  | some key => if key.required then none else some { lexer with key := none }
  | none => some lexer

def keepKey (lexer : Lexer) : Option Lexer :=
  if lexer.keyAllowed then do
    let next ← lexer.dropKey
    let cursor := lexer.cursor
    let required := !lexer.inFlow && lexer.indent == (cursor.column : Int)
    return { next with
      key := some ⟨required, lexer.tokens.length, cursor.index, cursor.line, cursor.column⟩ }
  else some lexer

def isStale (cursor : Cursor) (key : PossibleKey) : Bool :=
  key.line < cursor.line || key.index + 1024 < cursor.index

/-- A possible key after the place has moved on; a required one must not become stale. -/
def refreshKey (cursor : Cursor) (key : Option PossibleKey) : Option (Option PossibleKey) :=
  match key with
  | none => some none
  | some found =>
      if isStale cursor found then (if found.required then none else some none) else some key

def refreshKeys (lexer : Lexer) : Option Lexer := do
  let key ← refreshKey lexer.cursor lexer.key
  let outerKeys ← lexer.outerKeys.mapM (refreshKey lexer.cursor)
  return { lexer with key := key, outerKeys := outerKeys }

/-- Opens a block at a column, if it is indented further than the block around it. -/
def openBlock (lexer : Lexer) (column : Nat) (place : Nat) (token : Token) : Lexer :=
  if !lexer.inFlow && lexer.indent < (column : Int) then
    { lexer.insert place token with indent := column, outer := lexer.indent :: lexer.outer }
  else lexer

/-- Closes the blocks that are indented further than a column, given the indentations around the innermost. -/
def closeBlocks (column : Int) (indent : Int) (tokens : List Token) : List Int → Int × List Int × List Token
  | [] => (indent, [], tokens)
  | next :: outer =>
      if column < indent then closeBlocks column next (Token.blockEnd :: tokens) outer
      else (indent, next :: outer, tokens)

def unroll (lexer : Lexer) (column : Int) : Lexer :=
  if lexer.inFlow then lexer
  else
    let (indent, outer, tokens) := closeBlocks column lexer.indent lexer.tokens lexer.outer
    { lexer with indent := indent, outer := outer, tokens := tokens }

def closeAll (lexer : Lexer) : Option Lexer :=
  ((lexer.unroll (-1)).dropKey).map (·.allowKey false)

/-! ### Blanks and comments -/

/-- Moves on to the next token. Tabs are skipped only where no key may begin. -/
def skipBlanks (lexer : Lexer) : Lexer :=
  let mark := lexer.cursor.column == 0 && lexer.cursor.rest.head? == some (Char.ofNat 0xFEFF)
  let begin := if mark then lexer.cursor.advance 1 else lexer.cursor
  let after := (begin.skipWhile fun c =>
    c == ' ' || ((lexer.inFlow || !lexer.keyAllowed) && c == '\t')).skipComment
  match lineBreak? after.rest with
  | none => { lexer with cursor := after }
  | some (_, further) =>
      let next := after.nextLine further
      if _shorter : next.rest.length < lexer.cursor.rest.length then
        skipBlanks { lexer with cursor := next, keyAllowed := lexer.keyAllowed || !lexer.inFlow }
      else lexer
termination_by lexer.cursor.rest.length
decreasing_by exact _shorter

/-! ### Directives, anchors and tags -/

def takeWord (cursor : Cursor) : String × Cursor :=
  let word := cursor.rest.takeWhile isWord
  (String.ofList word, cursor.advance word.length)

/-- A number of at most nine digits. -/
def number? (cursor : Cursor) : Option (Nat × Cursor) :=
  let digits := cursor.rest.takeWhile Char.isDigit
  if digits.isEmpty || 9 < digits.length then none
  else
    some (digits.foldl (fun n c => n * 10 + (c.toNat - 48)) 0, cursor.advance digits.length)

def isTagCharacter (verbatim : Bool) (c : Char) : Bool :=
  isWord c || [';', '/', '?', ':', '@', '&', '=', '+', '$', '.', '!', '~', '*', '\'', '(', ')'].contains c
    || (verbatim && (c == ',' || c == '[' || c == ']'))

/-- The bytes that the escapes at the beginning of a text stand for. -/
def escapedBytes (text : List Char) : Option (List UInt8) :=
  match text with
  | '%' :: high :: low :: rest => do
      let high ← hexValue? high
      let low ← hexValue? low
      let others ← escapedBytes rest
      return UInt8.ofNat (high * 16 + low) :: others
  | '%' :: _ => none
  | _ => some []
termination_by text.length

/-- The characters of a tag; escapes must form characters. -/
def tagText (verbatim : Bool) (text : List Char) : Option (List Char × Nat) :=
  match text with
  | [] => some ([], 0)
  | c :: rest =>
      if c == '%' then do
        let bytes ← escapedBytes text
        if bytes.isEmpty then none
        else
          let word ← String.fromUTF8? ⟨bytes.toArray⟩
          let (others, length) ← tagText verbatim (rest.drop (3 * bytes.length - 1))
          return (word.toList ++ others, length + 3 * bytes.length)
      else if isTagCharacter verbatim c then
        (tagText verbatim rest).map fun (others, length) => (c :: others, length + 1)
      else some ([], 0)
termination_by text.length
decreasing_by
  all_goals
    simp only [List.length_drop, List.length_cons]
    omega

/-- A tag handle: an exclamation mark, and perhaps a word with another. In a directive a word without the second
mark is refused. -/
def tagHandle (directive : Bool) (cursor : Cursor) : Option (String × Cursor) :=
  match cursor.rest with
  | '!' :: _ =>
      let (word, after) := takeWord (cursor.advance 1)
      match after.rest with
      | '!' :: _ => some ("!" ++ word ++ "!", after.advance 1)
      | _ => if directive && word != "" then none else some ("!" ++ word, after)
  | _ => none

def tag (cursor : Cursor) : Option (Token × Cursor) :=
  match cursor.rest with
  | '!' :: '<' :: _ => do
      let (text, length) ← tagText true (cursor.advance 2).rest
      let after := (cursor.advance 2).advance length
      if length == 0 || after.rest.head? != some '>' then none
      else return (.tag "" (String.ofList text), after.advance 1)
  | _ => do
      let (handle, after) ← tagHandle false cursor
      let (text, length) ← tagText false after.rest
      let final := after.advance length
      if 1 < handle.length && handle.endsWith "!" then
        if length == 0 then none else return (.tag handle (String.ofList text), final)
      else
        let ending := String.ofList (handle.toList.drop 1 ++ text)
        return (if ending == "" then .tag "" "!" else .tag "!" ending, final)

def versionDirective (cursor : Cursor) : Option (Token × Cursor) := do
  let (major, after) ← number? (cursor.skipWhile isBlank)
  match after.rest with
  | '.' :: _ => do
      let (minor, final) ← number? (after.advance 1)
      return (.version major minor, final)
  | _ => none

def tagDirective (cursor : Cursor) : Option (Token × Cursor) := do
  let (handle, after) ← tagHandle true (cursor.skipWhile isBlank)
  match after.rest with
  | c :: _ =>
      if isBlank c then do
        let begin := after.skipWhile isBlank
        let (text, length) ← tagText true begin.rest
        let final := begin.advance length
        if length == 0 || !beginsBlank final.rest then none
        else return (.tagHandle handle (String.ofList text), final)
      else none
  | [] => none

def directive (cursor : Cursor) : Option (Token × Cursor) := do
  let (name, after) := takeWord (cursor.advance 1)
  if !beginsBlank after.rest then none
  else
    let (token, final) ←
      match name with
      | "YAML" => versionDirective after
      | "TAG" => tagDirective after
      | _ => none
    let final := (final.skipWhile isBlank).skipComment
    if beginsBreak final.rest then return (token, final.skipBreak) else none

/-! ### Tokens -/

def fetchEnd (lexer : Lexer) : Option Lexer := (lexer.closeAll).map (·.emit .streamEnd)

def fetchDirective (lexer : Lexer) : Option Lexer := do
  let closed ← lexer.closeAll
  let (token, cursor) ← directive closed.cursor
  return { closed with cursor := cursor }.emit token

def fetchMarker (lexer : Lexer) (token : Token) : Option Lexer := do
  let closed ← lexer.closeAll
  return (closed.advance 3).emit token

def fetchOpening (lexer : Lexer) (token : Token) : Option Lexer := do
  let kept ← lexer.keepKey
  return ({ kept with key := none, outerKeys := kept.key :: kept.outerKeys, keyAllowed := true }.advance
    1).emit token

def fetchClosing (lexer : Lexer) (token : Token) : Option Lexer := do
  let next ← lexer.dropKey
  let popped : Lexer :=
    match next.outerKeys with
    | key :: others => { next with key := key, outerKeys := others }
    | [] => next
  return ((popped.allowKey false).advance 1).emit token

def fetchComma (lexer : Lexer) : Option Lexer := do
  let next ← lexer.dropKey
  return ((next.allowKey true).advance 1).emit .flowEntry

def fetchDash (lexer : Lexer) : Option Lexer := do
  if lexer.inFlow || lexer.keyAllowed then
    let opened :=
      lexer.openBlock lexer.cursor.column lexer.tokens.length Token.blockSequenceStart
    let next ← opened.dropKey
    return ((next.allowKey true).advance 1).emit .blockEntry
  else none

def fetchKey (lexer : Lexer) : Option Lexer := do
  if lexer.inFlow || lexer.keyAllowed then
    let opened := lexer.openBlock lexer.cursor.column lexer.tokens.length Token.blockMappingStart
    let next ← opened.dropKey
    return ((next.allowKey (!next.inFlow)).advance 1).emit .key
  else none

def fetchValue (lexer : Lexer) : Option Lexer :=
  match lexer.key with
  | some key =>
      let marked := lexer.insert key.tokens .key
      let opened := marked.openBlock key.column key.tokens Token.blockMappingStart
      some ((({ opened with key := none }.allowKey false).advance 1).emit .value)
  | none =>
      if lexer.inFlow || lexer.keyAllowed then
        let opened := lexer.openBlock lexer.cursor.column lexer.tokens.length Token.blockMappingStart
        some (((opened.allowKey (!opened.inFlow)).advance 1).emit .value)
      else none

def fetchName (lexer : Lexer) (token : String → Token) : Option Lexer := do
  let kept ← lexer.keepKey
  let (name, after) := takeWord (kept.cursor.advance 1)
  let ends :=
    beginsBlank after.rest
      || (after.rest.head?.map fun c =>
        ['?', ':', ',', ']', '\x7d', '%', '@', '\x60'].contains c) == some true
  if name == "" || !ends then none
  else return ({ kept with cursor := after, keyAllowed := false }.emit (token name))

def fetchTag (lexer : Lexer) : Option Lexer := do
  let kept ← lexer.keepKey
  let (token, after) ← tag kept.cursor
  if (kept.inFlow && after.rest.head? == some ',') || beginsBlank after.rest then
    return { kept with cursor := after, keyAllowed := false }.emit token
  else none

def fetchBlock (lexer : Lexer) (folded : Bool) : Option Lexer := do
  let next ← lexer.dropKey
  let (text, after) ← blockScalar folded next.indent next.cursor
  return { next with cursor := after, keyAllowed := true }.emit (.scalar false (String.ofList text))

def fetchQuoted (lexer : Lexer) (double : Bool) : Option Lexer := do
  let kept ← lexer.keepKey
  let (text, after) ← quotedScalar double kept.cursor
  return { kept with cursor := after, keyAllowed := false }.emit (.scalar false (String.ofList text))

/-- A plain scalar. If it ends after a line break, a key may follow. -/
def fetchPlain (lexer : Lexer) : Option Lexer := do
  let kept ← lexer.keepKey
  let (text, broken, after) ←
    plainScalar kept.inFlow (kept.indent + 1).toNat kept.cursor
  return { kept with cursor := after, keyAllowed := broken }.emit (.scalar true (String.ofList text))

/-- Whether a character cannot begin a plain scalar, whatever follows. -/
def isIndicator (c : Char) : Bool :=
  ['-', '?', ':', ',', '[', ']', '\x7b', '\x7d', '#', '&', '*', '!', '|', '>', '\'', '"', '%', '@',
    '\x60'].contains c

def fetch (lexer : Lexer) : Option Lexer :=
  let flow := lexer.inFlow
  let atStart := lexer.cursor.column == 0
  match lexer.cursor.rest with
  | [] => lexer.fetchEnd
  | c :: rest =>
      if atStart && c == '%' then lexer.fetchDirective
      else if atStart && beginsMarker '-' (c :: rest) then lexer.fetchMarker .documentStart
      else if atStart && beginsMarker '.' (c :: rest) then lexer.fetchMarker .documentEnd
      else
        match c with
        | '[' => lexer.fetchOpening .flowSequenceStart
        | '{' => lexer.fetchOpening .flowMappingStart
        | ']' => lexer.fetchClosing .flowSequenceEnd
        | '}' => lexer.fetchClosing .flowMappingEnd
        | ',' => lexer.fetchComma
        | '*' => lexer.fetchName .alias
        | '&' => lexer.fetchName .anchor
        | '!' => lexer.fetchTag
        | '\'' => lexer.fetchQuoted false
        | '"' => lexer.fetchQuoted true
        | _ =>
            if c == '-' && beginsBlank rest then lexer.fetchDash
            else if c == '?' && (flow || beginsBlank rest) then lexer.fetchKey
            else if c == ':' && (flow || beginsBlank rest) then lexer.fetchValue
            else if c == '|' && !flow then lexer.fetchBlock false
            else if c == '>' && !flow then lexer.fetchBlock true
            else if isBlank c || isBreak c then none
            else if !isIndicator c || c == '-' || (!flow && (c == '?' || c == ':')) then
              lexer.fetchPlain
            else none

def readAll (lexer : Lexer) : Option (List Token) :=
  match (lexer.skipBlanks).refreshKeys with
  | none => none
  | some ready =>
      match (ready.unroll ready.cursor.column).fetch with
      | none => none
      | some next =>
          if ready.cursor.rest.isEmpty then some next.tokens.reverse
          else if next.cursor.rest.length < lexer.cursor.rest.length then next.readAll
          else none
termination_by lexer.cursor.rest.length

end Lexer

/-- The tokens of a text, in which no control characters are allowed. -/
def Token.ofText (text : List Char) : Option (List Token) :=
  if text.all isAllowed then (Lexer.start text).readAll else none

end TreeLint.Yaml
