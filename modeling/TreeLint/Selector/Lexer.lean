import TreeLint.Selector.Error
import TreeLint.Selector.Token

/-!
Contract: from a selector text to its tokens.

Owns:
- the three contexts of a selector text: outside brackets, inside brackets, and after an operator;
- the reader of one token in each context;
- `Lexeme.ofText`, which cuts a text into lexemes: each is a token together with the characters that it
  covers and the layout skipped before it.

Layout is significant outside brackets, where a run of it is a token, and skipped inside brackets. Each
reader returns the characters that it took and those that it left with a proof that together they are
the text it was given, and that it took at least one, so reading ends and no character is lost.
-/

set_option autoImplicit false

namespace TreeLint

/-- The context in which the next token is read. -/
inductive LexerMode where
  /-- Outside brackets. -/
  | selector
  /-- Inside brackets. -/
  | attribute
  /-- Inside brackets, directly after an operator. -/
  | operand
  deriving DecidableEq, Repr

def LexerMode.after : LexerMode → TokenKind → LexerMode
  | .selector, .leftBracket => .attribute
  | .selector, _ => .selector
  | .attribute, .rightBracket => .selector
  | .attribute, .comparison _ => .operand
  | .attribute, _ => .attribute
  | .operand, _ => .attribute

/-- A token read at the beginning of `source`. -/
structure Scan (source : List Char) where
  kind : TokenKind
  /-- The characters that the token covers. -/
  text : List Char
  /-- The characters after the token. -/
  rest : List Char
  split : text ++ rest = source
  nonempty : text ≠ []

namespace Scan

def one (kind : TokenKind) (c : Char) (rest : List Char) : Scan (c :: rest) :=
  ⟨kind, [c], rest, rfl, by simp⟩

/-- A token that covers the first character and those after it that satisfy `p`. -/
def run (p : Char → Bool) (kind : List Char → TokenKind) (c : Char) (rest : List Char) :
    Scan (c :: rest) :=
  ⟨kind (c :: rest.takeWhile p), c :: rest.takeWhile p, rest.dropWhile p, by simp, by simp⟩

/-- What is left after a token is shorter. -/
theorem rest_length_lt {source : List Char} (scan : Scan source) :
    scan.rest.length < source.length := by
  have total := congrArg List.length scan.split
  have taken := List.length_pos_iff.mpr scan.nonempty
  simp only [List.length_append] at total
  omega

end Scan

/-! ### Names -/

/-- A name: the longest run of name characters. -/
def scanName (c : Char) (rest : List Char) : Scan (c :: rest) :=
  .run isNameCharacter (fun text => .name (String.ofList text)) c rest

/-! ### String literals -/

/-- The character that a backslash followed by `c` stands for. -/
def unescape : Char → Char
  | 'b' => '\x08'
  | 'f' => '\x0c'
  | 'n' => '\n'
  | 'r' => '\r'
  | 't' => '\t'
  | 'v' => '\x0b'
  | c => c

/-- The rest of a string literal, up to and with the closing quote: its value, the characters read, and
those after it. -/
def stringBody (quote : Char) : List Char → Option (List Char × List Char × List Char)
  | [] => none
  | c :: rest =>
      if c = quote then some ([], [c], rest)
      else if c = '\\' then
        match rest with
        | [] => none
        | escaped :: more =>
            (stringBody quote more).map fun (value, text, after) =>
              (unescape escaped :: value, c :: escaped :: text, after)
      else
        (stringBody quote rest).map fun (value, text, after) =>
          (c :: value, c :: text, after)

theorem stringBody_split {quote : Char} {source value text after : List Char}
    (read : stringBody quote source = some (value, text, after)) : text ++ after = source := by
  fun_induction stringBody quote source generalizing value text after with
  | case1 => simp at read
  | case2 rest =>
      simp only [Option.some.injEq, Prod.mk.injEq] at read
      obtain ⟨_, rfl, rfl⟩ := read
      rfl
  | case3 => simp at read
  | case4 notQuote escaped more ih =>
      obtain ⟨⟨v, t, a⟩, inner, same⟩ := Option.map_eq_some_iff.1 read
      simp only [Prod.mk.injEq] at same
      obtain ⟨_, rfl, rfl⟩ := same
      simp [ih inner]
  | case5 c rest notQuote notEscape ih =>
      obtain ⟨⟨v, t, a⟩, inner, same⟩ := Option.map_eq_some_iff.1 read
      simp only [Prod.mk.injEq] at same
      obtain ⟨_, rfl, rfl⟩ := same
      simp [ih inner]

def scanString (position : Nat) (quote : Char) (rest : List Char) :
    Except SelectorError (Scan (quote :: rest)) :=
  match read : stringBody quote rest with
  | some (value, text, after) =>
      .ok ⟨.string (String.ofList value), quote :: text, after,
        by simp [stringBody_split read], by simp⟩
  | none => .error ⟨.unterminatedString, position, none⟩

/-! ### Regular expressions -/

/-- The source of a regular expression, up to the closing slash: the source and the characters after the
slash. A backslash takes the next character with it. -/
def regexBody : Bool → List Char → Option (List Char × List Char)
  | _, [] => none
  | escaped, c :: rest =>
      if c = '/' ∧ escaped = false then some ([], rest)
      else
        (regexBody (c == '\\' && !escaped) rest).map fun (source, after) => (c :: source, after)

theorem regexBody_split {escaped : Bool} {text source after : List Char}
    (read : regexBody escaped text = some (source, after)) : source ++ '/' :: after = text := by
  fun_induction regexBody escaped text generalizing source after with
  | case1 => simp at read
  | case2 escaped c rest closes =>
      simp only [Option.some.injEq, Prod.mk.injEq] at read
      obtain ⟨rfl, rfl⟩ := read
      simp [closes.1]
  | case3 escaped c rest _ ih =>
      obtain ⟨⟨s, a⟩, inner, same⟩ := Option.map_eq_some_iff.1 read
      simp only [Prod.mk.injEq] at same
      obtain ⟨rfl, rfl⟩ := same
      simp [ih inner]

/-- A regular expression: a source that is not empty between slashes, and letters for flags. -/
def scanRegex (position : Nat) (c : Char) (rest : List Char) :
    Except SelectorError (Scan (c :: rest)) :=
  match read : regexBody false rest with
  | none => .error ⟨.unterminatedRegex, position, none⟩
  | some ([], _) => .error ⟨.invalidRegex .emptyPattern, position, some "//"⟩
  | some (source, after) =>
      let flags := after.takeWhile Char.isAlpha
      .ok ⟨.regex (String.ofList source) (String.ofList flags), c :: (source ++ '/' :: flags),
        after.dropWhile Char.isAlpha, by simp [flags, ← regexBody_split read], by simp⟩

/-! ### Type names -/

def typeOpening : List Char := ['t', 'y', 'p', 'e', '(']

/-- A type name: what stands between `type(` and the next `)`, without blanks at its ends. The name may
neither be empty nor hold layout. -/
def scanType (position : Nat) (c : Char) (rest : List Char) :
    Except SelectorError (Scan (c :: rest)) :=
  let inner := (rest.drop 4).takeWhile (· != ')')
  match split : (rest.drop 4).dropWhile (· != ')') with
  | [] => .error ⟨.unterminatedType, position, none⟩
  | close :: after =>
      let name := Text.trim inner
      if name.isEmpty || name.any Text.isLayout then
        .error ⟨.unexpectedToken, position,
          some ("type(" ++ String.ofList inner ++ ")")⟩
      else
        .ok ⟨.typeName (String.ofList name), c :: (rest.take 4 ++ (inner ++ [close])), after,
          by
            have whole := List.takeWhile_append_dropWhile (p := (· != ')')) (l := rest.drop 4)
            rw [split] at whole
            simp [inner, whole],
          by simp⟩

/-! ### Numbers -/

/-- The characters of the longest number at the beginning of a text: an optional minus sign, digits, and
digits after a point. There may be no digits at all. -/
def numberLength (text : List Char) : Nat :=
  let (sign, body) :=
    match text with
    | '-' :: body => (1, body)
    | body => (0, body)
  let whole := (body.takeWhile Char.isDigit).length
  match body.dropWhile Char.isDigit with
  | '.' :: d :: more =>
      if d.isDigit then sign + whole + 2 + (more.takeWhile Char.isDigit).length else sign + whole
  | _ => sign + whole

/-- Whether a number starts here: a digit, or a point and a digit, after an optional minus sign. -/
def startsNumber (text : List Char) : Bool :=
  let body :=
    match text with
    | '-' :: body => body
    | body => body
  match body with
  | '.' :: d :: _ => d.isDigit
  | d :: _ => d.isDigit
  | [] => false

/-- A number of the form `-? [0-9]* "."? [0-9]+`. -/
def scanNumber (position : Nat) (c : Char) (rest : List Char) :
    Except SelectorError (Scan (c :: rest)) :=
  let taken := numberLength (c :: rest) - 1
  let text := c :: rest.take taken
  match Double.read? text with
  | some value => .ok ⟨.number value, text, rest.drop taken, by simp [text], by simp [text]⟩
  | none => .error ⟨.invalidNumber, position, some (String.ofList text)⟩

/-! ### One token in each context -/

def unexpectedCharacter (position : Nat) (c : Char) : SelectorError :=
  ⟨.unexpectedCharacter, position, some (String.singleton c)⟩

def scanSelector (position : Nat) (c : Char) (rest : List Char) :
    Except SelectorError (Scan (c :: rest)) :=
  if Text.isLayout c then .ok (.run Text.isLayout (fun _ => .space) c rest)
  else if c = ',' then .ok (.one .comma c rest)
  else if c = '>' then .ok (.one .greater c rest)
  else if c = '!' then .ok (.one .bang c rest)
  else if c = '*' then .ok (.one .star c rest)
  else if c = '#' then .ok (.one .hash c rest)
  else if c = '.' then .ok (.one .dot c rest)
  else if c = '[' then .ok (.one .leftBracket c rest)
  else if isNameCharacter c then .ok (scanName c rest)
  else .error (unexpectedCharacter position c)

/-- An operator that is perhaps completed by an equals sign. -/
def scanOrEqual (plain orEqual : TokenKind) (c : Char) : (rest : List Char) → Scan (c :: rest)
  | '=' :: rest => ⟨orEqual, [c, '='], rest, rfl, by simp⟩
  | rest => .one plain c rest

def scanAttribute (position : Nat) (c : Char) (rest : List Char) :
    Except SelectorError (Scan (c :: rest)) :=
  if c = ']' then .ok (.one .rightBracket c rest)
  else if c = '.' then .ok (.one .dot c rest)
  else if c = '=' then .ok (.one (.comparison .equal) c rest)
  else if c = '!' then
    match rest with
    | '=' :: more => .ok ⟨.comparison .notEqual, [c, '='], more, rfl, by simp⟩
    | _ => .error (unexpectedCharacter position c)
  else if c = '<' then
    .ok (scanOrEqual (.comparison .less) (.comparison .lessOrEqual) c rest)
  else if c = '>' then
    .ok (scanOrEqual (.comparison .greater) (.comparison .greaterOrEqual) c rest)
  else if isNameCharacter c then .ok (scanName c rest)
  else .error (unexpectedCharacter position c)

/-- Whether a number starts at `c` and is not merely the beginning of a name. -/
def isNumberToken (c : Char) (rest : List Char) : Bool :=
  startsNumber (c :: rest)
    && !(isNameCharacter c
      && ((rest.drop (numberLength (c :: rest) - 1)).head?.any isNameCharacter))

/-- The token after an operator. Digits that run on into further name characters are a name. -/
def scanOperand (position : Nat) (c : Char) (rest : List Char) :
    Except SelectorError (Scan (c :: rest)) :=
  if c = '"' ∨ c = '\'' then scanString position c rest
  else if c = '/' then scanRegex position c rest
  else if typeOpening.isPrefixOf (c :: rest) then scanType position c rest
  else if isNumberToken c rest then scanNumber position c rest
  else if isNameCharacter c then .ok (scanName c rest)
  else .error (unexpectedCharacter position c)

def LexerMode.scan (mode : LexerMode) (position : Nat) (c : Char) (rest : List Char) :
    Except SelectorError (Scan (c :: rest)) :=
  match mode with
  | .selector => scanSelector position c rest
  | .attribute => scanAttribute position c rest
  | .operand => scanOperand position c rest

/-! ### The whole text -/

/-- A token with the characters that it covers. -/
structure Lexeme where
  /-- The layout skipped before the token. -/
  gap : List Char
  kind : TokenKind
  /-- The byte offset at which the token starts. -/
  position : Nat
  /-- The characters that the token covers. -/
  text : List Char
  deriving DecidableEq, Repr

def Lexeme.token (lexeme : Lexeme) : Token := ⟨lexeme.kind, lexeme.position⟩

/-- The layout that is skipped before a token: none outside brackets. -/
def LexerMode.gap (mode : LexerMode) (text : List Char) : List Char :=
  if mode = .selector then [] else text.takeWhile Text.isLayout

def LexerMode.afterGap (mode : LexerMode) (text : List Char) : List Char :=
  if mode = .selector then text else text.dropWhile Text.isLayout

theorem LexerMode.gap_append_afterGap (mode : LexerMode) (text : List Char) :
    mode.gap text ++ mode.afterGap text = text := by
  unfold LexerMode.gap LexerMode.afterGap
  split <;> simp

/-- The lexemes of a text that is read from byte offset `position` on in context `mode`. -/
def lexemesFrom (mode : LexerMode) (position : Nat) (text : List Char) :
    Except SelectorError (List Lexeme) :=
  match _found : mode.afterGap text with
  | [] => .ok []
  | c :: rest =>
      let start := position + Text.byteLength (mode.gap text)
      match mode.scan start c rest with
      | .error error => .error error
      | .ok scan =>
          match lexemesFrom (mode.after scan.kind) (start + Text.byteLength scan.text) scan.rest with
          | .error error => .error error
          | .ok lexemes => .ok (⟨mode.gap text, scan.kind, start, scan.text⟩ :: lexemes)
termination_by text.length
decreasing_by
  have whole := congrArg List.length (mode.gap_append_afterGap text)
  rw [_found, List.length_append] at whole
  have shorter := scan.rest_length_lt
  omega

def Lexeme.ofText (text : List Char) : Except SelectorError (List Lexeme) :=
  lexemesFrom .selector 0 text

def Token.ofText (text : String) : Except SelectorError (List Token) :=
  (Lexeme.ofText text.toList).map fun lexemes => lexemes.map Lexeme.token

end TreeLint
