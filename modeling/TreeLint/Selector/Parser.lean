import TreeLint.Regex.Engine
import TreeLint.Selector.Lexer

/-!
Contract: from tokens to selectors.

Owns: the parser of the selector language,

    selectors := selector (',' selector)*
    selector  := sequence (('>' | ' ') sequence)*
    sequence  := '!'? atom+
    atom      := '*' | '#'? name | '[' attribute ']' | ('.' name)+
    attribute := path (operator value)?

in which runs of layout around `,` and `>` and at either end are skipped. Combinators associate to the
left. Type names and regular expressions follow the equality operators only.

Each function takes the tokens that are left and returns what it read with the tokens after it; the
lemma that goes with it says that there are fewer of them, which is why parsing ends. `finish` is the
position that errors at the end of the tokens carry.
-/

set_option autoImplicit false

namespace TreeLint.SelectorParser

/-- The error for a token list that cannot go on as it does: the first token, or the end. -/
def unexpected (finish : Nat) : List Token → SelectorError
  | token :: _ => ⟨.unexpectedToken, token.position, some token.kind.describe⟩
  | [] => ⟨.unexpectedEnd, finish, none⟩

def skipSpace (tokens : List Token) : List Token :=
  tokens.dropWhile (·.kind == .space)

theorem skipSpace_length_le (tokens : List Token) :
    (skipSpace tokens).length ≤ tokens.length :=
  (List.dropWhile_sublist _).length_le

/-! ### Paths -/

def dottedPath (finish : Nat) : List Token → Except SelectorError (List String × List Token)
  | ⟨.dot, _⟩ :: ⟨.name segment, _⟩ :: rest =>
      match dottedPath finish rest with
      | .ok (segments, after) => .ok (segment :: segments, after)
      | .error error => .error error
  | ⟨.dot, _⟩ :: rest => .error (unexpected finish rest)
  | tokens => .ok ([], tokens)

theorem dottedPath_length_le {finish : Nat} {tokens after : List Token} {path : List String}
    (read : dottedPath finish tokens = .ok (path, after)) : after.length ≤ tokens.length := by
  fun_induction dottedPath finish tokens generalizing path after with
  | case1 _ segment _ rest segments rest' inner ih =>
      simp only [Except.ok.injEq, Prod.mk.injEq] at read
      obtain ⟨_, rfl⟩ := read
      have := ih inner
      simp only [List.length_cons]
      omega
  | case2 => simp at read
  | case3 => simp at read
  | case4 =>
      simp only [Except.ok.injEq, Prod.mk.injEq] at read
      obtain ⟨_, rfl⟩ := read
      exact Nat.le_refl _

/-- A name followed by a run of `'.' name`. -/
def namePath (finish : Nat) : List Token → Except SelectorError (List String × List Token)
  | ⟨.name segment, _⟩ :: rest =>
      match dottedPath finish rest with
      | .ok (segments, after) => .ok (segment :: segments, after)
      | .error error => .error error
  | tokens => .error (unexpected finish tokens)

theorem namePath_length_lt {finish : Nat} {tokens after : List Token} {path : List String}
    (read : namePath finish tokens = .ok (path, after)) : after.length < tokens.length := by
  unfold namePath at read
  split at read
  · split at read
    · rename_i inner
      simp only [Except.ok.injEq, Prod.mk.injEq] at read
      obtain ⟨_, rfl⟩ := read
      have := dottedPath_length_le inner
      simp only [List.length_cons]
      omega
    · simp at read
  · simp at read

/-! ### Attributes -/

def isRegexFlag (flag : Char) : Bool :=
  flag == 'i' || flag == 'm' || flag == 's' || flag == 'u'

/-- Refuses a regular expression that carries an unknown flag or that the engine does not accept. -/
def checkRegex (engine : RegexEngine) (source flags : String) (position : Nat) :
    Except SelectorError Unit :=
  let shown := "/" ++ source ++ "/" ++ flags
  match flags.toList.find? (!isRegexFlag ·) with
  | some flag => .error ⟨.unknownRegexFlag flag, position, some shown⟩
  | none =>
      match engine.check source flags with
      | .ok () => .ok ()
      | .error reason => .error ⟨.invalidRegex (.rejected reason), position, some shown⟩

/-- The operand of a comparison. A dotted path of names is a string. -/
def operand (engine : RegexEngine) (finish : Nat) (comparison : Comparison) :
    List Token → Except SelectorError (Operand × List Token)
  | ⟨.string value, _⟩ :: rest => .ok (.string value, rest)
  | ⟨.number value, _⟩ :: rest => .ok (.number value, rest)
  | tokens@(⟨.name _, _⟩ :: _) =>
      match namePath finish tokens with
      | .ok (path, after) => .ok (.string (".".intercalate path), after)
      | .error error => .error error
  | tokens@(⟨.typeName name, _⟩ :: rest) =>
      if comparison.isEquality then .ok (.typeName name, rest)
      else .error (unexpected finish tokens)
  | tokens@(⟨.regex source flags, position⟩ :: rest) =>
      if comparison.isEquality then
        match checkRegex engine source flags position with
        | .ok () => .ok (.regex source flags, rest)
        | .error error => .error error
      else .error (unexpected finish tokens)
  | tokens => .error (unexpected finish tokens)

theorem operand_length_lt {engine : RegexEngine} {finish : Nat} {comparison : Comparison}
    {tokens after : List Token} {value : Operand}
    (read : operand engine finish comparison tokens = .ok (value, after)) :
    after.length < tokens.length := by
  unfold operand at read
  split at read
  · simp only [Except.ok.injEq, Prod.mk.injEq] at read
    simp [read.2]
  · simp only [Except.ok.injEq, Prod.mk.injEq] at read
    simp [read.2]
  · split at read
    · rename_i inner
      simp only [Except.ok.injEq, Prod.mk.injEq] at read
      obtain ⟨_, rfl⟩ := read
      exact namePath_length_lt inner
    · simp at read
  · split at read
    · simp only [Except.ok.injEq, Prod.mk.injEq] at read
      simp [read.2]
    · simp at read
  · split at read
    · split at read
      · simp only [Except.ok.injEq, Prod.mk.injEq] at read
        simp [read.2]
      · simp at read
    · simp at read
  · simp at read

/-- What stands between brackets, up to and with the closing one. -/
def bracketed (engine : RegexEngine) (finish : Nat) (tokens : List Token) :
    Except SelectorError (Atom × List Token) :=
  match namePath finish tokens with
  | .error error => .error error
  | .ok (path, ⟨.rightBracket, _⟩ :: rest) => .ok (.attribute path none, rest)
  | .ok (path, ⟨.comparison comparison, _⟩ :: rest) =>
      match operand engine finish comparison rest with
      | .error error => .error error
      | .ok (value, ⟨.rightBracket, _⟩ :: after) =>
          .ok (.attribute path (some ⟨comparison, value⟩), after)
      | .ok (_, after) => .error (unexpected finish after)
  | .ok (_, after) => .error (unexpected finish after)

theorem bracketed_length_lt {engine : RegexEngine} {finish : Nat} {tokens after : List Token}
    {condition : Atom} (read : bracketed engine finish tokens = .ok (condition, after)) :
    after.length < tokens.length := by
  unfold bracketed at read
  split at read
  · simp at read
  · rename_i inner
    have shorter := namePath_length_lt inner
    simp only [Except.ok.injEq, Prod.mk.injEq] at read
    simp only [List.length_cons, read.2] at shorter
    omega
  · rename_i inner
    have shorter := namePath_length_lt inner
    split at read
    · simp at read
    · rename_i value
      have still := operand_length_lt value
      simp only [Except.ok.injEq, Prod.mk.injEq] at read
      simp only [List.length_cons, read.2] at shorter still
      omega
    · simp at read
  · simp at read

/-! ### Atoms and sequences -/

def atom (engine : RegexEngine) (finish : Nat) :
    List Token → Except SelectorError (Atom × List Token)
  | ⟨.star, _⟩ :: rest => .ok (.wildcard, rest)
  | ⟨.hash, _⟩ :: ⟨.name name, _⟩ :: rest => .ok (.identifier name, rest)
  | ⟨.hash, _⟩ :: rest => .error (unexpected finish rest)
  | ⟨.name name, _⟩ :: rest => .ok (.identifier name, rest)
  | ⟨.dot, _⟩ :: ⟨.name segment, _⟩ :: rest =>
      match dottedPath finish rest with
      | .ok (segments, after) => .ok (.field (segment :: segments), after)
      | .error error => .error error
  | ⟨.dot, _⟩ :: rest => .error (unexpected finish rest)
  | ⟨.leftBracket, _⟩ :: rest => bracketed engine finish rest
  | tokens => .error (unexpected finish tokens)

theorem atom_length_lt {engine : RegexEngine} {finish : Nat} {tokens after : List Token}
    {condition : Atom} (read : atom engine finish tokens = .ok (condition, after)) :
    after.length < tokens.length := by
  unfold atom at read
  split at read
  · simp only [Except.ok.injEq, Prod.mk.injEq] at read
    simp [read.2]
  · simp only [Except.ok.injEq, Prod.mk.injEq] at read
    simp only [List.length_cons, read.2]
    omega
  · simp at read
  · simp only [Except.ok.injEq, Prod.mk.injEq] at read
    simp [read.2]
  · split at read
    · rename_i inner
      simp only [Except.ok.injEq, Prod.mk.injEq] at read
      have shorter := dottedPath_length_le inner
      simp only [List.length_cons, ← read.2]
      omega
    · simp at read
  · simp at read
  · have shorter := bracketed_length_lt read
    simp only [List.length_cons]
    omega
  · simp at read

def nextIs (p : TokenKind → Bool) (tokens : List Token) : Bool :=
  tokens.head?.any fun token => p token.kind

def atoms (engine : RegexEngine) (finish : Nat) (tokens : List Token) :
    Except SelectorError (List Selector × List Token) :=
  if nextIs TokenKind.startsAtom tokens then
    match _read : atom engine finish tokens with
    | .error error => .error error
    | .ok (condition, rest) =>
        match atoms engine finish rest with
        | .error error => .error error
        | .ok (others, after) => .ok (Selector.ofAtom condition :: others, after)
  else .ok ([], tokens)
termination_by tokens.length
decreasing_by exact atom_length_lt _read

theorem atoms_length_le {engine : RegexEngine} {finish : Nat} {tokens after : List Token}
    {found : List Selector} (read : atoms engine finish tokens = .ok (found, after)) :
    after.length ≤ tokens.length := by
  fun_induction atoms engine finish tokens generalizing found after with
  | case1 => simp at read
  | case2 => simp at read
  | case3 tokens _ condition rest one others after' more ih =>
      simp only [Except.ok.injEq, Prod.mk.injEq] at read
      obtain ⟨_, rfl⟩ := read
      have shorter := atom_length_lt one
      have := ih more
      omega
  | case4 =>
      simp only [Except.ok.injEq, Prod.mk.injEq] at read
      obtain ⟨_, rfl⟩ := read
      exact Nat.le_refl _

theorem atoms_length_lt {engine : RegexEngine} {finish : Nat} {tokens after : List Token}
    {first : Selector} {others : List Selector}
    (read : atoms engine finish tokens = .ok (first :: others, after)) :
    after.length < tokens.length := by
  unfold atoms at read
  split at read
  · split at read
    · simp at read
    · rename_i one
      have shorter := atom_length_lt one
      split at read
      · simp at read
      · rename_i more
        simp only [Except.ok.injEq, Prod.mk.injEq] at read
        have := atoms_length_le more
        rw [← read.2]
        omega
  · simp at read

def ofAtoms (subject : Bool) : List Selector → Option Selector
  | [] => none
  | [only] => some (only.withSubject subject)
  | several => some (.compound subject several)

/-- An optional subject mark and at least one atom. -/
def sequence (engine : RegexEngine) (finish : Nat) (tokens : List Token) :
    Except SelectorError (Selector × List Token) :=
  let marked := nextIs (· == .bang) tokens
  match atoms engine finish (if marked then tokens.tail else tokens) with
  | .error error => .error error
  | .ok (found, after) =>
      match ofAtoms marked found with
      | none => .error (unexpected finish after)
      | some selector => .ok (selector, after)

theorem sequence_length_lt {engine : RegexEngine} {finish : Nat} {tokens after : List Token}
    {selector : Selector} (read : sequence engine finish tokens = .ok (selector, after)) :
    after.length < tokens.length := by
  unfold sequence at read
  simp only at read
  split at read
  · simp at read
  · rename_i found rest inner
    split at read
    · simp at read
    · rename_i chosen
      simp only [Except.ok.injEq, Prod.mk.injEq] at read
      obtain ⟨_, rfl⟩ := read
      cases found with
      | nil => simp [ofAtoms] at chosen
      | cons first others =>
          have shorter := atoms_length_lt inner
          split at shorter
          · simp only [List.length_tail] at shorter
            omega
          · exact shorter

/-! ### Selectors and alternatives -/

/-- The combinator that stands before the next sequence, if there is one, and the tokens of the
sequence: `>` with any layout around it, or layout alone. -/
def combinator? (tokens : List Token) : Option (Combinator × List Token) :=
  match skipSpace tokens with
  | ⟨.greater, _⟩ :: rest => some (.child, skipSpace rest)
  | rest =>
      if nextIs (· == .space) tokens && nextIs TokenKind.startsSequence rest then
        some (.descendant, rest)
      else none

theorem combinator?_length_le {tokens after : List Token} {combinator : Combinator}
    (read : combinator? tokens = some (combinator, after)) : after.length ≤ tokens.length := by
  unfold combinator? at read
  have skipped := skipSpace_length_le tokens
  split at read
  · rename_i rest found
    simp only [Option.some.injEq, Prod.mk.injEq] at read
    have again := skipSpace_length_le rest
    rw [found, List.length_cons] at skipped
    rw [← read.2]
    omega
  · split at read
    · simp only [Option.some.injEq, Prod.mk.injEq] at read
      rw [← read.2]
      exact skipped
    · simp at read

/-- Further sequences, joined to what stands on their left. -/
def selectorFrom (engine : RegexEngine) (finish : Nat) (left : Selector) (tokens : List Token) :
    Except SelectorError (Selector × List Token) :=
  match _joint : combinator? tokens with
  | none => .ok (left, tokens)
  | some (combinator, rest) =>
      match _read : sequence engine finish rest with
      | .error error => .error error
      | .ok (right, after) =>
          selectorFrom engine finish (.joined false combinator left right) after
termination_by tokens.length
decreasing_by
  have := combinator?_length_le _joint
  have := sequence_length_lt _read
  omega

theorem selectorFrom_length_le {engine : RegexEngine} {finish : Nat} {left selector : Selector}
    {tokens after : List Token}
    (read : selectorFrom engine finish left tokens = .ok (selector, after)) :
    after.length ≤ tokens.length := by
  fun_induction selectorFrom engine finish left tokens generalizing selector after with
  | case1 =>
      simp only [Except.ok.injEq, Prod.mk.injEq] at read
      obtain ⟨_, rfl⟩ := read
      exact Nat.le_refl _
  | case2 => simp at read
  | case3 left tokens combinator rest joint right more inner ih =>
      have := combinator?_length_le joint
      have := sequence_length_lt inner
      have := ih read
      omega

def selector (engine : RegexEngine) (finish : Nat) (tokens : List Token) :
    Except SelectorError (Selector × List Token) :=
  match sequence engine finish tokens with
  | .error error => .error error
  | .ok (left, rest) => selectorFrom engine finish left rest

theorem selector_length_lt {engine : RegexEngine} {finish : Nat} {tokens after : List Token}
    {found : Selector} (read : selector engine finish tokens = .ok (found, after)) :
    after.length < tokens.length := by
  unfold selector at read
  split at read
  · simp at read
  · rename_i inner
    have := sequence_length_lt inner
    have := selectorFrom_length_le read
    omega

def afterComma? (tokens : List Token) : Option (List Token) :=
  match skipSpace tokens with
  | ⟨.comma, _⟩ :: rest => some (skipSpace rest)
  | _ => none

theorem afterComma?_length_lt {tokens after : List Token}
    (read : afterComma? tokens = some after) : after.length < tokens.length := by
  unfold afterComma? at read
  have skipped := skipSpace_length_le tokens
  split at read
  · rename_i rest found
    have again := skipSpace_length_le rest
    rw [found, List.length_cons] at skipped
    simp only [Option.some.injEq] at read
    rw [← read]
    omega
  · simp at read

def alternativesFrom (engine : RegexEngine) (finish : Nat) (tokens : List Token) :
    Except SelectorError (List Selector × List Token) :=
  match _comma : afterComma? tokens with
  | none => .ok ([], tokens)
  | some rest =>
      match _read : selector engine finish rest with
      | .error error => .error error
      | .ok (first, after) =>
          match alternativesFrom engine finish after with
          | .error error => .error error
          | .ok (others, last) => .ok (first :: others, last)
termination_by tokens.length
decreasing_by
  have := afterComma?_length_lt _comma
  have := selector_length_lt _read
  omega

/-- Alternatives between commas. A single one stands for itself. -/
def alternatives (engine : RegexEngine) (finish : Nat) (tokens : List Token) :
    Except SelectorError (Selector × List Token) :=
  match selector engine finish tokens with
  | .error error => .error error
  | .ok (first, rest) =>
      match alternativesFrom engine finish rest with
      | .error error => .error error
      | .ok ([], after) => .ok (first, after)
      | .ok (others, after) => .ok (.union false (first :: others), after)

end TreeLint.SelectorParser

namespace TreeLint.Selector

open SelectorParser in
/-- The selector that a list of tokens denotes. `finish` is the position of errors at their end. -/
def ofTokens (engine : RegexEngine) (finish : Nat) (tokens : List Token) :
    Except SelectorError Selector :=
  match skipSpace tokens with
  | [] => .error ⟨.emptySelector, 0, none⟩
  | present =>
      match alternatives engine finish present with
      | .error error => .error error
      | .ok (selector, rest) =>
          match skipSpace rest with
          | [] => .ok selector
          | surplus => .error (unexpected finish surplus)

def parse (engine : RegexEngine) (text : String) : Except SelectorError Selector :=
  match Token.ofText text with
  | .error error => .error error
  | .ok tokens => ofTokens engine text.utf8ByteSize tokens

end TreeLint.Selector
