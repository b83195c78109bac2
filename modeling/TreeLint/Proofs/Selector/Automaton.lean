import TreeLint.Selector.Parser

/-!
Contract: the tokens that can follow, as a finite automaton.

Owns:
- `SelectorAutomaton.State`, what the tokens that have been read leave open, and the table of its moves;
- `SelectorAutomaton.run`, the state after a list of tokens or the error of the first one that cannot follow;
- `SelectorAutomaton.scan`, which also tells whether a selector may end there;
- a completion for each state, and the place and the kind of every refusal.

Brackets do not nest, so the token lists of selectors are a regular language and need no stack.

Does not own: the parser. That the automaton accepts what the parser accepts is shown elsewhere.
-/

set_option autoImplicit false

namespace TreeLint

def Token.unexpected (token : Token) : SelectorError :=
  ⟨.unexpectedToken, token.position, some token.kind.describe⟩

namespace SelectorAutomaton

open SelectorParser

/-- What the tokens that have been read leave open. -/
inductive State where
  /-- A sequence has to follow, after layout or at once. -/
  | beforeSequence
  /-- An atom has to follow, after a subject mark. -/
  | afterMark
  /-- A name has to follow, after `#` or after a point outside brackets. -/
  | beforeName
  | afterAtom
  /-- After an atom and layout. -/
  | afterLayout
  /-- A name of the path in brackets has to follow. -/
  | beforeKey
  | afterKey
  /-- A value has to follow. -/
  | beforeValue (comparison : Comparison)
  /-- A further name of a value has to follow, after a point. -/
  | beforeValueName
  | afterValueName
  /-- After a value that is no path. -/
  | afterValue
  deriving DecidableEq, Repr

namespace State

/-- Whether a selector may end. -/
def isFinal : State → Bool
  | .afterAtom | .afterLayout => true
  | _ => false

/-- The state after the first token of an atom. -/
def ofAtomStart? : TokenKind → Option State
  | .star | .name _ => some .afterAtom
  | .hash | .dot => some .beforeName
  | .leftBracket => some .beforeKey
  | _ => none

/-- The state after one more token, if the token can follow. -/
def next? : State → TokenKind → Option State
  | .beforeSequence, kind =>
      match kind with
      | .space => some .beforeSequence
      | .bang => some .afterMark
      | _ => ofAtomStart? kind
  | .afterMark, kind => ofAtomStart? kind
  | .beforeName, kind =>
      match kind with
      | .name _ => some .afterAtom
      | _ => none
  | .afterAtom, kind =>
      match kind with
      | .space => some .afterLayout
      | .greater | .comma => some .beforeSequence
      | _ => ofAtomStart? kind
  | .afterLayout, kind =>
      match kind with
      | .space => some .afterLayout
      | .greater | .comma => some .beforeSequence
      | .bang => some .afterMark
      | _ => ofAtomStart? kind
  | .beforeKey, kind =>
      match kind with
      | .name _ => some .afterKey
      | _ => none
  | .afterKey, kind =>
      match kind with
      | .dot => some .beforeKey
      | .rightBracket => some .afterAtom
      | .comparison comparison => some (.beforeValue comparison)
      | _ => none
  | .beforeValue comparison, kind =>
      match kind with
      | .string _ | .number _ => some .afterValue
      | .name _ => some .afterValueName
      | .typeName _ | .regex _ _ => if comparison.isEquality then some .afterValue else none
      | _ => none
  | .beforeValueName, kind =>
      match kind with
      | .name _ => some .afterValueName
      | _ => none
  | .afterValueName, kind =>
      match kind with
      | .dot => some .beforeValueName
      | .rightBracket => some .afterAtom
      | _ => none
  | .afterValue, kind =>
      match kind with
      | .rightBracket => some .afterAtom
      | _ => none

/-- The kinds of tokens that complete a selector. -/
def completion : State → List TokenKind
  | .beforeSequence | .afterMark => [.star]
  | .beforeName => [.name "a"]
  | .afterAtom | .afterLayout => []
  | .beforeKey => [.name "a", .rightBracket]
  | .beforeValue _ => [.string "", .rightBracket]
  | .beforeValueName => [.name "a", .rightBracket]
  | .afterKey | .afterValueName | .afterValue => [.rightBracket]

end State

/-! ### Moves and runs -/

variable (engine : RegexEngine)

/-- A regular expression has to pass its check. Any other token is in order as it is. -/
def checkToken (token : Token) : Except SelectorError Unit :=
  match token.kind with
  | .regex source flags => checkRegex engine source flags token.position
  | _ => .ok ()

def step (state : State) (token : Token) : Except SelectorError State :=
  match state.next? token.kind with
  | none => .error token.unexpected
  | some next =>
      match checkToken engine token with
      | .ok () => .ok next
      | .error error => .error error

/-- The state after a list of tokens, or the error of the first one that cannot follow. -/
def run (state : State) (tokens : List Token) : Except SelectorError State :=
  tokens.foldlM (step engine) state

/-- Whether a selector may end. If not, `finish` is the position of the error. -/
def settle (finish : Nat) (state : State) : Except SelectorError Unit :=
  if state.isFinal then .ok () else .error ⟨.unexpectedEnd, finish, none⟩

def scan (finish : Nat) (state : State) (tokens : List Token) : Except SelectorError Unit :=
  run engine state tokens >>= settle finish

variable {engine : RegexEngine} {finish : Nat} {state next : State} {token : Token}

theorem step_of_none (refused : state.next? token.kind = none) :
    step engine state token = .error token.unexpected := by
  rw [step, refused]

theorem step_of_some (follows : state.next? token.kind = some next)
    (checked : checkToken engine token = .ok ()) : step engine state token = .ok next := by
  rw [step, follows]
  simp only [checked]

theorem step_of_unchecked {error : SelectorError} (follows : state.next? token.kind = some next)
    (failed : checkToken engine token = .error error) : step engine state token = .error error := by
  rw [step, follows]
  simp only [failed]

theorem scan_of_step {rest : List Token} (moves : step engine state token = .ok next) :
    scan engine finish state (token :: rest) = scan engine finish next rest := by
  rw [scan, run, List.foldlM_cons, moves]
  rfl

theorem scan_of_step_error {error : SelectorError} {rest : List Token}
    (refused : step engine state token = .error error) :
    scan engine finish state (token :: rest) = .error error := by
  rw [scan, run, List.foldlM_cons, refused]
  rfl

theorem scan_cons {kind : TokenKind} {position : Nat} {rest : List Token}
    (follows : state.next? kind = some next) (checked : checkToken engine ⟨kind, position⟩ = .ok ()) :
    scan engine finish state (⟨kind, position⟩ :: rest) = scan engine finish next rest :=
  scan_of_step (step_of_some follows checked)

theorem scan_of_none {rest : List Token} (refused : state.next? token.kind = none) :
    scan engine finish state (token :: rest) = .error token.unexpected :=
  scan_of_step_error (step_of_none refused)

/-- Two states from which the same tokens lead to the same states give the same verdict. -/
theorem scan_congr {other : State} {tokens : List Token}
    (sameEnd : tokens = [] → state.isFinal = other.isFinal)
    (sameNext : ∀ token rest, tokens = token :: rest → state.next? token.kind = other.next? token.kind) :
    scan engine finish state tokens = scan engine finish other tokens := by
  cases tokens with
  | nil =>
      have same : settle finish state = settle finish other := by
        rw [settle, sameEnd rfl, settle]
      exact same
  | cons token rest =>
      have moves : step engine state token = step engine other token := by
        rw [step, sameNext token rest rfl, step]
      rw [scan, run, List.foldlM_cons, moves]
      rfl

/-- Where no selector may end and the next token cannot follow, the verdict is that of the parser. -/
theorem scan_eq_unexpected {tokens : List Token} (isOpen : tokens = [] → state.isFinal = false)
    (refused : ∀ token rest, tokens = token :: rest → state.next? token.kind = none) :
    scan engine finish state tokens = .error (unexpected finish tokens) := by
  cases tokens with
  | nil =>
      have notFinal : settle finish state = .error ⟨.unexpectedEnd, finish, none⟩ := by
        rw [settle, isOpen rfl]
        rfl
      exact notFinal
  | cons token rest => exact scan_of_none (refused token rest rfl)

theorem run_append (before after : List Token) :
    run engine state (before ++ after) = run engine state before >>= (run engine · after) :=
  List.foldlM_append

/-- Every state has a completion. -/
theorem scan_completion (state : State) :
    scan engine finish state (state.completion.map (⟨·, finish⟩)) = .ok () := by
  cases state <;> rfl

/-- The errors that are raised for a token. They carry its position and show it. -/
inductive RaisedAt (engine : RegexEngine) (token : Token) : SelectorError → Prop where
  | unexpected : RaisedAt engine token ⟨.unexpectedToken, token.position, some token.kind.describe⟩
  | unknownFlag {source flags : String} {flag : Char} :
      token.kind = .regex source flags → flag ∈ flags.toList → isRegexFlag flag = false →
        RaisedAt engine token ⟨.unknownRegexFlag flag, token.position, some token.kind.describe⟩
  | rejected {source flags reason : String} :
      token.kind = .regex source flags → engine.check source flags = .error reason →
        RaisedAt engine token
          ⟨.invalidRegex (.rejected reason), token.position, some token.kind.describe⟩

theorem raisedAt_of_checkRegex {source flags : String} {error : SelectorError}
    (isRegex : token.kind = .regex source flags)
    (failed : checkRegex engine source flags token.position = .error error) :
    RaisedAt engine token error := by
  have shown : "/" ++ source ++ "/" ++ flags = token.kind.describe := by rw [isRegex]; rfl
  unfold checkRegex at failed
  simp only [shown] at failed
  split at failed
  · rename_i flag found
    obtain rfl := Except.error.inj failed
    have unknown := List.find?_some found
    exact .unknownFlag isRegex (List.mem_of_find?_eq_some found) (by simpa using unknown)
  · split at failed
    · contradiction
    · rename_i reason refused
      obtain rfl := Except.error.inj failed
      exact .rejected isRegex refused

/-- Every move that fails raises an error for its token. -/
theorem raisedAt_of_step {error : SelectorError} (refused : step engine state token = .error error) :
    RaisedAt engine token error := by
  unfold step at refused
  split at refused
  · obtain rfl := Except.error.inj refused
    exact .unexpected
  · split at refused
    · contradiction
    · rename_i failed
      obtain rfl := Except.error.inj refused
      unfold checkToken at failed
      split at failed
      · rename_i isRegex
        exact raisedAt_of_checkRegex isRegex failed
      · contradiction

/-- A run that fails gets as far as the token whose move fails. -/
theorem exists_refused_of_run {tokens : List Token} {error : SelectorError}
    (failed : run engine state tokens = .error error) :
    ∃ before token after last, tokens = before ++ token :: after ∧
      run engine state before = .ok last ∧ step engine last token = .error error := by
  induction tokens generalizing state with
  | nil => contradiction
  | cons token rest inductionHypothesis =>
      cases moved : step engine state token with
      | error other =>
          rw [run, List.foldlM_cons, moved] at failed
          obtain rfl := Except.error.inj failed
          exact ⟨[], token, rest, state, rfl, rfl, moved⟩
      | ok next =>
          rw [run, List.foldlM_cons, moved] at failed
          obtain ⟨before, other, after, last, rfl, reached, refused⟩ := inductionHypothesis failed
          refine ⟨token :: before, other, after, last, rfl, ?_, refused⟩
          rw [run, List.foldlM_cons, moved]
          exact reached

end SelectorAutomaton

end TreeLint
