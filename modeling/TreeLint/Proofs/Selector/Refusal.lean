import Mathlib.Data.List.TakeWhile
import TreeLint.Proofs.Selector.Automaton
import TreeLint.Proofs.Selector.ParserCompleteness
import TreeLint.Regex.Standard

/-!
Contract: the parser refuses a token list at the first token that cannot follow.

Owns:
- `SelectorAutomaton.Follows`, by which what a function of the parser returns agrees with the automaton, with one
  lemma for each function;
- the agreement of the verdicts of the parser and of the automaton on all token lists but those of layout alone;
- `SelectorAutomaton.Viable`, the token lists that can be completed, which are those that the automaton can run
  through;
- the place of every refusal.

The parser tries layout at three places and goes back if nothing follows it. No lemma here says where its cursor
stands then: the automaton has read the layout in a state of its own, from which the same tokens can follow.
-/

set_option autoImplicit false

namespace TreeLint.SelectorAutomaton

open SelectorParser

variable {engine : RegexEngine} {finish : Nat}

/-- The outcome of a function of the parser agrees with the automaton. A success takes it from the state `entry`
to the state `exit` and leaves tokens with the property `stops`; an error is its verdict. -/
def Follows (engine : RegexEngine) (finish : Nat) (entry exit : State) (stops : List Token → Prop)
    (tokens : List Token) {α : Type} (outcome : Except SelectorError (α × List Token)) : Prop :=
  match outcome with
  | .ok (_, rest) => scan engine finish entry tokens = scan engine finish exit rest ∧ stops rest
  | .error error => scan engine finish entry tokens = .error error

/-- An outcome that agrees from the next state on agrees. -/
theorem Follows.of_scan {α : Type} {entry middle exit : State} {stops : List Token → Prop}
    {tokens next : List Token} {outcome : Except SelectorError (α × List Token)}
    (moves : scan engine finish entry tokens = scan engine finish middle next)
    (follows : Follows engine finish middle exit stops next outcome) :
    Follows engine finish entry exit stops tokens outcome := by
  cases outcome with
  | ok result => exact ⟨moves.trans follows.1, follows.2⟩
  | error error => exact moves.trans follows

/-! ### Paths -/

/-- Names and points alternate between two states. -/
structure Names (point name : State) : Prop where
  dot : name.next? .dot = some point
  name : ∀ text, point.next? (.name text) = some name
  other : ∀ kind, (∀ text, kind ≠ .name text) → point.next? kind = none
  isOpen : point.isFinal = false

theorem names_field : Names .beforeName .afterAtom where
  dot := rfl
  name _ := rfl
  other kind noName := by cases kind <;> first | rfl | exact absurd rfl (noName _)
  isOpen := rfl

theorem names_key : Names .beforeKey .afterKey where
  dot := rfl
  name _ := rfl
  other kind noName := by cases kind <;> first | rfl | exact absurd rfl (noName _)
  isOpen := rfl

theorem names_value : Names .beforeValueName .afterValueName where
  dot := rfl
  name _ := rfl
  other kind noName := by cases kind <;> first | rfl | exact absurd rfl (noName _)
  isOpen := rfl

def NoDot (tokens : List Token) : Prop := nextIs (· == .dot) tokens = false

variable {point name : State}

theorem Names.refuses (names : Names point name) {tokens : List Token}
    (noName : ∀ text position rest, tokens ≠ ⟨.name text, position⟩ :: rest) :
    scan engine finish point tokens = .error (unexpected finish tokens) := by
  refine scan_eq_unexpected (fun _ => names.isOpen) ?_
  rintro ⟨kind, position⟩ rest rfl
  refine names.other kind fun text isName => ?_
  subst isName
  exact noName text position rest rfl

theorem dottedPath_follows (engine : RegexEngine) (finish : Nat) (names : Names point name) (tokens : List Token) :
    Follows engine finish name name NoDot tokens (dottedPath finish tokens) := by
  fun_induction dottedPath finish tokens with
  | case1 position text position' rest segments after inner inductionHypothesis =>
      rw [inner] at inductionHypothesis
      exact .of_scan (scan_cons names.dot rfl) (.of_scan (scan_cons (names.name text) rfl) inductionHypothesis)
  | case2 position text position' rest error inner inductionHypothesis =>
      rw [inner] at inductionHypothesis
      exact .of_scan (scan_cons names.dot rfl) (.of_scan (scan_cons (names.name text) rfl) inductionHypothesis)
  | case3 position rest noName =>
      refine (scan_cons names.dot rfl).trans (names.refuses fun text position' after isName => ?_)
      exact noName text position' after isName
  | case4 tokens _ noDot =>
      refine ⟨rfl, ?_⟩
      cases tokens with
      | nil => rfl
      | cons token rest =>
          refine beq_eq_false_iff_ne.mpr fun isDot => ?_
          obtain ⟨kind, position⟩ := token
          exact noDot position rest (by rw [show kind = .dot from isDot])

theorem namePath_follows (engine : RegexEngine) (finish : Nat) (names : Names point name) (tokens : List Token) :
    Follows engine finish point name NoDot tokens (namePath finish tokens) := by
  unfold namePath
  split
  · rename_i text position rest
    have follows := dottedPath_follows engine finish names rest
    refine .of_scan (scan_cons (names.name text) rfl) ?_
    split
    · rename_i read
      rwa [read] at follows
    · rename_i read
      rwa [read] at follows
  · rename_i noName
    exact names.refuses fun text position rest isName => noName text position rest isName

/-! ### Values and attributes -/

/-- Without a point, a path that is a value is followed as any other value is. -/
theorem scan_afterValueName {tokens : List Token} (noDot : NoDot tokens) :
    scan engine finish .afterValueName tokens = scan engine finish .afterValue tokens := by
  refine scan_congr (fun _ => rfl) ?_
  rintro ⟨kind, position⟩ rest rfl
  cases kind with
  | dot => contradiction
  | _ => rfl

theorem operand_follows (engine : RegexEngine) (finish : Nat) (comparison : Comparison) (tokens : List Token) :
    Follows engine finish (.beforeValue comparison) .afterValue (fun _ => True) tokens
      (operand engine finish comparison tokens) := by
  unfold operand
  split
  · exact ⟨scan_cons rfl rfl, trivial⟩
  · exact ⟨scan_cons rfl rfl, trivial⟩
  · rename_i text position rest
    have follows := dottedPath_follows engine finish names_value rest
    refine .of_scan (scan_cons rfl rfl) ?_
    rw [namePath]
    split
    · rename_i read
      split at read
      · rename_i inner
        obtain ⟨rfl, rfl⟩ := Prod.mk.inj (Except.ok.inj read)
        rw [inner] at follows
        exact ⟨follows.1.trans (scan_afterValueName follows.2), trivial⟩
      · contradiction
    · rename_i read
      split at read
      · contradiction
      · rename_i inner
        obtain rfl := Except.error.inj read
        rwa [inner] at follows
  · rename_i text position rest
    split
    · rename_i isEquality
      exact ⟨scan_cons (if_pos isEquality) rfl, trivial⟩
    · rename_i notEquality
      exact scan_of_none (if_neg notEquality)
  · rename_i source flags position rest
    split
    · rename_i isEquality
      split
      · rename_i checked
        exact ⟨scan_cons (if_pos isEquality) checked, trivial⟩
      · rename_i failed
        exact scan_of_step_error (step_of_unchecked (if_pos isEquality) failed)
    · rename_i notEquality
      exact scan_of_none (if_neg notEquality)
  · rename_i noString noNumber noName noType noRegex
    refine scan_eq_unexpected (fun _ => rfl) ?_
    rintro ⟨kind, position⟩ rest rfl
    cases kind with
    | string text => exact (noString text position rest rfl).elim
    | number value => exact (noNumber value position rest rfl).elim
    | name text => exact (noName text position rest rfl).elim
    | typeName text => exact (noType text position rest rfl).elim
    | regex source flags => exact (noRegex source flags position rest rfl).elim
    | _ => rfl

theorem bracketed_follows (tokens : List Token) :
    Follows engine finish .beforeKey .afterAtom (fun _ => True) tokens
      (bracketed engine finish tokens) := by
  have path := namePath_follows engine finish names_key tokens
  unfold bracketed
  split
  · rename_i read
    rwa [read] at path
  · rename_i read
    rw [read] at path
    exact .of_scan path.1 ⟨scan_cons rfl rfl, trivial⟩
  · rename_i comparison position rest read
    rw [read] at path
    refine .of_scan path.1 (.of_scan (scan_cons rfl rfl) ?_)
    have value := operand_follows engine finish comparison rest
    split
    · rename_i readValue
      rwa [readValue] at value
    · rename_i readValue
      rw [readValue] at value
      exact .of_scan value.1 ⟨scan_cons rfl rfl, trivial⟩
    · rename_i after noBracket readValue
      rw [readValue] at value
      refine value.1.trans (scan_eq_unexpected (fun _ => rfl) ?_)
      rintro ⟨kind, position⟩ rest rfl
      cases kind with
      | rightBracket => exact (noBracket position rest rfl).elim
      | _ => rfl
  · rename_i after noBracket noComparison read
    rw [read] at path
    refine path.1.trans (scan_eq_unexpected (fun _ => rfl) ?_)
    rintro ⟨kind, position⟩ rest rfl
    cases kind with
    | dot => exact absurd path.2 Bool.noConfusion
    | rightBracket => exact (noBracket position rest rfl).elim
    | comparison comparison => exact (noComparison comparison position rest rfl).elim
    | _ => rfl

/-! ### Atoms and sequences -/

def Opens (entry : State) : Prop :=
  ∀ kind, kind.startsAtom = true → entry.next? kind = State.ofAtomStart? kind

theorem opens_beforeSequence : Opens .beforeSequence := by
  intro kind starts
  cases kind <;> first | rfl | contradiction

theorem opens_afterMark : Opens .afterMark := fun _ _ => rfl

theorem opens_afterAtom : Opens .afterAtom := by
  intro kind starts
  cases kind <;> first | rfl | contradiction

theorem ofAtomStart?_eq_none {kind : TokenKind} (starts : kind.startsAtom = false) :
    State.ofAtomStart? kind = none := by
  cases kind <;> first | rfl | contradiction

theorem atom_follows (engine : RegexEngine) (finish : Nat) {entry : State} (opens : Opens entry)
    {tokens : List Token} (starts : nextIs TokenKind.startsAtom tokens = true) :
    Follows engine finish entry .afterAtom (fun _ => True) tokens (atom engine finish tokens) := by
  have moves : ∀ {kind : TokenKind} {position : Nat} {rest : List Token} {next : State},
      kind.startsAtom = true → State.ofAtomStart? kind = some next →
        checkToken engine ⟨kind, position⟩ = .ok () →
          scan engine finish entry (⟨kind, position⟩ :: rest) = scan engine finish next rest :=
    fun startsHere isNext checked => scan_cons ((opens _ startsHere).trans isNext) checked
  unfold atom
  split
  · exact ⟨moves rfl rfl rfl, trivial⟩
  · exact .of_scan (moves rfl rfl rfl) ⟨scan_cons rfl rfl, trivial⟩
  · rename_i rest noName
    refine (moves rfl rfl rfl).trans (names_field.refuses fun text position after isName => ?_)
    exact noName text position after isName
  · exact ⟨moves rfl rfl rfl, trivial⟩
  · rename_i text position rest
    have follows := dottedPath_follows engine finish names_field rest
    refine .of_scan (moves rfl rfl rfl) (.of_scan (scan_cons rfl rfl) ?_)
    split
    · rename_i read
      rw [read] at follows
      exact ⟨follows.1, trivial⟩
    · rename_i read
      rwa [read] at follows
  · rename_i rest noName
    refine (moves rfl rfl rfl).trans (names_field.refuses fun text position after isName => ?_)
    exact noName text position after isName
  · exact .of_scan (moves rfl rfl rfl) (bracketed_follows _)
  · rename_i noStar _ noHash noName _ noDot noBracket
    cases tokens with
    | nil => contradiction
    | cons token rest =>
        obtain ⟨kind, position⟩ := token
        cases kind with
        | star => exact (noStar position rest rfl).elim
        | hash => exact (noHash position rest rfl).elim
        | name text => exact (noName text position rest rfl).elim
        | dot => exact (noDot position rest rfl).elim
        | leftBracket => exact (noBracket position rest rfl).elim
        | _ => contradiction

def NoAtom (tokens : List Token) : Prop := nextIs TokenKind.startsAtom tokens = false

theorem atoms_follows (engine : RegexEngine) (finish : Nat) (tokens : List Token) :
    ∀ {entry : State}, Opens entry → (NoAtom tokens → entry = .afterAtom) →
      Follows engine finish entry .afterAtom NoAtom tokens (atoms engine finish tokens) := by
  fun_induction atoms engine finish tokens with
  | case1 tokens starts error read =>
      intro entry opens _
      have first := atom_follows engine finish opens starts
      rwa [read] at first
  | case2 tokens starts condition rest read error further inductionHypothesis =>
      intro entry opens _
      have first := atom_follows engine finish opens starts
      rw [read] at first
      have others := inductionHypothesis opens_afterAtom fun _ => rfl
      rw [further] at others
      exact .of_scan first.1 others
  | case3 tokens starts condition rest read others after further inductionHypothesis =>
      intro entry opens _
      have first := atom_follows engine finish opens starts
      rw [read] at first
      have others := inductionHypothesis opens_afterAtom fun _ => rfl
      rw [further] at others
      exact .of_scan first.1 others
  | case4 tokens noStart =>
      intro entry _ isAfterAtom
      have noAtom : NoAtom tokens := Bool.eq_false_iff.mpr noStart
      obtain rfl := isAfterAtom noAtom
      exact ⟨rfl, noAtom⟩

theorem ne_nil_of_atoms {tokens rest : List Token} {found : List Selector}
    (starts : nextIs TokenKind.startsAtom tokens = true)
    (read : atoms engine finish tokens = .ok (found, rest)) : found ≠ [] := by
  rw [atoms, if_pos starts] at read
  split at read
  · contradiction
  · split at read
    · contradiction
    · rw [← (Prod.mk.inj (Except.ok.inj read)).1]
      exact List.cons_ne_nil _ _

/-- Where an atom has to follow, a sequence without its mark is read as the automaton reads it. -/
theorem unmarked_follows {entry : State} (opens : Opens entry) (isOpen : entry.isFinal = false)
    (marked : Bool) {tokens : List Token}
    (refuses : ∀ token rest, tokens = token :: rest → token.kind.startsAtom = false →
      entry.next? token.kind = none) :
    Follows engine finish entry .afterAtom NoAtom tokens
      (match atoms engine finish tokens with
        | .error error => .error error
        | .ok (found, after) =>
            match ofAtoms marked found with
            | none => .error (unexpected finish after)
            | some selector => .ok (selector, after)) := by
  by_cases starts : nextIs TokenKind.startsAtom tokens = true
  · have follows := atoms_follows engine finish tokens opens
      fun noAtom => absurd starts (Bool.eq_false_iff.mp noAtom)
    split
    · rename_i read
      rwa [read] at follows
    · rename_i found after read
      rw [read] at follows
      have nonempty := ne_nil_of_atoms starts read
      split
      · rename_i isNone
        unfold ofAtoms at isNone
        split at isNone
        · exact absurd rfl nonempty
        · contradiction
        · contradiction
      · exact follows
  · have read : atoms engine finish tokens = .ok ([], tokens) := by rw [atoms, if_neg starts]
    simp only [read, ofAtoms]
    refine scan_eq_unexpected (fun _ => isOpen) fun token rest isHere => ?_
    subst isHere
    exact refuses token rest rfl (Bool.eq_false_iff.mpr starts)

def NoSpace (tokens : List Token) : Prop := nextIs (· == .space) tokens = false

theorem sequence_follows (engine : RegexEngine) (finish : Nat) {tokens : List Token} (noSpace : NoSpace tokens) :
    Follows engine finish .beforeSequence .afterAtom NoAtom tokens
      (SelectorParser.sequence engine finish tokens) := by
  unfold SelectorParser.sequence
  by_cases marked : nextIs (· == .bang) tokens = true
  · cases tokens with
    | nil => contradiction
    | cons token rest =>
        obtain ⟨kind, position⟩ := token
        obtain rfl : kind = .bang := beq_iff_eq.mp marked
        exact .of_scan (scan_cons rfl rfl)
          (unmarked_follows opens_afterMark rfl true fun _ _ _ noAtom => ofAtomStart?_eq_none noAtom)
  · simp only [Bool.eq_false_iff.mpr marked]
    refine unmarked_follows opens_beforeSequence rfl false ?_
    rintro ⟨kind, position⟩ rest rfl noAtom
    cases kind with
    | space => contradiction
    | bang => exact absurd rfl marked
    | _ => exact ofAtomStart?_eq_none noAtom

/-! ### Layout -/

theorem noSpace_skipSpace (tokens : List Token) : NoSpace (skipSpace tokens) := by
  induction tokens with
  | nil => rfl
  | cons token rest inductionHypothesis =>
      rw [skipSpace, List.dropWhile_cons]
      split
      · exact inductionHypothesis
      · rename_i notSpace
        exact Bool.eq_false_iff.mpr notSpace

theorem skipSpace_of_noSpace {tokens : List Token} (noSpace : NoSpace tokens) :
    skipSpace tokens = tokens := by
  cases tokens with
  | nil => rfl
  | cons token rest => exact List.dropWhile_cons_of_neg (Bool.eq_false_iff.mp noSpace)

theorem scan_skipSpace {state : State} (stays : state.next? .space = some state) (tokens : List Token) :
    scan engine finish state tokens = scan engine finish state (skipSpace tokens) := by
  induction tokens with
  | nil => rfl
  | cons token rest inductionHypothesis =>
      rw [skipSpace, List.dropWhile_cons]
      split
      · rename_i isSpace
        obtain ⟨kind, position⟩ := token
        obtain rfl : kind = .space := beq_iff_eq.mp isSpace
        exact (scan_cons stays rfl).trans inductionHypothesis
      · rfl

/-- The state after an atom and the layout that comes next. -/
def afterGap (tokens : List Token) : State :=
  if nextIs (· == .space) tokens then .afterLayout else .afterAtom

theorem scan_afterGap (tokens : List Token) :
    scan engine finish .afterAtom tokens = scan engine finish (afterGap tokens) (skipSpace tokens) := by
  by_cases isSpace : nextIs (· == .space) tokens = true
  · rw [afterGap, if_pos isSpace]
    cases tokens with
    | nil => contradiction
    | cons token rest =>
        obtain ⟨kind, position⟩ := token
        obtain rfl : kind = .space := beq_iff_eq.mp isSpace
        have skipped : skipSpace (⟨.space, position⟩ :: rest) = skipSpace rest := rfl
        rw [scan_cons rfl rfl, skipped]
        exact scan_skipSpace rfl rest
  · rw [afterGap, if_neg isSpace, skipSpace_of_noSpace (Bool.eq_false_iff.mpr isSpace)]

theorem next?_afterGap (tokens : List Token) {kind : TokenKind} (isJoint : kind = .greater ∨ kind = .comma) :
    (afterGap tokens).next? kind = some .beforeSequence := by
  unfold afterGap
  rcases isJoint with rfl | rfl <;> split <;> rfl

/-! ### Selectors and alternatives -/

theorem combinator?_follows (engine : RegexEngine) (finish : Nat) {tokens rest : List Token}
    {combinator : Combinator} (read : combinator? tokens = some (combinator, rest)) :
    scan engine finish .afterAtom tokens = scan engine finish .beforeSequence rest ∧ NoSpace rest := by
  unfold combinator? at read
  split at read
  · rename_i position after isGreater
    obtain ⟨rfl, rfl⟩ := Prod.mk.inj (Option.some.inj read)
    refine ⟨?_, noSpace_skipSpace after⟩
    rw [scan_afterGap, isGreater, scan_cons (next?_afterGap tokens (.inl rfl)) rfl]
    exact scan_skipSpace rfl after
  · split at read
    · rename_i conditions
      obtain ⟨rfl, rfl⟩ := Prod.mk.inj (Option.some.inj read)
      rw [Bool.and_eq_true] at conditions
      refine ⟨?_, noSpace_skipSpace tokens⟩
      rw [scan_afterGap, afterGap, if_pos conditions.1]
      refine scan_congr (fun isEnd => ?_) ?_
      · rw [isEnd] at conditions
        exact absurd conditions.2 Bool.noConfusion
      · intro token rest isHere
        rw [isHere] at conditions
        obtain ⟨kind, position⟩ := token
        cases kind <;> first | rfl | exact absurd conditions.2 Bool.noConfusion
    · contradiction

/-- No combinator and no atom comes next. -/
structure Settled (tokens : List Token) : Prop where
  noAtom : NoAtom tokens
  noCombinator : combinator? tokens = none

theorem selectorFrom_follows (left : Selector) (tokens : List Token) (noAtom : NoAtom tokens) :
    Follows engine finish .afterAtom .afterAtom Settled tokens
      (selectorFrom engine finish left tokens) := by
  fun_induction selectorFrom engine finish left tokens with
  | case1 left tokens noCombinator => exact ⟨rfl, noAtom, noCombinator⟩
  | case2 left tokens combinator rest joint error read =>
      obtain ⟨moves, noSpace⟩ := combinator?_follows engine finish joint
      have right := sequence_follows engine finish noSpace
      rw [read] at right
      exact moves.trans right
  | case3 left tokens combinator rest joint right after read inductionHypothesis =>
      obtain ⟨moves, noSpace⟩ := combinator?_follows engine finish joint
      have follows := sequence_follows engine finish noSpace
      rw [read] at follows
      exact .of_scan (moves.trans follows.1) (inductionHypothesis follows.2)

theorem selector_follows (engine : RegexEngine) (finish : Nat) {tokens : List Token} (noSpace : NoSpace tokens) :
    Follows engine finish .beforeSequence .afterAtom Settled tokens (selector engine finish tokens) := by
  have first := sequence_follows engine finish noSpace
  unfold selector
  split
  · rename_i read
    rwa [read] at first
  · rename_i left rest read
    rw [read] at first
    exact .of_scan first.1 (selectorFrom_follows left rest first.2)

theorem afterComma?_follows (engine : RegexEngine) (finish : Nat) {tokens rest : List Token}
    (read : afterComma? tokens = some rest) :
    scan engine finish .afterAtom tokens = scan engine finish .beforeSequence rest ∧ NoSpace rest := by
  unfold afterComma? at read
  split at read
  · rename_i position after isComma
    obtain rfl := Option.some.inj read
    refine ⟨?_, noSpace_skipSpace after⟩
    rw [scan_afterGap, isComma, scan_cons (next?_afterGap tokens (.inr rfl)) rfl]
    exact scan_skipSpace rfl after
  · contradiction

/-- Nothing that goes on with a selector comes next. -/
structure Finished (tokens : List Token) : Prop extends Settled tokens where
  noComma : afterComma? tokens = none

theorem alternativesFrom_follows (engine : RegexEngine) (finish : Nat) (tokens : List Token)
    (settled : Settled tokens) :
    Follows engine finish .afterAtom .afterAtom Finished tokens
      (alternativesFrom engine finish tokens) := by
  fun_induction alternativesFrom engine finish tokens with
  | case1 tokens noComma => exact ⟨rfl, settled, noComma⟩
  | case2 tokens rest comma error read =>
      obtain ⟨moves, noSpace⟩ := afterComma?_follows engine finish comma
      have first := selector_follows engine finish noSpace
      rw [read] at first
      exact moves.trans first
  | case3 tokens rest comma first after read error further inductionHypothesis =>
      obtain ⟨moves, noSpace⟩ := afterComma?_follows engine finish comma
      have follows := selector_follows engine finish noSpace
      rw [read] at follows
      have others := inductionHypothesis follows.2
      rw [further] at others
      exact .of_scan (moves.trans follows.1) others
  | case4 tokens rest comma first after read others last further inductionHypothesis =>
      obtain ⟨moves, noSpace⟩ := afterComma?_follows engine finish comma
      have follows := selector_follows engine finish noSpace
      rw [read] at follows
      have rest := inductionHypothesis follows.2
      rw [further] at rest
      exact .of_scan (moves.trans follows.1) rest

theorem alternatives_follows (engine : RegexEngine) (finish : Nat) {tokens : List Token} (noSpace : NoSpace tokens) :
    Follows engine finish .beforeSequence .afterAtom Finished tokens
      (alternatives engine finish tokens) := by
  have first := selector_follows engine finish noSpace
  unfold alternatives
  split
  · rename_i read
    rwa [read] at first
  · rename_i selector rest read
    rw [read] at first
    have others := alternativesFrom_follows engine finish rest first.2
    refine .of_scan first.1 ?_
    split
    · rename_i further
      rwa [further] at others
    · rename_i further
      rw [further] at others
      exact others
    · rename_i further
      rw [further] at others
      exact others

/-- After the last alternative, the next token that is no layout cannot follow. -/
theorem next?_afterGap_of_finished {tokens : List Token} (finished : Finished tokens) {kind : TokenKind}
    {position : Nat} {rest : List Token} (surplus : skipSpace tokens = ⟨kind, position⟩ :: rest) :
    (afterGap tokens).next? kind = none := by
  have noSpace : NoSpace (skipSpace tokens) := noSpace_skipSpace tokens
  have noCombinator := finished.noCombinator
  have noComma := finished.noComma
  rw [surplus] at noSpace
  unfold combinator? at noCombinator
  unfold afterComma? at noComma
  rw [surplus] at noCombinator noComma
  by_cases isSpace : nextIs (· == .space) tokens = true
  · -- Layout has been read, so every token that starts a sequence would have been joined.
    rw [afterGap, if_pos isSpace]
    cases kind with
    | space | greater | comma => contradiction
    | bang | star | hash | name | dot | leftBracket =>
        rw [isSpace] at noCombinator
        contradiction
    | _ => rfl
  · -- The last atom ends here, so every token that starts an atom would have been read.
    rw [afterGap, if_neg isSpace]
    have noAtom : NoAtom tokens := finished.noAtom
    rw [← skipSpace_of_noSpace (Bool.eq_false_iff.mpr isSpace), surplus] at noAtom
    have noStart : kind.startsAtom = false := noAtom
    cases kind with
    | space | greater | comma => contradiction
    | _ => exact ofAtomStart?_eq_none noStart

/-- What is left after the last alternative, if it is not layout alone, is refused at its first token that is
no layout. -/
theorem scan_surplus {tokens : List Token} (finished : Finished tokens) (present : skipSpace tokens ≠ []) :
    scan engine finish .afterAtom tokens = .error (unexpected finish (skipSpace tokens)) := by
  obtain ⟨⟨kind, position⟩, rest, surplus⟩ := List.exists_cons_of_ne_nil present
  rw [scan_afterGap, surplus]
  exact scan_of_none (next?_afterGap_of_finished finished surplus)

theorem scan_layout {tokens : List Token} (layout : skipSpace tokens = []) :
    scan engine finish .afterAtom tokens = .ok () := by
  rw [scan_afterGap, layout]
  unfold afterGap
  split <;> rfl

/-- But for layout alone, the parser and the automaton come to the same verdict. -/
theorem verdict_eq_scan (engine : RegexEngine) (finish : Nat) {tokens : List Token}
    (present : skipSpace tokens ≠ []) :
    (Selector.ofTokens engine finish tokens).map (fun _ => ())
      = scan engine finish .beforeSequence tokens := by
  rw [scan_skipSpace rfl tokens]
  have follows := alternatives_follows engine finish (noSpace_skipSpace tokens)
  unfold Selector.ofTokens
  split
  · rename_i nothing
    exact absurd nothing present
  · split
    · rename_i read
      rw [read] at follows
      exact follows.symm
    · rename_i selector rest read
      rw [read] at follows
      rw [follows.1]
      split
      · rename_i layout
        exact (scan_layout layout).symm
      · rename_i surplus
        exact (scan_surplus follows.2 surplus).symm

/-! ### Token lists that can be completed -/

/-- Some continuation of the tokens makes a selector. -/
def Viable (engine : RegexEngine) (tokens : List Token) : Prop :=
  ∃ further finish selector, Selector.ofTokens engine finish (tokens ++ further) = .ok selector

theorem ofTokens_layout {tokens : List Token} (layout : skipSpace tokens = []) :
    Selector.ofTokens engine finish tokens = .error ⟨.emptySelector, 0, none⟩ := by
  unfold Selector.ofTokens
  rw [layout]

theorem accepted_iff_scan {tokens : List Token} :
    (∃ selector, Selector.ofTokens engine finish tokens = .ok selector) ↔
      scan engine finish .beforeSequence tokens = .ok () := by
  by_cases layout : skipSpace tokens = []
  · rw [ofTokens_layout layout, scan_skipSpace rfl tokens, layout]
    constructor
    · rintro ⟨_, accepted⟩
      contradiction
    · intro accepted
      contradiction
  · rw [← verdict_eq_scan engine finish layout]
    cases Selector.ofTokens engine finish tokens with
    | ok selector => exact ⟨fun _ => rfl, fun _ => ⟨selector, rfl⟩⟩
    | error error =>
        constructor
        · rintro ⟨_, accepted⟩
          contradiction
        · intro accepted
          contradiction

/-- The token lists that can be completed are those that the automaton can run through. -/
theorem viable_iff_run {tokens : List Token} :
    Viable engine tokens ↔ ∃ last, run engine .beforeSequence tokens = .ok last := by
  simp only [Viable, accepted_iff_scan, scan, run_append]
  constructor
  · rintro ⟨further, finish, accepted⟩
    cases reached : run engine .beforeSequence tokens with
    | ok last => exact ⟨last, rfl⟩
    | error error =>
        rw [reached] at accepted
        contradiction
  · rintro ⟨last, reached⟩
    refine ⟨last.completion.map (⟨·, 0⟩), 0, ?_⟩
    rw [reached]
    exact scan_completion last

/-- Where a parse fails. Either there is nothing but layout; or no selector may end at the end of the tokens, though
some continuation makes one; or the error is raised for the first token after which no continuation makes one. -/
inductive RefusedAt (engine : RegexEngine) (finish : Nat) : List Token → SelectorError → Prop where
  | layout {tokens : List Token} : (∀ token ∈ tokens, token.kind = .space) →
      RefusedAt engine finish tokens ⟨.emptySelector, 0, none⟩
  | finish {tokens : List Token} : Viable engine tokens →
      RefusedAt engine finish tokens ⟨.unexpectedEnd, finish, none⟩
  | token {before after : List Token} {token : Token} {error : SelectorError} :
      RaisedAt engine token error → Viable engine before → ¬Viable engine (before ++ [token]) →
        RefusedAt engine finish (before ++ token :: after) error

theorem RefusedAt.viable_of_unexpectedEnd {tokens : List Token} {error : SelectorError}
    (refused : RefusedAt engine finish tokens error) (atEnd : error.cause = .unexpectedEnd) :
    Viable engine tokens := by
  cases refused with
  | layout => contradiction
  | finish viable => exact viable
  | token raised => cases raised <;> contradiction

/-- A run that fails does so at the first token after which no continuation makes a selector. -/
theorem refusedAt_of_run {tokens : List Token} {error : SelectorError}
    (failed : run engine .beforeSequence tokens = .error error) : RefusedAt engine finish tokens error := by
  obtain ⟨before, token, after, last, rfl, reached, refused⟩ := exists_refused_of_run failed
  refine .token (raisedAt_of_step refused) (viable_iff_run.mpr ⟨last, reached⟩) fun viable => ?_
  obtain ⟨next, ran⟩ := viable_iff_run.mp viable
  rw [run_append, reached] at ran
  have moved : run engine last [token] = .ok next := ran
  rw [run, List.foldlM_cons, refused] at moved
  contradiction

/-- A token list that the automaton runs through is refused at its end only. -/
theorem refusedAt_of_settle {tokens : List Token} {last : State} {error : SelectorError}
    (reached : run engine .beforeSequence tokens = .ok last)
    (unsettled : settle finish last = .error error) : RefusedAt engine finish tokens error := by
  rw [settle] at unsettled
  split at unsettled
  · contradiction
  · obtain rfl := Except.error.inj unsettled
    exact .finish (viable_iff_run.mpr ⟨last, reached⟩)

/-- The parser fails at the first token after which no continuation makes a selector. It complains about the end
only if more tokens could still make one. -/
theorem refusedAt_of_ofTokens {tokens : List Token} {error : SelectorError}
    (rejected : Selector.ofTokens engine finish tokens = .error error) :
    RefusedAt engine finish tokens error ∧ (error.cause = .unexpectedEnd → Viable engine tokens) := by
  have refused : RefusedAt engine finish tokens error := by
    by_cases layout : skipSpace tokens = []
    · rw [ofTokens_layout layout] at rejected
      obtain rfl := Except.error.inj rejected
      exact .layout fun token present =>
        beq_iff_eq.mp (List.dropWhile_eq_nil_iff.mp layout token present)
    · have verdict := verdict_eq_scan engine finish layout
      rw [rejected, scan] at verdict
      cases reached : run engine .beforeSequence tokens with
      | ok last =>
          rw [reached] at verdict
          exact refusedAt_of_settle reached verdict.symm
      | error other =>
          rw [reached] at verdict
          obtain rfl := Except.error.inj verdict
          exact refusedAt_of_run reached
  exact ⟨refused, refused.viable_of_unexpectedEnd⟩

/-- A child combinator with nothing on its right can be completed. A flag that is none cannot. -/
theorem refusedAt_of_ofTokens_dangling :
    Viable .standard [⟨.name "A", 0⟩, ⟨.space, 1⟩, ⟨.greater, 2⟩] ∧
      RefusedAt .standard 9 [⟨.leftBracket, 0⟩, ⟨.name "b", 1⟩, ⟨.comparison .equal, 2⟩,
        ⟨.regex "c" "z", 3⟩, ⟨.rightBracket, 8⟩] ⟨.unknownRegexFlag 'z', 3, some "/c/z"⟩ := by
  have dangling : Selector.ofTokens .standard 3 [⟨.name "A", 0⟩, ⟨.space, 1⟩, ⟨.greater, 2⟩]
      = .error ⟨.unexpectedEnd, 3, none⟩ := by
    with_unfolding_all rfl
  refine ⟨(refusedAt_of_ofTokens dangling).2 rfl, (refusedAt_of_ofTokens ?_).1⟩
  with_unfolding_all rfl

end TreeLint.SelectorAutomaton
