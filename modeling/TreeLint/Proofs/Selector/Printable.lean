import TreeLint.Proofs.Selector.Lexical
import TreeLint.Proofs.Selector.Parsed

/-!
Contract: the shape of the selectors that texts denote.

Owns:
- `Selector.Printable`: names, literals and values that some text can spell, sequences of atoms in chains that
  are nested to the left, and alternatives at the top only;
- the proof that every parsed selector is printable. It follows the derivation of the tokens and their contexts
  together.

Does not own: whether the text of a printable selector reads back to it.
-/

set_option autoImplicit false

namespace TreeLint

/-- A value that some text can spell after the operator. -/
def Operand.Printable (engine : RegexEngine) (comparison : Comparison) : Operand → Prop
  | .string _ => True
  | .number value => value ≠ .nan
  | .typeName name => comparison.isEquality = true ∧ IsTypeName name
  | .regex source letters =>
      comparison.isEquality = true ∧ IsSource source ∧
        (∀ flag ∈ letters.toList, flag ∈ SelectorGrammar.flags) ∧
        engine.check source letters = .ok ()

def Atom.Printable (engine : RegexEngine) : Atom → Prop
  | .identifier name => LexerMode.selector.Names name
  | .wildcard => True
  | .field path => path ≠ [] ∧ ∀ name ∈ path, LexerMode.selector.Names name
  | .attribute path test =>
      path ≠ [] ∧ (∀ name ∈ path, LexerMode.attribute.Names name) ∧
        ∀ inner, test = some inner → inner.operand.Printable engine inner.comparison

namespace Selector

inductive PrintableSequence (engine : RegexEngine) : Selector → Prop where
  | intro {conditions : List Atom} (marked : Bool) :
      conditions ≠ [] → (∀ condition ∈ conditions, condition.Printable engine) →
        PrintableSequence engine (ofSequence marked conditions)

inductive PrintableChain (engine : RegexEngine) : Selector → Prop where
  | sequence {only : Selector} : PrintableSequence engine only → PrintableChain engine only
  | joined {left right : Selector} (combinator : Combinator) :
      PrintableChain engine left → PrintableSequence engine right →
        PrintableChain engine (.joined false combinator left right)

/-- A selector whose parts texts can spell. -/
inductive Printable (engine : RegexEngine) : Selector → Prop where
  | chain {only : Selector} : PrintableChain engine only → Printable engine only
  | union {first : Selector} {others : List Selector} :
      others ≠ [] → PrintableChain engine first →
        (∀ other ∈ others, PrintableChain engine other) →
        Printable engine (.union false (first :: others))

end Selector

/-! ### Parsed selectors are printable -/

namespace SelectorGrammar

variable {engine : RegexEngine} {kinds rest : List TokenKind}

theorem fits_of_layout (layout : Layout kinds)
    (fits : LexerMode.selector.Fits (kinds ++ rest)) : LexerMode.selector.Fits rest := by
  induction kinds with
  | nil => exact fits
  | cons kind others inductionHypothesis =>
      have isSpace := layout kind List.mem_cons_self
      subst isSpace
      exact inductionHypothesis (fun other member => layout other (List.mem_cons_of_mem _ member))
        fits.2

/-- Names and points leave the context as it is, except directly after an operator. -/
theorem after_name {mode : LexerMode} (steady : mode ≠ .operand) (name : String) :
    mode.after (.name name) = mode ∧ mode.after .dot = mode := by
  match mode with
  | .selector => exact ⟨rfl, rfl⟩
  | .attribute => exact ⟨rfl, rfl⟩
  | .operand => exact absurd rfl steady

theorem Segments.printable {mode : LexerMode} (steady : mode ≠ .operand) {names : List String}
    (segments : Segments kinds names) (fits : mode.Fits (kinds ++ rest)) :
    (∀ name ∈ names, mode.Names name) ∧ mode.Fits rest := by
  induction segments with
  | nil => exact ⟨by simp, fits⟩
  | @cons name kinds names _ inductionHypothesis =>
      obtain ⟨afterName, afterDot⟩ := after_name steady name
      rcases fits with ⟨_, isName, further⟩
      rw [afterDot] at isName further
      rw [afterName] at further
      obtain ⟨others, last⟩ := inductionHypothesis further
      exact ⟨List.forall_mem_cons.mpr ⟨isName, others⟩, last⟩

theorem Path.printable {path : List String} (derived : Path kinds path)
    (fits : LexerMode.attribute.Fits (kinds ++ rest)) :
    path ≠ [] ∧ (∀ name ∈ path, LexerMode.attribute.Names name) ∧
      LexerMode.attribute.Fits rest := by
  cases derived with
  | intro segments =>
      rcases fits with ⟨isName, further⟩
      obtain ⟨others, last⟩ := segments.printable (fun isOperand => LexerMode.noConfusion isOperand)
        further
      exact ⟨List.cons_ne_nil _ _, List.forall_mem_cons.mpr ⟨isName, others⟩, last⟩

theorem Value.printable {comparison : Comparison} {operand : Operand}
    (derived : Value engine comparison kinds operand)
    (fits : LexerMode.operand.Fits (kinds ++ rest)) :
    operand.Printable engine comparison ∧ LexerMode.attribute.Fits rest := by
  cases derived with
  | string => exact ⟨trivial, fits.2⟩
  | number => exact ⟨fits.1, fits.2⟩
  | path path =>
      cases path with
      | intro segments =>
          obtain ⟨_, last⟩ := segments.printable
            (fun isOperand => LexerMode.noConfusion isOperand) fits.2
          exact ⟨trivial, last⟩
  | typeName isEquality =>
      exact ⟨⟨SelectorParser.isEquality_iff.mpr isEquality, fits.1⟩, fits.2⟩
  | regex isEquality known compiles =>
      exact ⟨⟨SelectorParser.isEquality_iff.mpr isEquality, fits.1, known, compiles⟩, fits.2⟩

theorem AtomOf.printable {condition : Atom} (derived : AtomOf engine kinds condition)
    (fits : LexerMode.selector.Fits (kinds ++ rest)) :
    condition.Printable engine ∧ LexerMode.selector.Fits rest := by
  cases derived with
  | wildcard => exact ⟨trivial, fits.2⟩
  | identifier => exact ⟨fits.1, fits.2⟩
  | hashed => exact ⟨fits.2.1, fits.2.2⟩
  | present path =>
      rw [List.cons_append, List.append_assoc] at fits
      obtain ⟨nonempty, names, last⟩ := path.printable fits.2
      exact ⟨⟨nonempty, names, fun _ isTest => nomatch isTest⟩, last.2⟩
  | tested path value =>
      rw [List.cons_append, List.append_assoc, List.cons_append, List.append_assoc] at fits
      obtain ⟨nonempty, names, inner⟩ := path.printable fits.2
      obtain ⟨isValue, last⟩ := value.printable inner.2
      refine ⟨⟨nonempty, names, ?_⟩, last.2⟩
      rintro _ ⟨⟩
      exact isValue
  | field segments =>
      obtain ⟨names, last⟩ := segments.printable
        (fun isOperand => LexerMode.noConfusion isOperand) fits
      exact ⟨⟨List.cons_ne_nil _ _, names⟩, last⟩

theorem Atoms.printable {conditions : List Atom} (derived : Atoms engine kinds conditions) :
    ∀ {rest : List TokenKind}, LexerMode.selector.Fits (kinds ++ rest) →
      conditions ≠ [] ∧ (∀ condition ∈ conditions, condition.Printable engine) ∧
        LexerMode.selector.Fits rest := by
  induction derived with
  | one first =>
      intro rest fits
      obtain ⟨isPrintable, last⟩ := first.printable fits
      exact ⟨List.cons_ne_nil _ _, by simpa using isPrintable, last⟩
  | cons first _ _ inductionHypothesis =>
      intro rest fits
      rw [List.append_assoc] at fits
      obtain ⟨isPrintable, further⟩ := first.printable fits
      obtain ⟨_, others, last⟩ := inductionHypothesis further
      exact ⟨List.cons_ne_nil _ _, List.forall_mem_cons.mpr ⟨isPrintable, others⟩, last⟩

theorem fits_of_mark {subject : Bool} (fits : LexerMode.selector.Fits (mark subject ++ rest)) :
    LexerMode.selector.Fits rest := by
  cases subject with
  | true => exact fits.2
  | false => exact fits

theorem Sequence.printable {selector : Selector} (derived : Sequence engine kinds selector)
    (fits : LexerMode.selector.Fits (kinds ++ rest)) :
    selector.PrintableSequence engine ∧ LexerMode.selector.Fits rest := by
  cases derived with
  | @single _ condition subject first =>
      rw [List.append_assoc] at fits
      obtain ⟨isPrintable, last⟩ := first.printable (fits_of_mark fits)
      have single : ∀ other ∈ [condition], other.Printable engine := by simpa using isPrintable
      exact ⟨.intro subject (List.cons_ne_nil _ _) single, last⟩
  | @several _ conditions subject atoms atLeastTwo =>
      rw [List.append_assoc] at fits
      obtain ⟨nonempty, allPrintable, last⟩ := atoms.printable (fits_of_mark fits)
      rw [← Selector.ofSequence_of_two_le subject atLeastTwo]
      exact ⟨.intro subject nonempty allPrintable, last⟩

theorem Links.printable {links : List (Combinator × Selector)}
    (derived : Links engine kinds links) :
    ∀ {first : Selector} {rest : List TokenKind}, first.PrintableChain engine →
      LexerMode.selector.Fits (kinds ++ rest) →
        (joinAll first links).PrintableChain engine ∧ LexerMode.selector.Fits rest := by
  induction derived with
  | nil => exact fun first fits => ⟨first, fits⟩
  | child layoutBefore layoutAfter right _ inductionHypothesis =>
      intro first rest isChain fits
      simp only [List.append_assoc, List.cons_append] at fits
      have afterGreater := (fits_of_layout layoutBefore fits).2
      obtain ⟨isSequence, further⟩ := right.printable (fits_of_layout layoutAfter afterGreater)
      exact inductionHypothesis (.joined .child isChain isSequence) further
  | descendant layout _ right _ inductionHypothesis =>
      intro first rest isChain fits
      simp only [List.append_assoc] at fits
      obtain ⟨isSequence, further⟩ := right.printable (fits_of_layout layout fits)
      exact inductionHypothesis (.joined .descendant isChain isSequence) further

theorem Chain.printable {selector : Selector} (derived : Chain engine kinds selector)
    (fits : LexerMode.selector.Fits (kinds ++ rest)) :
    selector.PrintableChain engine ∧ LexerMode.selector.Fits rest := by
  cases derived with
  | intro first links =>
      rw [List.append_assoc] at fits
      obtain ⟨isSequence, further⟩ := first.printable fits
      exact links.printable (.sequence isSequence) further

theorem Further.printable {others : List Selector} (derived : Further engine kinds others) :
    ∀ {rest : List TokenKind}, LexerMode.selector.Fits (kinds ++ rest) →
      (∀ other ∈ others, other.PrintableChain engine) ∧ LexerMode.selector.Fits rest := by
  induction derived with
  | nil => exact fun fits => ⟨by simp, fits⟩
  | cons layoutBefore layoutAfter first _ inductionHypothesis =>
      intro rest fits
      simp only [List.append_assoc, List.cons_append] at fits
      have afterComma := (fits_of_layout layoutBefore fits).2
      obtain ⟨isChain, further⟩ := first.printable (fits_of_layout layoutAfter afterComma)
      obtain ⟨others, last⟩ := inductionHypothesis further
      exact ⟨List.forall_mem_cons.mpr ⟨isChain, others⟩, last⟩

theorem Derives.printable {selector : Selector} (derived : Derives engine kinds selector)
    (fits : LexerMode.selector.Fits kinds) : selector.Printable engine := by
  cases derived with
  | @intro _ _ _ _ first others layoutBefore chain further _ =>
      obtain ⟨isChain, afterFirst⟩ := chain.printable (fits_of_layout layoutBefore fits)
      obtain ⟨areChains, _⟩ := further.printable afterFirst
      cases others with
      | nil => exact .chain isChain
      | cons other others => exact .union (List.cons_ne_nil _ _) isChain areChains

end SelectorGrammar

/-- A parsed selector is printable. -/
theorem Selector.printable_of_parse {engine : RegexEngine} {text : String} {selector : Selector}
    (parsed : parse engine text = .ok selector) : selector.Printable engine := by
  obtain ⟨tokens, read, derived⟩ := derives_of_parse parsed
  exact derived.printable (fits_of_ofText read)

end TreeLint
