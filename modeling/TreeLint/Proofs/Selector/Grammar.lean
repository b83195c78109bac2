import TreeLint.Regex.Engine
import TreeLint.Selector.Token

/-!
Contract: the grammar of the selector language, as relations between token kinds and what they denote.

Owns one relation for each rule:

    selectors := ws* selector (ws* ',' ws* selector)* ws*
    selector  := sequence ((ws* '>' ws* | ws+) sequence)*
    sequence  := '!'? atom+
    atom      := '*' | '#'? name | '[' path (operator value)? ']' | ('.' name)+
    path      := name ('.' name)*
    value     := string | number | path | type | regex

A run of fields is as long as it can be, the links of a selector fold to the left, and a type or a regular
expression is a value of the two equality operators only.

Does not own: the parser. No relation here mentions one of its functions.
-/

set_option autoImplicit false

namespace TreeLint

namespace Selector

def ofSequence (marked : Bool) : List Atom → Selector
  | [only] => .atom marked only
  | several => .compound marked (several.map ofAtom)

theorem ofSequence_of_two_le (marked : Bool) {conditions : List Atom}
    (atLeastTwo : 2 ≤ conditions.length) :
    ofSequence marked conditions = .compound marked (conditions.map ofAtom) := by
  unfold ofSequence
  split
  · simp at atLeastTwo
  · rfl

end Selector

namespace SelectorGrammar

/-- Layout, `ws*`. -/
def Layout (kinds : List TokenKind) : Prop := ∀ kind ∈ kinds, kind = .space

/-- Names that each follow a point, `('.' name)*`. -/
inductive Segments : List TokenKind → List String → Prop where
  | nil : Segments [] []
  | cons {name : String} {kinds : List TokenKind} {names : List String} :
      Segments kinds names → Segments (.dot :: .name name :: kinds) (name :: names)

/-- A path, `name ('.' name)*`. -/
inductive Path : List TokenKind → List String → Prop where
  | intro {name : String} {kinds : List TokenKind} {names : List String} :
      Segments kinds names → Path (.name name :: kinds) (name :: names)

def flags : List Char := ['i', 'm', 's', 'u']

inductive Value (engine : RegexEngine) (comparison : Comparison) :
    List TokenKind → Operand → Prop where
  | string {text : String} : Value engine comparison [.string text] (.string text)
  | number {value : Double} : Value engine comparison [.number value] (.number value)
  | path {kinds : List TokenKind} {names : List String} :
      Path kinds names → Value engine comparison kinds (.string (".".intercalate names))
  | typeName {name : String} :
      comparison = .equal ∨ comparison = .notEqual →
        Value engine comparison [.typeName name] (.typeName name)
  | regex {source letters : String} :
      comparison = .equal ∨ comparison = .notEqual → (∀ flag ∈ letters.toList, flag ∈ flags) →
        engine.check source letters = .ok () →
          Value engine comparison [.regex source letters] (.regex source letters)

/-- An atom. A run of fields has at least one field. -/
inductive AtomOf (engine : RegexEngine) : List TokenKind → Atom → Prop where
  | wildcard : AtomOf engine [.star] .wildcard
  | identifier {name : String} : AtomOf engine [.name name] (.identifier name)
  | hashed {name : String} : AtomOf engine [.hash, .name name] (.identifier name)
  | present {kinds : List TokenKind} {path : List String} :
      Path kinds path →
        AtomOf engine (.leftBracket :: (kinds ++ [.rightBracket])) (.attribute path none)
  | tested {kinds value : List TokenKind} {path : List String} {comparison : Comparison}
      {operand : Operand} :
      Path kinds path → Value engine comparison value operand →
        AtomOf engine
          (.leftBracket :: (kinds ++ .comparison comparison :: (value ++ [.rightBracket])))
          (.attribute path (some ⟨comparison, operand⟩))
  | field {kinds : List TokenKind} {name : String} {names : List String} :
      Segments kinds (name :: names) → AtomOf engine kinds (.field (name :: names))

def isField : Atom → Bool
  | .field _ => true
  | _ => false

/-- Atoms, `atom+`. No field follows a run of fields directly. -/
inductive Atoms (engine : RegexEngine) : List TokenKind → List Atom → Prop where
  | one {kinds : List TokenKind} {condition : Atom} :
      AtomOf engine kinds condition → Atoms engine kinds [condition]
  | cons {kinds rest : List TokenKind} {condition : Atom} {others : List Atom} :
      AtomOf engine kinds condition → Atoms engine rest others →
        (isField condition = true → rest.head? ≠ some .dot) →
          Atoms engine (kinds ++ rest) (condition :: others)

/-- A mark or nothing, `'!'?`. -/
def mark (subject : Bool) : List TokenKind := if subject then [.bang] else []

/-- A sequence. The mark is set on the whole sequence only. -/
inductive Sequence (engine : RegexEngine) : List TokenKind → Selector → Prop where
  | single {kinds : List TokenKind} {condition : Atom} (subject : Bool) :
      AtomOf engine kinds condition →
        Sequence engine (mark subject ++ kinds) (.atom subject condition)
  | several {kinds : List TokenKind} {conditions : List Atom} (subject : Bool) :
      Atoms engine kinds conditions → 2 ≤ conditions.length →
        Sequence engine (mark subject ++ kinds)
          (.compound subject (conditions.map Selector.ofAtom))

/-- Combinators with their sequences, `((ws* '>' ws* | ws+) sequence)*`. -/
inductive Links (engine : RegexEngine) : List TokenKind → List (Combinator × Selector) → Prop where
  | nil : Links engine [] []
  | child {before after kinds rest : List TokenKind} {right : Selector}
      {links : List (Combinator × Selector)} :
      Layout before → Layout after → Sequence engine kinds right → Links engine rest links →
        Links engine (before ++ .greater :: (after ++ (kinds ++ rest))) ((.child, right) :: links)
  | descendant {gap kinds rest : List TokenKind} {right : Selector}
      {links : List (Combinator × Selector)} :
      Layout gap → gap ≠ [] → Sequence engine kinds right → Links engine rest links →
        Links engine (gap ++ (kinds ++ rest)) ((.descendant, right) :: links)

/-- Links folded to the left. -/
def joinAll (first : Selector) (links : List (Combinator × Selector)) : Selector :=
  links.foldl (fun left link => .joined false link.1 left link.2) first

/-- A selector without alternatives. -/
inductive Chain (engine : RegexEngine) : List TokenKind → Selector → Prop where
  | intro {kinds rest : List TokenKind} {first : Selector}
      {links : List (Combinator × Selector)} :
      Sequence engine kinds first → Links engine rest links →
        Chain engine (kinds ++ rest) (joinAll first links)

/-- Further alternatives, `(ws* ',' ws* selector)*`. -/
inductive Further (engine : RegexEngine) : List TokenKind → List Selector → Prop where
  | nil : Further engine [] []
  | cons {before after kinds rest : List TokenKind} {alternative : Selector}
      {others : List Selector} :
      Layout before → Layout after → Chain engine kinds alternative → Further engine rest others →
        Further engine (before ++ .comma :: (after ++ (kinds ++ rest))) (alternative :: others)

/-- Alternatives in order. A single one is itself. -/
def unite (first : Selector) : List Selector → Selector
  | [] => first
  | others => .union false (first :: others)

/-- A whole token list. -/
inductive Derives (engine : RegexEngine) : List TokenKind → Selector → Prop where
  | intro {before kinds rest after : List TokenKind} {first : Selector}
      {others : List Selector} :
      Layout before → Chain engine kinds first → Further engine rest others → Layout after →
        Derives engine (before ++ (kinds ++ (rest ++ after))) (unite first others)

/-! ### Layout -/

theorem Layout.nil : Layout [] := by simp [Layout]

/-! ### Sequences -/

variable {engine : RegexEngine} {kinds : List TokenKind}

theorem Atoms.ne_nil {conditions : List Atom} (derived : Atoms engine kinds conditions) :
    conditions ≠ [] := by
  cases derived with
  | one _ => exact List.cons_ne_nil _ _
  | cons _ _ _ => exact List.cons_ne_nil _ _

theorem Sequence.ofAtoms {conditions : List Atom} (marked : Bool)
    (derived : Atoms engine kinds conditions) :
    Sequence engine (mark marked ++ kinds) (Selector.ofSequence marked conditions) := by
  by_cases atLeastTwo : 2 ≤ conditions.length
  · rw [Selector.ofSequence_of_two_le marked atLeastTwo]
    exact .several marked derived atLeastTwo
  · cases derived with
    | one first => exact .single marked first
    | cons _ further _ =>
        have nonempty := List.length_pos_iff.mpr further.ne_nil
        rw [List.length_cons] at atLeastTwo
        omega

/-! ### First tokens -/

theorem AtomOf.exists_head {condition : Atom} (derived : AtomOf engine kinds condition) :
    ∃ kind rest, kinds = kind :: rest ∧ kind.startsAtom = true := by
  cases derived with
  | field segments =>
      cases segments with
      | cons _ => exact ⟨_, _, rfl, rfl⟩
  | _ => exact ⟨_, _, rfl, rfl⟩

theorem Atoms.exists_head {conditions : List Atom} (derived : Atoms engine kinds conditions) :
    ∃ kind rest, kinds = kind :: rest ∧ kind.startsAtom = true := by
  cases derived with
  | one first => exact first.exists_head
  | cons first _ _ =>
      obtain ⟨kind, rest, rfl, starts⟩ := first.exists_head
      exact ⟨kind, _, rfl, starts⟩

theorem startsSequence_of_startsAtom {kind : TokenKind} (starts : kind.startsAtom = true) :
    kind.startsSequence = true := by
  cases kind with
  | bang => rfl
  | _ => exact starts

theorem Sequence.exists_head {selector : Selector} (derived : Sequence engine kinds selector) :
    ∃ kind rest, kinds = kind :: rest ∧ kind.startsSequence = true := by
  cases derived with
  | single subject first =>
      cases subject with
      | true => exact ⟨_, _, rfl, rfl⟩
      | false =>
          obtain ⟨kind, rest, rfl, starts⟩ := first.exists_head
          exact ⟨kind, rest, rfl, startsSequence_of_startsAtom starts⟩
  | several subject first _ =>
      cases subject with
      | true => exact ⟨_, _, rfl, rfl⟩
      | false =>
          obtain ⟨kind, rest, rfl, starts⟩ := first.exists_head
          exact ⟨kind, rest, rfl, startsSequence_of_startsAtom starts⟩

theorem Chain.exists_head {selector : Selector} (derived : Chain engine kinds selector) :
    ∃ kind rest, kinds = kind :: rest ∧ kind.startsSequence = true := by
  cases derived with
  | intro first _ =>
      obtain ⟨kind, rest, rfl, starts⟩ := first.exists_head
      exact ⟨kind, _, rfl, starts⟩

end SelectorGrammar

end TreeLint
