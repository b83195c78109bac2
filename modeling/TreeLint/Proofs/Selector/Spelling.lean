import TreeLint.Proofs.Selector.Legible
import TreeLint.Proofs.Selector.Numerals

/-!
Contract: the texts of the parts of a selector are cut into tokens that derive those parts.

Owns:
- `LexerMode.Spells`, by which a text has given tokens wherever no name goes on after it;
- the tokens of paths, of operands and of single atoms.

Does not own: sequences, in which an atom may run on into the next one.
-/

set_option autoImplicit false

namespace TreeLint

open SelectorGrammar

namespace LexerMode

/-- From the first context to the second one, the text has the tokens if no name goes on after it. -/
def Spells (start finish : LexerMode) (text : List Char) (kinds : List TokenKind) : Prop :=
  ∀ {after : List Char} {further : List TokenKind}, EndsName after → finish.Lexes after further →
    start.Lexes (text ++ after) (kinds ++ further)

theorem endsName_cons {c : Char} (noName : isNameCharacter c = false) (rest : List Char) :
    EndsName (c :: rest) := noName

/-! ### Paths -/

def dotted (name : String) : List Char := '.' :: name.toList

theorem renderPath_cons (name : String) (rest : List String) :
    renderPath (name :: rest) = name.toList ++ rest.flatMap dotted := by
  induction rest generalizing name with
  | nil =>
      rw [renderPath, String.intercalate_singleton, List.flatMap_nil, List.append_nil]
  | cons next rest inductionHypothesis =>
      rw [renderPath, String.intercalate_cons_cons, String.toList_append, String.toList_append,
        ← renderPath, inductionHypothesis next]
      simp [dotted]

theorem render_field {path : List String} (nonempty : path ≠ []) :
    (Atom.field path).render = path.flatMap dotted := by
  obtain ⟨name, rest, rfl⟩ := List.exists_cons_of_ne_nil nonempty
  rw [Atom.render, renderPath_cons]
  rfl

theorem endsName_dotted (names : List String) {after : List Char} (ends : EndsName after) :
    EndsName (names.flatMap dotted ++ after) := by
  cases names with
  | nil => exact ends
  | cons name rest => exact endsName_cons (by decide) _

variable {mode : LexerMode}

theorem spells_segments (steady : mode ≠ .operand) {names : List String}
    (areNames : ∀ name ∈ names, mode.Names name) :
    ∃ kinds, Segments kinds names ∧ mode.Spells mode (names.flatMap dotted) kinds := by
  induction names with
  | nil => exact ⟨[], .nil, fun _ lexes => lexes⟩
  | cons name rest inductionHypothesis =>
      rw [List.forall_mem_cons] at areNames
      obtain ⟨kinds, segments, spells⟩ := inductionHypothesis areNames.2
      refine ⟨_, .cons segments, fun {after further} ends lexes => ?_⟩
      obtain ⟨afterName, afterDot⟩ := after_name steady name
      have nameEnds := endsName_dotted rest ends
      have isText : (name :: rest).flatMap dotted ++ after
          = '.' :: (name.toList ++ (rest.flatMap dotted ++ after)) := by
        simp [dotted]
      rw [isText]
      refine .cons (scans_dot steady) ?_
      rw [afterDot]
      refine .cons (scans_name steady areNames.1 nameEnds) ?_
      rw [afterName]
      exact spells ends lexes

theorem spells_path (steady : mode ≠ .operand) {path : List String} (nonempty : path ≠ [])
    (areNames : ∀ name ∈ path, mode.Names name) :
    ∃ kinds, SelectorGrammar.Path kinds path ∧ mode.Spells mode (renderPath path) kinds := by
  obtain ⟨name, rest, rfl⟩ := List.exists_cons_of_ne_nil nonempty
  rw [List.forall_mem_cons] at areNames
  obtain ⟨kinds, segments, spells⟩ := spells_segments steady areNames.2
  refine ⟨_, .intro segments, fun {after further} ends lexes => ?_⟩
  have nameEnds := endsName_dotted rest ends
  rw [renderPath_cons, List.append_assoc]
  refine .cons (scans_name steady areNames.1 nameEnds) ?_
  rw [(after_name steady name).1]
  exact spells ends lexes

/-! ### Operands -/

variable {engine : RegexEngine} {comparison : Comparison} {operand : Operand}

theorem infinite_of_not_finite {value : Double} (isNumber : value ≠ .nan)
    (infinite : value.isFinite ≠ true) : ∃ negative, value = .signed negative Magnitude.infinity := by
  cases value with
  | nan => exact absurd rfl isNumber
  | signed negative magnitude =>
      have isInfinity : magnitude = Magnitude.infinity := by
        simpa [Double.isFinite] using infinite
      exact ⟨negative, congrArg _ isInfinity⟩

/-- The text of an operand is a value wherever the bracket is closed after it. -/
theorem lexes_operand (printable : operand.Printable engine comparison) :
    ∃ kinds, SelectorGrammar.Value engine comparison kinds operand.reread ∧
      ∀ {after : List Char} {further : List TokenKind},
        attribute.Lexes (']' :: after) further →
          LexerMode.operand.Lexes (operand.render ++ ']' :: after) (kinds ++ further) := by
  have ends : ∀ after, EndsName (']' :: after) := endsName_cons (by decide)
  cases operand with
  | string text => exact ⟨[_], .string, fun lexes => .cons (scans_string text) lexes⟩
  | number value =>
      by_cases finite : value.isFinite = true
      · simp only [Operand.reread, if_pos finite]
        exact ⟨[_], .number, fun lexes => .cons (scans_number finite rfl) lexes⟩
      · obtain ⟨negative, rfl⟩ := infinite_of_not_finite printable finite
        have derived : SelectorGrammar.Value engine comparison
            [.name (Double.signed negative Magnitude.infinity).text]
            (.string (".".intercalate [(Double.signed negative Magnitude.infinity).text])) :=
          .path (.intro .nil)
        rw [String.intercalate_singleton] at derived
        simp only [Operand.reread, if_neg finite]
        exact ⟨[_], derived, fun lexes => .cons (scans_infinity negative (ends _)) lexes⟩
  | typeName name =>
      rcases printable with ⟨isEquality, isTypeName⟩
      exact ⟨[_], .typeName (SelectorParser.isEquality_iff.mp isEquality),
        fun lexes => .cons (scans_typeName isTypeName) lexes⟩
  | regex source letters =>
      rcases printable with ⟨isEquality, isSource, known, compiles⟩
      have areLetters : letters.toList.all Char.isAlpha = true := by
        rw [List.all_eq_true]
        intro letter member
        have areAlpha : flags.all Char.isAlpha = true := rfl
        exact List.all_eq_true.mp areAlpha letter (known letter member)
      exact ⟨[_], .regex (SelectorParser.isEquality_iff.mp isEquality) known compiles,
        fun lexes => .cons (scans_regex isSource areLetters rfl) lexes⟩

/-- No operand begins with an equals sign, which an operator before it would take. -/
theorem head?_render_ne (printable : operand.Printable engine comparison) (after : List Char) :
    (operand.render ++ after).head? ≠ some '=' := by
  cases operand with
  | number value =>
      by_cases finite : value.isFinite = true
      · have isNumeral := isNumeral_render finite
        have starts := (isNumeral.length_le (List.prefix_refl _)).1
        obtain ⟨c, rest, shape⟩ := List.exists_cons_of_ne_nil isNumeral.ne_nil
        rw [shape] at starts
        rw [Operand.render, shape, List.cons_append, List.head?_cons]
        intro isEqual
        exact ne_of_startsNumber starts rfl (by decide) (by decide) (Option.some.inj isEqual)
      · obtain ⟨negative, rfl⟩ := infinite_of_not_finite printable finite
        cases negative with
        | true => exact fun isEqual => absurd (Option.some.inj isEqual) (by decide)
        | false => exact fun isEqual => absurd (Option.some.inj isEqual) (by decide)
  | _ => simp [Operand.render]

/-- The text of a test is an operator and a value wherever the bracket is closed after it. -/
theorem lexes_test (printable : operand.Printable engine comparison) :
    ∃ kinds, SelectorGrammar.Value engine comparison kinds operand.reread ∧
      ∀ {after : List Char} {further : List TokenKind},
        attribute.Lexes (']' :: after) further →
          attribute.Lexes (Test.render ⟨comparison, operand⟩ ++ ']' :: after)
            (.comparison comparison :: (kinds ++ further)) := by
  obtain ⟨kinds, derived, lexes⟩ := lexes_operand printable
  refine ⟨kinds, derived, fun {after further} lexed => ?_⟩
  rw [Test.render, List.append_assoc]
  exact .cons (scans_comparison comparison (head?_render_ne printable _)) (lexes lexed)

theorem symbol_head (comparison : Comparison) :
    ∃ c rest, comparison.symbol.toList = c :: rest ∧ isNameCharacter c = false := by
  cases comparison with
  | equal => exact ⟨'=', [], by decide, by decide⟩
  | notEqual => exact ⟨'!', ['='], by decide, by decide⟩
  | less => exact ⟨'<', [], by decide, by decide⟩
  | lessOrEqual => exact ⟨'<', ['='], by decide, by decide⟩
  | greater => exact ⟨'>', [], by decide, by decide⟩
  | greaterOrEqual => exact ⟨'>', ['='], by decide, by decide⟩

theorem endsName_test (after : List Char) :
    EndsName (Test.render ⟨comparison, operand⟩ ++ after) := by
  obtain ⟨c, rest, isSymbol, noName⟩ := symbol_head comparison
  simp only [Test.render, isSymbol, List.cons_append]
  exact endsName_cons noName _

/-! ### Atoms -/

def endsInName : Atom → Bool
  | .identifier _ | .field _ => true
  | _ => false

/-- After an atom that does not run on, the next one goes on with no name. -/
theorem endsName_of_apart {current next : Atom} (printable : next.Printable engine)
    (apart : current.runsOn next = false) (endsIn : endsInName current = true)
    (after : List Char) : EndsName (next.render ++ after) := by
  cases next with
  | «attribute» path test => exact endsName_cons (by decide) _
  | field path => exact endsName_cons (by decide) _
  | identifier name =>
      cases current with
      | identifier _ => exact Bool.noConfusion apart
      | field _ => exact Bool.noConfusion apart
      | _ => exact Bool.noConfusion endsIn
  | wildcard =>
      cases current with
      | identifier _ => exact Bool.noConfusion apart
      | field _ => exact Bool.noConfusion apart
      | _ => exact Bool.noConfusion endsIn

/-- The text of an atom has the tokens of its reread form, if no name goes on after a name. -/
theorem lexes_atom {condition : Atom} (printable : condition.Printable engine) :
    ∃ kinds, AtomOf engine kinds condition.reread ∧
      ∀ {after : List Char} {further : List TokenKind},
        (endsInName condition = true → EndsName after) → selector.Lexes after further →
          selector.Lexes (condition.render ++ after) (kinds ++ further) := by
  have steady : ∀ {mode : LexerMode}, mode = .selector ∨ mode = .attribute → mode ≠ .operand := by
    rintro mode (rfl | rfl) <;> decide
  cases condition with
  | identifier name =>
      exact ⟨[_], .identifier, fun ends lexes =>
        .cons (scans_name (steady (.inl rfl)) printable (ends rfl)) lexes⟩
  | wildcard => exact ⟨[_], .wildcard, fun _ lexes => .cons scans_star lexes⟩
  | field path =>
      rcases printable with ⟨nonempty, areNames⟩
      obtain ⟨kinds, segments, spells⟩ := spells_segments (steady (.inl rfl)) areNames
      rw [render_field nonempty]
      obtain ⟨name, rest, rfl⟩ := List.exists_cons_of_ne_nil nonempty
      exact ⟨kinds, .field segments, fun ends lexes => spells (ends rfl) lexes⟩
  | «attribute» path test =>
      rcases printable with ⟨nonempty, areNames, isTest⟩
      obtain ⟨kinds, derived, spells⟩ := spells_path (steady (.inr rfl)) nonempty areNames
      match test with
      | none =>
          refine ⟨_, .present derived, fun {after further} _ lexes => ?_⟩
          have isText : (Atom.attribute path none).render ++ after
              = '[' :: (renderPath path ++ ']' :: after) := by
            simp [Atom.render]
          have areKinds : TokenKind.leftBracket :: (kinds ++ [.rightBracket]) ++ further
              = .leftBracket :: (kinds ++ .rightBracket :: further) := by
            simp
          rw [isText, areKinds]
          refine .cons scans_leftBracket (spells (endsName_cons (by decide) _) ?_)
          exact .cons scans_rightBracket lexes
      | some ⟨comparison, literal⟩ =>
          obtain ⟨value, isValue, lexesTest⟩ := lexes_test (isTest _ rfl)
          refine ⟨_, .tested derived isValue, fun {after further} _ lexes => ?_⟩
          have isText : (Atom.attribute path (some ⟨comparison, literal⟩)).render ++ after
              = '[' :: (renderPath path ++ (Test.render ⟨comparison, literal⟩ ++ ']' :: after)) := by
            simp [Atom.render]
          have areKinds :
              TokenKind.leftBracket ::
                  (kinds ++ .comparison comparison :: (value ++ [.rightBracket])) ++ further
                = .leftBracket ::
                  (kinds ++ .comparison comparison :: (value ++ .rightBracket :: further)) := by
            simp
          rw [isText, areKinds]
          refine .cons scans_leftBracket (spells (endsName_test _) ?_)
          exact lexesTest (.cons scans_rightBracket lexes)

theorem head?_render_atom {condition : Atom} (printable : condition.Printable engine) :
    ∃ c rest, condition.render = c :: rest ∧ Text.isLayout c = false := by
  cases condition with
  | identifier name =>
      obtain ⟨c, rest, letters⟩ := List.exists_cons_of_ne_nil printable.nonempty
      have all := printable.all
      rw [letters, List.all_cons, Bool.and_eq_true] at all
      exact ⟨c, rest, letters, noLayout_of_isNameCharacter all.1⟩
  | _ => exact ⟨_, _, rfl, rfl⟩

end LexerMode

end TreeLint
