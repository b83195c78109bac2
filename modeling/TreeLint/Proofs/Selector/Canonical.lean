import TreeLint.Proofs.Selector.RoundTrip

/-!
Contract: canonical selectors, and what their texts tell of them.

Owns:
- `Selector.Canonical`, a condition on the shape of a selector and on the names and values in it, which mentions
  neither a text nor a token;
- its agreement with the conditions under which a text spells a selector and tells its atoms apart;
- the law that the text of a canonical selector denotes that selector, and so no other canonical selector has the
  same text.
-/

set_option autoImplicit false

namespace TreeLint

variable {engine : RegexEngine}

/-! ### Sources of regular expressions -/

/-- Characters in which every slash is escaped and no escape is left open, `([^/\\] | '\\' any)*`. -/
inductive SlashEscaped : List Char → Prop where
  | nil : SlashEscaped []
  | plain {c : Char} {rest : List Char} :
      c ≠ '/' → c ≠ '\\' → SlashEscaped rest → SlashEscaped (c :: rest)
  | escape {c : Char} {rest : List Char} : SlashEscaped rest → SlashEscaped ('\\' :: c :: rest)

theorem SlashEscaped.regexBody {source : List Char} (escaped : SlashEscaped source)
    (after : List Char) : regexBody false (source ++ '/' :: after) = some (source, after) := by
  induction escaped with
  | nil => rfl
  | plain noSlash noBackslash _ inductionHypothesis =>
      rw [List.cons_append, TreeLint.regexBody, if_neg (fun closes => noSlash closes.1),
        beq_eq_false_iff_ne.mpr noBackslash, Bool.false_and, inductionHypothesis]
      rfl
  | @escape c rest _ inductionHypothesis =>
      rw [List.cons_append, List.cons_append, TreeLint.regexBody, if_neg (by decide),
        TreeLint.regexBody, if_neg (by simp)]
      simp [inductionHypothesis]

/-- What is read up to the slash that ends a source is escaped. A source that is read inside an escape is escaped
together with the backslash before it. -/
theorem slashEscaped_of_regexBody {escaped : Bool} {text source after : List Char}
    (read : regexBody escaped text = some (source, after)) :
    SlashEscaped (if escaped then '\\' :: source else source) := by
  fun_induction regexBody escaped text generalizing source after with
  | case1 => simp at read
  | case2 escaped c rest closes =>
      simp only [Option.some.injEq, Prod.mk.injEq] at read
      rw [if_neg (by simp [closes.2]), ← read.1]
      exact .nil
  | case3 escaped c rest goesOn inductionHypothesis =>
      obtain ⟨⟨inner, rest'⟩, innerRead, same⟩ := Option.map_eq_some_iff.mp read
      obtain ⟨rfl, rfl⟩ := Prod.mk.inj same
      have further := inductionHypothesis innerRead
      cases escaped with
      | true => exact .escape (by simpa using further)
      | false =>
          by_cases isBackslash : c = '\\'
          · simpa [isBackslash] using further
          · exact .plain (fun isSlash => goesOn ⟨isSlash, rfl⟩) isBackslash
              (by simpa [isBackslash] using further)

theorem isSource_iff {source : String} :
    IsSource source ↔ source.toList ≠ [] ∧ SlashEscaped source.toList :=
  ⟨fun isSource => ⟨isSource.nonempty, slashEscaped_of_regexBody (isSource.ends [])⟩,
    fun both => ⟨both.1, both.2.regexBody⟩⟩

/-! ### Canonical parts -/

/-- A canonical value. Type names and regular expressions follow the equality operators only. -/
def Operand.Canonical (engine : RegexEngine) (comparison : Comparison) : Operand → Prop
  | .string _ => True
  | .number value => value.isFinite = true
  | .typeName name => comparison.isEquality = true ∧ IsTypeName name
  | .regex source letters =>
      comparison.isEquality = true ∧ source.toList ≠ [] ∧ SlashEscaped source.toList ∧
        letters.toList.all Char.isAlpha = true ∧
        SelectorParser.checkRegex engine source letters 0 = .ok ()

def IsPlainName (name : String) : Prop := IsName name ∧ name.toList.head? ≠ some '*'

instance (name : String) : Decidable (IsPlainName name) :=
  inferInstanceAs (Decidable (_ ∧ _))

def Atom.Canonical (engine : RegexEngine) : Atom → Prop
  | .identifier name => IsPlainName name
  | .wildcard => True
  | .field path => path ≠ [] ∧ ∀ name ∈ path, IsPlainName name
  | .attribute path test =>
      path ≠ [] ∧ (∀ segment ∈ path, IsName segment) ∧
        ∀ inner, test = some inner → inner.operand.Canonical engine inner.comparison

theorem names_selector_iff {name : String} : LexerMode.selector.Names name ↔ IsPlainName name :=
  ⟨fun names => ⟨names.toIsName, names.noStar rfl⟩, fun plain => ⟨plain.1, fun _ => plain.2⟩⟩

theorem names_attribute_iff {name : String} : LexerMode.attribute.Names name ↔ IsName name :=
  ⟨fun names => names.toIsName, fun isName => ⟨isName, fun isSelector => nomatch isSelector⟩⟩

theorem Operand.canonical_iff {comparison : Comparison} {operand : Operand} :
    operand.Canonical engine comparison ↔
      operand.Printable engine comparison ∧
        ∀ value, operand = .number value → value.isFinite = true := by
  cases operand with
  | string text => simp [Canonical, Printable]
  | number value =>
      constructor
      · intro finite
        refine ⟨?_, fun other same => Operand.number.inj same ▸ finite⟩
        rintro rfl
        exact Bool.noConfusion finite
      · exact fun both => both.2 value rfl
  | typeName name => simp [Canonical, Printable]
  | regex source letters =>
      have areLetters : (∀ flag ∈ letters.toList, flag ∈ SelectorGrammar.flags) →
          letters.toList.all Char.isAlpha = true := by
        intro known
        rw [List.all_eq_true]
        intro letter member
        have areAlpha : SelectorGrammar.flags.all Char.isAlpha = true := rfl
        exact List.all_eq_true.mp areAlpha letter (known letter member)
      simp only [Canonical, Printable, isSource_iff, SelectorParser.checkRegex_iff, reduceCtorEq,
        false_implies, implies_true, and_true]
      constructor
      · rintro ⟨isEquality, nonempty, escaped, _, known, compiles⟩
        exact ⟨isEquality, ⟨nonempty, escaped⟩, known, compiles⟩
      · rintro ⟨isEquality, ⟨nonempty, escaped⟩, known, compiles⟩
        exact ⟨isEquality, nonempty, escaped, areLetters known, known, compiles⟩

/-- An atom is canonical if some text can spell it and its number, if it has one, is finite. -/
theorem Atom.canonical_iff {condition : Atom} :
    condition.Canonical engine ↔ condition.Printable engine ∧ condition.isFinite = true := by
  cases condition with
  | identifier name => simp [Canonical, Printable, isFinite, names_selector_iff]
  | wildcard => simp [Canonical, Printable, isFinite]
  | field path => simp [Canonical, Printable, isFinite, names_selector_iff]
  | «attribute» path test =>
      simp only [Canonical, Printable, names_attribute_iff, and_assoc]
      refine and_congr_right fun _ => and_congr_right fun _ => ?_
      cases test with
      | none => simp [isFinite]
      | some inner =>
          obtain ⟨comparison, operand⟩ := inner
          simp only [Option.some.injEq, forall_eq', Operand.canonical_iff]
          refine and_congr_right fun _ => ?_
          cases operand with
          | number value => simp [isFinite]
          | _ => simp [isFinite]

namespace Selector

/-- A canonical sequence: one atom, or at least two of which none runs on into the next one. Only the whole
sequence carries the subject mark. -/
inductive CanonicalSequence (engine : RegexEngine) : Selector → Prop where
  | single {condition : Atom} (marked : Bool) :
      condition.Canonical engine → CanonicalSequence engine (.atom marked condition)
  | several {conditions : List Atom} (marked : Bool) :
      2 ≤ conditions.length → (∀ condition ∈ conditions, condition.Canonical engine) →
        conditions.IsChain (fun left right => left.runsOn right = false) →
          CanonicalSequence engine (.compound marked (conditions.map ofAtom))

inductive CanonicalChain (engine : RegexEngine) : Selector → Prop where
  | sequence {only : Selector} : CanonicalSequence engine only → CanonicalChain engine only
  | joined {left right : Selector} (combinator : Combinator) :
      CanonicalChain engine left → CanonicalSequence engine right →
        CanonicalChain engine (.joined false combinator left right)

/-- A canonical selector: a chain, or at least two chains as alternatives. -/
inductive Canonical (engine : RegexEngine) : Selector → Prop where
  | chain {only : Selector} : CanonicalChain engine only → Canonical engine only
  | union {members : List Selector} :
      2 ≤ members.length → (∀ member ∈ members, CanonicalChain engine member) →
        Canonical engine (.union false members)

/-! ### Agreement with spelling -/

theorem CanonicalSequence.ofSequence {marked : Bool} {conditions : List Atom}
    (nonempty : conditions ≠ []) (areAtoms : ∀ condition ∈ conditions, condition.Canonical engine)
    (chain : conditions.IsChain (fun left right => left.runsOn right = false)) :
    (ofSequence marked conditions).CanonicalSequence engine := by
  match conditions with
  | [only] => exact .single marked (areAtoms only List.mem_cons_self)
  | first :: second :: rest => exact .several marked (by simp) areAtoms chain

theorem canonicalSequence_iff {selector : Selector} :
    selector.CanonicalSequence engine ↔ selector.PrintableSequence engine ∧ selector.Legible := by
  have split : ∀ (marked : Bool) {conditions : List Atom}, conditions ≠ [] →
      (∀ condition ∈ conditions, condition.Canonical engine) →
        conditions.IsChain (fun left right => left.runsOn right = false) →
          (ofSequence marked conditions).PrintableSequence engine ∧
            (ofSequence marked conditions).Legible := by
    intro marked conditions nonempty areAtoms chain
    have parts := fun condition member => Atom.canonical_iff.mp (areAtoms condition member)
    exact ⟨.intro marked nonempty fun condition member => (parts condition member).1,
      legible_ofSequence_iff.mpr ⟨chain, fun condition member => (parts condition member).2⟩⟩
  constructor
  · intro canonical
    cases canonical with
    | @single condition marked isAtom =>
        exact split marked (List.cons_ne_nil condition []) (by simpa using isAtom) (.singleton _)
    | several marked atLeastTwo areAtoms chain =>
        rw [← ofSequence_of_two_le marked atLeastTwo]
        exact split marked (List.ne_nil_of_length_pos (by omega)) areAtoms chain
  · rintro ⟨⟨marked, nonempty, printable⟩, legible⟩
    obtain ⟨chain, finite⟩ := legible_ofSequence_iff.mp legible
    exact .ofSequence nonempty (fun condition member =>
      Atom.canonical_iff.mpr ⟨printable condition member, finite condition member⟩) chain

theorem canonicalChain_iff {selector : Selector} :
    selector.CanonicalChain engine ↔ selector.PrintableChain engine ∧ selector.Legible := by
  constructor
  · intro canonical
    induction canonical with
    | sequence only =>
        obtain ⟨printable, legible⟩ := canonicalSequence_iff.mp only
        exact ⟨.sequence printable, legible⟩
    | joined combinator _ right inductionHypothesis =>
        obtain ⟨printable, legible⟩ := canonicalSequence_iff.mp right
        exact ⟨.joined combinator inductionHypothesis.1 printable,
          .joined inductionHypothesis.2 legible⟩
  · rintro ⟨printable, legible⟩
    induction printable with
    | sequence only => exact .sequence (canonicalSequence_iff.mpr ⟨only, legible⟩)
    | joined combinator _ right inductionHypothesis =>
        cases legible with
        | joined leftLegible rightLegible =>
            exact .joined combinator (inductionHypothesis leftLegible)
              (canonicalSequence_iff.mpr ⟨right, rightLegible⟩)

/-- A selector is canonical if some text can spell it and its own text is legible. -/
theorem canonical_iff {selector : Selector} :
    selector.Canonical engine ↔ selector.Printable engine ∧ selector.Legible := by
  constructor
  · intro canonical
    cases canonical with
    | chain only =>
        obtain ⟨printable, legible⟩ := canonicalChain_iff.mp only
        exact ⟨.chain printable, legible⟩
    | @union members atLeastTwo areChains =>
        match members with
        | first :: second :: rest =>
            have parts := fun member isMember => canonicalChain_iff.mp (areChains member isMember)
            have others : ∀ other ∈ second :: rest, other.PrintableChain engine :=
              fun other isOther => (parts other (List.mem_cons_of_mem _ isOther)).1
            exact ⟨.union (List.cons_ne_nil _ _) (parts first List.mem_cons_self).1 others,
              .union fun member isMember => (parts member isMember).2⟩
  · rintro ⟨printable, legible⟩
    cases printable with
    | chain only => exact .chain (canonicalChain_iff.mpr ⟨only, legible⟩)
    | @union first others nonempty isFirst areOthers =>
        cases legible with
        | union areLegible =>
            have areChains := List.forall_mem_cons.mpr ⟨isFirst, areOthers⟩
            have more := List.length_pos_iff.mpr nonempty
            refine .union (by rw [List.length_cons]; omega) fun member isMember => ?_
            exact canonicalChain_iff.mpr ⟨areChains member isMember, areLegible member isMember⟩

/-! ### Selectors that are reread as themselves -/

theorem ofSequence_inj {marked marked' : Bool} {conditions conditions' : List Atom}
    (same : ofSequence marked conditions = ofSequence marked' conditions') :
    conditions = conditions' := by
  have injective : Function.Injective ofAtom := fun left right same => (atom.inj same).2
  unfold ofSequence at same
  split at same <;> split at same
  · rw [(atom.inj same).2]
  · contradiction
  · contradiction
  · exact injective.list_map (compound.inj same).2

theorem isFinite_of_reread_eq {condition : Atom} (same : condition.reread = condition) :
    condition.isFinite = true := by
  unfold Atom.isFinite
  split
  · rename_i path comparison value
    by_contra infinite
    simp [Atom.reread, Operand.reread, infinite] at same
  · rfl

theorem RereadChain.legible_of_eq {selector again : Selector} (reread : RereadChain selector again)
    (same : again = selector) : selector.Legible := by
  induction reread with
  | sequence marked first others =>
      have unchanged := ofSequence_inj same
      have isLength := congrArg List.length unchanged
      rw [List.length_map] at isLength
      have chain := (Atom.length_joinRuns others first).2 isLength
      rw [Atom.joinRuns_of_isChain chain] at unchanged
      refine legible_ofSequence_iff.mpr ⟨chain, fun condition member => ?_⟩
      have unchangedBy := List.map_inj_left.mp (unchanged.trans (List.map_id _).symm)
      exact isFinite_of_reread_eq (unchangedBy condition member)
  | joined combinator _ _ leftHypothesis rightHypothesis =>
      obtain ⟨_, _, sameLeft, sameRight⟩ := joined.inj same
      exact .joined (leftHypothesis sameLeft) (rightHypothesis sameRight)

theorem forall_legible_of_eq {members members' : List Selector}
    (rereads : List.Forall₂ RereadChain members members') (same : members' = members) :
    ∀ member ∈ members, member.Legible := by
  induction rereads with
  | nil => simp
  | cons first _ inductionHypothesis =>
      obtain ⟨sameFirst, sameRest⟩ := List.cons.inj same
      exact List.forall_mem_cons.mpr
        ⟨first.legible_of_eq sameFirst, inductionHypothesis sameRest⟩

theorem Reread.legible_of_eq {selector again : Selector} (reread : Reread selector again)
    (same : again = selector) : selector.Legible := by
  cases reread with
  | chain only => exact only.legible_of_eq same
  | union members => exact .union (forall_legible_of_eq members (union.inj same).2)

/-! ### Texts of canonical selectors -/

/-- The text of a printable selector denotes what the selector is reread as. -/
theorem parse_text_of_printable {selector : Selector} (printable : selector.Printable engine) :
    ∃ again, parse engine selector.text = .ok again ∧ Reread selector again := by
  obtain ⟨kinds, again, derived, reread, lexes⟩ := lexes_printable printable
  have lexesText : LexerMode.selector.Lexes selector.text.toList kinds := by
    rw [Selector.text, String.toList_ofList]
    exact lexes
  exact ⟨again, parse_of_lexes derived lexesText, reread⟩

theorem parse_text_of_canonical {selector : Selector} (canonical : selector.Canonical engine) :
    parse engine selector.text = .ok selector := by
  obtain ⟨printable, legible⟩ := canonical_iff.mp canonical
  obtain ⟨again, read, reread⟩ := parse_text_of_printable printable
  rw [read, reread.same_iff_legible.2 legible]

theorem canonical_of_parse_text {selector : Selector}
    (parsed : parse engine selector.text = .ok selector) : selector.Canonical engine := by
  have printable := printable_of_parse parsed
  obtain ⟨again, read, reread⟩ := parse_text_of_printable printable
  have same : again = selector := Except.ok.inj (read.symm.trans parsed)
  exact canonical_iff.mpr ⟨printable, reread.legible_of_eq same⟩

/-- The text of a canonical selector denotes that selector itself, so canonical selectors with the same text are
the same. No other selector is denoted by its own text. -/
theorem text_decodable_injective (engine : RegexEngine) :
    (∀ selector : Selector,
        selector.Canonical engine ↔ parse engine selector.text = .ok selector) ∧
      ∀ selector other : Selector, selector.Canonical engine → other.Canonical engine →
        selector.text = other.text → selector = other := by
  refine ⟨fun selector => ⟨parse_text_of_canonical, canonical_of_parse_text⟩, ?_⟩
  intro selector other canonical canonicalOther sameText
  have parsed := parse_text_of_canonical canonical
  rw [sameText, parse_text_of_canonical canonicalOther] at parsed
  exact (Except.ok.inj parsed).symm

/-- Escapes in a string, a type name, a marked sequence and two alternatives. -/
theorem text_decodable_injective_escapes :
    let quoted := Atom.attribute ["a", "*b"] (some ⟨.less, .string "]\"\n"⟩)
    let typed := Atom.attribute ["c"] (some ⟨.notEqual, .typeName "x(y"⟩)
    let selector := Selector.union false
      [.joined false .child (ofAtom .wildcard)
        (.compound true [ofAtom (.identifier "A"), ofAtom (.field ["d"]), ofAtom quoted]),
        ofAtom typed]
    selector.Canonical .standard ∧ parse .standard selector.text = .ok selector ∧
      ∀ other : Selector, other.Canonical .standard → other.text = selector.text →
        other = selector := by
  intro quoted typed selector
  have isQuoted : quoted.Canonical .standard :=
    ⟨by decide, by decide +kernel, by rintro _ ⟨⟩; trivial⟩
  have isTyped : typed.Canonical .standard := by
    refine ⟨by decide, by decide +kernel, ?_⟩
    rintro _ ⟨⟩
    exact ⟨rfl, by decide, by decide +kernel, by decide +kernel, by decide +kernel⟩
  have isSequence : (ofSequence true [.identifier "A", .field ["d"], quoted]).CanonicalSequence
      .standard := by
    refine .several true (by decide) ?_ (by decide)
    rw [List.forall_mem_cons, List.forall_mem_cons, List.forall_mem_singleton]
    exact ⟨(by decide +kernel : IsPlainName "A"), ⟨by decide, by decide +kernel⟩, isQuoted⟩
  have canonical : selector.Canonical .standard := by
    refine .union (by decide) ?_
    rw [List.forall_mem_cons, List.forall_mem_singleton]
    exact ⟨.joined .child (.sequence (.single false trivial)) isSequence,
      .sequence (.single false isTyped)⟩
  obtain ⟨decodes, injective⟩ := text_decodable_injective .standard
  exact ⟨canonical, (decodes selector).mp canonical, fun other canonicalOther same =>
    injective other selector canonicalOther canonical same⟩

end Selector

end TreeLint
