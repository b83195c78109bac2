import TreeLint.Proofs.Event.Occurrences
import TreeLint.Proofs.Lists

/-!
Contract: which pattern is blamed if patterns cannot be registered.

Owns: the error of a registration, which is about the first pattern whose text denotes no selector. Patterns that
come again are passed over, and no pattern before the blamed one is at fault.
-/

set_option autoImplicit false

namespace TreeLint

/-! ### The blamed pattern -/

/-- The text of the pattern, without its marker, denotes no selector. -/
def Pattern.Unparsable (engine : RegexEngine) (pattern : String) : Prop :=
  Pattern.selector? engine pattern = none

namespace Registry

variable {engine : RegexEngine} {registry : Registry} {patterns : List String} {error : RegistrationError}

theorem ofPattern_eq_error_iff {pattern : String} :
    Registration.ofPattern engine pattern = .error error ↔
      error.pattern = pattern ∧ Selector.parse engine (splitExit pattern).1 = .error error.cause := by
  unfold Registration.ofPattern
  simp only
  split
  · rename_i parsed
    simp [parsed]
  · rename_i cause failed
    rw [failed, Except.error.injEq, Except.error.injEq]
    constructor
    · rintro rfl
      exact ⟨rfl, rfl⟩
    · rintro ⟨rfl, rfl⟩
      rfl

theorem unparsable_iff {pattern : String} :
    Pattern.Unparsable engine pattern ↔ ∃ error, Registration.ofPattern engine pattern = .error error := by
  simp only [ofPattern_eq_error_iff, Pattern.Unparsable, Pattern.selector?]
  cases Selector.parse engine (splitExit pattern).1 with
  | ok selector => simp [Except.toOption]
  | error cause => exact ⟨fun _ => ⟨⟨pattern, cause⟩, rfl, rfl⟩, fun _ => rfl⟩

/-- Registering more patterns fails at the first of them that denotes no selector. -/
theorem register_eq_error_iff (registered : registry.Registered engine) :
    register engine registry patterns = .error error ↔
      FirstWith (Pattern.Unparsable engine) patterns error.pattern ∧
        Selector.parse engine (splitExit error.pattern).1 = .error error.cause := by
  induction patterns generalizing registry with
  | nil =>
      rw [register]
      refine ⟨fun failed => ?_, fun both => absurd both.1 not_firstWith_nil⟩
      contradiction
  | cons pattern rest inductionHypothesis =>
      rw [register, firstWith_cons_iff]
      split
      · rename_i known
        obtain ⟨entry, isEntry, rfl⟩ := List.mem_map.mp ((contains_iff registry pattern).mp known)
        have parsable : ¬ Pattern.Unparsable engine entry.raw := by
          rw [Pattern.Unparsable, selector?_raw registered isEntry]
          exact Option.some_ne_none _
        simp only [parsable, false_and, not_false_eq_true, true_and, false_or]
        exact inductionHypothesis registered
      · cases isEntry : Registration.ofPattern engine pattern with
        | ok entry =>
            have parsable : ¬ Pattern.Unparsable engine pattern := by
              rw [unparsable_iff, isEntry]
              rintro ⟨failure, failed⟩
              contradiction
            simp only [parsable, false_and, not_false_eq_true, true_and, false_or]
            exact inductionHypothesis (registered.add isEntry)
        | error failure =>
            have unparsable : Pattern.Unparsable engine pattern := unparsable_iff.mpr ⟨failure, isEntry⟩
            simp only [unparsable, true_and, not_true_eq_false, false_and, or_false]
            have outcome : failure = error ↔ Registration.ofPattern engine pattern = .error error := by
              rw [isEntry, Except.error.injEq]
            rw [Except.error.injEq, outcome, ofPattern_eq_error_iff]
            exact and_congr_right fun same => by rw [same]

/-- Patterns cannot be registered together if the text of one of them denotes no selector. The first such pattern is
blamed, with the reason why it denotes none. -/
theorem ofPatterns_eq_error_iff :
    ofPatterns engine patterns = .error error ↔
      FirstWith (Pattern.Unparsable engine) patterns error.pattern ∧
        Selector.parse engine (splitExit error.pattern).1 = .error error.cause :=
  register_eq_error_iff (registered_empty engine)

end Registry

end TreeLint
