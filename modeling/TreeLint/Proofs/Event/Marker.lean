import TreeLint.Proofs.Event.Union

/-!
Contract: the marker `:exit` at the end of a pattern is never part of a selector.

Owns:
- the readings of a pattern, as a selector text for entering or, without the marker, for leaving;
- the law that at most one reading denotes a selector, and that it is the one that patterns are split into;
- the refusal of patterns that carry the marker twice.

Does not own: the place of a colon in a selector text, from which all of this follows.
-/

set_option autoImplicit false

namespace TreeLint

/-- A pattern is split into one of its readings. -/
theorem Pattern.ofText_splitExit (pattern : String) :
    Pattern.ofText (splitExit pattern).1 (splitExit pattern).2 = pattern := by
  by_cases marked : exitMarker.toList <:+ pattern.toList
  · obtain ⟨text, whole⟩ := marked
    have isPattern : String.ofList text ++ exitMarker = pattern := by
      apply String.toList_injective
      rw [String.toList_append, String.toList_ofList, whole]
    rw [← isPattern, splitExit_append]
    rfl
  · have noSuffix : exitMarker.toList.isSuffixOf pattern.toList = false := by
      rw [Bool.eq_false_iff, ne_eq, List.isSuffixOf_iff_suffix]
      exact marked
    rw [splitExit, noSuffix]
    rfl

theorem Selector.error_of_marked (engine : RegexEngine) {text : String} (marked : exitMarker.toList <:+ text.toList) :
    ∃ error, Selector.parse engine text = .error error := by
  cases parsed : Selector.parse engine text with
  | error error => exact ⟨error, rfl⟩
  | ok selector =>
      have noExit := Selector.noExit_of_parse parsed
      rw [List.isSuffixOf_iff_suffix.mpr marked] at noExit
      contradiction

/-- What is left of a pattern with two markers still ends in one. -/
theorem Pattern.selector?_marked_twice (engine : RegexEngine) (text : String) :
    Pattern.selector? engine (text ++ exitMarker ++ exitMarker) = none := by
  obtain ⟨error, failed⟩ := Selector.error_of_marked engine (marked_append text)
  rw [Pattern.selector?, splitExit_append, failed]
  rfl

/-- No text that ends in the marker denotes a selector. So at most one reading of a pattern does, and the pattern
is split into this one; and patterns with two markers are never registered. -/
theorem splitExit_unambiguous (engine : RegexEngine) :
    (∀ text : String, exitMarker.toList <:+ text.toList →
        ∃ error, Selector.parse engine text = .error error) ∧
      (∀ (text other : String) (onLeave otherwise : Bool) (selector selector' : Selector),
        Pattern.ofText text onLeave = Pattern.ofText other otherwise →
          Selector.parse engine text = .ok selector → Selector.parse engine other = .ok selector' →
            text = other ∧ onLeave = otherwise) ∧
      (∀ pattern : String,
        Pattern.ofText (splitExit pattern).1 (splitExit pattern).2 = pattern ∧
          ∀ (text : String) (onLeave : Bool) (selector : Selector),
            Pattern.ofText text onLeave = pattern → Selector.parse engine text = .ok selector →
              splitExit pattern = (text, onLeave)) ∧
      ∀ (patterns : List String) (text : String), text ++ exitMarker ++ exitMarker ∈ patterns →
        ∃ error, Registry.ofPatterns engine patterns = .error error := by
  have splits : ∀ (text : String) (onLeave : Bool) (selector : Selector),
      Selector.parse engine text = .ok selector →
        splitExit (Pattern.ofText text onLeave) = (text, onLeave) :=
    fun text onLeave selector parsed => splitExit_ofText parsed onLeave
  refine ⟨fun text marked => Selector.error_of_marked engine marked, ?_, ?_, ?_⟩
  · intro text other onLeave otherwise selector selector' same parsed parsedOther
    have first := splits text onLeave selector parsed
    rw [same, splits other otherwise selector' parsedOther] at first
    exact ⟨(congrArg Prod.fst first).symm, (congrArg Prod.snd first).symm⟩
  · intro pattern
    refine ⟨Pattern.ofText_splitExit pattern, ?_⟩
    rintro text onLeave selector rfl parsed
    exact splits text onLeave selector parsed
  · intro patterns text given
    cases registered : Registry.ofPatterns engine patterns with
    | error error => exact ⟨error, rfl⟩
    | ok registry =>
        have denotes := Registry.exists_ofPatterns_iff.mp ⟨registry, registered⟩ _ given
        rw [Pattern.selector?_marked_twice] at denotes
        contradiction

/-- A marker inside an open string, a pattern that is split after a string with a marker in it, and a pattern with
two markers. -/
theorem splitExit_unambiguous_quoted :
    (∃ error, Selector.parse .standard "[a=':exit" = .error error) ∧
      splitExit "[a=':exit']:exit" = ("[a=':exit']", true) ∧
      ∃ error, Registry.ofPatterns .standard ["A", "B:exit:exit"] = .error error := by
  obtain ⟨refuses, unique, splits, twice⟩ := splitExit_unambiguous .standard
  have denotes : (Selector.parse .standard "[a=':exit']").toOption.isSome = true := by
    decide +kernel
  refine ⟨refuses "[a=':exit" (by decide), ?_, twice ["A", "B:exit:exit"] "B" (by decide)⟩
  cases parsed : Selector.parse .standard "[a=':exit']" with
  | error error =>
      rw [parsed] at denotes
      contradiction
  | ok selector => exact (splits "[a=':exit']:exit").2 "[a=':exit']" true selector rfl parsed

end TreeLint
