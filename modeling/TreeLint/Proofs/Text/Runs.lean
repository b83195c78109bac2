import TreeLint.Text.Blank

/-!
Contract: runs of characters at the ends of a text.

Owns:
- where the longest run of characters of a class ends, also in a text that is followed by another one;
- beginnings of a text, which do not depend on what follows if it begins with a character that they have not;
- trimming, which leaves a trimmed text alone.
-/

set_option autoImplicit false

namespace TreeLint.Text

section Runs

variable {p : Char → Bool} {run after : List Char}

/-- The longest run ends where a character of another class follows. -/
theorem takeWhile_of_run (all : run.all p = true) (stops : after.head?.any p = false) :
    (run ++ after).takeWhile p = run := by
  rw [List.takeWhile_append_of_pos (List.all_eq_true.mp all)]
  cases after with
  | nil => exact List.append_nil run
  | cons c rest => rw [List.takeWhile_cons_of_neg (by simpa using stops), List.append_nil]

theorem dropWhile_of_run (all : run.all p = true) (stops : after.head?.any p = false) :
    (run ++ after).dropWhile p = after := by
  rw [List.dropWhile_append_of_pos (List.all_eq_true.mp all)]
  cases after with
  | nil => rfl
  | cons c rest => exact List.dropWhile_cons_of_neg (by simpa using stops)

end Runs

theorem dropWhile_of_head {p : Char → Bool} {text : List Char}
    (stops : text.head?.any p = false) : text.dropWhile p = text :=
  dropWhile_of_run List.all_nil stops

theorem head?_dropWhile (p : Char → Bool) (text : List Char) :
    (text.dropWhile p).head?.any p = false := by
  induction text with
  | nil => rfl
  | cons c rest inductionHypothesis =>
      by_cases first : p c = true
      · rw [List.dropWhile_cons_of_pos first]
        exact inductionHypothesis
      · rw [List.dropWhile_cons_of_neg first]
        simpa using first

theorem head?_dropWhile_append {p : Char → Bool} (text : List Char) {after : List Char}
    (stops : after.head?.any p = false) : (text.dropWhile p ++ after).head?.any p = false := by
  have ends := head?_dropWhile p text
  cases dropped : text.dropWhile p with
  | nil => exact stops
  | cons c rest =>
      rw [dropped] at ends
      exact ends

/-- The longest run of a text ends in the text where what follows the text begins with another character. -/
theorem takeWhile_append {p : Char → Bool} (text : List Char) {after : List Char}
    (stops : after.head?.any p = false) : (text ++ after).takeWhile p = text.takeWhile p := by
  have ends := head?_dropWhile_append text stops
  have shape : text ++ after = text.takeWhile p ++ (text.dropWhile p ++ after) := by
    rw [← List.append_assoc, List.takeWhile_append_dropWhile]
  rw [shape]
  exact takeWhile_of_run List.all_takeWhile ends

theorem dropWhile_append {p : Char → Bool} (text : List Char) {after : List Char}
    (stops : after.head?.any p = false) :
    (text ++ after).dropWhile p = text.dropWhile p ++ after := by
  have ends := head?_dropWhile_append text stops
  have shape : text ++ after = text.takeWhile p ++ (text.dropWhile p ++ after) := by
    rw [← List.append_assoc, List.takeWhile_append_dropWhile]
  rw [shape]
  exact dropWhile_of_run List.all_takeWhile ends

theorem isPrefixOf_append {opening after : List Char} (stops : after.head?.any (opening.contains ·) = false)
    (text : List Char) : opening.isPrefixOf (text ++ after) = opening.isPrefixOf text := by
  induction opening generalizing text with
  | nil => simp
  | cons first opening inductionHypothesis =>
      cases text with
      | cons c rest =>
          have stopsToo : after.head?.any (opening.contains ·) = false := by
            cases after with
            | nil => rfl
            | cons c rest =>
                rw [List.head?_cons, Option.any_some, List.contains_cons, Bool.or_eq_false_iff] at stops
                exact stops.2
          simp only [List.cons_append, List.isPrefixOf, inductionHypothesis stopsToo rest]
      | nil =>
          cases after with
          | nil => rfl
          | cons c rest =>
              rw [List.head?_cons, Option.any_some, List.contains_cons, Bool.or_eq_false_iff] at stops
              simp [List.isPrefixOf, Bool.beq_comm.trans stops.1]

/-! ### Trimming -/

theorem head?_trimEnd {text : List Char} (stops : text.head?.any isBlank = false) :
    (trimEnd text).head?.any isBlank = false := by
  have isBeginning : trimEnd text <+: text := by
    rw [trimEnd, ← List.reverse_suffix, List.reverse_reverse]
    exact List.dropWhile_suffix _
  rcases isBeginning with ⟨removed, whole⟩
  cases trimmed : trimEnd text with
  | nil => rfl
  | cons c rest =>
      rw [← whole, trimmed] at stops
      exact stops

/-- Trimming leaves a trimmed text alone. -/
theorem trim_trim (text : List Char) : trim (trim text) = trim text := by
  have atStart : (trim text).head?.any isBlank = false :=
    head?_trimEnd (head?_dropWhile isBlank text)
  have atEnd : (trim text).reverse.head?.any isBlank = false := by
    rw [trim, trimEnd, List.reverse_reverse]
    exact head?_dropWhile isBlank _
  calc trim (trim text) = trimEnd (trim text) := by rw [trim, trimStart, dropWhile_of_head atStart]
    _ = trim text := by rw [trimEnd, dropWhile_of_head atEnd, List.reverse_reverse]

theorem mem_of_mem_trim {c : Char} {text : List Char} (member : c ∈ trim text) : c ∈ text := by
  rw [trim, trimEnd, List.mem_reverse] at member
  have inStart := (List.dropWhile_suffix _).subset member
  rw [List.mem_reverse] at inStart
  exact (List.dropWhile_suffix _).subset inStart

end TreeLint.Text
