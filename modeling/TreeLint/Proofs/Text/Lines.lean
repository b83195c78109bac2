import TreeLint.Proofs.Lists

/-!
Contract: the lines of a text.

Owns:
- `Text.lines`, the lines that a reader sees: each ends at a line feed, a carriage return right before the line
  feed belongs to the ending, and what follows the last ending is a line unless it is empty;
- `Text.Unbroken` and `Text.IsLine`, by which a text does not break a line and is a line of its own;
- texts that are put together from others, and when these break a line;
- texts that are written with a line feed after each: they are the lines of what is written exactly if each of
  them is a line.
-/

set_option autoImplicit false

namespace TreeLint.Text

/-- A line without the carriage return of its ending. -/
def withoutReturn (line : List Char) : List Char :=
  if line.getLast? = some '\r' then line.dropLast else line

/-- The lines of a text, of which the first begins with `current`. -/
def linesFrom (current : List Char) : List Char → List (List Char)
  | [] => if current.isEmpty then [] else [current]
  | c :: rest =>
      if c = '\n' then withoutReturn current :: linesFrom [] rest else linesFrom (current ++ [c]) rest

/-- The lines of a text, without their endings. -/
def lines (text : String) : List String := (linesFrom [] text.toList).map String.ofList

/-- No line ends inside a text. -/
def Unbroken (text : String) : Prop := '\n' ∉ text.toList

/-- A text is a line of its own once a line feed follows it. -/
def IsLine (text : String) : Prop := Unbroken text ∧ text.toList.getLast? ≠ some '\r'

instance (text : String) : Decidable (Unbroken text) := inferInstanceAs (Decidable (¬ _))

instance (text : String) : Decidable (IsLine text) := inferInstanceAs (Decidable (_ ∧ _))

/-! ### Texts that are put together -/

theorem unbroken_append {first second : String} :
    Unbroken (first ++ second) ↔ Unbroken first ∧ Unbroken second := by
  rw [Unbroken, String.toList_append, List.mem_append, not_or]
  rfl

theorem unbroken_intercalate {separator : String} (unbroken : Unbroken separator) {pieces : List String} :
    Unbroken (separator.intercalate pieces) ↔ ∀ piece ∈ pieces, Unbroken piece := by
  induction pieces with
  | nil => exact iff_of_true List.not_mem_nil (List.forall_mem_nil _)
  | cons piece rest inductionHypothesis =>
      by_cases isLast : rest = []
      · rw [isLast, String.intercalate_singleton, List.forall_mem_singleton]
      · rw [String.intercalate_cons_of_ne_nil isLast, unbroken_append, unbroken_append, inductionHypothesis,
          List.forall_mem_cons, and_iff_left unbroken]

theorem unbroken_toString (n : Nat) : Unbroken (toString n) := by
  intro isBreak
  have digits : (toString n).toList = Nat.toDigits 10 n := String.toList_ofList
  rw [digits] at isBreak
  exact absurd (Nat.isDigit_of_mem_toDigits (by decide) (by decide) isBreak) (by decide)

/-- What is put in front of a line only must not break it. -/
theorem isLine_append {first second : String} (ends : first.toList.getLast? ≠ some '\r') :
    IsLine (first ++ second) ↔ Unbroken first ∧ IsLine second := by
  have last : (first ++ second).toList.getLast? ≠ some '\r' ↔ second.toList.getLast? ≠ some '\r' := by
    rw [String.toList_append, List.getLast?_append]
    cases second.toList.getLast? with
    | none => exact iff_of_true ends nofun
    | some c => rfl
  rw [IsLine, unbroken_append, last, and_assoc]
  rfl

/-! ### One ended line -/

theorem withoutReturn_eq_self_iff {line : List Char} :
    withoutReturn line = line ↔ line.getLast? ≠ some '\r' := by
  rw [withoutReturn]
  split
  · rename_i ends
    refine iff_of_false (fun same => ?_) (not_not_intro ends)
    have shorter := congrArg List.length same
    have somewhere := List.length_pos_of_mem (List.mem_of_getLast? ends)
    rw [List.length_dropLast] at shorter
    omega
  · rename_i ends
    exact iff_of_true rfl ends

theorem linesFrom_of_not_mem {line : List Char} (unbroken : '\n' ∉ line) (current : List Char) :
    linesFrom current (line ++ ['\n']) = [withoutReturn (current ++ line)] := by
  induction line generalizing current with
  | nil => simp [linesFrom]
  | cons c rest inductionHypothesis =>
      obtain ⟨notBreak, unbrokenRest⟩ := List.ne_and_not_mem_of_not_mem_cons unbroken
      rw [List.cons_append, linesFrom, if_neg notBreak.symm, inductionHypothesis unbrokenRest,
        List.append_assoc, List.singleton_append]

/-- There is a line for each line feed. -/
theorem length_linesFrom (text current : List Char) :
    (linesFrom current (text ++ ['\n'])).length = text.count '\n' + 1 := by
  induction text generalizing current with
  | nil => simp [linesFrom]
  | cons c rest inductionHypothesis =>
      rw [List.cons_append, linesFrom, List.count_cons]
      split
      · rename_i isBreak
        simp [inductionHypothesis, isBreak]
      · rename_i notBreak
        simp [inductionHypothesis, notBreak]

theorem linesFrom_eq_singleton_iff {line : List Char} :
    linesFrom [] (line ++ ['\n']) = [line] ↔ '\n' ∉ line ∧ line.getLast? ≠ some '\r' := by
  constructor
  · intro single
    have noBreak : line.count '\n' = 0 := by
      have length := length_linesFrom line []
      rw [single, List.length_singleton] at length
      omega
    have unbroken := List.count_eq_zero.mp noBreak
    rw [linesFrom_of_not_mem unbroken, List.nil_append, List.singleton_inj] at single
    exact ⟨unbroken, withoutReturn_eq_self_iff.mp single⟩
  · rintro ⟨unbroken, noReturn⟩
    rw [linesFrom_of_not_mem unbroken, List.nil_append, withoutReturn_eq_self_iff.mpr noReturn]

theorem lines_eq_singleton_iff {text : String} : lines (text ++ "\n") = [text] ↔ IsLine text := by
  have asList : lines (text ++ "\n") = [text] ↔ linesFrom [] (text.toList ++ ['\n']) = [text.toList] := by
    rw [lines, String.toList_append, ← List.map_inj_right (f := String.ofList) fun _ _ => String.ofList_inj.mp]
    rw [List.map_singleton, String.ofList_toList]
    rfl
  rw [asList, linesFrom_eq_singleton_iff]
  rfl

/-! ### Several ended lines -/

theorem linesFrom_append (current text rest : List Char) :
    linesFrom current (text ++ '\n' :: rest) = linesFrom current (text ++ ['\n']) ++ linesFrom [] rest := by
  induction text generalizing current with
  | nil => simp [linesFrom]
  | cons c text inductionHypothesis =>
      rw [List.cons_append, List.cons_append, linesFrom, linesFrom]
      split
      · rw [inductionHypothesis, List.cons_append]
      · exact inductionHypothesis _

theorem lines_append (text rest : String) :
    lines (text ++ "\n" ++ rest) = lines (text ++ "\n") ++ lines rest := by
  have cut := linesFrom_append [] text.toList rest.toList
  simp only [lines, String.toList_append, ← List.map_append]
  rw [List.append_assoc]
  exact congrArg (List.map String.ofList) cut

/-- Written one below the other, texts have the lines that each of them has. -/
theorem lines_join (texts : List String) :
    lines (String.join (texts.map (· ++ "\n"))) = texts.flatMap fun text => lines (text ++ "\n") := by
  induction texts with
  | nil => rfl
  | cons text rest inductionHypothesis =>
      rw [List.map_cons, String.join_cons, lines_append, inductionHypothesis, List.flatMap_cons]

theorem lines_ne_nil (text : String) : lines (text ++ "\n") ≠ [] := by
  intro isEmpty
  have length := congrArg List.length isEmpty
  rw [lines, String.toList_append, List.length_map] at length
  exact absurd ((length_linesFrom text.toList []).symm.trans length) (Nat.succ_ne_zero _)

/-- Texts that are written with a line feed after each are the lines of what is written exactly if each of them
is a line. -/
theorem lines_join_eq_iff {texts : List String} :
    lines (String.join (texts.map (· ++ "\n"))) = texts ↔ ∀ text ∈ texts, IsLine text := by
  rw [lines_join, flatMap_eq_self_iff lines_ne_nil]
  simp only [lines_eq_singleton_iff]

example : lines "a\r\n\nb\rc\r" = ["a", "", "b\rc\r"] := by decide

end TreeLint.Text
