import Mathlib.Data.List.Lex
import Mathlib.Data.Prod.Lex
import Mathlib.Data.String.Basic
import TreeLint.Proofs.Path.Relative

/-!
Contract: the order of paths.

Owns:
- `PathComponent.key` and `Path.key`, by which the order of paths is that of lists of places and names;
- the components of a path without `.`, of which a path has at most one more, at its beginning;
- the beginning of a path, which is that of the paths below it.

Paths with the same components have the same key, and no others do.
-/

set_option autoImplicit false

namespace TreeLint

namespace PathComponent

variable {left right : PathComponent}

/-- The text of a name; the special components have none. -/
def nameText : PathComponent → String
  | .name text => text
  | _ => ""

def key (component : PathComponent) : Nat ×ₗ String := toLex (component.rank, component.nameText)

theorem key_injective : Function.Injective key := by
  intro left right same
  cases left <;> cases right <;> simp_all [key, rank, nameText]

theorem compare_of_rank_ne (differs : left.rank ≠ right.rank) :
    left.compare right = Ord.compare left.rank right.rank := by
  unfold compare
  split
  · exact absurd rfl differs
  · rfl

/-- Components of one kind are names, or there is only one of the kind. -/
theorem eq_or_names_of_rank_eq (same : left.rank = right.rank) :
    left = right ∨ ∃ first second, left = .name first ∧ right = .name second := by
  cases left <;> cases right <;> simp_all [rank]

theorem compare_self (component : PathComponent) : component.compare component = .eq := by
  cases component with
  | name text => simp [compare, compareOfLessAndEq]
  | _ => rfl

theorem compares_key (left right : PathComponent) : (left.compare right).Compares left.key right.key := by
  rcases Nat.lt_trichotomy left.rank right.rank with before | same | after
  · rw [compare_of_rank_ne (Nat.ne_of_lt before), compare_lt_iff_lt.mpr before]
    exact Prod.Lex.toLex_lt_toLex.mpr (.inl before)
  · rcases eq_or_names_of_rank_eq same with rfl | ⟨first, second, rfl, rfl⟩
    · rw [compare_self]
      rfl
    · rcases lt_trichotomy first second with before | rfl | after
      · rw [compare, compareOfLessAndEq, if_pos before]
        exact Prod.Lex.toLex_lt_toLex.mpr (.inr ⟨rfl, before⟩)
      · rw [compare_self]
        rfl
      · rw [compare, compareOfLessAndEq, if_neg (lt_asymm after), if_neg (ne_of_gt after)]
        exact Prod.Lex.toLex_lt_toLex.mpr (.inr ⟨rfl, after⟩)
  · rw [compare_of_rank_ne (Nat.ne_of_gt after), compare_gt_iff_gt.mpr after]
    exact Prod.Lex.toLex_lt_toLex.mpr (.inl after)

end PathComponent

namespace Path

def key (path : Path) : List (Nat ×ₗ String) := path.components.map PathComponent.key

theorem key_eq_iff {left right : Path} : left.key = right.key ↔ left.components = right.components :=
  (List.map_injective_iff.mpr PathComponent.key_injective).eq_iff

theorem compares_components (left right : List PathComponent) :
    (compareComponents left right).Compares (left.map PathComponent.key) (right.map PathComponent.key) := by
  induction left generalizing right with
  | nil =>
      cases right with
      | nil => rfl
      | cons component rest => exact List.nil_lt_cons _ _
  | cons component rest inductionHypothesis =>
      cases right with
      | nil => exact List.nil_lt_cons _ _
      | cons other others =>
          have heads := component.compares_key other
          have tails := inductionHypothesis others
          rw [compareComponents, List.map_cons, List.map_cons]
          cases isOrder : component.compare other with
          | lt =>
              rw [isOrder] at heads
              exact List.cons_lt_cons_iff.mpr (.inl heads)
          | gt =>
              rw [isOrder] at heads
              exact List.cons_lt_cons_iff.mpr (.inl heads)
          | eq =>
              rw [isOrder] at heads
              have same : component.key = other.key := heads
              rw [Ordering.then, same]
              cases isRest : compareComponents rest others with
              | lt =>
                  rw [isRest] at tails
                  exact List.cons_lt_cons_iff.mpr (.inr ⟨rfl, tails⟩)
              | gt =>
                  rw [isRest] at tails
                  exact List.cons_lt_cons_iff.mpr (.inr ⟨rfl, tails⟩)
              | eq =>
                  rw [isRest] at tails
                  exact congrArg _ tails

/-- Paths are ordered as their keys. -/
theorem compare_eq_lt_iff {left right : Path} : left.compare right = .lt ↔ left.key < right.key :=
  (compares_components left.components right.components).eq_lt

theorem compare_ne_gt_iff {left right : Path} : left.compare right ≠ .gt ↔ left.key ≤ right.key := by
  rw [← not_lt]
  exact not_congr (compares_components left.components right.components).eq_gt

/-! ### Components but `.` -/

/-- The components of a path without `.`. -/
def undotted (path : Path) : List PathComponent := path.components.filter (· ≠ .current)

theorem component?_ne_root (piece : String) : component? piece ≠ some .root := by
  rw [component?]
  split
  · exact (Option.some_ne_none _).symm
  · split <;> simp

theorem undotted_named (pieces : List String) :
    (pieces.filterMap component?).filter (· ≠ .current) = pieces.filterMap component? := by
  rw [List.filter_eq_self]
  intro component member
  obtain ⟨piece, _, isComponent⟩ := List.mem_filterMap.mp member
  refine decide_eq_true ?_
  rintro rfl
  exact component?_ne_current piece isComponent

/-- A path begins with `.`, or that is none of its components. -/
theorem components_eq (path : Path) :
    path.components = (if path.start = .current then [.current] else []) ++ path.undotted := by
  obtain ⟨start, pieces⟩ := path
  rw [undotted, components, List.filter_append, undotted_named]
  cases start <;> rfl

/-- Paths that agree but for `.` have the same components, or one has a `.` more at its beginning. -/
theorem undotted_eq_iff {left right : Path} :
    left.undotted = right.undotted ↔
      left.components = right.components ∨ left.components = .current :: right.components ∨
        right.components = .current :: left.components := by
  constructor
  · intro same
    rw [left.components_eq, right.components_eq, same]
    split <;> split <;> simp
  · rintro (same | more | more) <;> rw [undotted, undotted]
    · rw [same]
    · rw [more, List.filter_cons_of_neg (by decide)]
    · rw [more, List.filter_cons_of_neg (by decide)]

/-- A path with a `.` more than another begins with it, and the other one has no special beginning. -/
theorem starts_of_components_eq {dotted plain : Path}
    (more : dotted.components = .current :: plain.components) :
    dotted.start = .current ∧ plain.start = .plain := by
  obtain ⟨start, pieces⟩ := dotted
  obtain ⟨start', pieces'⟩ := plain
  have noSpecial : ∀ component ∈ pieces.filterMap component?, component ≠ .current ∧ component ≠ .root := by
    intro component member
    obtain ⟨piece, _, isComponent⟩ := List.mem_filterMap.mp member
    refine ⟨?_, ?_⟩ <;> rintro rfl
    · exact component?_ne_current piece isComponent
    · exact component?_ne_root piece isComponent
  cases start with
  | current =>
      refine ⟨rfl, ?_⟩
      have named : pieces.filterMap component? = (⟨start', pieces'⟩ : Path).components :=
        (List.cons.inj more).2
      rw [named] at noSpecial
      cases start' with
      | plain => rfl
      | current => exact absurd rfl (noSpecial .current List.mem_cons_self).1
      | absolute => exact absurd rfl (noSpecial .root List.mem_cons_self).2
  | absolute => exact absurd (List.cons.inj more).1 (by decide)
  | plain =>
      have member : PathComponent.current ∈ pieces.filterMap component? := by
        change pieces.filterMap component? = _ at more
        rw [more]
        exact List.mem_cons_self
      exact absurd rfl (noSpecial _ member).1

/-! ### Beginnings -/

theorem start_of_slash {text : String} (absolute : "/".toList <+: text.toList) :
    (ofString text).start = .absolute := by
  obtain ⟨rest, isRest⟩ := absolute
  have pieces : split [] text.toList = "" :: split [] rest := by
    rw [← isRest]
    rfl
  obtain ⟨first, others, isSplit⟩ := List.exists_cons_of_ne_nil (split_ne_nil [] rest)
  rw [ofString, pieces, isSplit]
  rfl

/-- How a path begins shows in its first two characters, unless it is `.`. -/
theorem start_ofString (text : String) :
    (ofString text).start
      = if "/".toList <+: text.toList then .absolute
        else if text = "." ∨ "./".toList <+: text.toList then .current
        else .plain := by
  split
  · rename_i absolute
    exact start_of_slash absolute
  · rename_i relative
    split
    · rename_i dotted
      rcases dotted with rfl | ⟨rest, isRest⟩
      · rfl
      · have isText : text = "./" ++ String.ofList rest := by
          rw [← String.toList_inj, String.toList_append, @String.toList_ofList rest]
          exact isRest.symm
        rw [isText, ofString_dotSlash]
    · rename_i undotted
      rw [not_or] at undotted
      rw [((⟨relative, undotted.2⟩ : Bare text).ofString_eq).resolve_left undotted.1]

/-- With a slash and more after it, a path begins as before. -/
theorem start_append_slash {text : String} (nonempty : text ≠ "") (rest : String) :
    (ofString (text ++ "/" ++ rest)).start = (ofString text).start := by
  obtain ⟨first, more, isText⟩ := List.exists_cons_of_ne_nil (mt String.toList_eq_nil_iff.mp nonempty)
  have longer : (text ++ "/" ++ rest).toList = first :: (more ++ '/' :: rest.toList) := by
    rw [String.toList_append, String.toList_append, isText, List.append_assoc, List.cons_append]
    rfl
  rw [start_ofString, start_ofString]
  simp only [← String.toList_inj, longer, isText]
  cases more with
  | nil => simp [@eq_comm Char '.']
  | cons second further => simp

theorem exists_of_endsWith_slash {text : String} (slashed : text.endsWith "/" = true) :
    ∃ before, text = before ++ "/" := by
  rw [← String.endsWith_toSlice, String.Slice.endsWith_string_iff, String.copy_toSlice] at slashed
  obtain ⟨before, isText⟩ := slashed
  refine ⟨String.ofList before, ?_⟩
  rw [← String.toList_inj, String.toList_append, @String.toList_ofList before]
  exact isText.symm

/-- A path below a directory begins like the directory. -/
theorem start_below {directory : String} (nonempty : directory ≠ "") (name : String) :
    (ofString (below directory name)).start = (ofString directory).start := by
  rw [below, if_neg (by simpa using nonempty)]
  split
  · rename_i slashed
    obtain ⟨before, rfl⟩ := exists_of_endsWith_slash slashed
    by_cases isTop : before = ""
    · subst isTop
      have absolute : "/".toList <+: ("" ++ "/" ++ name).toList := by simp
      rw [start_of_slash absolute]
      rfl
    · have same := start_append_slash isTop ""
      rw [String.append_empty] at same
      rw [start_append_slash isTop, same]
  · exact start_append_slash nonempty name

theorem below_ne_empty {directory : String} (nonempty : directory ≠ "") (name : String) :
    below directory name ≠ "" := by
  rw [below, if_neg (by simpa using nonempty)]
  split <;> simp [nonempty]

end Path

end TreeLint
