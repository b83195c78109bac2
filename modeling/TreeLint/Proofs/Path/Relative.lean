import Mathlib.Data.List.DropRight
import Mathlib.Data.List.Infix
import TreeLint.Path.Basic

/-!
Contract: paths as texts, and what remains of them below a directory.

Owns:
- the pieces of a text, which make up the text again;
- the lengths of joined pieces: what is left of them when some are taken away is no longer;
- when a path lies below a directory, and how much shorter its text is there;
- relative paths that begin with `./` only if that is put before them.

Does not own: what the remaining text of a path is matched against.
-/

set_option autoImplicit false

namespace TreeLint

namespace Path

/-! ### Texts and pieces -/

theorem split_ne_nil (current rest : List Char) : split current rest ≠ [] := by
  induction rest generalizing current with
  | nil => exact List.cons_ne_nil _ _
  | cons c rest inductionHypothesis =>
      rw [split.eq_def]
      split
      · contradiction
      · exact List.cons_ne_nil _ _
      · rename_i same
        obtain ⟨rfl, rfl⟩ := List.cons.inj same
        exact inductionHypothesis _

/-- The pieces of a text, joined by slashes, are the text. -/
theorem intercalate_split (current rest : List Char) :
    "/".intercalate (split current rest) = String.ofList (current.reverse ++ rest) := by
  induction rest generalizing current with
  | nil => simp [split]
  | cons c rest inductionHypothesis =>
      rw [split.eq_def]
      split
      · contradiction
      · rename_i same
        obtain ⟨rfl, rfl⟩ := List.cons.inj same
        rw [String.intercalate_cons_of_ne_nil (split_ne_nil _ _), inductionHypothesis]
        apply String.toList_inj.mp
        simp
      · rename_i same
        obtain ⟨rfl, rfl⟩ := List.cons.inj same
        rw [inductionHypothesis]
        simp

def cut (text : String) : List String := split [] text.toList

theorem intercalate_cut (text : String) : "/".intercalate (cut text) = text := by
  rw [cut, intercalate_split]
  simp

/-- With `./` before it, every text denotes a path that begins at the current directory. -/
theorem ofString_dotSlash (text : String) : ofString ("./" ++ text) = ⟨.current, cut text⟩ := by
  have pieces : split [] ("./" ++ text).toList = "." :: cut text := by
    rw [String.toList_append]
    rfl
  rw [ofString, pieces]
  cases cut text <;> rfl

/-- A relative path that does not begin with `./`. -/
structure Bare (text : String) : Prop where
  relative : ¬ "/".toList <+: text.toList
  undotted : ¬ "./".toList <+: text.toList

/-- A bare path begins with a filler only if there is nothing else. -/
theorem Bare.exists_first {text : String} (bare : Bare text) :
    ∃ first rest, cut text = first :: rest ∧ (isFiller first = true → rest = []) := by
  obtain ⟨first, rest, pieces⟩ := List.exists_cons_of_ne_nil (split_ne_nil [] text.toList)
  refine ⟨first, rest, pieces, fun filler => ?_⟩
  by_contra more
  have joined := intercalate_cut text
  rw [cut, pieces, String.intercalate_cons_of_ne_nil more] at joined
  rw [isFiller, Bool.or_eq_true, beq_iff_eq, beq_iff_eq] at filler
  rcases filler with rfl | rfl
  · refine bare.relative ?_
    rw [← joined]
    simp
  · refine bare.undotted ?_
    rw [← joined]
    simp

/-- A bare path is the current directory itself, or it begins with none of the special beginnings. -/
theorem Bare.ofString_eq {text : String} (bare : Bare text) :
    text = "." ∨ ofString text = ⟨.plain, cut text⟩ := by
  obtain ⟨first, rest, pieces, single⟩ := bare.exists_first
  rw [ofString, ← cut]
  split
  · rename_i none
    exact absurd (pieces.symm.trans none) (List.cons_ne_nil _ _)
  · rename_i second others absolute
    obtain ⟨rfl, rfl⟩ := List.cons.inj (pieces.symm.trans absolute)
    exact absurd (single rfl) (List.cons_ne_nil _ _)
  · rename_i others current
    obtain ⟨rfl, rfl⟩ := List.cons.inj (pieces.symm.trans current)
    left
    rw [← intercalate_cut text, pieces, single rfl]
    rfl
  · right
    rfl

/-! ### The lengths of joined pieces -/

theorem length_intercalate_cons (piece : String) (rest : List String) :
    ("/".intercalate (piece :: rest)).length
      = piece.length + (if rest = [] then 0 else 1 + ("/".intercalate rest).length) := by
  split
  · rename_i isLast
    rw [isLast, String.intercalate_singleton]
    rfl
  · rename_i more
    rw [String.intercalate_cons_of_ne_nil more, String.length_append, String.length_append]
    exact Nat.add_assoc ..

theorem length_intercalate_le_of_sublist {few many : List String} (sublist : few.Sublist many) :
    ("/".intercalate few).length ≤ ("/".intercalate many).length := by
  induction sublist with
  | slnil => exact Nat.le_refl _
  | cons piece sublist inductionHypothesis =>
      rw [length_intercalate_cons]
      split
      · rename_i isLast
        rw [isLast, String.intercalate_nil] at inductionHypothesis
        exact Nat.le_trans inductionHypothesis (Nat.zero_le _)
      · omega
  | @cons_cons few many piece sublist inductionHypothesis =>
      rw [length_intercalate_cons, length_intercalate_cons]
      split
      · omega
      · rename_i more
        have moreThere : many ≠ [] := fun none => more (List.sublist_nil.mp (none ▸ sublist))
        rw [if_neg moreThere]
        omega

/-- Joining fewer of the first pieces gives a beginning of what joining more of them gives. -/
theorem prefix_intercalate {few many : List String} (isPrefix : few <+: many) :
    ("/".intercalate few).toList <+: ("/".intercalate many).toList := by
  obtain ⟨rest, rfl⟩ := isPrefix
  by_cases none : few = []
  · subst none
    simp
  by_cases noMore : rest = []
  · subst noMore
    simp
  · rw [String.intercalate_append_of_ne_nil none noMore, String.append_assoc, String.toList_append]
    exact List.prefix_append _ _

/-! ### Fillers at the end -/

theorem prefix_dropFillersRight (pieces : List String) : dropFillersRight pieces <+: pieces :=
  List.rdropWhile_prefix isFiller pieces

/-- The text of a path without fillers at its end, if it begins in no special way. -/
def trimmed (text : String) : String := (trimRight ⟨.plain, cut text⟩).text

theorem prefix_trimmed (text : String) : (trimmed text).toList <+: text.toList := by
  have isPrefix := prefix_intercalate (prefix_dropFillersRight (cut text))
  rwa [intercalate_cut] at isPrefix

theorem Bare.undotted_trimmed {text : String} (bare : Bare text) : ¬ "./".toList <+: (trimmed text).toList :=
  fun isPrefix => bare.undotted (isPrefix.trans (prefix_trimmed text))

/-- In a bare path nothing is gained by dropping fillers at the beginning too. -/
theorem Bare.text_dropWhile {text : String} (bare : Bare text) :
    (trimRight ⟨.plain, (cut text).dropWhile isFiller⟩).text = trimmed text := by
  obtain ⟨first, rest, pieces, single⟩ := bare.exists_first
  rw [trimmed, pieces]
  cases filler : isFiller first with
  | true =>
      obtain rfl := single filler
      simp [trimRight, dropFillersRight, filler]
  | false => rw [List.dropWhile_cons_of_neg (by simp [filler])]

/-- Only from the two texts without names nothing is left. -/
theorem Bare.eq_of_dropFillersRight {text : String} (bare : Bare text) (none : dropFillersRight (cut text) = []) :
    text = "" ∨ text = "." := by
  obtain ⟨first, rest, pieces, single⟩ := bare.exists_first
  have fillers : ∀ piece ∈ cut text, isFiller piece = true := by
    simpa [dropFillersRight] using none
  have filler : isFiller first = true := fillers first (pieces ▸ List.mem_cons_self)
  have joined := intercalate_cut text
  rw [pieces, single filler, String.intercalate_singleton] at joined
  subst joined
  simpa [isFiller] using filler

/-! ### What remains below a directory -/

theorem dropComponents_isSome_iff (wanted : List PathComponent) (pieces : List String) :
    (dropComponents wanted pieces).isSome = true ↔ wanted <+: pieces.filterMap component? := by
  fun_induction dropComponents wanted pieces with
  | case1 pieces => simp
  | case2 wanted others => simp
  | case3 wanted others piece rest isFiller inductionHypothesis =>
      rw [inductionHypothesis, List.filterMap_cons_none isFiller]
  | case4 others piece rest found isFound inductionHypothesis =>
      rw [inductionHypothesis, List.filterMap_cons_some isFound, List.cons_prefix_cons]
      simp
  | case5 wanted others piece rest found isFound other =>
      rw [List.filterMap_cons_some isFound, List.cons_prefix_cons]
      simp [Ne.symm other]

theorem dropComponents_suffix {wanted : List PathComponent} {pieces rest : List String}
    (remain : dropComponents wanted pieces = some rest) : rest <:+ pieces := by
  fun_induction dropComponents wanted pieces with
  | case1 pieces =>
      obtain rfl := Option.some.inj remain
      exact List.suffix_refl _
  | case2 wanted others => contradiction
  | case3 wanted others piece more isFiller inductionHypothesis =>
      exact (inductionHypothesis remain).trans (List.suffix_cons _ _)
  | case4 others piece more found isFound inductionHypothesis =>
      exact (inductionHypothesis remain).trans (List.suffix_cons _ _)
  | case5 wanted others piece more found isFound other => contradiction

/-- A piece that is a component has letters, so that less is left without it. -/
theorem length_lt_of_dropComponents {wanted : PathComponent} {others : List PathComponent}
    {pieces rest : List String} (remain : dropComponents (wanted :: others) pieces = some rest) :
    ("/".intercalate rest).length < ("/".intercalate pieces).length := by
  induction pieces with
  | nil => contradiction
  | cons piece more inductionHypothesis =>
      have shorter : ("/".intercalate more).length ≤ ("/".intercalate (piece :: more)).length :=
        length_intercalate_le_of_sublist (List.sublist_cons_self _ _)
      rw [dropComponents] at remain
      split at remain
      · exact Nat.lt_of_lt_of_le (inductionHypothesis remain) shorter
      · rename_i found isFound
        split at remain
        · have notEmpty : piece ≠ "" := by
            rintro rfl
            contradiction
          have letters : 0 < piece.length := by
            rw [Nat.pos_iff_ne_zero]
            exact fun none => notEmpty (String.length_eq_zero_iff.mp none)
          have isLeft := length_intercalate_le_of_sublist (dropComponents_suffix remain).sublist
          rw [length_intercalate_cons]
          split
          · rename_i isLast
            subst isLast
            rw [String.intercalate_nil] at isLeft
            exact Nat.lt_of_le_of_lt isLeft letters
          · omega
        · contradiction

/-- A path begins with the components of a directory. -/
def LiesBelow (path base : Path) : Prop := base.components <+: path.components

instance (path base : Path) : Decidable (path.LiesBelow base) :=
  inferInstanceAs (Decidable (base.components <+: path.components))

theorem relativeTo?_isSome_iff (path base : Path) :
    (path.relativeTo? base).isSome = true ↔ path.LiesBelow base := by
  rw [relativeTo?, LiesBelow, components.eq_def path]
  split
  · rename_i none
    simp [none]
  · rename_i first others isBase
    rw [isBase, Option.isSome_map]
    split
    · rename_i own isOwn
      rw [isOwn, Option.toList_some, List.singleton_append, List.cons_prefix_cons]
      split
      · rename_i same
        simp [same, dropComponents_isSome_iff]
      · rename_i other
        simp [Ne.symm other]
    · rename_i none
      rw [none, dropComponents_isSome_iff]
      rfl

theorem component?_ne_current (piece : String) : component? piece ≠ some .current := by
  rw [component?]
  split
  · exact nofun
  · split <;> exact nofun

/-- A path with no special beginning does not lie below the current directory. -/
theorem not_liesBelow_of_current {pieces : List String} {base : Path} {others : List PathComponent}
    (isBase : base.components = .current :: others) : ¬ (⟨.plain, pieces⟩ : Path).LiesBelow base := by
  intro below
  rw [LiesBelow, isBase] at below
  have member : PathComponent.current ∈ pieces.filterMap component? := below.subset List.mem_cons_self
  obtain ⟨piece, _, isCurrent⟩ := List.mem_filterMap.mp member
  exact component?_ne_current piece isCurrent

/-- Below a directory that has more than the special beginning of a path, the text of the path is shorter. -/
theorem length_lt_of_relativeTo? {path base rest : Path} (below : path.relativeTo? base = some rest)
    (deeper : (startComponent? path.start).toList.length < base.components.length) :
    rest.text.length < ("/".intercalate path.pieces).length := by
  have trimmed : ∀ pieces : List String,
      (trimRight ⟨.plain, pieces.dropWhile isFiller⟩).text.length ≤ ("/".intercalate pieces).length := by
    intro pieces
    exact length_intercalate_le_of_sublist
      ((prefix_dropFillersRight _).sublist.trans (List.dropWhile_sublist _))
  rw [relativeTo?] at below
  split at below
  · rename_i none
    rw [none] at deeper
    exact absurd deeper (Nat.not_lt_zero _)
  · rename_i first others isBase
    obtain ⟨remaining, remain, rfl⟩ := Option.map_eq_some_iff.mp below
    refine Nat.lt_of_le_of_lt (trimmed remaining) ?_
    split at remain
    · rename_i own isOwn
      rw [isBase, isOwn] at deeper
      split at remain
      · cases others with
        | nil => exact absurd deeper (Nat.lt_irrefl _)
        | cons second others => exact length_lt_of_dropComponents remain
      · contradiction
    · exact length_lt_of_dropComponents remain

end Path

end TreeLint
