import Mathlib.Data.List.Flatten
import Mathlib.Data.List.Nodup
import Mathlib.Data.List.Perm.Basic

/-!
Contract: lists, whatever they are lists of.

Owns:
- `FirstWith`, the first item of a list with a quality, and its laws along the list;
- lists without repeats, and items that are found by a name of their own;
- numbered items, and what is looked up by their numbers;
- choices among pairs of items, listed along either side;
- functions that may fail on an item: when they fail on none, and what they give then;
- lists in which items are replaced by several, by themselves, or by none but for one of them;
- stable sorting by any total order: a sorted list is determined by what it has in each class of ties.

Nothing here is about trees, rules or reports.
-/

set_option autoImplicit false

namespace TreeLint

variable {α β γ : Type}

/-! ### First items -/

section FirstWith

variable {quality : α → Prop} {items : List α} {item : α}

/-- The item is the first one with the quality. -/
def FirstWith (quality : α → Prop) (items : List α) (item : α) : Prop :=
  ∃ before after, items = before ++ item :: after ∧ quality item ∧ ∀ other ∈ before, ¬ quality other

theorem FirstWith.mem (isFirst : FirstWith quality items item) : item ∈ items := by
  obtain ⟨before, after, rfl, _⟩ := isFirst
  exact List.mem_append_right _ List.mem_cons_self

theorem FirstWith.holds (isFirst : FirstWith quality items item) : quality item := by
  obtain ⟨_, _, _, holds, _⟩ := isFirst
  exact holds

theorem not_firstWith_nil : ¬ FirstWith quality [] item :=
  fun isFirst => absurd isFirst.mem List.not_mem_nil

/-- The first item of a list is the head, if it has the quality, and the first one of the rest otherwise. -/
theorem firstWith_cons_iff (head : α) (rest : List α) :
    FirstWith quality (head :: rest) item ↔
      quality head ∧ item = head ∨ ¬ quality head ∧ FirstWith quality rest item := by
  constructor
  · rintro ⟨before, after, split, holds, none⟩
    rcases List.cons_eq_append_iff.mp split with ⟨rfl, same⟩ | ⟨before, rfl, rfl⟩
    · obtain ⟨rfl, rfl⟩ := List.cons.inj same
      exact .inl ⟨holds, rfl⟩
    · rw [List.forall_mem_cons] at none
      exact .inr ⟨none.1, before, after, rfl, holds, none.2⟩
  · rintro (⟨holds, rfl⟩ | ⟨headNot, before, after, rfl, holds, none⟩)
    · exact ⟨[], rest, rfl, holds, nofun⟩
    · exact ⟨head :: before, after, rfl, holds, List.forall_mem_cons.mpr ⟨headNot, none⟩⟩

theorem FirstWith.unique {other : α} (isFirst : FirstWith quality items item)
    (otherFirst : FirstWith quality items other) : item = other := by
  induction items with
  | nil => exact absurd isFirst not_firstWith_nil
  | cons head rest inductionHypothesis =>
      rcases (firstWith_cons_iff head rest).mp isFirst with ⟨holds, rfl⟩ | ⟨headNot, further⟩
      · rcases (firstWith_cons_iff item rest).mp otherFirst with ⟨_, rfl⟩ | ⟨headNot, _⟩
        · rfl
        · exact absurd holds headNot
      · rcases (firstWith_cons_iff head rest).mp otherFirst with ⟨holds, _⟩ | ⟨_, otherFurther⟩
        · exact absurd holds headNot
        · exact inductionHypothesis further otherFurther

/-- There is a first item with the quality if there is one at all. -/
theorem exists_firstWith (member : item ∈ items) (holds : quality item) :
    ∃ first, FirstWith quality items first := by
  induction items with
  | nil => exact absurd member List.not_mem_nil
  | cons head rest inductionHypothesis =>
      by_cases headHolds : quality head
      · exact ⟨head, (firstWith_cons_iff head rest).mpr (.inl ⟨headHolds, rfl⟩)⟩
      · have inRest : item ∈ rest :=
          (List.mem_cons.mp member).resolve_left fun same => headHolds (same ▸ holds)
        obtain ⟨first, isFirst⟩ := inductionHypothesis inRest
        exact ⟨first, (firstWith_cons_iff head rest).mpr (.inr ⟨headHolds, isFirst⟩)⟩

end FirstWith

/-! ### Lists without repeats -/

theorem nodup_eraseDups [BEq α] [LawfulBEq α] (items : List α) :
    items.eraseDups.Nodup := by
  induction size : items.length using Nat.strongRecOn generalizing items with
  | ind length inductionHypothesis =>
      cases items with
      | nil => simp
      | cons first rest =>
          rw [List.eraseDups_cons, List.nodup_cons]
          refine ⟨fun member => ?_, ?_⟩
          · have kept := List.of_mem_filter (List.mem_eraseDups.mp member)
            simp at kept
          · refine inductionHypothesis _ ?_ _ rfl
            rw [← size, List.length_cons, Nat.lt_succ_iff]
            exact List.length_filter_le _ _

/-- What stands between two items is determined if no item occurs twice. -/
theorem within_eq_of_nodup {first last : α}
    {before within after before' within' after' : List α}
    (distinct : (before ++ first :: (within ++ last :: after)).Nodup)
    (same : before ++ first :: (within ++ last :: after)
      = before' ++ first :: (within' ++ last :: after')) : within = within' := by
  obtain ⟨onceFirst, distinctRest⟩ := List.nodup_cons.mp (List.nodup_middle.mp distinct)
  rw [List.mem_append, not_or] at onceFirst
  obtain ⟨-, -, rest⟩ := (List.append_cons_inj_of_notMem onceFirst.1 onceFirst.2).mp same
  obtain ⟨onceLast, -⟩ := List.nodup_cons.mp (List.nodup_middle.mp (List.nodup_append.mp distinctRest).2.1)
  rw [List.mem_append, not_or] at onceLast
  exact ((List.append_cons_inj_of_notMem onceLast.1 onceLast.2).mp rest).1

/-! ### Numbered items -/

theorem pairwise_zipIdx (items : List α) (start : Nat) :
    (items.zipIdx start).Pairwise fun first second => first.2 < second.2 := by
  induction items generalizing start with
  | nil => exact .nil
  | cons item rest inductionHypothesis =>
      rw [List.zipIdx_cons, List.pairwise_cons]
      refine ⟨fun later member => ?_, inductionHypothesis (start + 1)⟩
      exact (List.mem_zipIdx member).1

/-- Numbers of items, looked up among the items, give the items. -/
theorem filterMap_zipIdx (items : List α) (p : α → Bool) (f : α → Option β) :
    (((items.zipIdx.filter (p ·.1)).map Prod.snd).filterMap fun number => (items[number]?).bind f)
      = (items.filter p).filterMap f := by
  have looked : ∀ entry ∈ items.zipIdx.filter (p ·.1), (items[entry.2]?).bind f = f entry.1 := by
    intro entry member
    rw [List.mem_zipIdx_iff_getElem?.mp (List.mem_of_mem_filter member), Option.bind_some]
  have firsts : (items.zipIdx.filter (p ·.1)).map Prod.fst = items.filter p := by
    rw [← Function.comp_def p Prod.fst, ← List.filter_map, List.zipIdx_map_fst]
  rw [List.filterMap_map, ← firsts, List.filterMap_map]
  exact List.filterMap_congr looked

/-! ### Choices and their images -/

section MapM

variable {ε : Type} {items : List α}

theorem mapM_cons_eq_ok_iff {f : α → Except ε β} {item : α} {results : List β} :
    (item :: items).mapM f = .ok results ↔
      ∃ first others, f item = .ok first ∧ items.mapM f = .ok others ∧ results = first :: others := by
  rw [List.mapM_cons]
  constructor
  · intro mapped
    cases isFirst : f item with
    | error error =>
        rw [isFirst] at mapped
        contradiction
    | ok first =>
        rw [isFirst] at mapped
        cases isRest : items.mapM f with
        | error error =>
            rw [isRest] at mapped
            contradiction
        | ok others =>
            rw [isRest] at mapped
            exact ⟨first, others, rfl, rfl, (Except.ok.inj mapped).symm⟩
  · rintro ⟨first, others, isFirst, isRest, rfl⟩
    rw [isFirst, isRest]
    rfl

theorem exists_mapM_iff {f : α → Except ε β} :
    (∃ results, items.mapM f = .ok results) ↔ ∀ item ∈ items, ∃ result, f item = .ok result := by
  induction items with
  | nil => exact ⟨fun _ _ member => absurd member List.not_mem_nil, fun _ => ⟨[], rfl⟩⟩
  | cons item rest inductionHypothesis =>
      rw [List.forall_mem_cons, ← inductionHypothesis]
      constructor
      · rintro ⟨results, mapped⟩
        obtain ⟨first, others, isFirst, isRest, _⟩ := mapM_cons_eq_ok_iff.mp mapped
        exact ⟨⟨first, isFirst⟩, others, isRest⟩
      · rintro ⟨⟨first, isFirst⟩, others, isRest⟩
        exact ⟨first :: others, mapM_cons_eq_ok_iff.mpr ⟨first, others, isFirst, isRest, rfl⟩⟩

theorem mem_flatten_of_mapM {f : α → Except ε (List β)} {results : List (List β)}
    (mapped : items.mapM f = .ok results) {value : β} :
    value ∈ results.flatten ↔ ∃ item ∈ items, ∃ result, f item = .ok result ∧ value ∈ result := by
  induction items generalizing results with
  | nil =>
      obtain rfl := Except.ok.inj mapped
      simp
  | cons item rest inductionHypothesis =>
      obtain ⟨first, others, isFirst, isRest, rfl⟩ := mapM_cons_eq_ok_iff.mp mapped
      rw [List.flatten_cons, List.mem_append, inductionHypothesis isRest, List.exists_mem_cons_iff, isFirst]
      simp

end MapM

/-! ### Replaced items -/

/-- Items that are replaced by at least one each do not become fewer. -/
theorem length_le_length_flatMap {f : α → List α} (atLeastOne : ∀ item, f item ≠ [])
    (items : List α) : items.length ≤ (items.flatMap f).length := by
  induction items with
  | nil => exact Nat.le_refl _
  | cons first rest inductionHypothesis =>
      have one := List.length_pos_iff.mpr (atLeastOne first)
      rw [List.flatMap_cons, List.length_append, List.length_cons]
      omega

/-- Items that are replaced by at least one each stay as they are exactly if each is replaced by itself. -/
theorem flatMap_eq_self_iff {f : α → List α} (atLeastOne : ∀ item, f item ≠ [])
    {items : List α} : items.flatMap f = items ↔ ∀ item ∈ items, f item = [item] := by
  induction items with
  | nil => simp
  | cons first rest inductionHypothesis =>
      rw [List.flatMap_cons, List.forall_mem_cons]
      constructor
      · intro same
        -- There is no room for a second item of the first, as the others leave at least as many.
        have length := congrArg List.length same
        have others := length_le_length_flatMap atLeastOne rest
        have one := List.length_pos_iff.mpr (atLeastOne first)
        rw [List.length_append, List.length_cons] at length
        have single : (f first).length = [first].length := by
          rw [List.length_singleton]
          omega
        obtain ⟨firstSame, restSame⟩ := List.append_inj same single
        exact ⟨firstSame, inductionHypothesis.mp restSame⟩
      · rintro ⟨firstSame, restSame⟩
        rw [firstSame, inductionHypothesis.mpr restSame]
        rfl

theorem flatMap_eq_replicate [BEq α] [LawfulBEq α] {f : α → List β} (chosen : α)
    (only : ∀ item, item ≠ chosen → f item = []) (items : List α) :
    items.flatMap f = (List.replicate (items.count chosen) chosen).flatMap f := by
  induction items with
  | nil => rfl
  | cons item rest inductionHypothesis =>
      rw [List.flatMap_cons, inductionHypothesis, List.count_cons]
      by_cases isChosen : item = chosen
      · rw [isChosen, beq_self_eq_true, if_pos rfl, List.replicate_succ, List.flatMap_cons]
      · rw [only item isChosen, beq_false_of_ne isChosen]
        rfl

/-- Where only one item gives anything, the order of the items does not matter. -/
theorem flatMap_eq_of_perm [BEq α] [LawfulBEq α] {items others : List α} (permutation : others.Perm items)
    {f : α → List β} (chosen : α) (only : ∀ item, item ≠ chosen → f item = []) :
    others.flatMap f = items.flatMap f := by
  rw [flatMap_eq_replicate chosen only, flatMap_eq_replicate chosen only items, permutation.count_eq]

theorem flatten_set_replicate {number count : Nat} (inRange : number < count) (found : List α) :
    ((List.replicate count []).set number found).flatten = found := by
  obtain ⟨further, rfl⟩ := Nat.exists_eq_add_of_lt inRange
  have split : List.replicate (number + further + 1) ([] : List α)
      = List.replicate number [] ++ [] :: List.replicate further [] := by
    rw [← List.replicate_succ, List.replicate_append_replicate, Nat.add_assoc]
  rw [split, List.set_append_right _ _ (Nat.le_of_eq List.length_replicate), List.length_replicate, Nat.sub_self,
    List.set_cons_zero, List.flatten_append, List.flatten_cons, List.flatten_replicate_nil,
    List.flatten_replicate_nil, List.nil_append, List.append_nil]

/-! ### Stable sorting -/

section Sorting

variable {le : α → α → Bool}

/-- Each of the two may stand before the other. -/
def tied (le : α → α → Bool) (first second : α) : Bool := le first second && le second first

theorem tied_self (total : ∀ a b, (le a b || le b a) = true) (item : α) : tied le item item = true := by
  have reflexive := total item item
  rw [Bool.or_self] at reflexive
  rw [tied, reflexive, Bool.and_self]

/-- Sorting keeps the order of ties. -/
theorem filter_tied_mergeSort (trans : ∀ a b c, le a b = true → le b c = true → le a c = true)
    (total : ∀ a b, (le a b || le b a) = true) (items : List α) (item : α) :
    (items.mergeSort le).filter (tied le item) = items.filter (tied le item) := by
  have ordered : (items.filter (tied le item)).Pairwise (le · · = true) := by
    refine List.pairwise_of_forall_mem_list fun first isFirst second isSecond => ?_
    have before := (Bool.and_eq_true_iff.mp (List.mem_filter.mp isFirst).2).2
    have after := (Bool.and_eq_true_iff.mp (List.mem_filter.mp isSecond).2).1
    exact trans _ _ _ before after
  have kept := (List.sublist_mergeSort trans total ordered List.filter_sublist).filter (tied le item)
  simp only [List.filter_filter, Bool.and_self] at kept
  exact (kept.eq_of_length ((List.mergeSort_perm items le).filter _).length_eq.symm).symm

theorem mem_of_filter_tied (total : ∀ a b, (le a b || le b a) = true) {first second : List α}
    (same : ∀ item, first.filter (tied le item) = second.filter (tied le item)) {item : α}
    (member : item ∈ first) : item ∈ second := by
  have here := List.mem_filter.mpr ⟨member, tied_self total item⟩
  rw [same item] at here
  exact List.mem_of_mem_filter here

theorem le_head (total : ∀ a b, (le a b || le b a) = true) {item : α} {rest : List α}
    (sorted : (item :: rest).Pairwise (le · · = true)) {other : α} (member : other ∈ item :: rest) :
    le item other = true := by
  rcases List.mem_cons.mp member with rfl | later
  · exact (Bool.and_eq_true_iff.mp (tied_self total other)).1
  · exact List.rel_of_pairwise_cons sorted later

/-- A sorted list is determined by what it has in each class of ties. -/
theorem eq_of_filter_tied (total : ∀ a b, (le a b || le b a) = true) {first second : List α}
    (firstSorted : first.Pairwise (le · · = true)) (secondSorted : second.Pairwise (le · · = true))
    (same : ∀ item, first.filter (tied le item) = second.filter (tied le item)) : first = second := by
  have same' : ∀ item, second.filter (tied le item) = first.filter (tied le item) :=
    fun item => (same item).symm
  induction first generalizing second with
  | nil =>
      cases second with
      | nil => rfl
      | cons other _ => exact absurd (mem_of_filter_tied total same' List.mem_cons_self) List.not_mem_nil
  | cons item rest inductionHypothesis =>
      cases second with
      | nil => exact absurd (mem_of_filter_tied total same List.mem_cons_self) List.not_mem_nil
      | cons other further =>
          -- Both heads are least, so they are tied, and the class of the ties begins with either of them.
          have isTied : tied le item other = true :=
            Bool.and_eq_true_iff.mpr
              ⟨le_head total firstSorted (mem_of_filter_tied total same' List.mem_cons_self),
                le_head total secondSorted (mem_of_filter_tied total same List.mem_cons_self)⟩
          have heads := same item
          rw [List.filter_cons_of_pos (tied_self total item), List.filter_cons_of_pos isTied] at heads
          obtain ⟨rfl, _⟩ := List.cons.inj heads
          have tails : ∀ third, rest.filter (tied le third) = further.filter (tied le third) := by
            intro third
            have classes := same third
            rw [List.filter_cons, List.filter_cons] at classes
            split at classes
            · exact List.tail_eq_of_cons_eq classes
            · exact classes
          rw [inductionHypothesis firstSorted.of_cons secondSorted.of_cons tails fun third =>
            (tails third).symm]

end Sorting

end TreeLint
