import TreeLint.Proofs.Json.Documents
import TreeLint.Proofs.Tree.ReadBack

/-!
Contract: the numbers in trees are numbers.

Owns:
- the proof that the documents that are read from texts are numeric: nothing in them stands for "not a number";
- `Tree.Loaded`, the trees of such documents;
- `Tree.Loaded.resolve_ne_nan`, by which no path in a loaded tree leads to "not a number".

Does not own: which numbers a tree holds.
-/

set_option autoImplicit false

namespace TreeLint

/-! ### Documents that are read -/

namespace JsonReader

theorem toDouble_ne_nan_of_assemble? {negative : Bool} {whole : List Char} {fraction : Option (List Char)}
    {exponent : Option (Bool × List Char)} {number : JsonNumber}
    (assembled : assemble? negative whole fraction exponent = some number) : number.toDouble ≠ .nan := by
  unfold assemble? at assembled
  simp only at assembled
  split at assembled
  · split at assembled
    · obtain rfl := Option.some.inj assembled
      exact Double.noConfusion
    · obtain rfl := Option.some.inj assembled
      exact Double.noConfusion
  · split at assembled
    · obtain ⟨_, _, rfl⟩ := Option.map_eq_some_iff.mp assembled
      exact Double.noConfusion
    · split at assembled
      · split at assembled
        · contradiction
        · obtain rfl := Option.some.inj assembled
          exact Double.noConfusion
      · obtain ⟨_, _, rfl⟩ := Option.map_eq_some_iff.mp assembled
        exact Double.noConfusion

theorem toDouble_ne_nan_of_number? {text rest : List Char} {number : JsonNumber}
    (read : number? text = some (number, rest)) : number.toDouble ≠ .nan := by
  rw [number?.eq_def] at read
  split at read
  all_goals
    simp only [Option.bind_eq_bind, Option.bind_eq_some_iff, Option.pure_def, Option.some.injEq] at read
    obtain ⟨_, _, _, _, _, _, assembled, isAssembled, isResult⟩ := read
    obtain ⟨rfl, _⟩ := Prod.mk.inj isResult
    exact toDouble_ne_nan_of_assemble? isAssembled

theorem toDouble_ne_nan_of_numberRest? {text : List Char} {number : JsonNumber} {rest : Rest text}
    (read : numberRest? text = some (number, rest)) : number.toDouble ≠ .nan := by
  unfold numberRest? at read
  split at read
  · rename_i isNumber
    split at read
    · obtain ⟨rfl, rfl⟩ := Prod.mk.inj (Option.some.inj read)
      exact toDouble_ne_nan_of_number? isNumber
    · contradiction
  · contradiction

/-- What is left after a separator is shorter than the text in front of it. -/
theorem length_lt_of_separator {text more : List Char} {separator : Char} (rest : Rest text)
    (found : skipBlanks rest.1 = separator :: more) : (skipBlanks more).length < text.length := by
  have := skipBlanks_length_le rest.1
  have := skipBlanks_length_le more
  have := rest.2
  rw [found, List.length_cons] at *
  omega

/-- Whatever document is read from the text is numeric. -/
def GivesNumeric (room : Nat) (text : List Char) : Prop :=
  ∀ document rest, value? room text = some (document, rest) → document.Numeric

theorem numeric_of_items? {room : Nat} (text : List Char)
    (values : ∀ inner : List Char, inner.length ≤ text.length → GivesNumeric room inner)
    {items : List Json} {rest : Rest text} (read : items? room text = some (items, rest)) :
    ∀ item ∈ items, item.Numeric := by
  induction size : text.length using Nat.strongRecOn generalizing text items with
  | ind size inductionHypothesis =>
      subst size
      have first := values text (Nat.le_refl _)
      rw [items?] at read
      split at read
      · contradiction
      · rename_i item after readItem
        split at read
        · obtain ⟨rfl, rfl⟩ := Prod.mk.inj (Option.some.inj read)
          exact List.forall_mem_singleton.mpr (first _ _ readItem)
        · rename_i more goesOn
          obtain ⟨⟨further, afterFurther⟩, readFurther, isResult⟩ := Option.map_eq_some_iff.mp read
          obtain ⟨rfl, rfl⟩ := Prod.mk.inj isResult
          have shorter := length_lt_of_separator after goesOn
          refine List.forall_mem_cons.mpr ⟨first _ _ readItem, ?_⟩
          exact inductionHypothesis _ shorter _
            (fun inner small => values inner (Nat.le_trans small (Nat.le_of_lt shorter))) readFurther rfl
        · contradiction

theorem numeric_of_members? {room : Nat} (text : List Char)
    (values : ∀ inner : List Char, inner.length ≤ text.length → GivesNumeric room inner)
    {members : List (String × Json)} {rest : Rest text} (read : members? room text = some (members, rest)) :
    ∀ member ∈ members, member.2.Numeric := by
  induction size : text.length using Nat.strongRecOn generalizing text members with
  | ind size inductionHypothesis =>
      subst size
      rw [members?.eq_def] at read
      split at read
      · rename_i keyText
        split at read
        · contradiction
        · rename_i key afterKey _
          split at read
          · rename_i afterColon colon
            have shorter := Nat.lt_succ_of_lt (length_lt_of_separator afterKey colon)
            have first := values (skipBlanks afterColon) (Nat.le_of_lt shorter)
            split at read
            · contradiction
            · rename_i value after readValue
              split at read
              · obtain ⟨rfl, rfl⟩ := Prod.mk.inj (Option.some.inj read)
                exact List.forall_mem_singleton.mpr (first _ _ readValue)
              · rename_i more goesOn
                obtain ⟨⟨further, afterFurther⟩, readFurther, isResult⟩ := Option.map_eq_some_iff.mp read
                obtain ⟨rfl, rfl⟩ := Prod.mk.inj isResult
                have shorterStill := Nat.lt_trans (length_lt_of_separator after goesOn) shorter
                refine List.forall_mem_cons.mpr ⟨first _ _ readValue, ?_⟩
                exact inductionHypothesis _ shorterStill _
                  (fun inner small => values inner (Nat.le_trans small (Nat.le_of_lt shorterStill)))
                  readFurther rfl
              · contradiction
          · contradiction
      · contradiction

theorem givesNumeric (room : Nat) (text : List Char) : GivesNumeric room text := by
  induction size : text.length using Nat.strongRecOn generalizing room text with
  | ind size inductionHypothesis =>
      subst size
      intro document rest read
      have inside : ∀ {begins : Char} {further : List Char}, text = begins :: further → ∀ room inner,
          inner.length ≤ (skipBlanks further).length → GivesNumeric room inner := by
        rintro begins further rfl room inner small
        have := skipBlanks_length_le further
        exact inductionHypothesis _ (by rw [List.length_cons]; omega) room inner rfl
      fun_cases value? room text with
      | case1 | case2 | case3 =>
          rw [value?] at read
          obtain ⟨rfl, _⟩ := Prod.mk.inj (Option.some.inj read)
          constructor
      | case4 =>
          rw [value?] at read
          obtain ⟨⟨value, after⟩, _, isResult⟩ := Option.map_eq_some_iff.mp read
          obtain ⟨rfl, _⟩ := Prod.mk.inj isResult
          exact .string value
      | case5 | case8 =>
          rw [value?] at read
          contradiction
      | case6 | case7 =>
          rw [value?] at read
          split at read
          · obtain ⟨rfl, _⟩ := Prod.mk.inj (Option.some.inj read)
            exact .array (List.forall_mem_nil _)
          · obtain ⟨⟨items, after⟩, readItems, isResult⟩ := Option.map_eq_some_iff.mp read
            obtain ⟨rfl, _⟩ := Prod.mk.inj isResult
            exact .array (numeric_of_items? _ (inside rfl _) readItems)
      | case9 | case10 =>
          rw [value?] at read
          split at read
          · obtain ⟨rfl, _⟩ := Prod.mk.inj (Option.some.inj read)
            exact .object (List.forall_mem_nil _)
          · obtain ⟨⟨members, after⟩, readMembers, isResult⟩ := Option.map_eq_some_iff.mp read
            obtain ⟨rfl, _⟩ := Prod.mk.inj isResult
            exact Json.numeric_ofMembers (numeric_of_members? _ (inside rfl _) readMembers)
      | case11 =>
          rw [value?] at read
          · obtain ⟨⟨number, after⟩, readNumber, isResult⟩ := Option.map_eq_some_iff.mp read
            obtain ⟨rfl, _⟩ := Prod.mk.inj isResult
            exact .number (toDouble_ne_nan_of_numberRest? readNumber)
          all_goals assumption

end JsonReader

/-- Documents that are read from texts are numeric. -/
theorem Json.numeric_of_read? {text : List Char} {document : Json} (read : Json.read? text = some document) :
    document.Numeric := by
  unfold Json.read? at read
  split at read
  · rename_i document' rest isRead
    split at read
    · obtain rfl := Option.some.inj read
      exact JsonReader.givesNumeric _ _ _ _ isRead
    · contradiction
  · contradiction

/-! ### Trees -/

/-- The tree is that of a numeric document. -/
def Tree.Loaded (tree : Tree) : Prop := ∃ document : Json, document.Numeric ∧ Tree.ofJson document = .ok tree

theorem Tree.loaded_of_read {text : String} {tree : Tree} (isRead : Tree.read .standard text = .ok tree) :
    tree.Loaded := by
  unfold Tree.read at isRead
  split at isRead
  · rename_i document isDocument
    have found := Formats.json_standard_eq_ok_iff.mp isDocument
    exact ⟨document, Json.numeric_of_read? found, isRead⟩
  · contradiction

theorem Json.Numeric.part? {document part : Json} (numeric : document.Numeric) {index : Nat}
    (isPart : document.part? index = some part) : part.Numeric := by
  cases numeric with
  | array each => exact each part (List.mem_of_getElem? isPart)
  | object each =>
      obtain ⟨⟨key, value⟩, isMember, isValue⟩ := Option.bind_eq_some_iff.mp isPart
      simp only [Option.ite_none_left_eq_some, Option.some.injEq] at isValue
      obtain ⟨_, rfl⟩ := isValue
      exact each (key, value) (List.mem_of_getElem? isMember)
  | _ => contradiction

theorem Json.Numeric.at? {document part : Json} (numeric : document.Numeric) {position : Position}
    (isPart : document.at? position = some part) : part.Numeric := by
  induction position generalizing document with
  | nil =>
      obtain rfl := Option.some.inj isPart
      exact numeric
  | cons index rest inductionHypothesis =>
      obtain ⟨inner, isInner, isRest⟩ := Option.bind_eq_some_iff.mp isPart
      exact inductionHypothesis (numeric.part? isInner) isRest

namespace Tree

variable {document : Json} {tree : Tree}

/-- A path from what a part is stored as leads to no value that is not a number. -/
theorem ne_nan_of_follow (built : ofJson document = .ok tree) (numeric : document.Numeric) (path : List String)
    {position : Position} {part : Json} (isPart : document.at? position = some part) :
    tree.follow (part.image document.numberAt position) path ≠ some (.number .nan) := by
  induction path generalizing position part with
  | nil =>
      rw [follow]
      intro isNumber
      cases part with
      | number value =>
          cases numeric.at? isPart with
          | number isNumber' => exact isNumber' (Value.number.inj (Option.some.inj isNumber))
      | object members =>
          rw [Json.image] at isNumber
          split at isNumber <;> cases isNumber
      | _ => cases isNumber
  | cons segment rest inductionHypothesis =>
      rw [follow, lookup_image built isPart]
      cases isStep : part.step? segment with
      | some index =>
          obtain ⟨inner, isInner⟩ := Json.exists_part_of_step? isStep
          simp only [isInner, Option.map_some]
          apply inductionHypothesis
          rw [Json.at?_concat, isPart, Option.bind_some, isInner]
      | none =>
          cases part.length? segment with
          | none => exact Option.some_ne_none _ ∘ Eq.symm
          | some count =>
              cases rest with
              | nil => exact fun same => by cases same
              | cons further rest => exact fun same => by cases same

/-- No path in a loaded tree leads to a value that is not a number. -/
theorem Loaded.resolve_ne_nan (loaded : tree.Loaded) (id : Nat) (path : List String) :
    tree.resolve id path ≠ some (.number .nan) := by
  obtain ⟨document, numeric, built⟩ := loaded
  by_cases inTree : id < tree.size
  · obtain ⟨position, found⟩ := exists_position built inTree
    obtain ⟨_, _, ⟨members, isObject, _⟩, _⟩ := exists_node_of_position built found
    rw [resolve, ← (image_eq_node_iff isObject id).mpr found]
    exact ne_nan_of_follow built numeric path isObject
  · have noNode : tree.node? id = none := Array.getElem?_eq_none (Nat.le_of_not_lt inTree)
    cases path with
    | nil => exact fun same => by cases same
    | cons segment rest =>
        rw [resolve, follow, lookup, fields, noNode]
        exact Option.some_ne_none _ ∘ Eq.symm

end Tree

end TreeLint
