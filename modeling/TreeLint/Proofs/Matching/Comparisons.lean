import TreeLint.Matching.Semantics
import TreeLint.Proofs.Json.RoundTrip
import TreeLint.Proofs.Number.RoundTrip
import TreeLint.Proofs.Tree.Numeric
import TreeLint.Regex.Standard

/-!
Contract: tests of equality and of order agree with each other.

Owns:
- the texts that numbers are compared as: two numbers have the same text exactly if they are equal;
- `Alike`, a value and a literal of one kind, for which all six comparisons are decided by one order;
- `Coherent`, what the six comparisons of a value and a literal have to do with each other;
- `Tree.comparisons_cohere`, by which the attribute tests of loaded trees are coherent.

Does not own: tests for regular expressions and for kinds of values.
-/

set_option autoImplicit false

namespace TreeLint

/-! ### Numbers and their texts -/

namespace Value

/-- The text of a number reads back to a number of the same place. -/
theorem exists_read?_numberForm {x : Double} (isNumber : x ≠ .nan) :
    ∃ y, Double.read? (numberForm x).toList = some y ∧ y.rank = x.rank := by
  cases x with
  | nan => exact absurd rfl isNumber
  | signed negative magnitude =>
      rw [numberForm]
      split
      · rename_i isInfinite
        subst isInfinite
        cases negative with
        | true => exact ⟨.signed true Magnitude.infinity, by decide +kernel, rfl⟩
        | false => exact ⟨.signed false Magnitude.infinity, by decide +kernel, rfl⟩
      · rename_i isFinite
        split
        · rename_i isZero
          obtain rfl : magnitude = 0 := Fin.ext isZero
          exact ⟨.zero, by decide +kernel, by cases negative <;> rfl⟩
        · rw [Double.text, String.toList_ofList]
          exact ⟨_, Double.read?_render (by simpa [Double.isFinite] using isFinite), rfl⟩

theorem numberForm_of_zero (negative : Bool) {magnitude : Magnitude} (isZero : magnitude.val = 0) :
    numberForm (.signed negative magnitude) = "0" := by
  obtain rfl : magnitude = 0 := Fin.ext isZero
  rfl

theorem numberForm_eq_iff {x y : Double} (xNumber : x ≠ .nan) (yNumber : y ≠ .nan) :
    numberForm x = numberForm y ↔ x.rank = y.rank := by
  constructor
  · intro same
    obtain ⟨x', xRead, xRank⟩ := exists_read?_numberForm xNumber
    obtain ⟨y', yRead, yRank⟩ := exists_read?_numberForm yNumber
    rw [same, yRead] at xRead
    obtain rfl := Option.some.inj xRead
    exact xRank.symm.trans yRank
  · intro same
    cases x with
    | nan => exact absurd rfl xNumber
    | signed negative magnitude =>
        cases y with
        | nan => exact absurd rfl yNumber
        | signed negative' magnitude' =>
            have places := Option.some.inj same
            by_cases sameSign : negative = negative'
            · subst sameSign
              obtain rfl : magnitude = magnitude' := by
                apply Fin.ext
                split at places <;> omega
              rfl
            · -- Numbers of different signs are in one place only if both are zero.
              have bothZero : magnitude.val = 0 ∧ magnitude'.val = 0 := by
                split at places
                · rename_i isNegative
                  rw [if_neg (fun isNegative' => sameSign (isNegative.trans isNegative'.symm))] at places
                  omega
                · rename_i notNegative
                  have isNegative' : negative' = true := by
                    rw [Bool.not_eq_true] at notNegative
                    rwa [notNegative, eq_comm, Bool.not_eq_false] at sameSign
                  rw [if_pos isNegative'] at places
                  omega
              rw [numberForm_of_zero negative bothZero.1, numberForm_of_zero negative' bothZero.2]

end Value

/-! ### One order for all comparisons -/

/-- A value and a literal that are both strings or both numbers. -/
inductive Alike : Option Value → Operand → Prop where
  | strings (left right : String) : Alike (some (.string left)) (.string right)
  | numbers (left right : Double) : Alike (some (.number left)) (.number right)

/-- Values that have no place among strings or numbers: what is absent, null, lists, objects and nodes. -/
inductive Unordered : Option Value → Prop where
  | absent : Unordered none
  | null : Unordered (some .null)
  | array (items : List Value) : Unordered (some (.array items))
  | object (fields : List (String × Value)) : Unordered (some (.object fields))
  | node (id : Nat) : Unordered (some (.node id))

theorem orderOf?_of_unordered {value : Option Value} (unordered : Unordered value) (literal : Operand) :
    orderOf? value literal = none := by
  cases unordered <;> cases literal <;> rfl

/-- Of the two strict comparisons and equality one order satisfies exactly one. -/
theorem Comparison.existsUnique_accepts (order : Ordering) :
    ∃! comparison, comparison ∈ [less, equal, greater] ∧ comparison.accepts order = true := by
  have onlyOne : ∀ first ∈ [less, equal, greater], ∀ second ∈ [less, equal, greater],
      first.accepts order = true → second.accepts order = true → second = first := by
    cases order <;> decide
  obtain ⟨first, isStrict, accepts⟩ :
      ∃ comparison ∈ [less, equal, greater], comparison.accepts order = true := by
    cases order <;> decide
  exact ⟨first, ⟨isStrict, accepts⟩, fun second both => onlyOne first isStrict second both.1 accepts both.2⟩

namespace Test

theorem verdict_equal (engine : RegexEngine) {literal : Operand} (isLiteral : literal.isLiteral = true)
    (value : Option Value) :
    (verdict engine ⟨.equal, literal⟩ value).holds = (some (Value.stringForm value) == literal.literalForm?) := by
  cases literal with
  | string | number => rfl
  | regex | typeName => contradiction

theorem verdict_notEqual (engine : RegexEngine) {literal : Operand} (isLiteral : literal.isLiteral = true)
    (value : Option Value) :
    (verdict engine ⟨.notEqual, literal⟩ value).holds = !(verdict engine ⟨.equal, literal⟩ value).holds := by
  cases literal with
  | string | number => rfl
  | regex | typeName => contradiction

theorem verdict_relational (engine : RegexEngine) {literal : Operand} (isLiteral : literal.isLiteral = true)
    {comparison : Comparison} (relational : comparison.isEquality = false) (value : Option Value) :
    (verdict engine ⟨comparison, literal⟩ value).holds = (orderOf? value literal).any comparison.accepts := by
  cases comparison with
  | equal | notEqual => contradiction
  | _ =>
      cases literal with
      | string | number => rfl
      | regex | typeName => contradiction

end Test

/-- A value and a literal of one kind stand in one order, which decides equality as well. -/
theorem Alike.exists_order {value : Option Value} {literal : Operand} (alike : Alike value literal)
    (valueNumber : value ≠ some (.number .nan)) (literalNumber : literal ≠ .number .nan) :
    ∃ order, orderOf? value literal = some order ∧
      (some (Value.stringForm value) = literal.literalForm? ↔ order = .eq) := by
  cases alike with
  | strings left right =>
      refine ⟨compare left right, rfl, ?_⟩
      rw [Value.stringForm, Value.form, Operand.literalForm?, Option.some.injEq]
      exact Std.compare_eq_iff_eq.symm
  | numbers left right =>
      have leftNumber : left ≠ .nan := fun isNan => valueNumber (by rw [isNan])
      have rightNumber : right ≠ .nan := fun isNan => literalNumber (by rw [isNan])
      have sameText := Value.numberForm_eq_iff leftNumber rightNumber
      rw [Value.stringForm, Value.form, Operand.literalForm?, Option.some.injEq, sameText]
      cases left with
      | nan => exact absurd rfl leftNumber
      | signed negative magnitude =>
          cases right with
          | nan => exact absurd rfl rightNumber
          | signed negative' magnitude' =>
              refine ⟨_, rfl, ?_⟩
              rw [Double.rank, Double.rank, Option.some.injEq]
              exact Std.compare_eq_iff_eq.symm

/-! ### Coherence -/

/-- What the six comparisons of a value and a literal have to do with each other. -/
structure Coherent (value : Option Value) (literal : Operand) (passes : Comparison → Prop) : Prop where
  exactlyOne : Alike value literal →
    ∃! comparison, comparison ∈ [.less, .equal, .greater] ∧ passes comparison
  lessOrEqual_iff : Alike value literal → (passes .lessOrEqual ↔ passes .less ∨ passes .equal)
  greaterOrEqual_iff : Alike value literal → (passes .greaterOrEqual ↔ passes .greater ∨ passes .equal)
  notEqual_iff : passes .notEqual ↔ ¬passes .equal
  unordered : Unordered value → ∀ comparison, comparison.isEquality = false → ¬passes comparison
  exclusive : ¬(passes .less ∧ passes .greater)
  lessOrEqual_of_less : passes .less → passes .lessOrEqual
  greaterOrEqual_of_greater : passes .greater → passes .greaterOrEqual
  notStrict : passes .lessOrEqual → passes .greaterOrEqual → ¬passes .less ∧ ¬passes .greater

/-- Whether a node passes the test of the value at a path by a literal. -/
def Tree.Passes (tree : Tree) (engine : RegexEngine) (id : Nat) (path : List String) (literal : Operand)
    (comparison : Comparison) : Prop :=
  (Selector.ofAtom (.attribute path (some ⟨comparison, literal⟩))).holds tree engine id = true

namespace Tree

variable {tree : Tree} (engine : RegexEngine) (id : Nat) (path : List String) {literal : Operand}

theorem passes_equal_iff (isLiteral : literal.isLiteral = true) :
    tree.Passes engine id path literal .equal ↔
      some (Value.stringForm (tree.resolve id path)) = literal.literalForm? := by
  rw [← beq_iff_eq, ← Test.verdict_equal engine isLiteral]
  rfl

theorem passes_notEqual_iff (isLiteral : literal.isLiteral = true) :
    tree.Passes engine id path literal .notEqual ↔ ¬tree.Passes engine id path literal .equal := by
  rw [passes_equal_iff engine id path isLiteral, ← beq_iff_eq, ← Test.verdict_equal engine isLiteral,
    Bool.not_eq_true, ← Bool.not_eq_true', ← Test.verdict_notEqual engine isLiteral]
  rfl

theorem passes_relational_iff (isLiteral : literal.isLiteral = true) (comparison : Comparison)
    (relational : comparison.isEquality = false) :
    tree.Passes engine id path literal comparison ↔
      (orderOf? (tree.resolve id path) literal).any comparison.accepts = true := by
  rw [← Test.verdict_relational engine isLiteral relational]
  rfl

/-- All comparisons with a literal of the same kind are decided by one order. -/
theorem exists_order_of_alike (loaded : tree.Loaded) (isLiteral : literal.isLiteral = true)
    (isNumber : literal ≠ .number .nan) (alike : Alike (tree.resolve id path) literal) :
    ∃ order, ∀ comparison, tree.Passes engine id path literal comparison ↔ comparison.accepts order = true := by
  obtain ⟨order, isOrder, equal_iff⟩ := alike.exists_order (loaded.resolve_ne_nan id path) isNumber
  refine ⟨order, fun comparison => ?_⟩
  cases comparison with
  | equal => rw [passes_equal_iff engine id path isLiteral, equal_iff, Comparison.accepts, beq_iff_eq]
  | notEqual =>
      rw [passes_notEqual_iff engine id path isLiteral, passes_equal_iff engine id path isLiteral, equal_iff,
        Comparison.accepts, bne_iff_ne]
  | _ => rw [passes_relational_iff engine id path isLiteral _ rfl, isOrder, Option.any_some]

/-- The six tests of the value at a path by a literal, which is a string or a number, are coherent. -/
theorem comparisons_cohere (loaded : tree.Loaded) (isLiteral : literal.isLiteral = true)
    (isNumber : literal ≠ .number .nan) :
    Coherent (tree.resolve id path) literal (tree.Passes engine id path literal) := by
  have oneOrder := exists_order_of_alike engine id path loaded isLiteral isNumber
  have decides := @passes_relational_iff tree engine id path literal isLiteral
  have noOrder : Unordered (tree.resolve id path) → orderOf? (tree.resolve id path) literal = none :=
    fun unordered => orderOf?_of_unordered unordered literal
  generalize orderOf? (tree.resolve id path) literal = order? at decides noOrder
  exact {
    exactlyOne := by
      intro alike
      obtain ⟨order, decidesAll⟩ := oneOrder alike
      simpa only [decidesAll] using Comparison.existsUnique_accepts order
    lessOrEqual_iff := by
      intro alike
      obtain ⟨order, decidesAll⟩ := oneOrder alike
      rw [decidesAll, decidesAll, decidesAll]
      cases order <;> decide
    greaterOrEqual_iff := by
      intro alike
      obtain ⟨order, decidesAll⟩ := oneOrder alike
      rw [decidesAll, decidesAll, decidesAll]
      cases order <;> decide
    notEqual_iff := passes_notEqual_iff engine id path isLiteral
    unordered := by
      intro unordered comparison relational
      rw [decides comparison relational, noOrder unordered]
      exact Bool.false_ne_true
    exclusive := by
      rw [decides .less rfl, decides .greater rfl]
      rcases order? with _ | _ | _ | _ <;> decide
    lessOrEqual_of_less := by
      rw [decides .less rfl, decides .lessOrEqual rfl]
      rcases order? with _ | _ | _ | _ <;> decide
    greaterOrEqual_of_greater := by
      rw [decides .greater rfl, decides .greaterOrEqual rfl]
      rcases order? with _ | _ | _ | _ <;> decide
    notStrict := by
      rw [decides .lessOrEqual rfl, decides .greaterOrEqual rfl, decides .less rfl, decides .greater rfl]
      rcases order? with _ | _ | _ | _ <;> decide }

def sized : Json := .object [("type", .string "A"), ("size", .number (.whole false 3))]

theorem exact_sized : sized.Exact 127 := by
  refine .object (by decide) ?_
  simp only [List.forall_mem_cons]
  exact ⟨.string _, .whole ⟨by decide, nofun⟩, List.forall_mem_nil _⟩

/-- A number of a tree that was read from a text, and a literal that is a number, too. -/
theorem comparisons_cohere_size :
    ∃ tree : Tree, Tree.read .standard sized.text = .ok tree ∧ tree.Loaded ∧
      tree.resolve root ["size"] = some (.number (.ofNat 3)) ∧
      Alike (tree.resolve root ["size"]) (.number (.ofNat 4)) ∧
      Coherent (tree.resolve root ["size"]) (.number (.ofNat 4))
        (tree.Passes .standard root ["size"] (.number (.ofNat 4))) := by
  have isRead : Tree.read .standard sized.text
      = .ok ⟨#[⟨"A", none, [], [("type", .string "A"), ("size", .number (.ofNat 3))]⟩]⟩ := by
    rw [Tree.read, Formats.json_standard_eq_ok_iff.mpr (Json.read?_text exact_sized)]
    rfl
  have loaded := loaded_of_read isRead
  refine ⟨_, isRead, loaded, rfl, .numbers _ _, ?_⟩
  exact comparisons_cohere .standard root ["size"] loaded rfl (by decide)

end Tree

end TreeLint
