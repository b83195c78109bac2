import Mathlib.Data.List.Chain
import TreeLint.Proofs.Selector.Printable
import TreeLint.Selector.Printer

/-!
Contract: which selectors their texts tell.

Owns:
- `Selector.Legible`, the condition that in no sequence the name at the end of an atom runs on into the next
  atom, and that no test has a number that is not finite;
- the atoms that a sequence becomes when atoms that run on are joined;
- `Selector.Reread`, which relates a selector to the one that its text denotes.

The text of a selector denotes the selector itself exactly if the selector is legible.

Does not own: the proof that a text denotes the reread selector.
-/

set_option autoImplicit false

namespace TreeLint

/-! ### Names that run on -/

namespace Atom

/-- Whether the name that the first atom ends with goes on in the second one. No separator is written between
the atoms of a sequence, and the mark before a name is not written at all. -/
def runsOn : Atom → Atom → Bool
  | .identifier _, .identifier _ | .identifier _, .wildcard => true
  | .field _, .identifier _ | .field _, .wildcard | .field _, .field _ => true
  | _, _ => false

def isFinite : Atom → Bool
  | .attribute _ (some ⟨_, .number value⟩) => value.isFinite
  | _ => true

end Atom

namespace Selector

def runsOn : Selector → Selector → Bool
  | .atom _ left, .atom _ right => left.runsOn right
  | _, _ => false

/-- No atom of a sequence runs on into the next one, and all numbers are finite. -/
inductive Legible : Selector → Prop where
  | atom {marked : Bool} {condition : Atom} :
      condition.isFinite = true → Legible (.atom marked condition)
  | joined {marked : Bool} {combinator : Combinator} {left right : Selector} :
      Legible left → Legible right → Legible (.joined marked combinator left right)
  | compound {marked : Bool} {members : List Selector} :
      members.IsChain (fun left right => left.runsOn right = false) →
        (∀ member ∈ members, Legible member) → Legible (.compound marked members)
  | union {marked : Bool} {members : List Selector} :
      (∀ member ∈ members, Legible member) → Legible (.union marked members)

/-- A sequence is legible if its atoms are finite and none runs on into the next one. -/
theorem legible_ofSequence_iff {marked : Bool} {conditions : List Atom} :
    (ofSequence marked conditions).Legible ↔
      conditions.IsChain (fun left right => left.runsOn right = false) ∧
        ∀ condition ∈ conditions, condition.isFinite = true := by
  have ofMember : ∀ {condition : Atom}, (ofAtom condition).Legible → condition.isFinite = true := by
    intro condition legible
    cases legible with
    | atom finite => exact finite
  unfold ofSequence
  split
  · rename_i only
    constructor
    · intro legible
      cases legible with
      | atom finite => exact ⟨.singleton only, by simpa using finite⟩
    · intro legible
      exact .atom (legible.2 only List.mem_cons_self)
  · constructor
    · intro legible
      cases legible with
      | compound chain members =>
          rw [List.isChain_map] at chain
          refine ⟨chain, fun condition member => ?_⟩
          exact ofMember (members _ (List.mem_map.mpr ⟨condition, member, rfl⟩))
    · rintro ⟨chain, finite⟩
      refine .compound ((List.isChain_map ofAtom).mpr chain) fun member isMember => ?_
      obtain ⟨condition, isCondition, rfl⟩ := List.mem_map.mp isMember
      exact .atom (finite condition isCondition)

end Selector

/-! ### Joined atoms -/

namespace Atom

/-- A path with letters after its last name. -/
def extendLast (letters : String) : List String → List String
  | [] => []
  | [last] => [last ++ letters]
  | name :: rest => name :: extendLast letters rest

/-- The atom that two atoms are read as when the first one runs on into the second one. -/
def join? : Atom → Atom → Option Atom
  | .identifier name, .identifier letters => some (.identifier (name ++ letters))
  | .identifier name, .wildcard => some (.identifier (name ++ "*"))
  | .field path, .identifier letters => some (.field (extendLast letters path))
  | .field path, .wildcard => some (.field (extendLast "*" path))
  | .field path, .field others => some (.field (path ++ others))
  | _, _ => none

/-- The atoms that a sequence is read as, its first atom given apart. -/
def joinRuns (current : Atom) : List Atom → List Atom
  | [] => [current]
  | next :: rest =>
      match join? current next with
      | some joined => joinRuns joined rest
      | none => current :: joinRuns next rest

theorem join?_eq_none_iff {left right : Atom} :
    left.join? right = none ↔ left.runsOn right = false := by
  unfold join? runsOn
  split <;> simp_all

/-- Joining leaves open to an atom before it what the first of both leaves open. -/
theorem runsOn_of_join? {before left right joined : Atom} (isJoined : left.join? right = some joined) :
    before.runsOn joined = before.runsOn left := by
  unfold join? at isJoined
  split at isJoined
  all_goals first
    | contradiction
    | obtain rfl := Option.some.inj isJoined
      cases before <;> rfl

theorem joinRuns_head (rest : List Atom) :
    ∀ current : Atom, ∃ first others, joinRuns current rest = first :: others ∧
      ∀ before : Atom, before.runsOn first = before.runsOn current := by
  induction rest with
  | nil => exact fun current => ⟨current, [], rfl, fun _ => rfl⟩
  | cons next rest inductionHypothesis =>
      intro current
      unfold joinRuns
      split
      · rename_i joined isJoined
        obtain ⟨first, others, shape, same⟩ := inductionHypothesis joined
        exact ⟨first, others, shape, fun before => (same before).trans (runsOn_of_join? isJoined)⟩
      · exact ⟨current, _, rfl, fun _ => rfl⟩

theorem isChain_joinRuns (rest : List Atom) :
    ∀ current : Atom, (joinRuns current rest).IsChain (fun left right => left.runsOn right = false) := by
  induction rest with
  | nil => exact fun current => .singleton current
  | cons next rest inductionHypothesis =>
      intro current
      unfold joinRuns
      split
      · exact inductionHypothesis _
      · rename_i apart
        obtain ⟨first, others, shape, same⟩ := joinRuns_head rest next
        have chain := inductionHypothesis next
        rw [shape] at chain ⊢
        exact .cons_cons ((same current).trans (join?_eq_none_iff.mp apart)) chain

theorem joinRuns_of_isChain {rest : List Atom} :
    ∀ {current : Atom},
      (current :: rest).IsChain (fun left right => left.runsOn right = false) →
        joinRuns current rest = current :: rest := by
  induction rest with
  | nil => exact fun _ => rfl
  | cons next rest inductionHypothesis =>
      intro current chain
      rw [List.isChain_cons_cons] at chain
      unfold joinRuns
      rw [join?_eq_none_iff.mpr chain.1]
      exact congrArg (current :: ·) (inductionHypothesis chain.2)

/-- A sequence in which an atom runs on is read as fewer atoms. -/
theorem length_joinRuns (rest : List Atom) :
    ∀ current : Atom, (joinRuns current rest).length ≤ (current :: rest).length ∧
      ((joinRuns current rest).length = (current :: rest).length →
        (current :: rest).IsChain (fun left right => left.runsOn right = false)) := by
  induction rest with
  | nil => exact fun current => ⟨Nat.le_refl _, fun _ => .singleton current⟩
  | cons next rest inductionHypothesis =>
      intro current
      unfold joinRuns
      split
      · rename_i joined _
        obtain ⟨atMost, _⟩ := inductionHypothesis joined
        rw [List.length_cons] at atMost ⊢
        rw [List.length_cons]
        exact ⟨by omega, fun isLength => by omega⟩
      · rename_i apart
        obtain ⟨atMost, ofLength⟩ := inductionHypothesis next
        refine ⟨Nat.succ_le_succ atMost, fun isLength => ?_⟩
        exact .cons_cons (join?_eq_none_iff.mp apart) (ofLength (Nat.succ.inj isLength))

end Atom

/-! ### Reread selectors -/

/-- The operand that the text of an operand denotes. The text of an infinite number is a name. -/
def Operand.reread : Operand → Operand
  | .number value => if value.isFinite then .number value else .string value.text
  | operand => operand

namespace Atom

def reread : Atom → Atom
  | .attribute path (some ⟨comparison, operand⟩) =>
      .attribute path (some ⟨comparison, operand.reread⟩)
  | condition => condition

theorem reread_of_isFinite {condition : Atom} (finite : condition.isFinite = true) :
    condition.reread = condition := by
  unfold reread
  split
  · rename_i path comparison operand
    cases operand with
    | number value =>
        have isFinite : value.isFinite = true := finite
        rw [Operand.reread, if_pos isFinite]
    | _ => rfl
  · rfl

/-- An atom that equals its reread form is finite: what is not a number equals no number. -/
theorem isFinite_of_same {condition : Atom} (same : condition.same condition.reread = true) :
    condition.isFinite = true := by
  unfold isFinite
  split
  · rename_i path comparison value
    by_contra notFinite
    simp [Atom.same, reread, Operand.reread, notFinite, Operand.same] at same
  · rfl

theorem same_self {condition : Atom} (finite : condition.isFinite = true) :
    condition.same condition = true := by
  cases condition with
  | «attribute» path test =>
      match test with
      | none => simp [Atom.same]
      | some ⟨comparison, operand⟩ =>
          have sameOperand : operand.same operand = true := by
            cases operand with
            | number value => exact Double.same_self finite
            | _ => simp [Operand.same]
          simp [Atom.same, sameOperand]
  | _ => simp [Atom.same]

end Atom

namespace Selector

/-- What the text of a sequence or of a chain of sequences denotes. -/
inductive RereadChain : Selector → Selector → Prop where
  | sequence (marked : Bool) (first : Atom) (others : List Atom) :
      RereadChain (ofSequence marked (first :: others))
        (ofSequence marked ((first.joinRuns others).map Atom.reread))
  | joined {left left' right right' : Selector} (combinator : Combinator) :
      RereadChain left left' → RereadChain right right' →
        RereadChain (.joined false combinator left right) (.joined false combinator left' right')

/-- What the text of a selector denotes. -/
inductive Reread : Selector → Selector → Prop where
  | chain {only again : Selector} : RereadChain only again → Reread only again
  | union {members members' : List Selector} :
      List.Forall₂ RereadChain members members' → Reread (.union false members) (.union false members')

theorem RereadChain.eq_of_legible {selector again : Selector} (reread : RereadChain selector again)
    (legible : selector.Legible) : again = selector := by
  induction reread with
  | sequence marked first others =>
      obtain ⟨chain, finite⟩ := legible_ofSequence_iff.mp legible
      rw [Atom.joinRuns_of_isChain chain,
        List.map_congr_left fun condition member => Atom.reread_of_isFinite (finite condition member),
        List.map_id']
  | joined combinator _ _ leftHypothesis rightHypothesis =>
      cases legible with
      | joined left right => rw [leftHypothesis left, rightHypothesis right]

theorem forall₂_of_sameMembers {conditions : List Atom} :
    ∀ {conditions' : List Atom},
      sameMembers (conditions.map ofAtom) (conditions'.map ofAtom) = true →
        List.Forall₂ (fun left right => left.same right = true) conditions conditions' := by
  induction conditions with
  | nil =>
      intro conditions' same
      cases conditions' with
      | nil => exact .nil
      | cons _ _ => simp [sameMembers] at same
  | cons condition rest inductionHypothesis =>
      intro conditions' same
      cases conditions' with
      | nil => simp [sameMembers] at same
      | cons condition' rest' =>
          simp only [List.map_cons, sameMembers, ofAtom, Selector.same, Bool.and_eq_true] at same
          exact .cons same.1.2 (inductionHypothesis same.2)

theorem forall₂_of_same {marked marked' : Bool} {conditions conditions' : List Atom}
    (same : (ofSequence marked conditions).same (ofSequence marked' conditions') = true) :
    List.Forall₂ (fun left right => left.same right = true) conditions conditions' := by
  unfold ofSequence at same
  split at same <;> split at same
  · simp only [Selector.same, Bool.and_eq_true] at same
    exact .cons same.2 .nil
  · simp [Selector.same] at same
  · simp [Selector.same] at same
  · simp only [Selector.same, Bool.and_eq_true] at same
    exact forall₂_of_sameMembers same.2

/-- A chain that equals its reread form is legible. -/
theorem RereadChain.legible_of_same {selector again : Selector} (reread : RereadChain selector again)
    (same : selector.same again = true) : selector.Legible := by
  induction reread with
  | sequence marked first others =>
      have pairs := forall₂_of_same same
      have isLength := pairs.length_eq
      rw [List.length_map] at isLength
      have chain := (Atom.length_joinRuns others first).2 isLength.symm
      rw [Atom.joinRuns_of_isChain chain, List.forall₂_map_right_iff, List.forall₂_same] at pairs
      exact legible_ofSequence_iff.mpr
        ⟨chain, fun condition member => Atom.isFinite_of_same (pairs condition member)⟩
  | joined combinator _ _ leftHypothesis rightHypothesis =>
      simp only [Selector.same, Bool.and_eq_true] at same
      exact .joined (leftHypothesis same.1.2) (rightHypothesis same.2)

theorem sameMembers_self {members : List Selector}
    (same : ∀ member ∈ members, member.same member = true) : sameMembers members members = true := by
  induction members with
  | nil => rfl
  | cons member rest inductionHypothesis =>
      rw [List.forall_mem_cons] at same
      rw [sameMembers, same.1, inductionHypothesis same.2]
      rfl

theorem Legible.same_self {selector : Selector} (legible : selector.Legible) :
    selector.same selector = true := by
  induction legible with
  | atom finite => simp [same, Atom.same_self finite]
  | joined _ _ left right => simp [same, left, right]
  | compound _ _ members => simp [same, sameMembers_self members]
  | union _ members => simp [same, sameMembers_self members]

theorem forall_legible_of_same {members members' : List Selector}
    (rereads : List.Forall₂ RereadChain members members') (same : sameMembers members members' = true) :
    ∀ member ∈ members, member.Legible := by
  induction rereads with
  | nil => simp
  | cons first _ inductionHypothesis =>
      rw [sameMembers, Bool.and_eq_true] at same
      exact List.forall_mem_cons.mpr ⟨first.legible_of_same same.1, inductionHypothesis same.2⟩

theorem eq_of_forall_legible {members members' : List Selector}
    (rereads : List.Forall₂ RereadChain members members')
    (legible : ∀ member ∈ members, member.Legible) : members' = members := by
  induction rereads with
  | nil => rfl
  | cons first _ inductionHypothesis =>
      rw [List.forall_mem_cons] at legible
      rw [first.eq_of_legible legible.1, inductionHypothesis legible.2]

/-- The text of a selector denotes an equal selector exactly if the selector is legible, and then it denotes
the selector itself. -/
theorem Reread.same_iff_legible {selector again : Selector} (reread : Reread selector again) :
    (selector.same again = true ↔ selector.Legible) ∧ (selector.Legible → again = selector) := by
  have eqOfLegible : selector.Legible → again = selector := by
    intro legible
    cases reread with
    | chain chain => exact chain.eq_of_legible legible
    | union members =>
        cases legible with
        | union areLegible => rw [eq_of_forall_legible members areLegible]
  refine ⟨⟨fun same => ?_, fun legible => ?_⟩, eqOfLegible⟩
  · cases reread with
    | chain chain => exact chain.legible_of_same same
    | union members =>
        rw [Selector.same, Bool.and_eq_true] at same
        exact .union (forall_legible_of_same members same.2)
  · rw [eqOfLegible legible]
    exact legible.same_self

end Selector

end TreeLint
