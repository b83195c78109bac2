import TreeLint.Json.Reader

/-!
Contract: the members of objects, and kinds of documents.

Owns:
- what an object keeps of the members that are read for it: no others, and all of them if their keys differ;
- `Json.Numeric`, the documents in which nothing stands for "not a number";
- `Json.Exact`, the documents that are read back as they were written: their numbers are whole, the keys of an
  object differ, and they are not too deep.

Does not own: which documents a reader gives.
-/

set_option autoImplicit false

namespace TreeLint

/-- The whole numbers that the reader keeps: those of 64 bits, with a sign or without. -/
def JsonReader.KeepsWhole (negative : Bool) (magnitude : Nat) : Prop :=
  magnitude ≤ JsonReader.maxWhole ∧ (negative = true → 0 < magnitude ∧ magnitude ≤ JsonReader.maxNegative)

namespace Json

/-! ### Members -/

theorem ofMembers_eq_foldl (members : List (String × Json)) :
    ofMembers members
      = .object (members.foldl (fun kept member => insertMember member.1 member.2 kept) []) := rfl

theorem mem_of_mem_insertMember {key : String} {value : Json} {members : List (String × Json)}
    {member : String × Json} (isMember : member ∈ insertMember key value members) :
    member = (key, value) ∨ member ∈ members := by
  induction members with
  | nil => exact .inl (List.mem_singleton.mp isMember)
  | cons other rest inductionHypothesis =>
      rw [insertMember] at isMember
      split at isMember
      · exact (List.mem_cons.mp isMember).imp_right (List.mem_cons_of_mem other)
      · rcases List.mem_cons.mp isMember with rfl | isLater
        · exact .inr List.mem_cons_self
        · exact (inductionHypothesis isLater).imp_right (List.mem_cons_of_mem other)

/-- An object has only the members that are read for it. -/
theorem forall_of_ofMembers {p : String × Json → Prop} {members kept : List (String × Json)}
    (each : ∀ member ∈ members, p member) (keptEach : ∀ member ∈ kept, p member) :
    ∀ member ∈ members.foldl (fun kept member => insertMember member.1 member.2 kept) kept, p member := by
  induction members generalizing kept with
  | nil => exact keptEach
  | cons member rest inductionHypothesis =>
      rw [List.forall_mem_cons] at each
      refine inductionHypothesis each.2 fun other isMember => ?_
      rcases mem_of_mem_insertMember isMember with rfl | isOld
      · exact each.1
      · exact keptEach other isOld

theorem insertMember_of_new {key : String} {value : Json} {members : List (String × Json)}
    (new : key ∉ members.map Prod.fst) : insertMember key value members = members ++ [(key, value)] := by
  induction members with
  | nil => rfl
  | cons member rest inductionHypothesis =>
      rw [List.map_cons, List.mem_cons, not_or] at new
      rw [insertMember, if_neg (Ne.symm new.1), inductionHypothesis new.2, List.cons_append]

/-- Members with different keys are kept as they are read. -/
theorem ofMembers_of_nodup {members : List (String × Json)} (distinct : (members.map Prod.fst).Nodup) :
    ofMembers members = .object members := by
  have collects : ∀ kept : List (String × Json), ((kept ++ members).map Prod.fst).Nodup →
      members.foldl (fun kept member => insertMember member.1 member.2 kept) kept = kept ++ members := by
    induction members with
    | nil => exact fun kept _ => (List.append_nil kept).symm
    | cons member rest inductionHypothesis =>
        intro kept distinctAll
        have new : member.1 ∉ kept.map Prod.fst := by
          rw [List.map_append, List.map_cons] at distinctAll
          exact fun old => (List.nodup_append.mp distinctAll).2.2 _ old _ List.mem_cons_self rfl
        have shape : kept ++ member :: rest = kept ++ [member] ++ rest := by
          rw [List.append_assoc, List.singleton_append]
        rw [shape] at distinctAll
        rw [List.foldl_cons, insertMember_of_new new, shape]
        exact inductionHypothesis (List.nodup_cons.mp distinct).2 _ distinctAll
  rw [ofMembers_eq_foldl, collects [] distinct, List.nil_append]

/-! ### Kinds of documents -/

/-- No number of the document is "not a number". -/
inductive Numeric : Json → Prop where
  | null : Numeric .null
  | bool (value : Bool) : Numeric (.bool value)
  | number {value : JsonNumber} (isNumber : value.toDouble ≠ .nan) : Numeric (.number value)
  | string (text : String) : Numeric (.string text)
  | array {items : List Json} (each : ∀ item ∈ items, Numeric item) : Numeric (.array items)
  | object {members : List (String × Json)} (each : ∀ member ∈ members, Numeric member.2) :
      Numeric (.object members)

theorem numeric_ofMembers {members : List (String × Json)} (each : ∀ member ∈ members, member.2.Numeric) :
    (ofMembers members).Numeric := by
  rw [ofMembers_eq_foldl]
  exact .object (forall_of_ofMembers each (List.forall_mem_nil _))

/-- The documents that are read back from their text where so many arrays and objects may be opened inside each
other. -/
inductive Exact : Nat → Json → Prop where
  | null {room : Nat} : Exact room .null
  | bool {room : Nat} (value : Bool) : Exact room (.bool value)
  | whole {room : Nat} {negative : Bool} {magnitude : Nat} (keeps : JsonReader.KeepsWhole negative magnitude) :
      Exact room (.number (.whole negative magnitude))
  | string {room : Nat} (text : String) : Exact room (.string text)
  | array {room : Nat} {items : List Json} (each : ∀ item ∈ items, Exact room item) :
      Exact (room + 1) (.array items)
  | object {room : Nat} {members : List (String × Json)} (distinct : (members.map Prod.fst).Nodup)
      (each : ∀ member ∈ members, Exact room member.2) : Exact (room + 1) (.object members)

end Json

end TreeLint
