import Mathlib.Data.List.Perm.Subperm
import Mathlib.Data.List.ProdSigma
import TreeLint.Proofs.Event.Histories
import TreeLint.Proofs.Matching.Growth

/-!
Contract: the entries that a history of queries leaves in memory.

Owns:
- what two successive calls of a history have to do with each other, if calls relate the memories before and after
  them;
- the parts that queries are about, and the places from which they search for ancestors;
- that every pair of a part and a node is decided at most once: entries stay, there are as many as terms were
  decided, they are about parts and nodes that were asked for, and asking again writes nothing.
-/

set_option autoImplicit false

namespace TreeLint

/-! ### Calls of a history -/

namespace Matcher

variable {ι α : Type} {call : ι → Matcher α}

theorem exists_of_replay_cons {item : ι} {rest : List ι} {memo : Memo} {record : List (α × Memo)}
    (replayed : replay call (item :: rest) memo = .ok record) :
    ∃ entry further, (call item).run memo = .ok entry ∧ replay call rest entry.2 = .ok further ∧
      record = entry :: further := by
  rw [replay] at replayed
  cases ran : (call item).run memo with
  | error fault =>
      rw [ran] at replayed
      contradiction
  | ok entry =>
      cases further : replay call rest entry.2 with
      | error fault =>
          simp only [ran, bind, Except.bind, further] at replayed
          contradiction
      | ok record' =>
          simp only [ran, bind, Except.bind, further] at replayed
          exact ⟨entry, record', rfl, further, (Except.ok.inj replayed).symm⟩

/-- What each call says about its answer and the memory after it holds all along a history. -/
theorem forall₂_of_replay {outcome : ι → α × Memo → Prop} (items : List ι)
    (each : ∀ item memo entry, (call item).run memo = .ok entry → outcome item entry) :
    ∀ {memo : Memo} {record : List (α × Memo)}, replay call items memo = .ok record →
      List.Forall₂ outcome items record := by
  induction items with
  | nil =>
      intro memo record replayed
      obtain rfl := Except.ok.inj replayed
      exact .nil
  | cons item rest inductionHypothesis =>
      intro memo record replayed
      obtain ⟨entry, further, ran, later, rfl⟩ := exists_of_replay_cons replayed
      exact .cons (each item memo entry ran) (inductionHypothesis later)

/-- A transitive relation of the memories before and after each call relates all memories of a history. -/
theorem pairwise_of_replay {related : Memo → Memo → Prop}
    (chains : ∀ {earlier between later : Memo},
      related earlier between → related between later → related earlier later)
    (items : List ι)
    (each : ∀ item ∈ items, ∀ memo entry, (call item).run memo = .ok entry → related memo entry.2) :
    ∀ {memo : Memo} {record : List (α × Memo)}, replay call items memo = .ok record →
      (memo :: record.map Prod.snd).Pairwise related := by
  induction items with
  | nil =>
      intro memo record replayed
      obtain rfl := Except.ok.inj replayed
      exact List.pairwise_singleton _ _
  | cons item rest inductionHypothesis =>
      intro memo record replayed
      obtain ⟨entry, further, ran, later, rfl⟩ := exists_of_replay_cons replayed
      have ordered := inductionHypothesis
        (fun other member => each other (List.mem_cons_of_mem _ member)) later
      have first := each item List.mem_cons_self memo entry ran
      rw [List.map_cons, List.pairwise_cons]
      refine ⟨fun after member => ?_, ordered⟩
      rcases List.mem_cons.mp member with rfl | inRest
      · exact first
      · exact chains first (List.rel_of_pairwise_cons ordered inRest)

/-- The computation leaves the entry of a key about a node as it is. -/
def SparesDirect (key : Place × Nat) (computation : Matcher α) : Prop :=
  ∀ memo after answer, computation.run memo = .ok (answer, after) → after.direct[key]? = memo.direct[key]?

/-- The computation leaves the entry of a key about ancestors as it is. -/
def SparesAncestor (key : Place × Nat) (computation : Matcher α) : Prop :=
  ∀ memo after answer, computation.run memo = .ok (answer, after) →
    after.ancestor[key]? = memo.ancestor[key]?

end Matcher

structure Memo.KeptIn (earlier later : Memo) : Prop where
  direct : ∀ {key : Place × Nat} {known : Bool},
    earlier.direct[key]? = some known → later.direct[key]? = some known
  ancestor : ∀ {key : Place × Nat} {known : Bool},
    earlier.ancestor[key]? = some known → later.ancestor[key]? = some known

/-! ### What queries are about -/

namespace Query

variable {roots : List Selector} {tree : Tree} {engine : RegexEngine}

def part : Query roots → Part roots
  | .node part _ | .ancestor part _ => part

def id : Query roots → Nat
  | .node _ id | .ancestor _ id => id

def parts (query : Query roots) : List (Place × Selector) := query.part.selector.parts query.part.place

/-- The places of all parts that queries are about, each once. -/
def places (queries : List (Query roots)) : List Place :=
  ((queries.flatMap parts).map Prod.fst).eraseDups

/-- The places from which a query may search for ancestors: those of left sides of parts that are joined as
descendants, and the one that is asked for itself. -/
def Searches : Query roots → Place → Prop
  | .node part _, place => SearchedFrom (part.selector.parts part.place) place
  | .ancestor part _, place => place = part.place ∨ SearchedFrom (part.selector.parts part.place) place

def Known (memo : Memo) : Query roots → Bool → Prop
  | .node part id, answer => memo.direct[(part.place, id)]? = some answer
  | .ancestor part id, answer => memo.ancestor[(part.place, id)]? = some answer

theorem mem_places_iff {queries : List (Query roots)} {place : Place} :
    place ∈ places queries ↔ ∃ query ∈ queries, StandsAt query.parts place := by
  simp only [places, List.mem_eraseDups, List.mem_map, List.mem_flatMap, StandsAt]
  constructor
  · rintro ⟨entry, ⟨query, member, inParts⟩, rfl⟩
    exact ⟨query, member, entry.2, inParts⟩
  · rintro ⟨query, member, part, inParts⟩
    exact ⟨(place, part), ⟨query, member, inParts⟩, rfl⟩

/-- A query writes about its parts, and about nodes up to its own. -/
theorem grows_ask (upward : ∀ {id parent : Nat}, tree.parent? id = some parent → parent < id)
    (query : Query roots) :
    Matcher.Grows (StandsAt query.parts) query.Searches (query.id + 1) (query.ask tree engine) := by
  cases query with
  | node part id => exact Matcher.grows_isMatch upward part.selector part.place id
  | ancestor part id =>
      rw [ask, Matcher.matchesAncestor, Matcher.climb_eq]
      exact Matcher.grows_rememberAncestor
        (Matcher.grows_searchAncestors upward part.selector part.place id) (.inl rfl)

theorem known_of_ask {query : Query roots} {memo : Memo} {entry : Bool × Memo}
    (runs : (query.ask tree engine).run memo = .ok entry) : query.Known entry.2 entry.1 := by
  cases query with
  | node part id =>
      rw [ask, Matcher.isMatch_eq] at runs
      cases found : memo.direct[(part.place, id)]? with
      | some known =>
          rw [Matcher.remember_run_known found] at runs
          obtain rfl := Except.ok.inj runs
          exact found
      | none =>
          obtain ⟨between, _, written⟩ := Matcher.exists_of_remember_run_new found runs
          rw [Known, written]
          exact Std.HashMap.getElem?_insert_self
  | ancestor part id =>
      rw [ask, Matcher.matchesAncestor, Matcher.climb_eq] at runs
      cases found : memo.ancestor[(part.place, id)]? with
      | some known =>
          rw [Matcher.rememberAncestor_run_known found] at runs
          obtain rfl := Except.ok.inj runs
          exact found
      | none =>
          obtain ⟨between, _, written⟩ := Matcher.exists_of_rememberAncestor_run_new found runs
          rw [Known, written]
          exact Std.HashMap.getElem?_insert_self

/-- A query whose answer is in memory changes nothing. -/
theorem ask_of_known {query : Query roots} {memo : Memo} {answer : Bool}
    (known : query.Known memo answer) : (query.ask tree engine).run memo = .ok (answer, memo) := by
  cases query with
  | node part id =>
      rw [ask, Matcher.isMatch_eq]
      exact Matcher.remember_run_known known
  | ancestor part id =>
      rw [ask, Matcher.matchesAncestor, Matcher.climb_eq]
      exact Matcher.rememberAncestor_run_known known

theorem Known.kept {query : Query roots} {earlier later : Memo} {answer : Bool}
    (known : query.Known earlier answer) (kept : earlier.KeptIn later) : query.Known later answer := by
  cases query with
  | node part id => exact kept.direct known
  | ancestor part id => exact kept.ancestor known

/-- The answer to a query is in all memories of a history from the query on. -/
theorem known_of_replay {queries : List (Query roots)} {memo : Memo} {record : List (Bool × Memo)}
    (replayed : Matcher.replay (ask tree engine) queries memo = .ok record)
    (kept : (record.map Prod.snd).Pairwise Memo.KeptIn) {first last : Nat} (ordered : first ≤ last)
    {query : Query roots} {answered entry : Bool × Memo} (isQuery : queries[first]? = some query)
    (isAnswered : record[first]? = some answered) (isEntry : record[last]? = some entry) :
    query.Known entry.2 answered.1 := by
  have known : List.Forall₂ (fun query entry => query.Known entry.2 entry.1) queries record := by
    refine Matcher.forall₂_of_replay queries (fun query memo entry ran => ?_) replayed
    exact known_of_ask ran
  obtain ⟨inQueries, rfl⟩ := List.getElem?_eq_some_iff.mp isQuery
  obtain ⟨firstIn, rfl⟩ := List.getElem?_eq_some_iff.mp isAnswered
  obtain ⟨lastIn, rfl⟩ := List.getElem?_eq_some_iff.mp isEntry
  have atFirst := known.get inQueries firstIn
  rcases Nat.lt_or_eq_of_le ordered with earlier | rfl
  · exact atFirst.kept
      (List.pairwise_iff_getElem.mp (List.pairwise_map.mp kept) _ _ firstIn lastIn earlier)
  · exact atFirst

end Query

/-- A table whose keys are pairs of some places and some numbers has no more entries than there are pairs. -/
theorem size_le_of_keys {table : Std.HashMap (Place × Nat) Bool} {places : List Place} {count : Nat}
    (keys : ∀ key ∈ table, key.1 ∈ places ∧ key.2 < count) :
    table.size ≤ places.length * count := by
  have within : table.keys ⊆ places ×ˢ List.range count := by
    intro key member
    obtain ⟨isPlace, inRange⟩ := keys key (Std.HashMap.mem_keys.mp member)
    exact List.mem_product.mpr ⟨isPlace, List.mem_range.mpr inRange⟩
  calc table.size = table.keys.length := Std.HashMap.length_keys.symm
    _ ≤ (places ×ˢ List.range count).length :=
        (List.Nodup.subperm Std.HashMap.nodup_keys within).length_le
    _ = places.length * count := by rw [List.length_product, List.length_range]

/-- A memory that has grown from the empty one by queries about nodes of a tree has been decided into once for each
entry about a node, and all its entries are about what was asked for. -/
theorem Memo.Grows.tally {roots : List Selector} {tree : Tree} {queries : List (Query roots)} {memo : Memo}
    (grows : Memo.Grows (· ∈ Query.places queries) (fun place => ∃ query ∈ queries, query.Searches place)
      tree.size .empty memo) :
    memo.decisions = memo.direct.size ∧ memo.direct.size ≤ (Query.places queries).length * tree.size ∧
      ∀ key ∈ memo.ancestor, (∃ query ∈ queries, query.Searches key.1) ∧ key.2 < tree.size := by
  have counted := grows.decided
  refine ⟨?_, size_le_of_keys fun key member => ?_, fun key member => ?_⟩
  · simpa [Memo.empty] using counted
  · exact (grows.direct_gained member).resolve_left (by simp [Memo.empty])
  · exact (grows.ancestor_gained member).resolve_left (by simp [Memo.empty])

/-- Over the tree of a document, a history of queries about nodes of the tree and parts of well-formed selectors goes
through, and decides every pair of a part and a node at most once. All entries of the tables stay as they are from one
memory to the next. After each query, as many terms have been decided as there are entries about nodes; these are no
more than there are pairs of a place in the queried parts and a node; and the entries about ancestors are about places
that the queries search from. A query that comes again changes nothing. Entries are written for answers that were not
in memory, and not before the answer is worked out. -/
theorem entries_written_once {document : Json} {tree : Tree} (engine : RegexEngine)
    (built : Tree.ofJson document = .ok tree) {roots : List Selector}
    (wellFormed : ∀ root ∈ roots, root.WellFormed) (queries : List (Query roots))
    (inTree : ∀ query ∈ queries, query.id < tree.size) :
    (∃ record, Matcher.replay (Query.ask tree engine) queries .empty = .ok record ∧
      (Memo.empty :: record.map Prod.snd).Pairwise Memo.KeptIn ∧
      (∀ entry ∈ record,
        entry.2.decisions = entry.2.direct.size ∧
          entry.2.direct.size ≤ (Query.places queries).length * tree.size ∧
          ∀ key ∈ entry.2.ancestor, (∃ query ∈ queries, query.Searches key.1) ∧ key.2 < tree.size) ∧
      ∀ (first last : Nat) (query : Query roots) (answered entry : Bool × Memo), first ≤ last →
        queries[first]? = some query → record[first]? = some answered → record[last]? = some entry →
          (query.ask tree engine).run entry.2 = .ok (answered.1, entry.2)) ∧
    ∀ (part : Part roots) (id : Nat),
      (∃ decision, Matcher.isMatch tree engine part.selector part.place id
            = Matcher.remember part.place id decision ∧
          decision.SparesDirect (part.place, id)) ∧
        ∃ search, Matcher.matchesAncestor tree engine part.selector part.place id
            = Matcher.rememberAncestor part.place id search ∧
          search.SparesAncestor (part.place, id) := by
  have upward : ∀ {id parent : Nat}, tree.parent? id = some parent → parent < id := Tree.parent?_lt built
  constructor
  · have answers : ∀ query : Query roots, Matcher.Answers (Memo.Sound tree engine roots)
        (query.ask tree engine) (query.answer tree engine) := Query.answers_ask wellFormed
    obtain ⟨record, replayed, _⟩ := Matcher.replay_of_answers answers queries .empty Memo.Sound.empty
    have grown : (Memo.empty :: record.map Prod.snd).Pairwise (Memo.Grows (· ∈ Query.places queries)
        (fun place => ∃ query ∈ queries, query.Searches place) tree.size) := by
      refine Matcher.pairwise_of_replay (fun before after => before.trans after) queries ?_ replayed
      intro query member memo entry ran
      refine (Query.grows_ask upward query memo entry.2 entry.1 ran).mono ?_ ?_ (inTree query member)
      · exact fun place stands => Query.mem_places_iff.mpr ⟨query, member, stands⟩
      · exact fun place searches => ⟨query, member, searches⟩
    have kept : (Memo.empty :: record.map Prod.snd).Pairwise Memo.KeptIn :=
      grown.imp fun grows => ⟨grows.direct_kept, grows.ancestor_kept⟩
    refine ⟨record, replayed, kept, ?_, ?_⟩
    · intro entry member
      exact (List.rel_of_pairwise_cons grown (List.mem_map_of_mem member)).tally
    · intro first last query answered entry ordered isQuery isAnswered isEntry
      apply Query.ask_of_known
      exact Query.known_of_replay replayed kept.of_cons ordered isQuery isAnswered isEntry
  · intro part id
    refine ⟨⟨_, Matcher.isMatch_eq part.selector part.place id, ?_⟩,
      _, Matcher.climb_eq part.place _ id _, ?_⟩
    · intro memo after answer ran
      rw [Matcher.counted_run] at ran
      exact (Matcher.grows_decideTerm upward part.selector part.place id _ after answer ran).direct_untouched
        fun written => not_standsAt_partsFrom written.1
    · intro memo after answer ran
      exact (Matcher.grows_searchAncestors upward part.selector part.place id memo after answer
        ran).ancestor_untouched fun written => Nat.lt_irrefl _ written.2

/-- A search above a node, the selector that needs it, and the same selector again: three terms and two nodes. -/
theorem entries_written_once_repeated :
    let roots := [.joined false .descendant (.ofAtom (.identifier "A")) (.ofAtom .wildcard)]
    let queries : List (Query roots) :=
      [.ancestor ⟨⟨0, [0]⟩, .ofAtom (.identifier "A"), rfl⟩ 1, .node ⟨⟨0, []⟩, _, rfl⟩ 1,
        .node ⟨⟨0, []⟩, _, rfl⟩ 1]
    ∃ tree record,
      Tree.ofJson (.object [("type", .string "A"), ("b", .object [("type", .string "B")])])
        = .ok tree ∧
      (∀ root ∈ roots, root.WellFormed) ∧ (∀ query ∈ queries, query.id < tree.size) ∧
      Matcher.replay (Query.ask tree .standard) queries .empty = .ok record ∧
      (∀ entry ∈ record, entry.2.decisions = entry.2.direct.size ∧ entry.2.direct.size ≤ 6) ∧
      ∀ answered entry query, record[1]? = some answered → record[2]? = some entry →
        queries[1]? = some query → (query.ask tree .standard).run entry.2 = .ok (answered.1, entry.2) := by
  intro roots queries
  have built : Tree.ofJson (.object [("type", .string "A"), ("b", .object [("type", .string "B")])])
      = .ok _ := rfl
  have wellFormed : ∀ root ∈ roots, root.WellFormed := by
    intro root member
    rw [List.mem_singleton.mp member]
    exact .joined (.atom trivial) (.atom trivial)
  have inTree : ∀ query ∈ queries, query.id < 2 := by decide
  have places : (Query.places queries).length = 3 := by decide
  obtain ⟨⟨record, replayed, _, tallied, repeats⟩, _⟩ :=
    entries_written_once .standard built wellFormed queries inTree
  refine ⟨_, record, built, wellFormed, inTree, replayed, fun entry member => ?_, ?_⟩
  · obtain ⟨decided, bounded, _⟩ := tallied entry member
    rw [places] at bounded
    exact ⟨decided, bounded⟩
  · intro answered entry query isAnswered isEntry isQuery
    exact repeats 1 2 query answered entry (by decide) isQuery isAnswered isEntry

end TreeLint
