import Mathlib.Data.Prod.Basic
import TreeLint.Proofs.Event.Rejection

/-!
Contract: how the index of registered patterns parts its entries.

Owns:
- `Registry.Lists`, by which numbered entries are exactly those with a quality, in the order of registration;
- `Registry.IsIndex`, what a registry says of the patterns that it was made of: its entries, the candidates for every
  type of nodes, whether the type is known or not, and the entries that are candidates for none;
- the outcome of every registration, which is such an index, or the first pattern that denotes no selector.

Does not own: which nodes an entry matches.
-/

set_option autoImplicit false

namespace TreeLint

namespace Registration

def HintHas (entry : Registration) (kind : String) : Prop := ∃ kinds, entry.hint = some kinds ∧ kind ∈ kinds

theorem hintedFor_iff {entry : Registration} {kind : String} :
    entry.hintedFor kind = true ↔ entry.HintHas kind := by
  unfold hintedFor HintHas
  cases entry.hint <;> simp

theorem isGeneral_iff {entry : Registration} : entry.isGeneral = true ↔ entry.hint = none :=
  Option.isNone_iff_eq_none

end Registration

namespace Registry

variable {engine : RegexEngine} {patterns : List String} {registry : Registry}

/-! ### Lists of entries -/

/-- The numbered entries are exactly those of the registry with a quality, in the order of registration. -/
structure Lists (registry : Registry) (quality : Registration → Prop) (listed : List (Nat × Registration)) : Prop where
  exact : ∀ number entry, (number, entry) ∈ listed ↔ registry.entries[number]? = some entry ∧ quality entry
  ascending : listed.Pairwise fun first second => first.1 < second.1

theorem mem_numbered_iff {number : Nat} {entry : Registration} :
    (entry, number) ∈ registry.numbered ↔ registry.entries[number]? = some entry := by
  rw [numbered, List.mem_zipIdx_iff_getElem?, Array.getElem?_toList]

/-- Entries are numbered in the order of registration. -/
theorem numbered_ascending (registry : Registry) :
    registry.numbered.Pairwise fun first second => first.2 < second.2 := by
  have numbers : (registry.numbered.map Prod.snd).Pairwise (· < ·) := by
    rw [numbered, List.zipIdx_map_snd]
    exact List.pairwise_lt_range' ..
  exact List.pairwise_map.mp numbers

/-- What a test leaves of the numbered entries lists those that pass it. -/
theorem lists_filter {test : Registration → Bool} {quality : Registration → Prop}
    (decides : ∀ {entry}, test entry = true ↔ quality entry) :
    registry.Lists quality ((registry.numbered.filter (test ·.1)).map Prod.swap) where
  exact number entry := by
    have swapped : (number, entry) = Prod.swap (entry, number) := rfl
    rw [swapped, List.mem_map_of_injective Prod.swap_injective, List.mem_filter, mem_numbered_iff, decides]
  ascending := by
    rw [List.pairwise_map]
    exact registry.numbered_ascending.filter _

theorem Lists.nodup {quality : Registration → Prop} {listed : List (Nat × Registration)}
    (lists : registry.Lists quality listed) : (listed.map Prod.fst).Nodup := by
  rw [List.nodup_iff_pairwise_ne, List.pairwise_map]
  exact lists.ascending.imp Nat.ne_of_lt

/-- Entries that have different qualities have different numbers. -/
theorem Lists.disjoint {quality other : Registration → Prop} {listed others : List (Nat × Registration)}
    (lists : registry.Lists quality listed) (othersList : registry.Lists other others)
    (apart : ∀ entry, quality entry → ¬ other entry) : (listed.map Prod.fst).Disjoint (others.map Prod.fst) := by
  intro number inListed inOthers
  obtain ⟨⟨_, entry⟩, isListed, rfl⟩ := List.mem_map.mp inListed
  obtain ⟨⟨number, entry'⟩, isOther, rfl⟩ := List.mem_map.mp inOthers
  obtain ⟨found, isQuality⟩ := (lists.exact _ _).mp isListed
  obtain ⟨found', isOtherQuality⟩ := (othersList.exact _ _).mp isOther
  obtain rfl := Option.some.inj (found.symm.trans found')
  exact apart entry isQuality isOtherQuality

/-! ### Candidates -/

theorem Registered.parts (registered : registry.Registered engine) (kind : String) :
    ∃ hinted general, registry.candidates kind = hinted ++ general ∧
      registry.Lists (·.HintHas kind) hinted ∧ registry.Lists (·.hint = none) general := by
  refine ⟨_, _, ?_, lists_filter Registration.hintedFor_iff, lists_filter Registration.isGeneral_iff⟩
  rw [candidates_eq registered.indexed, List.map_append]

theorem Registered.mem_candidates_iff (registered : registry.Registered engine) (kind : String) (number : Nat)
    (entry : Registration) :
    (number, entry) ∈ registry.candidates kind ↔
      registry.entries[number]? = some entry ∧ (entry.HintHas kind ∨ entry.hint = none) := by
  obtain ⟨hinted, general, isCandidates, listsHinted, listsGeneral⟩ := registered.parts kind
  rw [isCandidates, List.mem_append, listsHinted.exact, listsGeneral.exact, ← and_or_left]

theorem Registered.nodup_candidates (registered : registry.Registered engine) (kind : String) :
    ((registry.candidates kind).map Prod.fst).Nodup := by
  obtain ⟨hinted, general, isCandidates, listsHinted, listsGeneral⟩ := registered.parts kind
  have apart : (hinted.map Prod.fst).Disjoint (general.map Prod.fst) := by
    refine listsHinted.disjoint listsGeneral ?_
    rintro entry ⟨kinds, isHint, _⟩ noHint
    rw [isHint] at noHint
    contradiction
  rw [isCandidates, List.map_append]
  exact List.nodup_append'.mpr ⟨listsHinted.nodup, listsGeneral.nodup, apart⟩

/-- An entry is a candidate for no type exactly if its hint is the empty set. -/
theorem Registered.never_iff (registered : registry.Registered engine) {number : Nat} {entry : Registration}
    (found : registry.entries[number]? = some entry) :
    (∀ kind, (number, entry) ∉ registry.candidates kind) ↔ entry.hint = some [] := by
  simp only [registered.mem_candidates_iff, found, true_and, Registration.HintHas]
  cases entry.hint with
  | none => simp
  | some kinds =>
      simp only [Option.some.injEq, exists_eq_left', reduceCtorEq, or_false]
      exact List.eq_nil_iff_forall_not_mem.symm

/-! ### Outcomes -/

/-- What a registry says of the patterns that it was made of. -/
structure IsIndex (engine : RegexEngine) (patterns : List String) (registry : Registry) : Prop where
  /-- The entries are the distinct patterns, in the order of first occurrence. -/
  raws : registry.raws = patterns.eraseDups
  /-- Each entry has the selector of its own pattern, and the hint of that selector. -/
  entry : ∀ entry ∈ registry.entries.toList,
    Selector.parse engine (splitExit entry.raw).1 = .ok entry.selector ∧
      entry.onLeave = (splitExit entry.raw).2 ∧ entry.hint = entry.selector.hint
  /-- The candidates for a type are the entries hinted for it, and then those without a hint. -/
  parts : ∀ kind, ∃ hinted general, registry.candidates kind = hinted ++ general ∧
    registry.Lists (·.HintHas kind) hinted ∧ registry.Lists (·.hint = none) general
  /-- No entry is a candidate twice. -/
  nodup : ∀ kind, ((registry.candidates kind).map Prod.fst).Nodup
  /-- The entries that are candidates for no type are those that are hinted for no type. -/
  never : ∀ number entry, registry.entries[number]? = some entry →
    ((∀ kind, (number, entry) ∉ registry.candidates kind) ↔ entry.hint = some [])

/-- Registering patterns gives the index of them, or blames the first pattern whose text, without its marker, denotes
no selector, with the reason. -/
theorem isIndex_or_blames (engine : RegexEngine) (patterns : List String) :
    (∀ registry, ofPatterns engine patterns = .ok registry → registry.IsIndex engine patterns) ∧
      ∀ error, ofPatterns engine patterns = .error error ↔
        FirstWith (Pattern.Unparsable engine) patterns error.pattern ∧
          Selector.parse engine (splitExit error.pattern).1 = .error error.cause := by
  refine ⟨fun registry isRegistry => ?_, fun error => ofPatterns_eq_error_iff⟩
  have registered := registered_ofPatterns isRegistry
  exact {
    raws := raws_ofPatterns isRegistry
    entry := fun entry member => by
      obtain ⟨_, onLeave, parsed, isHint⟩ := Registration.of_ofPattern (registered.entry entry member)
      exact ⟨parsed, onLeave, isHint⟩
    parts := registered.parts
    nodup := registered.nodup_candidates
    never := fun number entry => registered.never_iff }

/-- Among these patterns one comes again, one is without a hint, and one is hinted for no type. The first pattern with a
fault is blamed, and not the one before it that comes again. -/
theorem isIndex_or_blames_repeated :
    (∃ registry, ofPatterns .standard ["B, A", "*", "A B:exit", "#A#B", "B, A"] = .ok registry ∧
        registry.IsIndex .standard ["B, A", "*", "A B:exit", "#A#B", "B, A"] ∧
        registry.entries.toList.map Registration.hint = [some ["A", "B"], none, some ["B"], some []]) ∧
      ofPatterns .standard ["A", "A", "[:exit", "("] = .error ⟨"[:exit", ⟨.unexpectedEnd, 1, none⟩⟩ := by
  constructor
  · have hints : (ofPatterns .standard ["B, A", "*", "A B:exit", "#A#B", "B, A"]).toOption.map
        (·.entries.toList.map Registration.hint) = some [some ["A", "B"], none, some ["B"], some []] := by
      decide +kernel
    cases isRegistry : ofPatterns .standard ["B, A", "*", "A B:exit", "#A#B", "B, A"] with
    | error error =>
        rw [isRegistry] at hints
        contradiction
    | ok registry =>
        rw [isRegistry] at hints
        exact ⟨registry, rfl, (isIndex_or_blames .standard _).1 registry isRegistry, Option.some.inj hints⟩
  · have parses : (Pattern.selector? .standard "A").isSome = true := by decide +kernel
    have fails : Selector.parse .standard (splitExit "[:exit").1 = .error ⟨.unexpectedEnd, 1, none⟩ := by
      with_unfolding_all rfl
    refine ((isIndex_or_blames .standard _).2 _).mpr ⟨⟨["A", "A"], ["("], rfl, ?_, ?_⟩, fails⟩
    · exact unparsable_iff.mpr ⟨_, ofPattern_eq_error_iff.mpr ⟨rfl, fails⟩⟩
    · intro other member unparsable
      obtain rfl : other = "A" := by simpa using member
      rw [unparsable] at parses
      contradiction

end Registry

end TreeLint
