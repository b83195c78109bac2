import Mathlib.Data.List.Basic
import TreeLint.Event.Registry
import TreeLint.Proofs.Selector.Hint
import TreeLint.Proofs.Selector.Parsed

/-!
Contract: the index of registered patterns.

Owns:
- `Registry.Indexed`, the invariant that the index finds every entry under its hinted types, or among
  the general ones, in the order of registration;
- the candidates for a type, in terms of the entries alone;
- what a registry holds after patterns have been registered: each distinct pattern once, in the order of
  first occurrence, with its own selector and hint.
-/

set_option autoImplicit false

namespace TreeLint

namespace Registration

def hintedFor (kind : String) (entry : Registration) : Bool :=
  entry.hint.any (·.contains kind)

def isGeneral (entry : Registration) : Bool := entry.hint.isNone

/-- A registered pattern keeps its text, and its hint is that of its selector. -/
theorem of_ofPattern {engine : RegexEngine} {pattern : String} {entry : Registration}
    (registered : ofPattern engine pattern = .ok entry) :
    entry.raw = pattern ∧ entry.onLeave = (splitExit pattern).2 ∧
      Selector.parse engine (splitExit pattern).1 = .ok entry.selector ∧
      entry.hint = entry.selector.hint := by
  unfold ofPattern at registered
  simp only at registered
  split at registered
  · rename_i parsed
    simp only [Except.ok.injEq] at registered
    subst registered
    exact ⟨rfl, rfl, parsed, rfl⟩
  · simp at registered

end Registration

namespace Registry

def numbered (registry : Registry) : List (Registration × Nat) := registry.entries.toList.zipIdx

/-- The numbers of the entries that satisfy `p`, ascending. -/
def numbersWhere (registry : Registry) (p : Registration → Bool) : List Nat :=
  (registry.numbered.filter (p ·.1)).map Prod.snd

/-- The index finds every entry where it belongs. -/
structure Indexed (registry : Registry) : Prop where
  byKind : ∀ kind, registry.byKind.getD kind [] = registry.numbersWhere (·.hintedFor kind)
  general : registry.general = registry.numbersWhere Registration.isGeneral

theorem indexed_empty : empty.Indexed where
  byKind kind := by simp [empty, numbersWhere, numbered]
  general := by simp [empty, numbersWhere, numbered]

/-- Under each of the given types there is one more number, and elsewhere nothing changes. -/
theorem getD_addUnder (number : Nat) (kind : String) :
    ∀ {kinds : NameSet} {byKind : Std.HashMap String (List Nat)}, kinds.Nodup →
      (addUnder number kinds byKind).getD kind []
        = byKind.getD kind [] ++ if kinds.contains kind then [number] else []
  | [], byKind, _ => by simp [addUnder]
  | first :: rest, byKind, distinct => by
      obtain ⟨notInRest, restDistinct⟩ := List.nodup_cons.mp distinct
      rw [addUnder, List.foldl_cons, ← addUnder, getD_addUnder number kind restDistinct,
        Std.HashMap.getD_insert]
      by_cases isFirst : first = kind
      · subst isFirst
        simp [notInRest]
      · simp [isFirst, Ne.symm isFirst]

theorem numbered_push {registry after : Registry} {entry : Registration}
    (pushed : after.entries = registry.entries.push entry) :
    after.numbered = registry.numbered ++ [(entry, registry.size)] := by
  rw [numbered, pushed, Array.toList_push, List.zipIdx_append]
  simp [numbered, size]

theorem numbersWhere_push {registry after : Registry} {entry : Registration}
    (pushed : after.entries = registry.entries.push entry) (p : Registration → Bool) :
    after.numbersWhere p
      = registry.numbersWhere p ++ if p entry then [registry.size] else [] := by
  rw [numbersWhere, numbered_push pushed, List.filter_append, List.map_append, ← numbersWhere]
  cases isWhere : p entry <;> simp [isWhere]

theorem entries_add (registry : Registry) (entry : Registration) :
    (registry.add entry).entries = registry.entries.push entry := by
  unfold add
  cases entry.hint <;> rfl

theorem Indexed.add {registry : Registry} (indexed : registry.Indexed) {entry : Registration}
    (ascending : ∀ kinds, entry.hint = some kinds → NameSet.Ascending kinds) :
    (registry.add entry).Indexed := by
  have pushed := entries_add registry entry
  cases hinted : entry.hint with
  | none =>
      constructor
      · intro kind
        rw [numbersWhere_push pushed, ← indexed.byKind kind]
        simp [Registry.add, hinted, Registration.hintedFor]
      · rw [numbersWhere_push pushed, ← indexed.general]
        simp [Registry.add, hinted, Registration.isGeneral]
  | some kinds =>
      constructor
      · intro kind
        have distinct := (ascending kinds hinted).nodup
        rw [numbersWhere_push pushed, ← indexed.byKind kind]
        simp only [Registry.add, hinted, getD_addUnder registry.size kind distinct,
          Registration.hintedFor, Option.any_some]
      · rw [numbersWhere_push pushed, ← indexed.general]
        simp [Registry.add, hinted, Registration.isGeneral]

/-! ### Candidates -/

/-- The numbers of entries lead back to the entries. -/
theorem filterMap_numbersWhere (registry : Registry) (p : Registration → Bool) :
    ((registry.numbersWhere p).filterMap fun number =>
        (registry.entries[number]?).map fun entry => (number, entry))
      = (registry.numbered.filter (p ·.1)).map Prod.swap := by
  rw [numbersWhere, List.filterMap_map, ← List.filterMap_eq_map]
  apply List.filterMap_congr
  intro pair member
  have found := List.mem_zipIdx_iff_getElem?.mp (List.mem_of_mem_filter member)
  rw [Array.getElem?_toList] at found
  rw [Function.comp_apply, found]
  rfl

/-- The candidates for a type are the entries hinted for it and then the general ones, each in the order
of registration. -/
theorem candidates_eq {registry : Registry} (indexed : registry.Indexed) (kind : String) :
    registry.candidates kind
      = (registry.numbered.filter (·.1.hintedFor kind)
          ++ registry.numbered.filter (·.1.isGeneral)).map Prod.swap := by
  rw [candidates, candidateNumbers, indexed.byKind, indexed.general, List.filterMap_append,
    filterMap_numbersWhere, filterMap_numbersWhere, List.map_append]

/-! ### Registering -/

/-- The registry is indexed, and each entry is the registration of its own text. -/
structure Registered (engine : RegexEngine) (registry : Registry) : Prop where
  indexed : registry.Indexed
  entry : ∀ entry ∈ registry.entries.toList,
    Registration.ofPattern engine entry.raw = .ok entry

theorem registered_empty (engine : RegexEngine) : Registered engine empty where
  indexed := indexed_empty
  entry := by simp [empty]

variable {engine : RegexEngine} {registry after : Registry}

theorem Registered.add (registered : registry.Registered engine) {pattern : String}
    {entry : Registration} (isEntry : Registration.ofPattern engine pattern = .ok entry) :
    (registry.add entry).Registered engine := by
  obtain ⟨isRaw, _, _, isHint⟩ := Registration.of_ofPattern isEntry
  constructor
  · exact registered.indexed.add fun kinds hinted =>
      Selector.hint_ascending entry.selector (isHint ▸ hinted)
  · intro other member
    rw [entries_add, Array.toList_push] at member
    rcases List.mem_append.mp member with before | isNew
    · exact registered.entry other before
    · rw [List.mem_singleton.mp isNew, isRaw]
      exact isEntry

theorem Registered.register : ∀ {patterns : List String} {registry : Registry},
    registry.Registered engine → Registry.register engine registry patterns = .ok after →
      after.Registered engine
  | [], registry, registered, done => by
      simp only [Registry.register, Except.ok.injEq] at done
      exact done ▸ registered
  | pattern :: rest, registry, registered, done => by
      rw [Registry.register] at done
      split at done
      · exact registered.register done
      · split at done
        · simp at done
        · rename_i entry isEntry
          exact (registered.add isEntry).register done

def raws (registry : Registry) : List String := registry.entries.toList.map Registration.raw

theorem contains_iff (registry : Registry) (pattern : String) :
    registry.contains pattern = true ↔ pattern ∈ registry.raws := by
  rw [contains, raws, ← Array.any_toList, List.any_eq_true, List.mem_map]
  simp only [beq_iff_eq]

theorem raws_register : ∀ {patterns : List String} {registry : Registry},
    register engine registry patterns = .ok after →
      after.raws = registry.raws
        ++ (patterns.filter fun pattern => !registry.raws.contains pattern).eraseDups
  | [], registry, done => by
      simp only [register, Except.ok.injEq] at done
      simp [done]
  | pattern :: rest, registry, done => by
      rw [register] at done
      by_cases known : pattern ∈ registry.raws
      · rw [if_pos ((contains_iff registry pattern).mpr known)] at done
        rw [raws_register done, List.filter_cons_of_neg (by simpa using known)]
      · rw [if_neg (fun found => known ((contains_iff registry pattern).mp found))] at done
        split at done
        · simp at done
        · rename_i entry isEntry
          have isRaw := (Registration.of_ofPattern isEntry).1
          have raws : (registry.add entry).raws = registry.raws ++ [pattern] := by
            rw [Registry.raws, entries_add, Array.toList_push, List.map_append, ← Registry.raws,
              List.map_singleton, isRaw]
          rw [raws_register done, raws, List.filter_cons_of_pos (by simpa using known),
            List.eraseDups_cons, List.filter_filter, List.append_assoc, List.singleton_append]
          congr 3
          apply List.filter_congr
          intro other _
          by_cases same : other = pattern <;> simp [same]

/-- A registry of patterns holds each distinct pattern once, in the order of first occurrence. -/
theorem raws_ofPatterns {patterns : List String}
    (registered : ofPatterns engine patterns = .ok registry) :
    registry.raws = patterns.eraseDups := by
  rw [raws_register registered, List.filter_eq_self.mpr (by simp [raws, empty])]
  rfl

theorem registered_ofPatterns {patterns : List String}
    (registered : ofPatterns engine patterns = .ok registry) : registry.Registered engine :=
  (registered_empty engine).register registered

end Registry

end TreeLint
