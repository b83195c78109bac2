import TreeLint.Proofs.Path.Relative
import TreeLint.Rule.Check

/-!
Contract: which rules apply to a path that is spelled with `./` before it.

Owns:
- the text that the path patterns of rules are matched against;
- when a leading `./` makes no difference to rules: it depends on the base directory of the rules, and on whether the
  path lies below it in one of the two spellings;
- the diagnostics of a tree for the two spellings of its path.
-/

set_option autoImplicit false

namespace TreeLint

open TreeLint.Path (ofString cut Bare LiesBelow)

namespace Rule

theorem withoutDotSlash_eq_self {path : String} (undotted : ¬ "./".toList <+: path.toList) :
    withoutDotSlash path = path := by
  rw [withoutDotSlash]
  split
  · rename_i rest letters
    rw [letters] at undotted
    exact absurd ⟨rest, rfl⟩ undotted
  · rfl

@[simp] theorem withoutDotSlash_dotSlash (path : String) : withoutDotSlash ("./" ++ path) = path := by
  have letters : ("./" ++ path).toList = '.' :: '/' :: path.toList := by
    rw [String.toList_append]
    rfl
  rw [withoutDotSlash, letters]
  exact String.ofList_toList

theorem length_withoutDotSlash_le (path : String) : (withoutDotSlash path).length ≤ path.length := by
  rw [withoutDotSlash]
  split
  · rename_i rest letters
    rw [String.length_ofList, ← String.length_toList, letters]
    exact Nat.le_add_right rest.length 2
  · exact Nat.le_refl _

end Rule

namespace RuleSet

variable {set : RuleSet} {path base : String}

/-- The text that the path patterns of rules are matched against. -/
def matchedText (set : RuleSet) (path : String) : String := Rule.withoutDotSlash (set.comparedPath path)

theorem applies_eq (set : RuleSet) (globs : GlobEngine) (path : String) (rule : Rule) :
    set.applies globs path rule = !globs.anyCovers rule.excludes (set.matchedText path) := rfl

theorem comparedPath_eq (isBase : set.baseDir = some base) (path : String) :
    set.comparedPath path = (((ofString path).relativeTo? (ofString base)).map Path.text).getD path := by
  rw [comparedPath, isBase, Option.bind_some]
  cases (ofString path).relativeTo? (ofString base) <;> rfl

/-- Outside of the base directory a path is taken as given. -/
theorem matchedText_of_outside (isBase : set.baseDir = some base)
    (outside : ¬ (ofString path).LiesBelow (ofString base)) :
    set.matchedText path = Rule.withoutDotSlash path := by
  rw [← Path.relativeTo?_isSome_iff, Option.not_isSome_iff_eq_none] at outside
  rw [matchedText, comparedPath_eq isBase, outside]
  rfl

theorem length_matchedText_lt (isBase : set.baseDir = some base)
    (below : (ofString path).LiesBelow (ofString base))
    (deeper : (Path.startComponent? (ofString path).start).toList.length < (ofString base).components.length) :
    (set.matchedText path).length < ("/".intercalate (ofString path).pieces).length := by
  rw [← Path.relativeTo?_isSome_iff] at below
  obtain ⟨rest, isRest⟩ := Option.isSome_iff_exists.mp below
  rw [matchedText, comparedPath_eq isBase, isRest]
  exact Nat.lt_of_le_of_lt (Rule.length_withoutDotSlash_le _) (Path.length_lt_of_relativeTo? isRest deeper)

/-! ### Two spellings -/

/-- Whether a leading `./` before a path makes no difference to rules with the given base directory. For the empty
base and the base `.` it makes one only to the empty path and to paths with fillers at their end. For any other base
it makes one if the path lies below the base in one of its two spellings, which is never so if the base is
absolute. -/
def IndifferentToDot (base? : Option String) (path : String) : Prop :=
  match base? with
  | none => True
  | some base =>
      if (ofString base).components = [] then path ≠ ""
      else if (ofString base).components = [.current] then (ofString path).trimRight.text = path
      else ¬ (ofString path).LiesBelow (ofString base) ∧ ¬ (ofString ("./" ++ path)).LiesBelow (ofString base)

instance (base? : Option String) (path : String) : Decidable (IndifferentToDot base? path) :=
  match base? with
  | none => isTrue trivial
  | some base => by
      delta IndifferentToDot
      infer_instance

/-- Below no directory in particular, the dot is kept only for the path that is nothing else. -/
theorem matchedText_dotSlash_iff_of_nowhere (bare : Bare path) (isBase : set.baseDir = some base)
    (nowhere : (ofString base).components = []) :
    set.matchedText ("./" ++ path) = set.matchedText path ↔ path ≠ "" := by
  have trims : ∀ path : String,
      set.matchedText path = Rule.withoutDotSlash (ofString path).trimRight.text := by
    intro path
    rw [matchedText, comparedPath_eq isBase, Path.relativeTo?, nowhere]
    rfl
  rw [trims, trims]
  rcases bare.ofString_eq with rfl | plain
  · decide
  by_cases nothing : Path.dropFillersRight (cut path) = []
  · rcases bare.eq_of_dropFillersRight nothing with rfl | rfl <;> decide
  have dotted : (ofString ("./" ++ path)).trimRight.text = "./" ++ Path.trimmed path := by
    rw [Path.ofString_dotSlash, Path.text, Path.trimRight]
    simp only [List.isEmpty_iff, nothing, if_false]
    rfl
  have undotted : (ofString path).trimRight.text = Path.trimmed path := by
    rw [plain]
    rfl
  have notEmpty : path ≠ "" := by
    rintro rfl
    exact nothing (by decide)
  rw [dotted, undotted, Rule.withoutDotSlash_dotSlash, Rule.withoutDotSlash_eq_self bare.undotted_trimmed]
  exact iff_of_true rfl notEmpty

/-- Below the directory `.`, a path with a leading `./` loses the fillers at its end, and without it does not. -/
theorem matchedText_dotSlash_iff_of_here (bare : Bare path) (isBase : set.baseDir = some base)
    (here : (ofString base).components = [.current]) :
    set.matchedText ("./" ++ path) = set.matchedText path ↔ (ofString path).trimRight.text = path := by
  have dotted : set.matchedText ("./" ++ path) = Path.trimmed path := by
    rw [matchedText, comparedPath_eq isBase, Path.ofString_dotSlash, Path.relativeTo?, here]
    simp only [Path.startComponent?, if_true, Path.dropComponents, Option.map_some, Option.getD_some]
    rw [bare.text_dropWhile, Rule.withoutDotSlash_eq_self bare.undotted_trimmed]
  rcases bare.ofString_eq with rfl | plain
  · have undotted : set.matchedText "." = "" := by
      rw [matchedText, comparedPath_eq isBase, Path.relativeTo?, here]
      decide
    rw [dotted, undotted]
    decide
  · have outside : ¬ (ofString path).LiesBelow (ofString base) := by
      rw [plain]
      exact Path.not_liesBelow_of_current here
    rw [dotted, matchedText_of_outside isBase outside, Rule.withoutDotSlash_eq_self bare.undotted, plain]
    rfl

/-- Below a directory with a name, the two spellings of a path are told apart if one of them lies there. -/
theorem matchedText_dotSlash_iff_of_named (bare : Bare path) (isBase : set.baseDir = some base)
    (somewhere : (ofString base).components ≠ []) (named : (ofString base).components ≠ [.current]) :
    set.matchedText ("./" ++ path) = set.matchedText path ↔
      ¬ (ofString path).LiesBelow (ofString base) ∧ ¬ (ofString ("./" ++ path)).LiesBelow (ofString base) := by
  have plainOfBelow : (ofString path).LiesBelow (ofString base) → ofString path = ⟨.plain, cut path⟩ := by
    intro below
    refine bare.ofString_eq.resolve_left ?_
    rintro rfl
    rcases List.prefix_cons_iff.mp below with none | ⟨rest, isBase, isPrefix⟩
    · exact somewhere none
    · rw [List.prefix_nil.mp isPrefix] at isBase
      exact named isBase
  have currentOfBelow : (ofString ("./" ++ path)).LiesBelow (ofString base) →
      ∃ second others, (ofString base).components = .current :: second :: others := by
    intro below
    rw [Path.ofString_dotSlash] at below
    rcases List.prefix_cons_iff.mp below with none | ⟨rest, isBase, _⟩
    · exact absurd none somewhere
    · cases rest with
      | nil => exact absurd isBase named
      | cons second others => exact ⟨second, others, isBase⟩
  by_cases below : (ofString path).LiesBelow (ofString base)
  · -- The text without the dot is shortened, and the one with it is not.
    have plain := plainOfBelow below
    have outside : ¬ (ofString ("./" ++ path)).LiesBelow (ofString base) := by
      intro dottedBelow
      obtain ⟨second, others, dotted⟩ := currentOfBelow dottedBelow
      rw [plain] at below
      exact Path.not_liesBelow_of_current dotted below
    have shorter : (set.matchedText path).length < path.length := by
      have shorter := length_matchedText_lt isBase below (by
        rw [plain]
        exact List.length_pos_iff.mpr somewhere)
      rwa [plain, Path.intercalate_cut] at shorter
    rw [matchedText_of_outside isBase outside, Rule.withoutDotSlash_dotSlash]
    refine iff_of_false (fun same => ?_) (fun both => both.1 below)
    rw [← same] at shorter
    exact Nat.lt_irrefl _ shorter
  rw [matchedText_of_outside isBase below, Rule.withoutDotSlash_eq_self bare.undotted]
  by_cases dottedBelow : (ofString ("./" ++ path)).LiesBelow (ofString base)
  · obtain ⟨second, others, dotted⟩ := currentOfBelow dottedBelow
    have shorter : (set.matchedText ("./" ++ path)).length < path.length := by
      have shorter := length_matchedText_lt isBase dottedBelow (by
        rw [Path.ofString_dotSlash, dotted]
        exact Nat.succ_lt_succ (Nat.zero_lt_succ _))
      rwa [Path.ofString_dotSlash, Path.intercalate_cut] at shorter
    refine iff_of_false (fun same => ?_) (fun both => both.2 dottedBelow)
    rw [same] at shorter
    exact Nat.lt_irrefl _ shorter
  · rw [matchedText_of_outside isBase dottedBelow, Rule.withoutDotSlash_dotSlash]
    exact iff_of_true rfl ⟨below, dottedBelow⟩

theorem matchedText_dotSlash_iff (bare : Bare path) (set : RuleSet) :
    set.matchedText ("./" ++ path) = set.matchedText path ↔ IndifferentToDot set.baseDir path := by
  cases isBase : set.baseDir with
  | none =>
      have asGiven : ∀ path : String, set.matchedText path = Rule.withoutDotSlash path := by
        intro path
        rw [matchedText, comparedPath, isBase]
        rfl
      rw [asGiven, asGiven, Rule.withoutDotSlash_dotSlash, Rule.withoutDotSlash_eq_self bare.undotted]
      exact iff_of_true rfl trivial
  | some base =>
      rw [IndifferentToDot]
      split_ifs with nowhere here
      · exact matchedText_dotSlash_iff_of_nowhere bare isBase nowhere
      · exact matchedText_dotSlash_iff_of_here bare isBase here
      · exact matchedText_dotSlash_iff_of_named bare isBase nowhere here

example :
    let set : RuleSet := ⟨#[], .empty, ∅, some "src"⟩
    set.matchedText "src/a.json" = "a.json" ∧ set.matchedText "./src/a.json" = "src/a.json" := by
  decide

/-! ### Rules and diagnostics -/

/-- A rule and path patterns that tell a text from all others. -/
theorem exists_applies_ne (base? : Option String) {path other : String}
    (differ : ∀ set : RuleSet, set.baseDir = base? → set.matchedText other ≠ set.matchedText path) :
    ∃ (set : RuleSet) (globs : GlobEngine), set.baseDir = base? ∧
      ∃ rule ∈ set.rules, set.applies globs other rule ≠ set.applies globs path rule := by
  let rule : Rule := ⟨"", [], "", .warning, [""]⟩
  let set : RuleSet := ⟨#[rule], .empty, listenersOf [rule], base?⟩
  let globs : GlobEngine := ⟨fun _ => .ok (), fun _ => .ok (), fun _ text => text == set.matchedText path⟩
  refine ⟨set, globs, rfl, rule, Array.mem_singleton.mpr rfl, ?_⟩
  have excluded : set.applies globs path rule = false := by
    simp [applies_eq, GlobEngine.anyCovers, rule, globs]
  have applied : set.applies globs other rule = true := by
    simp [applies_eq, GlobEngine.anyCovers, rule, globs, differ set rfl]
  rw [excluded, applied]
  exact nofun

end RuleSet

def Diagnostic.movedTo (path : String) (diagnostic : Diagnostic) : Diagnostic :=
  { diagnostic with path := path }

namespace RuleSet

theorem deliver_movedTo (set : RuleSet) (active : Array Bool) (path other : String) (tree : Tree)
    (events : List Event) :
    set.deliver active other tree events = (set.deliver active path tree events).map (.movedTo other) := by
  simp only [deliver, List.map_flatMap, List.map_map]
  rfl

/-- If the same rules apply to two paths, a tree has the same diagnostics for both. -/
theorem check_movedTo {set : RuleSet} {globs : GlobEngine} {path other : String}
    (alike : ∀ rule ∈ set.rules, set.applies globs other rule = set.applies globs path rule)
    (engine : RegexEngine) (tree : Tree) :
    (set.check engine globs other tree).result
      = (set.check engine globs path tree).result.map (List.map (.movedTo other)) := by
  have active : set.rules.map (set.applies globs other) = set.rules.map (set.applies globs path) :=
    Array.map_congr_left alike
  rw [check, check, active]
  split
  · split
    · rfl
    · rw [deliver_movedTo set _ path other]
      rfl
  · rfl

/-- A leading `./` of a relative path makes a difference to some rules with the given base directory, unless they
are indifferent to it. If they are, a tree has the same diagnostics for both spellings of its path. -/
theorem excludes_ignore_dotSlash_iff {path : String} (bare : Path.Bare path) (base? : Option String) :
    ((∀ (set : RuleSet) (globs : GlobEngine), set.baseDir = base? → ∀ rule ∈ set.rules,
        set.applies globs ("./" ++ path) rule = set.applies globs path rule) ↔ IndifferentToDot base? path) ∧
      (IndifferentToDot base? path →
        ∀ (set : RuleSet) (engine : RegexEngine) (globs : GlobEngine) (tree : Tree), set.baseDir = base? →
          (set.check engine globs ("./" ++ path) tree).result
            = (set.check engine globs path tree).result.map (List.map (.movedTo ("./" ++ path)))) := by
  have alike : IndifferentToDot base? path → ∀ (set : RuleSet) (globs : GlobEngine), set.baseDir = base? →
      ∀ rule ∈ set.rules, set.applies globs ("./" ++ path) rule = set.applies globs path rule := by
    rintro indifferent set globs rfl rule _
    rw [applies_eq, applies_eq, (matchedText_dotSlash_iff bare set).mpr indifferent]
  refine ⟨⟨fun always => ?_, alike⟩, fun indifferent set engine globs tree isBase => ?_⟩
  · by_contra different
    have differ : ∀ set : RuleSet, set.baseDir = base? →
        set.matchedText ("./" ++ path) ≠ set.matchedText path := by
      rintro set rfl same
      exact different ((matchedText_dotSlash_iff bare set).mp same)
    obtain ⟨set, globs, isBase, rule, isRule, distinct⟩ := exists_applies_ne base? differ
    exact distinct (always set globs isBase rule isRule)
  · exact check_movedTo (alike indifferent set globs isBase) engine tree

/-- Rules relative to `src` tell `./src/a.json` from `src/a.json`; rules relative to `/src` do not. -/
theorem not_indifferentToDot_src :
    Path.Bare "src/a.json" ∧
      ¬ (∀ (set : RuleSet) (globs : GlobEngine), set.baseDir = some "src" → ∀ rule ∈ set.rules,
        set.applies globs "./src/a.json" rule = set.applies globs "src/a.json" rule) ∧
      ∀ (set : RuleSet) (globs : GlobEngine), set.baseDir = some "/src" → ∀ rule ∈ set.rules,
        set.applies globs "./src/a.json" rule = set.applies globs "src/a.json" rule := by
  have bare : Path.Bare "src/a.json" := ⟨by decide, by decide⟩
  refine ⟨bare, fun always => ?_, ?_⟩
  · exact absurd ((excludes_ignore_dotSlash_iff bare (some "src")).1.mp always) (by decide)
  · exact (excludes_ignore_dotSlash_iff bare (some "/src")).1.mpr (by decide)

end RuleSet

end TreeLint
