/-!
Contract: tables of code points as ascending runs.

Owns: turning run lengths into starting points, and finding the run that a code point lies in.
-/

set_option autoImplicit false

namespace TreeLint.Unicode

/-- Where each of the runs starts, when they follow one another from zero. -/
def startsOf {α : Type} (runs : List (Nat × α)) : Array (Nat × α) :=
  (runs.foldl
    (fun (acc : Nat × Array (Nat × α)) run => (acc.1 + run.1, acc.2.push (acc.1, run.2)))
    (0, #[])).2

/-- Halve the entries from `low` up to `high` until the last one that starts at or before `point` is
found; `best` is what was found so far. -/
private def halve {α : Type} (table : Array (Nat × α)) (point low high : Nat) (best : Option α) :
    Option α :=
  if low < high then
    let middle := (low + high) / 2
    match table[middle]? with
    | some (start, value) =>
        if start ≤ point then halve table point (middle + 1) high (some value)
        else halve table point low middle best
    | none => best
  else best
termination_by high - low

/-- The value of the last entry that starts at or before `point`, in a table sorted by starting
point. -/
def lastStartingBy? {α : Type} (table : Array (Nat × α)) (point : Nat) : Option α :=
  halve table point 0 table.size none

/-- Whether a number lies in one of the ranges; both ends belong to a range. -/
def inRanges (ranges : List (Nat × Nat)) (point : Nat) : Bool :=
  ranges.any fun (low, high) => low ≤ point && point ≤ high

end TreeLint.Unicode
