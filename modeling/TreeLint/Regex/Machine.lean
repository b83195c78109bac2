import TreeLint.Regex.Ends
import TreeLint.Regex.Engine
import TreeLint.Regex.Fault

/-!
Contract: matching by backtracking, within a budget.

Owns:
- `Code`, an expression in which the parts that need no backtracking have been set apart, so that each of
  them is matched in one step;
- the machine that runs it: a list of tasks, a place in the text, and a stack of choices to come back to;
- the budget: a search that comes back to a choice more than a million times is given up.
-/

set_option autoImplicit false

namespace TreeLint.Regex

/-- An expression made ready for backtracking. -/
inductive Code where
  | any (newline : Bool)
  | character (c : Char)
  /-- Parts that follow each other and need no backtracking; only their preferred end is tried. -/
  | parts (parts : List Expression)
  | assertion (condition : Assertion)
  | searchStart
  | sequence (codes : List Code)
  | choice (codes : List Code)
  | capture (index : Nat) (body : Code)
  | optional (body : Code) (greedy : Bool)
  | star (body : Code) (greedy : Bool)
  | plus (body : Code) (greedy : Bool)
  | counted (body : Code) (least : Nat) (most : Option Nat) (greedy : Bool)
  /-- An unbounded repetition of something that may be empty. -/
  | guarded (body : Code) (least : Nat) (greedy : Bool)
  /-- Look-around; what looks behind first goes back `back` characters. -/
  | look (back : Nat) (negative : Bool) (body : Code)
  | reference (index : Nat)
  | atomic (body : Code)
  | matched (index : Nat)
  | conditional (test yes no : Code)
  deriving Repr

namespace Expression

/-- Whether the part may be set apart at the beginning or the end of a sequence. -/
private def isFixed (referenced : List Nat) (part : Expression) : Bool :=
  part.hasConstantSize && !part.isHard referenced

/-- Parts that need no backtracking, as a sequence of at most one code. -/
private def setApart (parts : List Expression) : Except Fault (List Code) :=
  if parts.isEmpty then .ok []
  else if Expression.allBoundsInOrder parts then .ok [.parts parts]
  else .error .boundsOutOfOrder

/-- How many parts at the end of a sequence are set apart. -/
private def suffixLength (referenced : List Nat) (hard : Bool) (parts : List Expression) : Nat :=
  (parts.reverse.takeWhile fun part =>
    !part.isHard referenced && (!hard || part.hasConstantSize)).length

mutual

/-- Makes an expression ready. `hard` says that what follows it may have to come back to it. -/
def compile (referenced : List Nat) (hard : Bool) (expression : Expression) : Except Fault Code :=
  if !hard && !expression.isHard referenced then
    (setApart [expression]).map Code.sequence
  else
    match expression with
    | .empty | .keep => .ok (.sequence [])
    | .any newline => .ok (.any newline)
    | .literal c false => .ok (.character c)
    | .literal c true => .ok (.parts [.literal c true])
    | .oneOf set => .ok (.parts [.oneOf set])
    | .assertion condition => .ok (.assertion condition)
    | .searchStart => .ok .searchStart
    | .concat parts =>
        let first := (parts.takeWhile (isFixed referenced)).length
        let last := parts.length - suffixLength referenced hard (parts.drop first)
        match setApart (parts.take first), setApart (parts.drop last),
            compileRange referenced first last 0 parts with
        | .ok before, .ok after, .ok middle => .ok (.sequence (before ++ middle ++ after))
        | .error fault, _, _ => .error fault
        | _, .error fault, _ => .error fault
        | _, _, .error fault => .error fault
    | .alternatives choices => (compileAll referenced hard choices).map Code.choice
    | .group index body => (compile referenced hard body).map (Code.capture index)
    | .repetition body least most greedy =>
        if least = 0 ∧ most = some 1 then
          (compile referenced hard body).map fun code => .optional code greedy
        else
          (compile referenced true body).map fun code =>
            match most with
            | none =>
                if body.minSize = 0 then .guarded code least greedy
                else if least = 0 then .star code greedy
                else if least = 1 then .plus code greedy
                else .counted code least none greedy
            | some most => .counted code least (some most) greedy
    | .look behind negative body =>
        if behind && !body.hasConstantSize then
          match body with
          | .alternatives choices =>
              (compileBehind referenced negative choices).map fun codes =>
                if negative then .sequence codes else .choice codes
          | _ => .error .variableLookBehind
        else
          (compile referenced false body).map (Code.look (if behind then body.minSize else 0) negative)
    | .reference index => .ok (.reference index)
    | .atomic body => (compile referenced false body).map Code.atomic
    | .matched index => .ok (.matched index)
    | .conditional condition yes no =>
        match compile referenced hard condition, compile referenced hard yes,
            compile referenced hard no with
        | .ok condition, .ok yes, .ok no => .ok (.conditional condition yes no)
        | .error fault, _, _ => .error fault
        | _, .error fault, _ => .error fault
        | _, _, .error fault => .error fault

def compileAll (referenced : List Nat) (hard : Bool) : List Expression → Except Fault (List Code)
  | [] => .ok []
  | part :: rest =>
      match compile referenced hard part, compileAll referenced hard rest with
      | .ok code, .ok codes => .ok (code :: codes)
      | .error fault, _ => .error fault
      | _, .error fault => .error fault

def compileRange (referenced : List Nat) (first last : Nat) :
    (index : Nat) → List Expression → Except Fault (List Code)
  | _, [] => .ok []
  | index, part :: rest =>
      if first ≤ index ∧ index < last then
        match compile referenced true part, compileRange referenced first last (index + 1) rest with
        | .ok code, .ok codes => .ok (code :: codes)
        | .error fault, _ => .error fault
        | _, .error fault => .error fault
      else compileRange referenced first last (index + 1) rest

/-- Makes ready look-behind for each of several choices of different sizes. -/
def compileBehind (referenced : List Nat) (negative : Bool) :
    List Expression → Except Fault (List Code)
  | [] => .ok []
  | choice :: rest =>
      if choice.hasConstantSize then
        match compile referenced false choice, compileBehind referenced negative rest with
        | .ok code, .ok codes => .ok (.look choice.minSize negative code :: codes)
        | .error fault, _ => .error fault
        | _, .error fault => .error fault
      else .error .variableLookBehind

end

end Expression

mutual

/-- Something that is still to be done in a match. -/
inductive Task where
  | run (code : Code)
  /-- Note the place as the beginning of a group. -/
  | open (index : Nat)
  /-- Note the place as the end of a group. -/
  | close (index : Nat)
  /-- Repeat once more, or go on. -/
  | star (body : Code) (greedy : Bool)
  /-- Repeat once more or go on, after `count` copies. -/
  | counted (body : Code) (least : Nat) (most : Option Nat) (greedy : Bool) (count : Nat)
  /-- The same for copies that may be empty; `last` is where the copy before began. -/
  | guarded (body : Code) (least : Nat) (greedy : Bool) (count : Nat) (last : Option Nat)
  /-- Continue at an earlier place. -/
  | moveTo (place : Nat)
  /-- Forget the choices made since. -/
  | commit (choices : List Choice)
  /-- Forget the choices made since, and fail. -/
  | refuse (choices : List Choice)

/-- A choice to come back to. -/
inductive Choice where
  | mk (tasks : List Task) (place : Nat) (groups : List (Nat × Option Nat × Option Nat))

end

namespace Machine

/-- The groups that have been entered: number, beginning, and end. -/
abbrev Groups := List (Nat × Option Nat × Option Nat)

def extent (groups : Groups) (index : Nat) : Option Nat × Option Nat :=
  ((groups.find? fun entry => entry.1 == index).map Prod.snd).getD (none, none)

def setExtent (groups : Groups) (index : Nat) (value : Option Nat × Option Nat) : Groups :=
  (index, value) :: groups.filter fun entry => entry.1 != index

structure State where
  tasks : List Task
  place : Nat
  groups : Groups
  choices : List Choice
  /-- How often the machine has come back to a choice. -/
  returns : Nat

/-- How often a search may come back to a choice. -/
def budget : Nat := 1000000

inductive Step where
  | next (state : State)
  /-- What is tried fails here. -/
  | fail

/-- Goes on after a repetition decides between one more copy and what follows. -/
def decide (state : State) (greedy : Bool) (more others : List Task) : Step :=
  let (first, second) := if greedy then (more, others) else (others, more)
  .next { state with
    tasks := first, choices := .mk second state.place state.groups :: state.choices }

/-- Whether the text at `place` repeats the text from `low` to `high`. -/
def repeats (text : Array Char) (low high place : Nat) : Bool :=
  (List.range (high - low)).all fun offset =>
    match text[low + offset]?, text[place + offset]? with
    | some c, some d => c == d
    | _, _ => false

def runCode (text : Array Char) (state : State) (tasks : List Task) : Code → Step
  | .any newline =>
      match oneCharacter text (fun c => newline || c != '\n') state.place with
      | place :: _ => .next { state with tasks, place }
      | [] => .fail
  | .character c =>
      match oneCharacter text (· == c) state.place with
      | place :: _ => .next { state with tasks, place }
      | [] => .fail
  | .parts parts =>
      match Expression.endsOfAll text parts [state.place] with
      | place :: _ => .next { state with tasks, place }
      | [] => .fail
  | .assertion condition =>
      if condition.holds text state.place then .next { state with tasks } else .fail
  | .searchStart => if state.place = 0 then .next { state with tasks } else .fail
  | .sequence codes => .next { state with tasks := codes.map Task.run ++ tasks }
  | .choice [] => .fail
  | .choice [only] => .next { state with tasks := .run only :: tasks }
  | .choice (first :: rest) =>
      decide state true (.run first :: tasks) (.run (.choice rest) :: tasks)
  | .capture index body =>
      .next { state with tasks := .open index :: .run body :: .close index :: tasks }
  | .optional body greedy => decide state greedy (.run body :: tasks) tasks
  | .star body greedy => .next { state with tasks := .star body greedy :: tasks }
  | .plus body greedy => .next { state with tasks := .run body :: .star body greedy :: tasks }
  | .counted body least most greedy =>
      .next { state with tasks := .counted body least most greedy 0 :: tasks }
  | .guarded body least greedy =>
      .next { state with tasks := .guarded body least greedy 0 none :: tasks }
  | .look back negative body =>
      if negative then
        let here := Choice.mk tasks state.place state.groups
        .next { state with
          tasks :=
            if state.place < back then [.run (.choice [])]
            else [.run body, .refuse state.choices]
          place := state.place - back
          choices := here :: state.choices }
      else if state.place < back then .fail
      else
        .next { state with
          tasks := .run body :: .moveTo state.place :: tasks
          place := state.place - back }
  | .reference index =>
      match extent state.groups index with
      | (some low, some high) =>
          if repeats text low high state.place then
            .next { state with tasks, place := state.place + (high - low) }
          else .fail
      | _ => .fail
  | .atomic body => .next { state with tasks := .run body :: .commit state.choices :: tasks }
  | .matched index =>
      match extent state.groups index with
      | (_, some _) => .next { state with tasks }
      | _ => .fail
  | .conditional test yes no =>
      .next { state with
        tasks := .run test :: .commit state.choices :: .run yes :: tasks
        choices := .mk (.run no :: tasks) state.place state.groups :: state.choices }

def runTask (text : Array Char) (state : State) (tasks : List Task) : Task → Step
  | .run code => runCode text state tasks code
  | .open index =>
      let (_, finish) := extent state.groups index
      .next { state with tasks, groups := setExtent state.groups index (some state.place, finish) }
  | .close index =>
      let (start, _) := extent state.groups index
      .next { state with tasks, groups := setExtent state.groups index (start, some state.place) }
  | .star body greedy =>
      decide state greedy (.run body :: .star body greedy :: tasks) tasks
  | .counted body least most greedy count =>
      if most = some count then .next { state with tasks }
      else
        let more := .run body :: .counted body least most greedy (count + 1) :: tasks
        if count < least then .next { state with tasks := more }
        else decide state greedy more tasks
  | .guarded body least greedy count last =>
      if 0 < count ∧ last = some state.place then .fail
      else
        let last := if least ≤ count then some state.place else last
        let more := .run body :: .guarded body least greedy (count + 1) last :: tasks
        if count < least then .next { state with tasks := more }
        else decide state greedy more tasks
  | .moveTo place => .next { state with tasks, place }
  | .commit choices => .next { state with tasks, choices }
  | .refuse _ => .fail

/-- The choices that remain when the given task fails. -/
def choicesAfter (state : State) : Task → List Choice
  | .refuse choices => choices
  | _ => state.choices

/-- Runs the machine. `fuel` bounds the number of steps; the budget ends a search long before. -/
def run (text : Array Char) : (fuel : Nat) → State → SearchOutcome
  | 0, _ => .gaveUp
  | fuel + 1, state =>
      match state.tasks with
      | [] => .found
      | task :: tasks =>
          match runTask text state tasks task with
          | .next state => run text fuel state
          | .fail =>
              match choicesAfter state task with
              | [] => .absent
              | .mk tasks place groups :: choices =>
                  if budget ≤ state.returns then .gaveUp
                  else
                    run text fuel
                      { tasks, place, groups, choices, returns := state.returns + 1 }

def search (code : Code) (text : Array Char) : SearchOutcome :=
  run text (1000 * budget)
    { tasks := [.star (.any true) false, .open 0, .run code, .close 0]
      place := 0, groups := [], choices := [], returns := 0 }

end Machine

end TreeLint.Regex
