import TreeLint.Regex.Expression

/-!
Contract: where the matches of an expression that needs no backtracking can end.

Owns: `Expression.ends`, the places at which a match that starts at a given place ends, in order of
preference and each once. The time it takes is polynomial in the length of the text, whatever the
repetitions.
-/

set_option autoImplicit false

namespace TreeLint.Regex

/-- Whether the character at a place is a character of words; there is none outside the text. -/
def isWordAt (text : Array Char) (place : Nat) : Bool :=
  (text[place]?).any Unicode.isWordCharacter

def isWordBefore (text : Array Char) (place : Nat) : Bool :=
  place != 0 && isWordAt text (place - 1)

def Assertion.holds (condition : Assertion) (text : Array Char) (place : Nat) : Bool :=
  match condition with
  | .startText => place == 0
  | .endText => place == text.size
  | .startLine => place == 0 || text[place - 1]? == some '\n'
  | .endLine => place == text.size || text[place]? == some '\n'
  | .wordBoundary => isWordBefore text place != isWordAt text place
  | .notWordBoundary => isWordBefore text place == isWordAt text place
  | .wordStart => !isWordBefore text place && isWordAt text place
  | .wordEnd => isWordBefore text place && !isWordAt text place

/-- Whether two characters are equal, or equal but for their case. -/
def sameCharacter (ignoreCase : Bool) (left right : Char) : Bool :=
  left == right
    || (ignoreCase && Unicode.foldingBase left == Unicode.foldingBase right)

/-- The place after the character at `place`, if there is one that satisfies `p`. -/
def oneCharacter (text : Array Char) (p : Char → Bool) (place : Nat) : List Nat :=
  if (text[place]?).any p then [place + 1] else []

def firstOccurrences (places : List Nat) : List Nat :=
  places.foldr (fun place rest => place :: rest.filter (· != place)) []

def exactly (step : Nat → List Nat) : (count : Nat) → List Nat → List Nat
  | 0, places => places
  | count + 1, places =>
      if places.isEmpty then []
      else exactly step count (firstOccurrences (places.flatMap step))

/-- The ends of at most `count` steps; the ends of more steps come first if `greedy` is set. -/
def upTo (step : Nat → List Nat) (greedy : Bool) : (count : Nat) → List Nat → List Nat
  | 0, places => places
  | count + 1, places =>
      if places.isEmpty then []
      else
        let further := upTo step greedy count (firstOccurrences (places.flatMap step))
        firstOccurrences (if greedy then further ++ places else places ++ further)

/-- The ends of any number of steps from a place, depth first. The places seen so far are not entered
again; `fuel` bounds the depth, for which the length of the text is enough. -/
def anyNumber (step : Nat → List Nat) (greedy : Bool) :
    (fuel : Nat) → (seen : List Nat) → Nat → List Nat × List Nat
  | 0, seen, place => ([place], seen)
  | fuel + 1, seen, place =>
      let (further, seen) :=
        (step place).foldl
          (fun (acc : List Nat × List Nat) next =>
            if acc.2.contains next then acc
            else
              let (found, seen) := anyNumber step greedy fuel (next :: acc.2) next
              (acc.1 ++ found, seen))
          ([], seen)
      (if greedy then further ++ [place] else place :: further, seen)

def repeated (size : Nat) (step : Nat → List Nat) (least : Nat) (most : Option Nat) (greedy : Bool)
    (place : Nat) : List Nat :=
  let required := exactly step least [place]
  match most with
  | some most => upTo step greedy (most - least) required
  | none =>
      firstOccurrences
        (required.flatMap fun start => (anyNumber step greedy (size + 1) [start] start).1)

namespace Expression

mutual

/-- The places at which a match of the expression from `place` on can end. -/
def ends (text : Array Char) : Expression → Nat → List Nat
  | .empty, place => [place]
  | .any newline, place => oneCharacter text (fun c => newline || c != '\n') place
  | .literal c ignoreCase, place => oneCharacter text (sameCharacter ignoreCase c) place
  | .oneOf set, place => oneCharacter text set.contains place
  | .assertion condition, place => if condition.holds text place then [place] else []
  | .searchStart, place => if place = 0 then [place] else []
  | .concat parts, place => endsOfAll text parts [place]
  | .alternatives choices, place => firstOccurrences (endsOfAny text choices place)
  | .group _ body, place => ends text body place
  | .repetition body least most greedy, place =>
      repeated text.size (ends text body) least most greedy place
  | _, place => [place]

def endsOfAll (text : Array Char) : List Expression → List Nat → List Nat
  | [], places => places
  | part :: rest, places =>
      if places.isEmpty then []
      else endsOfAll text rest (firstOccurrences (places.flatMap (ends text part)))

def endsOfAny (text : Array Char) : List Expression → Nat → List Nat
  | [], _ => []
  | choice :: rest, place => ends text choice place ++ endsOfAny text rest place

end

def occurs (text : Array Char) (expression : Expression) : Bool :=
  (List.range (text.size + 1)).any fun place => !(ends text expression place).isEmpty

end Expression

end TreeLint.Regex
