import DataExpr.Pattern.CharSet

/-!
# Regular expressions

The tree of a regular expression and the question whether it matches somewhere in
a text.

Matching works on sets of positions: `Regex.ends` takes the positions where a
match may start to all positions where it may end.  A text with `n` characters
has `n + 1` positions, so a repetition that has gone round `n + 1` times has
reached everything it ever will.  Which of several matches is preferred is left
out, because only the existence of one is asked for.
-/

namespace DataExpr.Pattern

/-- A condition on a position between two characters. -/
inductive Assertion where
  /-- The start of the text. -/
  | textStart
  /-- The end of the text. -/
  | textEnd
  /-- The start of a line. -/
  | lineStart
  /-- The end of a line. -/
  | lineEnd
  /-- A word starts or ends here. -/
  | wordBoundary
  /-- No word starts or ends here. -/
  | notWordBoundary
  /-- A word starts here. -/
  | wordStart
  /-- A word ends here. -/
  | wordEnd
  /-- No word character stands before. -/
  | wordStartHalf
  /-- No word character stands behind. -/
  | wordEndHalf
  deriving DecidableEq, Repr

/-- A regular expression. -/
inductive Regex where
  /-- Matches the empty text. -/
  | empty
  /-- Matches one character of a set. -/
  | chars (set : CharSet)
  /-- Matches the empty text where a condition holds. -/
  | assertion (condition : Assertion)
  /-- Matches one thing and then another. -/
  | seq (first second : Regex)
  /-- Matches either of two things. -/
  | alt (left right : Regex)
  /-- Matches the same thing several times over. -/
  | repeated (body : Regex) (least : Nat) (most? : Option Nat)
  deriving Repr

/-- Whether a condition holds between the characters before and behind. -/
def Assertion.holds (condition : Assertion) (before? behind? : Option Char) : Bool :=
  let wordBefore := before?.any Text.isWordChar
  let wordBehind := behind?.any Text.isWordChar
  match condition with
  | .textStart => before?.isNone
  | .textEnd => behind?.isNone
  | .lineStart => before?.all (· = '\n')
  | .lineEnd => behind?.all (· = '\n')
  | .wordBoundary => wordBefore != wordBehind
  | .notWordBoundary => wordBefore == wordBehind
  | .wordStart => !wordBefore && wordBehind
  | .wordEnd => wordBefore && !wordBehind
  | .wordStartHalf => !wordBefore
  | .wordEndHalf => !wordBehind

namespace Regex

/-- Adds positions to a list of positions, each at most once. -/
def addPositions (positions more : List Nat) : List Nat :=
  more.foldl (fun all i => if all.contains i then all else i :: all) positions

/-- Applies a step a number of times. -/
def iterate (step : List Nat → List Nat) : Nat → List Nat → List Nat
  | 0, positions => positions
  | n + 1, positions => iterate step n (step positions)

/-- All positions that at most `n` steps reach. -/
def reach (step : List Nat → List Nat) : Nat → List Nat → List Nat
  | 0, positions => positions
  | n + 1, positions => reach step n (addPositions positions (step positions))

/-- The positions where a match may end that starts at one of the given
positions. -/
def ends (text : Array Char) : Regex → List Nat → List Nat
  | .empty, starts => starts
  | .chars set, starts =>
      (starts.filter fun i => (text[i]?).any set.has).map (· + 1)
  | .assertion condition, starts =>
      starts.filter fun i =>
        condition.holds (if i = 0 then none else text[i - 1]?) text[i]?
  | .seq first second, starts => ends text second (ends text first starts)
  | .alt left right, starts => addPositions (ends text left starts) (ends text right starts)
  | .repeated body least most?, starts =>
      let rounds := text.size + 1
      let atLeast := iterate (ends text body) (min least rounds) starts
      match most? with
      | none => reach (ends text body) rounds atLeast
      | some most => reach (ends text body) (min (most - least) rounds) atLeast

/-- Whether the expression matches anywhere in a text. -/
def isMatch (regex : Regex) (text : String) : Bool :=
  let cs := text.toList.toArray
  !(regex.ends cs (List.range (cs.size + 1))).isEmpty

end Regex

end DataExpr.Pattern
