import DataExpr.Text.Basic
import DataExpr.Text.CaseFold
import DataExpr.Text.Word

/-!
# Sets of characters

The sets that one step of a regular expression can match: ranges, the classes
with a name of their own, and what set operations make of them.
-/

namespace DataExpr.Pattern

/-- A set of characters. -/
inductive CharSet where
  /-- No character. -/
  | none
  /-- All characters from `first` to `last`. -/
  | range (first last : Char)
  /-- Decimal digits of all scripts. -/
  | digit
  /-- Alphabetic characters. -/
  | alphabetic
  /-- White space. -/
  | blank
  /-- Word characters. -/
  | word
  /-- Characters in either set. -/
  | union (a b : CharSet)
  /-- Characters in both sets. -/
  | inter (a b : CharSet)
  /-- Characters in the first set only. -/
  | diff (a b : CharSet)
  /-- Characters not in the set. -/
  | compl (a : CharSet)
  /-- Characters that the set has up to case. -/
  | caseless (a : CharSet)
  deriving Repr

namespace CharSet

/-- Whether the set has a character. -/
def has : CharSet → Char → Bool
  | .none, _ => false
  | .range first last, c => first ≤ c && c ≤ last
  | .digit, c => Text.isDecimalDigit c
  | .alphabetic, c => Text.isAlphabetic c
  | .blank, c => Text.isBlank c
  | .word, c => Text.isWordChar c
  | .union a b, c => a.has c || b.has c
  | .inter a b, c => a.has c && b.has c
  | .diff a b, c => a.has c && !b.has c
  | .compl a, c => !a.has c
  | .caseless a, c => (Text.caseVariants c).any a.has

/-- One character. -/
def single (c : Char) : CharSet := .range c c

/-- All characters in some ranges. -/
def ofRanges (ranges : List (Char × Char)) : CharSet :=
  ranges.foldl (fun set (first, last) => set.union (.range first last)) .none

/-- The set, or the set up to case. -/
def caselessIf (caseless : Bool) (set : CharSet) : CharSet :=
  if caseless then .caseless set else set

/-- The set, or all characters not in it. -/
def complIf (negated : Bool) (set : CharSet) : CharSet :=
  if negated then .compl set else set

/-- The ASCII classes that brackets and colons name. -/
def named? (name : String) : Option CharSet :=
  match name with
  | "alnum" => some (ofRanges [('0', '9'), ('A', 'Z'), ('a', 'z')])
  | "alpha" => some (ofRanges [('A', 'Z'), ('a', 'z')])
  | "ascii" => some (ofRanges [('\x00', '\x7f')])
  | "blank" => some (ofRanges [('\t', '\t'), (' ', ' ')])
  | "cntrl" => some (ofRanges [('\x00', '\x1f'), ('\x7f', '\x7f')])
  | "digit" => some (ofRanges [('0', '9')])
  | "graph" => some (ofRanges [('!', '~')])
  | "lower" => some (ofRanges [('a', 'z')])
  | "print" => some (ofRanges [(' ', '~')])
  | "punct" => some (ofRanges [('!', '/'), (':', '@'), ('[', '\x60'), ('\x7b', '~')])
  | "space" => some (ofRanges [('\t', '\r'), (' ', ' ')])
  | "upper" => some (ofRanges [('A', 'Z')])
  | "word" => some (ofRanges [('0', '9'), ('A', 'Z'), ('_', '_'), ('a', 'z')])
  | "xdigit" => some (ofRanges [('0', '9'), ('A', 'F'), ('a', 'f')])
  | _ => Option.none

end CharSet

end DataExpr.Pattern
