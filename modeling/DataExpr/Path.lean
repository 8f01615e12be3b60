import DataExpr.Decimal.Digits
import DataExpr.Value.Basic

/-!
# Paths

Paths such as `foo.bar[0]."biz-baz"`: a plain notation for walking into a value,
without operators.

A path is split at dots and brackets, which need not match.  A run in quotes, of
either kind, is kept whole; quote characters themselves never are part of a
segment.  `resolve` then walks mappings by key and sequences by position.
-/

namespace DataExpr.Path

/-- The characters that separate segments. -/
def isSeparator (c : Char) : Bool :=
  c == '.' || c == '[' || c == ']'

/-- The quote characters. -/
def isQuote (c : Char) : Bool :=
  c == '"' || c == '\''

/-- Whether a character can stand in a segment without quotes. -/
def isBare (c : Char) : Bool :=
  !isSeparator c && !isQuote c

/-- What stands in quotes, read behind the opening one.  It is not empty and has a
closing quote. -/
def quotedRun? (quote : Char) (cs : List Char) : Option (List Char) :=
  let run := cs.takeWhile (· ≠ quote)
  if !run.isEmpty ∧ run.length < cs.length then some run else none

/-- A run as a segment, without quotes of the other kind. -/
def segmentOfRun (run : List Char) : String :=
  String.ofList (run.filter (!isQuote ·))

/-- The segments of characters, of which the first `skip` belong to a segment
that has been read already.  A quote that opens no quoted run is skipped. -/
def segmentsFrom : (skip : Nat) → List Char → List String
  | _, [] => []
  | skip + 1, _ :: cs => segmentsFrom skip cs
  | 0, c :: cs =>
      if isSeparator c then segmentsFrom 0 cs
      else if isQuote c then
        match quotedRun? c cs with
        | some run => segmentOfRun run :: segmentsFrom (run.length + 1) cs
        | none => segmentsFrom 0 cs
      else
        let run := cs.takeWhile isBare
        String.ofList (c :: run) :: segmentsFrom run.length cs

/-- The segments of a path. -/
def segments (path : String) : List String :=
  segmentsFrom 0 path.toList

/-- One step into a value: by key into a mapping, by position into a
sequence. -/
def step (value : Value) (segment : String) : Option Value :=
  match value with
  | .mapping entries => Entries.get? entries segment
  | .sequence items => (Decimal.readPosition? segment).bind fun i => items[i]?
  | _ => none

/-- Walks into a value, segment by segment, as long as every step leads
somewhere. -/
def resolve (value : Value) : List String → Option Value
  | [] => some value
  | segment :: segments => (step value segment).bind (resolve · segments)

end DataExpr.Path
