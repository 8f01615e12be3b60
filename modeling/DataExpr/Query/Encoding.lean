import DataExpr.Text.Percent
import DataExpr.Value.Display

/-!
# Queries written from values

A query is a list of `key=value` parts with `&` between them.  Every value that is
no container gives one part, and its key spells out the way to it:
`outer[inner][0]`.  The names on the way and the value's text are
percent-encoded, the brackets are not.  Null gives no part.
-/

namespace DataExpr.Query

/-- The key of something inside a container, which has a key itself unless it is
the outermost one. -/
def keyWithin (outer? : Option String) (name : String) : String :=
  match outer? with
  | some outer => outer ++ "[" ++ Text.Percent.encode name ++ "]"
  | none => Text.Percent.encode name

mutual

/-- The parts that a value gives under a key. -/
def partsAt (key : String) : Value → List String
  | .null => []
  | .sequence items => itemParts (some key) 0 items
  | .mapping entries => entryParts (some key) entries
  | .bool b => [key ++ "=" ++ Text.Percent.encode (formatBool b)]
  | .number n => [key ++ "=" ++ Text.Percent.encode (formatNumber n)]
  | .text s => [key ++ "=" ++ Text.Percent.encode s]
  | .date instant => [key ++ "=" ++ Text.Percent.encode instant.text]
  | .pattern p => [key ++ "=" ++ Text.Percent.encode p.text]

/-- The parts of the items of a sequence, the first of which is at a position. -/
def itemParts (outer? : Option String) (position : Nat) : List Value → List String
  | [] => []
  | item :: items =>
      partsAt (keyWithin outer? (Nat.repr position)) item ++ itemParts outer? (position + 1) items

/-- The parts of the entries of a mapping. -/
def entryParts (outer? : Option String) : List (String × Value) → List String
  | [] => []
  | (name, item) :: entries => partsAt (keyWithin outer? name) item ++ entryParts outer? entries

end

/-- The parts of a container; other values have none. -/
def parts (outer? : Option String) : Value → List String
  | .sequence items => itemParts outer? 0 items
  | .mapping entries => entryParts outer? entries
  | _ => []

/-- Writes a container as a query.  With an outer key, everything is written as
if inside a container with that key. -/
def encode (value : Value) (outer? : Option String) : String :=
  "&".intercalate (parts outer? value)

/-- Appends a container to the query of a URL, which may have none yet. -/
def addTo (url : String) (params : Value) : String :=
  let query := encode params none
  if query.isEmpty then url
  else url ++ (if url.toList.contains '?' then "&" else "?") ++ query

end DataExpr.Query
