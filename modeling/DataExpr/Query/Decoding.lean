import DataExpr.Logged
import DataExpr.Query.Inference
import DataExpr.Text.Percent
import DataExpr.Text.Basic

/-!
# Queries read as values

Reads a query as a mapping.  A key that comes again makes its value a sequence.
A key with brackets, such as `outer[inner][0]`, leads into nested mappings, and
empty brackets at its end append.  When all is read, nested mappings whose keys
count from zero become sequences.

Reading never fails: a key that would lead into something other than a mapping is
taken as it is written, so every part with a key leaves its value somewhere.
-/

namespace DataExpr.Query

/-! ## Keys -/

/-- The pieces of a key, and whether the last one is a rest that was not read. -/
structure KeyPath where
  /-- The key's base and what stands in its brackets. -/
  segments : List String
  /-- Whether the key has more brackets than may be read. -/
  isCut : Bool
  deriving DecidableEq, Repr

/-- A path with one more segment in front. -/
def KeyPath.cons (segment : String) (path : KeyPath) : KeyPath :=
  { path with segments := segment :: path.segments }

/-- The bracketed segments of characters, of which the first `skip` belong to one
that has been read already.  At most `left` are read, and a rest becomes a segment
as it is. -/
def bracketsFrom : (left skip : Nat) → List Char → Option KeyPath
  | _, _, [] => some ⟨[], false⟩
  | left, skip + 1, _ :: cs => bracketsFrom left skip cs
  | 0, 0, c :: cs => some ⟨[String.ofList (c :: cs)], true⟩
  | left + 1, 0, c :: cs =>
      let inner := cs.takeWhile (· ≠ ']')
      if c = '[' ∧ inner.length < cs.length then
        (bracketsFrom left (inner.length + 1) cs).map (.cons (String.ofList inner))
      else
        none

/-- The path of a key that is a nonempty base followed by brackets, of which at
most `maxDepth` are read. -/
def keyPath? (maxDepth : Nat) (key : String) : Option KeyPath :=
  let base := key.toList.takeWhile (· ≠ '[')
  let brackets := key.toList.dropWhile (· ≠ '[')
  if base.isEmpty ∨ brackets.isEmpty then none
  else (bracketsFrom maxDepth 0 brackets).map (.cons (String.ofList base))

/-! ## Filing values -/

/-- Files a value under a key.  A sequence there takes it in, and anything else
there becomes the first item of a sequence.  With `asList` the first value under a
key makes a sequence already. -/
def collect (asList : Bool) (entries : Entries Value) (key : String) (value : Value) :
    Entries Value :=
  Entries.alter
    (fun
      | none => if asList then .sequence [value] else value
      | some (.sequence items) => .sequence (items ++ [value])
      | some first => .sequence [first, value])
    entries key

/-- Files a value at the end of a path, making mappings on the way.  An empty last
segment appends.  Where the path leads into something other than a mapping nothing
is filed. -/
def insertPath? (value : Value) : List String → Entries Value → Option (Entries Value)
  | [], _ => none
  | key :: path, entries =>
      if path = [] then some (collect false entries key value)
      else if path = [""] then some (collect true entries key value)
      else
        match Entries.get? entries key with
        | none =>
            (insertPath? value path []).map fun inner =>
              Entries.insert entries key (.mapping inner)
        | some (.mapping inner) =>
            (insertPath? value path inner).map fun inner =>
              Entries.insert entries key (.mapping inner)
        | some _ => none

/-! ## Sequences -/

/-- The values of entries in the order of their keys, if the keys are the decimal
numbers from zero on. -/
def inIndexOrder? (entries : Entries Value) : Option (List Value) :=
  if entries.isEmpty then none
  else (List.range entries.length).mapM fun i => Entries.get? entries (Nat.repr i)

mutual

/-- Turns mappings whose keys count from zero into sequences, at all depths. -/
def sequenceIndexed : Value → Value
  | .mapping entries =>
      let entries := sequenceIndexedEntries entries
      match inIndexOrder? entries with
      | some items => .sequence items
      | none => .mapping entries
  | .sequence items => .sequence (sequenceIndexedItems items)
  | value => value

/-- Does so in every item. -/
def sequenceIndexedItems : List Value → List Value
  | [] => []
  | item :: items => sequenceIndexed item :: sequenceIndexedItems items

/-- Does so in the value of every entry. -/
def sequenceIndexedEntries : List (String × Value) → List (String × Value)
  | [] => []
  | (key, item) :: entries => (key, sequenceIndexed item) :: sequenceIndexedEntries entries

end

/-! ## Parts -/

/-- Reads percent-encoded characters.  What is no UTF-8 then stays as it is. -/
def unescape (raw : List Char) : Logged String :=
  let text := String.ofList raw
  match Text.Percent.decode? text with
  | some decoded => pure decoded
  | none => do
      Logged.note [.notUtf8 text]
      return text

/-- The path of a key, with a note if it is cut. -/
def readKey (config : QueryConfig) (key : String) : Logged (Option KeyPath) := do
  let path? := if config.nestedKeys then keyPath? config.maxDepth key else none
  if path?.any KeyPath.isCut then
    Logged.note [.bracketLimit key config.maxDepth]
  return path?

/-- Files a value under a key as the settings want it. -/
def fileValue (config : QueryConfig) (entries : Entries Value) (key : String) (value : Value) :
    Logged (Entries Value) := do
  match ← readKey config key with
  | none => return collect false entries key value
  | some path =>
      match insertPath? value path.segments entries with
      | some entries => return entries
      | none =>
          Logged.note [.bracketCollision key]
          return collect false entries key value

/-- Reads one part of a query.  A part without a key is skipped. -/
def addPart (config : QueryConfig) (entries : Entries Value) (part : List Char) :
    Logged (Entries Value) := do
  let (rawKey, rawValue) := Text.cutAt '=' part
  let key ← unescape rawKey
  if key.isEmpty then
    unless part.isEmpty do
      Logged.note [.emptyKey (String.ofList part)]
    return entries
  else
    let value ← unescape rawValue
    fileValue config entries key (TypedText.infer config value).toValue

/-- The parts of a query.  A question mark at its start does not count. -/
def splitParts (query : String) : List (List Char) :=
  let cs :=
    match query.toList with
    | '?' :: cs => cs
    | cs => cs
  Text.splitAll '&' cs

/-- Reads a query. -/
def decode (config : QueryConfig) (query : String) : Logged (Entries Value) := do
  let entries ← (splitParts query).foldlM (addPart config) []
  return if config.nestedKeys then sequenceIndexedEntries entries else entries

end DataExpr.Query
