import DataExpr.Value.Basic

/-!
# Copying, merging and flattening

Operations that build a new value from whole values.

`merge` folds values from left to right.  Something falsy gives way to what comes
next; a sequence takes in everything after it; mappings are merged key by key;
and values that do not mix are put side by side in a sequence.
-/

namespace DataExpr.Value

/-! ## Copying -/

mutual

/-- Builds the value anew from its parts.  A pattern is rebuilt from its source
and flags. -/
def copy : Value → Value
  | .null => .null
  | .bool b => .bool b
  | .number n => .number n
  | .text s => .text s
  | .date instant => .date instant
  | .pattern p => .pattern p.rebuild
  | .sequence items => .sequence (copyItems items)
  | .mapping entries => .mapping (copyEntries entries)

/-- Copies every item. -/
def copyItems : List Value → List Value
  | [] => []
  | item :: items => item.copy :: copyItems items

/-- Copies the value of every entry. -/
def copyEntries : List (String × Value) → List (String × Value)
  | [] => []
  | (key, item) :: entries => (key, item.copy) :: copyEntries entries

end

/-! ## Merging -/

/-- The empty mapping. -/
def emptyMapping : Value := .mapping []

/-- The entries that a merge with a mapping starts from; only mappings have
any. -/
def entriesOrNone : Value → List (String × Value)
  | .mapping entries => entries
  | _ => []

mutual

/-- Merges one more value into what has been merged so far. -/
def mergeInto (acc : Value) : Value → Value
  | .sequence more =>
      if !acc.isTruthy then .sequence more
      else
        match acc with
        | .sequence items => .sequence (items ++ more)
        | acc => .sequence (acc :: more)
  | .mapping entries =>
      if !acc.isTruthy then .mapping entries
      else
        match acc with
        | .sequence items => .sequence (items ++ [.mapping entries])
        | acc =>
            if acc.kind.isObjectLike then .mapping (mergeEntries acc.entriesOrNone entries)
            else .mapping entries
  | value =>
      if !acc.isTruthy then value
      else
        match acc with
        | .sequence items => .sequence (items ++ [value])
        | acc =>
            if !acc.kind.isObjectLike then value
            else if value.kind.isPrimitive || value.isNull then .sequence [acc, value]
            else acc

/-- Merges entries key by key: a value under a known key is merged into the one
there, and a new key comes last. -/
def mergeEntries (acc : List (String × Value)) :
    List (String × Value) → List (String × Value)
  | [] => acc
  | (key, item) :: entries =>
      mergeEntries
        (Entries.alter
          (fun
            | some current => mergeInto current item
            | none => item)
          acc key)
        entries

end

/-- Merges values from left to right.  Without any, the result is the empty
mapping. -/
def merge : List Value → Value
  | [] => emptyMapping
  | first :: rest => rest.foldl mergeInto first

/-! ## Flattening -/

mutual

/-- What a value contributes to a flat sequence: a sequence all it contains, and
any other value itself. -/
def leaves : Value → List Value
  | .sequence items => itemLeaves items
  | value => [value]

/-- What all items contribute, in order. -/
def itemLeaves : List Value → List Value
  | [] => []
  | item :: items => item.leaves ++ itemLeaves items

end

/-- Takes nested sequences apart into one; other values stay as they are. -/
def flatten : Value → Value
  | .sequence items => .sequence (itemLeaves items)
  | value => value

end DataExpr.Value
