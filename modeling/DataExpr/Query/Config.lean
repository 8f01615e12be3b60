/-!
# Settings for decoding

How the texts of a query are typed and how its keys are read.
-/

namespace DataExpr

/-- The settings for decoding a query. -/
structure QueryConfig where
  /-- Whether values are read as numbers, truth values and dates. -/
  inferTypes : Bool := true
  /-- Whether values are read as dates, if they are typed at all. -/
  inferDates : Bool := true
  /-- Whether brackets in a key make nested mappings. -/
  nestedKeys : Bool := true
  /-- How many brackets of one key are read. -/
  maxDepth : Nat := 16
  deriving DecidableEq, Repr

namespace QueryConfig

/-- Keeps every value as text. -/
def raw : QueryConfig := { inferTypes := false }

/-- Keeps every key as written. -/
def flat : QueryConfig := { nestedKeys := false }

end QueryConfig

end DataExpr
