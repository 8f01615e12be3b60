import DataExpr.Json.Reader
import DataExpr.Json.Writer
import DataExpr.Path
import DataExpr.Query.Lookup
import DataExpr.Value.Merge
import DataExpr.Proofs.Query.RoundTrip
import DataExpr.Proofs.Syntax.Height
import DataExpr.Proofs.Evaluation.Failure
import DataExpr.Proofs.Evaluation.Names
import DataExpr.Proofs.Evaluation.Placeless
import DataExpr.Proofs.Value.Equality
import DataExpr.Proofs.Value.Merging
import DataExpr.Proofs.Value.MergeEquality
import DataExpr.Proofs.Value.MergeGrouping
import DataExpr.Proofs.Query.Reading
import DataExpr.Proofs.Value.Equivalence
import DataExpr.Proofs.Syntax.Scanners
import DataExpr.Proofs.Syntax.Tiling
import DataExpr.Proofs.Decimal.Binary
import DataExpr.Proofs.Decimal.Integers
import DataExpr.Proofs.Syntax.Quoting
import DataExpr.Proofs.Path.Notation
import DataExpr.Proofs.Path.Tokens
import DataExpr.Proofs.Path.Evaluation
import DataExpr.Proofs.Evaluation.Limit
import DataExpr.Proofs.Evaluation.Nesting
import DataExpr.Proofs.Evaluation.Calls
import DataExpr.Proofs.Query.Extraction
import DataExpr.Proofs.Query.Retyping
import DataExpr.Proofs.Query.Order
import DataExpr.Proofs.Query.Apart
import DataExpr.Proofs.Syntax.Remainder
import DataExpr.Proofs.Syntax.Places
import DataExpr.Proofs.Syntax.Viable
import DataExpr.Proofs.Syntax.Lookahead
import DataExpr.Proofs.Syntax.Blame
import DataExpr.Proofs.Json.RoundTrip
import DataExpr.Proofs.Evaluation.BareNames
import DataExpr.Proofs.Evaluation.QuotedKeys
import DataExpr.Proofs.Syntax.FreeNames
import DataExpr.Proofs.Evaluation.Nameless
import DataExpr.Proofs.Syntax.Spacing
import DataExpr.Proofs.Syntax.Literals
import DataExpr.Proofs.Syntax.Spans
import DataExpr.Proofs.Syntax.Reuse
import DataExpr.Proofs.Query.Insertion
import DataExpr.Proofs.Query.Nesting
import DataExpr.Proofs.Query.FlatKeys
import DataExpr.Proofs.Query.CountedKeys
import DataExpr.Proofs.Value.MergeParts
import DataExpr.Proofs.Query.Appending
import DataExpr.Proofs.Operand.Equality
import DataExpr.Proofs.Operand.Order
import DataExpr.Proofs.Operand.NumberTexts
import DataExpr.Proofs.Evaluation.Elements
import DataExpr.Proofs.Path.Pieces
import DataExpr.Proofs.Value.Flattening
import DataExpr.Proofs.Query.Dates
import DataExpr.Proofs.Evaluation.Provenance
import DataExpr.Proofs.Path.Conservation
import DataExpr.Proofs.Operand.RadixTexts
