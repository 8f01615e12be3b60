import DataExpr.Evaluator.Basic
import DataExpr.Query.Decoding
import DataExpr.Query.Encoding

/-!
# Looking things up in queries

The helpers that work on queries, and look-ups in a query by expression, such as
`filter.kind` or `ids[0]`.  Both come in pairs: what `lookup` and `extract` do
outside expressions, `getQueryParam` and `extractQueryParams` do inside.
-/

namespace DataExpr.Query

/-- A query as a value. -/
def decodeValue (query : String) : Logged Value :=
  Value.mapping <$> decode {} query

/-- What was picked out of a query. -/
inductive Extract where
  /-- Written as a query again. -/
  | text (query : String)
  /-- By name. -/
  | params (entries : Entries Value)

/-- An extract as a value. -/
def Extract.toValue : Extract → Value
  | .text query => .text query
  | .params entries => .mapping entries

/-- Adds what a name stands for, unless that is nothing. -/
def pick (resolve : String → Eval Operand) (picked : Entries Value) (name : String) :
    Eval (Entries Value) := do
  match ← resolve name with
  | some value => return Entries.insert picked name value
  | none => return picked

/-- Picks what names stand for, and writes it as a query if so asked. -/
def extractBy (resolve : String → Eval Operand) (names : List String) (asText : Bool) :
    Eval Extract := do
  let picked ← names.foldlM (pick resolve) []
  return if asText then .text (addTo "" (.mapping picked)) else .params picked

/-! ## Helpers -/

/-- The text of a helper's argument, which has to be there. -/
def textArgument (arguments : List Value) (position : Nat) (call : Call) : Eval String :=
  match arguments[position]? with
  | some value => return value.display
  | none =>
      throw { cause := .helperFailed call.name ("missing argument " ++ Nat.repr (position + 1)) }

/-- `parseQuery(text?)` reads a query. -/
def parseQuery (query : String) : Helper := fun arguments _ => do
  let given? := arguments.head?.bind Value.asText?
  return some (← Eval.ofLogged (decodeValue (given?.getD query)))

/-- `getQueryParam(name, fallback?)` looks something up in the query. -/
def getQueryParam (query : String) : Helper := fun arguments call => do
  let name ← textArgument arguments 0 call
  let params ← Eval.ofLogged (decodeValue query)
  call.evaluate name params arguments[1]?

/-- `makeQueryParams(object, key?)` writes a query. -/
def makeQueryParams : Helper := fun arguments _ =>
  let key? := (arguments[1]?).bind Value.asText?
  return some (.text (encode (arguments.head?.getD .null) key?))

/-- `addQueryParams(url, object)` appends to the query of a URL. -/
def addQueryParams : Helper := fun arguments call => do
  let url ← textArgument arguments 0 call
  return some (.text (addTo url (arguments[1]?.getD .null)))

/-- `extractQueryParams(names, asText?)` picks names out of the query. -/
def extractQueryParams (query : String) : Helper := fun arguments call => do
  match arguments.head? with
  | some (.sequence names) =>
      let params ← Eval.ofLogged (decodeValue query)
      let asText := (arguments[1]?).all Value.isTruthy
      let extract ←
        extractBy (fun name => call.evaluate name params none) (names.map Value.display) asText
      return some extract.toValue
  | some other => throw { cause := .kindMismatch call.name other.kind.name }
  | none => throw { cause := .helperFailed call.name "missing argument 1" }

/-- The standard helpers and those that work on queries.  Where a helper reads a
query and is given none, it reads this one. -/
def helpers (query : String) : Registry :=
  Registry.standard
    |>.register "parseQuery" (parseQuery query)
    |>.register "getQueryParam" (getQueryParam query)
    |>.register "makeQueryParams" makeQueryParams
    |>.register "addQueryParams" addQueryParams
    |>.register "extractQueryParams" (extractQueryParams query)

/-! ## Look-ups -/

/-- The evaluator for expressions about a query. -/
def evaluator (query : String) : Evaluator :=
  { helpers := helpers query }

/-- Evaluates an expression against a query, with a fallback for failures. -/
def lookup (query name : String) (fallback? : Option Value) : Eval Operand := do
  let params ← Eval.ofLogged (decodeValue query)
  (evaluator query).evaluate name params fallback?

/-- Picks what expressions stand for in a query.  Those that stand for nothing
are left out. -/
def extract (query : String) (names : List String) (asText : Bool) : Eval Extract := do
  let params ← Eval.ofLogged (decodeValue query)
  extractBy (fun name => (evaluator query).evaluate name params none) names asText

end DataExpr.Query
