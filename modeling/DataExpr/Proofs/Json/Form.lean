import DataExpr.Json.Reader
import DataExpr.Json.Writer
import DataExpr.Proofs.Value.Nesting
import DataExpr.Value.Equality

/-!
# What JSON keeps of a value

`Value.jsonForm` is the value that JSON has in place of another: texts and the order of
keys and items are kept, dates and patterns are not.  A number is kept if it is an integer
of a magnitude below `2 ^ 53`, or if the reader in question reads it back from its text
(`Json.NumbersKept`).  A value is read if its containers are not nested too deep
(`Value.nesting`).
-/

namespace DataExpr

namespace Json

/-- The number with the sign of zero taken away. -/
def unsignedZero (n : Float) : Float :=
  if n == 0 then 0 else n

end Json

namespace Value

mutual

/-- What a value is in JSON: dates and patterns are texts, a number that is not finite is
null, and zero has no sign. -/
def jsonForm : Value → Value
  | .number n => if n.isFinite then .number (Json.unsignedZero n) else .null
  | .date instant => .text (Value.date instant).display
  | .pattern p => .text ("/" ++ p.source ++ "/" ++ p.flags)
  | .sequence items => .sequence (jsonItems items)
  | .mapping entries => .mapping (jsonEntries entries)
  | value => value

/-- What items are in JSON. -/
def jsonItems : List Value → List Value
  | [] => []
  | item :: items => item.jsonForm :: jsonItems items

/-- What entries are in JSON. -/
def jsonEntries : List (String × Value) → List (String × Value)
  | [] => []
  | (key, item) :: entries => (key, item.jsonForm) :: jsonEntries entries

end

theorem keys_jsonEntries (entries : Entries Value) :
    Entries.keys (jsonEntries entries) = Entries.keys entries := by
  induction entries with
  | nil => rfl
  | cons entry entries ih =>
    obtain ⟨key, item⟩ := entry
    exact congrArg (key :: ·) ih

end Value

namespace Json

/-- The number is an integer of a magnitude below `2 ^ 53`. -/
def IsExactInteger (n : Float) : Prop :=
  ∃ b i, Decimal.Binary.ofFloat? n = some b ∧ b.toInt? = some i ∧ i.natAbs < Decimal.exactLimit

/-- The JSON text of the number is read as an equal number. -/
def ReadsBack (double? : List Char → Option Float) (n : Float) : Prop :=
  (readWith? double? (writeNumber n)).any (Value.number n).deepEqual = true

/-- Finite numbers in the value are integers below `2 ^ 53`, or are read back from their
JSON texts. -/
def NumbersKept (double? : List Char → Option Float) (value : Value) : Prop :=
  ∀ n, value.Contains (.number n) → n.isFinite = true → IsExactInteger n ∨ ReadsBack double? n

theorem NumbersKept.of_mem_members {double? : List Char → Option Float} {value member : Value}
    (h : NumbersKept double? value) (hmem : member ∈ value.members) :
    NumbersKept double? member :=
  fun n hn => h n (.inside hmem hn)

end Json

end DataExpr
