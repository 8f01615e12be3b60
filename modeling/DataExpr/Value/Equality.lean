import DataExpr.Value.Basic

/-!
# Deep equality

Equality of values by structure.  Values of different kinds are never equal.
Mappings are compared by their keys, whatever the order, and sequences item by
item.  Dates are equal to the millisecond, patterns by source and flags, and
numbers as numbers, so that `NaN` is equal to nothing.
-/

namespace DataExpr.Value

mutual

/-- Whether two values are equal by structure. -/
def deepEqual : Value → Value → Bool
  | .null, .null => true
  | .bool a, .bool b => a == b
  | .number a, .number b => a == b
  | .text a, .text b => a == b
  | .date a, .date b => a.toMillis == b.toMillis
  | .pattern a, .pattern b => a == b
  | .sequence as, .sequence bs => itemsEqual as bs
  | .mapping as, .mapping bs => as.length == bs.length && entriesWithin as bs
  | _, _ => false

/-- Whether two lists of values are equal item by item. -/
def itemsEqual : List Value → List Value → Bool
  | [], [] => true
  | a :: as, b :: bs => a.deepEqual b && itemsEqual as bs
  | _, _ => false

/-- Whether every entry has its equal under the same key. -/
def entriesWithin : List (String × Value) → List (String × Value) → Bool
  | [], _ => true
  | (key, a) :: as, bs =>
      (match Entries.get? bs key with
        | some b => a.deepEqual b
        | none => false) && entriesWithin as bs

end

instance : BEq Value := ⟨deepEqual⟩

end DataExpr.Value
