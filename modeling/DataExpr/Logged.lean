/-!
# Logged results

Results that come with a record of what was noticed on the way.  A `Logged` value
is a value and the events before it; running one computation after another joins
their events.

Events are for reading only: nothing can look at them while it computes, so
`Logged.value` of a composite is the composite of the values (`value_bind`).
-/

namespace DataExpr

/-- How much an event matters. -/
inductive Level where
  /-- A detail. -/
  | trace
  /-- Something to know when looking for a fault. -/
  | debug
  deriving DecidableEq, Repr

/-- Something noticed during evaluation or decoding. -/
inductive Event where
  /-- A key of the context that no name can spell. -/
  | unbindableKey (key : String)
  /-- An expression failed, and its fallback is used. -/
  | usedFallback (expression error : String)
  /-- An expression failed, and there is no fallback. -/
  | evaluationFailed (expression error : String)
  /-- A query part without a key was skipped. -/
  | emptyKey (part : String)
  /-- An escaped text was no UTF-8 and was kept as written. -/
  | notUtf8 (raw : String)
  /-- A key has more brackets than are read. -/
  | bracketLimit (key : String) (maxDepth : Nat)
  /-- A bracketed key runs into a value that is no mapping. -/
  | bracketCollision (key : String)
  deriving DecidableEq, Repr

namespace Event

/-- How much the event matters. -/
def level : Event → Level
  | .usedFallback .. => .debug
  | _ => .trace

/-- The event in words. -/
def message : Event → String
  | .unbindableKey _ => "context key is not bindable as a name"
  | .usedFallback .. => "evaluation failed, using fallback"
  | .evaluationFailed .. => "evaluation failed"
  | .emptyKey _ => "skipping query entry with empty key"
  | .notUtf8 _ => "percent sequence is not UTF-8, keeping it as written"
  | .bracketLimit .. => "bracket depth limit reached, keeping the rest literal"
  | .bracketCollision _ => "bracket key collides with a scalar, keeping it flat"

/-- What the event is about, by name. -/
def fields : Event → List (String × String)
  | .unbindableKey key => [("key", key)]
  | .usedFallback expression error => [("error", error), ("expression", expression)]
  | .evaluationFailed expression error => [("error", error), ("expression", expression)]
  | .emptyKey part => [("part", part)]
  | .notUtf8 raw => [("raw", raw)]
  | .bracketLimit key maxDepth => [("key", key), ("max_depth", Nat.repr maxDepth)]
  | .bracketCollision key => [("key", key)]

end Event

/-- A value, and the events noticed while it was computed. -/
structure Logged (α : Type) where
  /-- The result. -/
  value : α
  /-- The events, earliest first. -/
  events : List Event := []

namespace Logged

variable {α β : Type}

/-- Notes events, with nothing else as the result. -/
def note (events : List Event) : Logged Unit := ⟨(), events⟩

/-- Runs one computation after another. -/
protected def bind (x : Logged α) (f : α → Logged β) : Logged β :=
  let y := f x.value
  ⟨y.value, x.events ++ y.events⟩

instance : Monad Logged where
  pure value := { value }
  bind := Logged.bind

@[simp] theorem value_pure (a : α) : (pure a : Logged α).value = a := rfl

@[simp] theorem events_pure (a : α) : (pure a : Logged α).events = [] := rfl

@[simp] theorem value_bind (x : Logged α) (f : α → Logged β) :
    (x >>= f).value = (f x.value).value := rfl

@[simp] theorem events_bind (x : Logged α) (f : α → Logged β) :
    (x >>= f).events = x.events ++ (f x.value).events := rfl

@[simp] theorem value_map (f : α → β) (x : Logged α) : (f <$> x).value = f x.value := rfl

instance : LawfulMonad Logged :=
  LawfulMonad.mk' Logged
    (fun _ => by simp [Functor.map, Logged.bind])
    (fun _ _ => by simp [bind, Logged.bind, pure])
    (fun _ _ _ => by simp [bind, Logged.bind, List.append_assoc])

end Logged

end DataExpr
