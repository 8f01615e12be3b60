import DataExpr.Pattern.Notation

/-!
# Patterns

A pattern is the source of a regular expression together with its flag letters.
Both are kept as they were written, because a pattern is compared and shown by
them; what it matches follows from them.
-/

namespace DataExpr

/-- A regular expression as a value. -/
structure Pattern where
  /-- The expression's text. -/
  source : String
  /-- The flag letters, in the order they were given. -/
  flags : String
  deriving DecidableEq, Repr

namespace Pattern

/-- Why a source and flags make no pattern. -/
inductive Fault where
  /-- A flag letter stands twice. -/
  | repeatedFlag (flag : Char)
  /-- A letter is no flag. -/
  | unknownFlag (flag : Char)
  /-- The source is no regular expression. -/
  | badExpression
  deriving DecidableEq, Repr

/-- What is wrong, in words. -/
def Fault.message : Fault → String
  | .repeatedFlag flag => "repeated flag '" ++ flag.toString ++ "'"
  | .unknownFlag flag => "unknown flag '" ++ flag.toString ++ "'"
  | .badExpression => "malformed regular expression"

/-- Reads flag letters from left to right.  `i`, `m` and `s` change matching;
`g`, `u`, `y` and `d` are known but do not.  No letter stands twice. -/
def readFlags (seen : List Char) (switches : Switches) : List Char → Except Fault Switches
  | [] => .ok switches
  | flag :: flags =>
      if seen.contains flag then .error (.repeatedFlag flag)
      else
        match flag with
        | 'i' => readFlags (flag :: seen) { switches with caseless := true } flags
        | 'm' => readFlags (flag :: seen) { switches with multiLine := true } flags
        | 's' => readFlags (flag :: seen) { switches with dotAll := true } flags
        | 'g' | 'u' | 'y' | 'd' => readFlags (flag :: seen) switches flags
        | flag => .error (.unknownFlag flag)

/-- The regular expression that a source and flags stand for. -/
def compile (source flags : String) : Except Fault Regex :=
  match readFlags [] {} flags.toList with
  | .error fault => .error fault
  | .ok switches =>
      match Regex.read? switches source with
      | some regex => .ok regex
      | none => .error .badExpression

/-- Makes a pattern of a source and flags, or says what is wrong with them. -/
def make (source flags : String) : Except Fault Pattern :=
  (compile source flags).map fun _ => ⟨source, flags⟩

/-- Makes the pattern anew from its source and flags. -/
def rebuild (pattern : Pattern) : Pattern :=
  match make pattern.source pattern.flags with
  | .ok rebuilt => rebuilt
  | .error _ => pattern

/-- Whether the pattern matches anywhere in a text. -/
def isMatch (pattern : Pattern) (text : String) : Bool :=
  match compile pattern.source pattern.flags with
  | .ok regex => regex.isMatch text
  | .error _ => false

/-- Whether a flag is set. -/
def hasFlag (pattern : Pattern) (flag : Char) : Bool :=
  pattern.flags.toList.contains flag

/-- The pattern between slashes, its flags behind. -/
def text (pattern : Pattern) : String :=
  "/" ++ pattern.source ++ "/" ++ pattern.flags

/-- Rebuilding a pattern gives it back. -/
theorem rebuild_eq (pattern : Pattern) : pattern.rebuild = pattern := by
  simp only [rebuild, make]
  cases compile pattern.source pattern.flags <;> rfl

end Pattern

end DataExpr
