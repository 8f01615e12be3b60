import DataExpr.Text.Basic

/-!
# Spans

Where a piece of an expression stands in the expression's text: from one byte
offset to another, with the line and column of its start.  Lines and columns
count from one, and columns count characters.
-/

namespace DataExpr

/-- A place between two characters of a text. -/
structure Position where
  /-- Bytes before it. -/
  offset : Nat
  /-- Line, from one. -/
  line : Nat
  /-- Column, from one. -/
  column : Nat
  deriving DecidableEq, Repr

namespace Position

/-- The start of a text. -/
def start : Position := ⟨0, 1, 1⟩

/-- The place behind a character. -/
def after (position : Position) (c : Char) : Position :=
  if c = '\n' then ⟨position.offset + c.utf8Size, position.line + 1, 1⟩
  else ⟨position.offset + c.utf8Size, position.line, position.column + 1⟩

/-- The place behind several characters. -/
def afterAll (position : Position) (cs : List Char) : Position :=
  cs.foldl after position

end Position

/-- A piece of a text. -/
structure Span where
  /-- Byte offset of its start. -/
  start : Nat := 0
  /-- Byte offset behind its end. -/
  stop : Nat := 0
  /-- Line of its start. -/
  line : Nat := 0
  /-- Column of its start. -/
  column : Nat := 0
  deriving DecidableEq, Repr, Inhabited

/-- The piece from the start of one to the end of another. -/
def Span.to (first last : Span) : Span :=
  { first with stop := last.stop }

namespace Span

/-- The piece between two places. -/
def between (first last : Position) : Span :=
  ⟨first.offset, last.offset, first.line, first.column⟩

/-- The text that a span covers. -/
def cover (span : Span) (source : String) : String :=
  String.ofList (Text.slice span.start span.stop source.toList)

/-- The whole line on which a span starts. -/
def sourceLine (span : Span) (source : String) : String :=
  String.ofList (Text.lineAt span.start source.toList)

end Span

end DataExpr
