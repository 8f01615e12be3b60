import DataExpr.Expr.Span

/-!
# Tokens

The words and signs that expressions are made of.  A text that is no word of the
language becomes a token too, of the kind `error`, so that the parser can say
where it stands.
-/

namespace DataExpr

/-- A sign made of one to three characters. -/
inductive Sign where
  | leftParen
  | rightParen
  | leftBracket
  | rightBracket
  | dot
  | comma
  | plus
  | minus
  | star
  | slash
  | percent
  | bang
  | less
  | lessEq
  | greater
  | greaterEq
  | eqEq
  | notEq
  | eqEqEq
  | notEqEq
  | andAnd
  | orOr
  deriving DecidableEq, Repr

/-- How a sign is written. -/
def Sign.text : Sign → String
  | .leftParen => "("
  | .rightParen => ")"
  | .leftBracket => "["
  | .rightBracket => "]"
  | .dot => "."
  | .comma => ","
  | .plus => "+"
  | .minus => "-"
  | .star => "*"
  | .slash => "/"
  | .percent => "%"
  | .bang => "!"
  | .less => "<"
  | .lessEq => "<="
  | .greater => ">"
  | .greaterEq => ">="
  | .eqEq => "=="
  | .notEq => "!="
  | .eqEqEq => "==="
  | .notEqEq => "!=="
  | .andAnd => "&&"
  | .orOr => "||"

/-- A word with a meaning of its own. -/
inductive Keyword where
  | true
  | false
  | null
  | undefined
  | this
  deriving DecidableEq, Repr

namespace Keyword

/-- How a keyword is written. -/
def text : Keyword → String
  | .true => "true"
  | .false => "false"
  | .null => "null"
  | .undefined => "undefined"
  | .this => "this"

/-- The keyword with a spelling. -/
def ofText? (text : String) : Option Keyword :=
  match text with
  | "true" => some .true
  | "false" => some .false
  | "null" => some .null
  | "undefined" => some .undefined
  | "this" => some .this
  | _ => none

end Keyword

/-- Why a text is no token. -/
inductive LexicalFault where
  /-- A single equals sign. -/
  | assignment
  /-- A single `&` or `|`. -/
  | bitwise (sign : Char)
  /-- A character that starts no token. -/
  | unexpected (c : Char)
  /-- The text or the line ends inside a string. -/
  | unterminated
  /-- The text ends behind a backslash. -/
  | endInEscape
  /-- Behind `\u` stands no character's code. -/
  | badCodeEscape
  /-- A name starts where a number ends. -/
  | nameAfterNumber
  /-- A number that is no numeral. -/
  | badNumber
  deriving DecidableEq, Repr

/-- The fault in words. -/
def LexicalFault.message : LexicalFault → String
  | .assignment => "assignment is not supported"
  | .bitwise sign => "bitwise operator '" ++ sign.toString ++ "' is not supported"
  | .unexpected c => "unexpected character: " ++ c.toString
  | .unterminated => "unterminated string literal"
  | .endInEscape => "unexpected end of input in string escape"
  | .badCodeEscape => "invalid unicode escape"
  | .nameAfterNumber => "identifier starts immediately after numeric literal"
  | .badNumber => "invalid number"

/-- What a token is. -/
inductive TokenKind where
  /-- A sign. -/
  | sign (s : Sign)
  /-- A number. -/
  | number (n : Float)
  /-- A string; `text` is what it stands for. -/
  | string (text : String)
  /-- A name. -/
  | name (text : String)
  /-- A keyword. -/
  | keyword (word : Keyword)
  /-- The end of the text. -/
  | endOfInput
  /-- A text that is no token. -/
  | error (fault : LexicalFault)
  deriving DecidableEq

namespace TokenKind

/-- What the token is called in messages. -/
def describe : TokenKind → String
  | .sign s => "'" ++ s.text ++ "'"
  | .number _ => "number"
  | .string _ => "string"
  | .name _ => "identifier"
  | .keyword word => word.text
  | .endOfInput => "end of input"
  | .error _ => "error"

/-- The property that the token names behind a dot.  Keywords are ordinary names
there. -/
def propertyName? : TokenKind → Option String
  | .name text => some text
  | .keyword word => some word.text
  | _ => none

end TokenKind

/-- A token and where it stands. -/
structure Token where
  /-- What the token is. -/
  kind : TokenKind
  /-- Where it stands. -/
  span : Span
  deriving DecidableEq

end DataExpr
