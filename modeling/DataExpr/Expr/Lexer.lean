import DataExpr.Decimal.Numeral
import DataExpr.Expr.Token
import DataExpr.Text.Alphabetic
import DataExpr.Text.Basic

/-!
# The tokens of a text

`tokenize` cuts a text into tokens.  White space separates tokens and is skipped;
every other character belongs to exactly one token, and a token of the kind
`endOfInput` comes last.

A scanner is given the characters behind the first one of a token.  It tells what
the token is and how many of those characters belong to it, so that no scanner
decides where the next token starts.
-/

namespace DataExpr

open DataExpr.Text (isAlphabetic isBlank)

/-! ## Names -/

/-- Whether a name may start with the character. -/
def isNameStart (c : Char) : Bool :=
  isAlphabetic c || c == '_' || c == '$'

/-- Whether a name may go on with the character. -/
def isNamePart (c : Char) : Bool :=
  isNameStart c || c.isDigit

/-- Whether a text is a name and no keyword. -/
def isIdentifier (text : String) : Bool :=
  match text.toList with
  | [] => false
  | c :: cs => isNameStart c && cs.all isNamePart && (Keyword.ofText? text).isNone

/-- The word made of these characters. -/
def wordKind (cs : List Char) : TokenKind :=
  let text := String.ofList cs
  match Keyword.ofText? text with
  | some word => .keyword word
  | none => .name text

/-- A name or keyword. -/
def scanWord (c : Char) (cs : List Char) : TokenKind × Nat :=
  let rest := cs.takeWhile isNamePart
  (wordKind (c :: rest), rest.length)

/-! ## Numbers -/

/-- How many digits come first. -/
def digitCount (cs : List Char) : Nat :=
  (cs.takeWhile Char.isDigit).length

/-- How many characters an exponent takes.  Without a digit in it there is
none. -/
def exponentLength : List Char → Nat
  | e :: cs =>
      if e = 'e' ∨ e = 'E' then
        let sign :=
          match cs with
          | '+' :: _ | '-' :: _ => 1
          | _ => 0
        let digits := digitCount (cs.drop sign)
        if digits = 0 then 0 else 1 + sign + digits
      else 0
  | [] => 0

/-- How many characters a fraction takes, its point included. -/
def fractionLength : List Char → Nat
  | '.' :: cs => 1 + digitCount cs
  | _ => 0

/-- How many characters belong to the numeral that comes first. -/
def numeralLength (cs : List Char) : Nat :=
  let whole := digitCount cs
  let fraction := fractionLength (cs.drop whole)
  whole + fraction + exponentLength (cs.drop (whole + fraction))

/-- A number.  No name may follow it directly. -/
def scanNumber (c : Char) (cs : List Char) : TokenKind × Nat :=
  let length := numeralLength (c :: cs)
  let kind :=
    if ((c :: cs).drop length).head?.any isNameStart then .error .nameAfterNumber
    else
      match Decimal.Numeral.ofChars? ((c :: cs).take length) with
      | some numeral => .number numeral.toFloat
      | none => .error .badNumber
  (kind, length - 1)

/-! ## Strings -/

/-- The code that four characters behind `\u` give: hexadecimal digits, of which
the first may be a plus sign instead. -/
def escapedCode? : List Char → Option Nat
  | '+' :: digits => Decimal.readRadix? 16 digits
  | digits => Decimal.readRadix? 16 digits

/-- What a character behind a backslash stands for, `u` excepted. -/
def escapedChar (c : Char) : Char :=
  match c with
  | 'n' => '\n'
  | 'r' => '\r'
  | 't' => '\t'
  | '0' => '\x00'
  | c => c

/-- Puts a character in front of the rest of a string, which starts `taken`
characters on. -/
def consString (c : Char) (taken : Nat) :
    Except LexicalFault (List Char) × Nat → Except LexicalFault (List Char) × Nat
  | (body, length) => (body.map (c :: ·), length + taken)

/-- What a string stands for, read behind its opening quote, and how many
characters it takes.  A fault takes the characters up to it. -/
def scanBody (quote : Char) : List Char → Except LexicalFault (List Char) × Nat
  | [] => (.error .unterminated, 0)
  | c :: cs =>
      if c = quote then (.ok [], 1)
      else if c = '\\' then
        match cs with
        | [] => (.error .endInEscape, 1)
        | 'u' :: a :: b :: d :: e :: cs =>
            match escapedCode? [a, b, d, e] with
            | none => (.error .badCodeEscape, 2)
            | some code =>
                if code.isValidChar then consString (Char.ofNat code) 6 (scanBody quote cs)
                else (.error .badCodeEscape, 6)
        | 'u' :: _ => (.error .badCodeEscape, 2)
        | escaped :: cs => consString (escapedChar escaped) 2 (scanBody quote cs)
      else if c = '\n' then (.error .unterminated, 0)
      else consString c 1 (scanBody quote cs)

/-- A string in quotes of one kind. -/
def scanString (quote : Char) (cs : List Char) : TokenKind × Nat :=
  match scanBody quote cs with
  | (.ok body, length) => (.string (String.ofList body), length)
  | (.error fault, length) => (.error fault, length)

/-! ## Tokens -/

/-- A sign that an equals sign behind it turns into another. -/
def scanWithEq (bare withEq : Sign) : List Char → TokenKind × Nat
  | '=' :: _ => (.sign withEq, 1)
  | _ => (.sign bare, 0)

/-- A sign that has to stand twice. -/
def scanDoubled (c : Char) (sign : Sign) (cs : List Char) : TokenKind × Nat :=
  if cs.head? = some c then (.sign sign, 1) else (.error (.bitwise c), 0)

/-- The token that starts with `c`, and how many of the characters behind `c`
belong to it. -/
def scanToken (c : Char) (cs : List Char) : TokenKind × Nat :=
  match c with
  | '(' => (.sign .leftParen, 0)
  | ')' => (.sign .rightParen, 0)
  | '[' => (.sign .leftBracket, 0)
  | ']' => (.sign .rightBracket, 0)
  | ',' => (.sign .comma, 0)
  | '+' => (.sign .plus, 0)
  | '-' => (.sign .minus, 0)
  | '*' => (.sign .star, 0)
  | '/' => (.sign .slash, 0)
  | '%' => (.sign .percent, 0)
  | '.' => if cs.head?.any Char.isDigit then scanNumber '.' cs else (.sign .dot, 0)
  | '<' => scanWithEq .less .lessEq cs
  | '>' => scanWithEq .greater .greaterEq cs
  | '!' =>
      match cs with
      | '=' :: '=' :: _ => (.sign .notEqEq, 2)
      | '=' :: _ => (.sign .notEq, 1)
      | _ => (.sign .bang, 0)
  | '=' =>
      match cs with
      | '=' :: '=' :: _ => (.sign .eqEqEq, 2)
      | '=' :: _ => (.sign .eqEq, 1)
      | _ => (.error .assignment, 0)
  | '&' => scanDoubled '&' .andAnd cs
  | '|' => scanDoubled '|' .orOr cs
  | '"' => scanString '"' cs
  | '\'' => scanString '\'' cs
  | c =>
      if c.isDigit then scanNumber c cs
      else if isNameStart c then scanWord c cs
      else (.error (.unexpected c), 0)

/-- The tokens of the characters at a position, of which the first `skip` belong
to a token that has been read already. -/
def tokensFrom (position : Position) : (skip : Nat) → List Char → List Token
  | _, [] => [⟨.endOfInput, .between position position⟩]
  | skip + 1, c :: cs => tokensFrom (position.after c) skip cs
  | 0, c :: cs =>
      if isBlank c then tokensFrom (position.after c) 0 cs
      else
        let (kind, length) := scanToken c cs
        let stop := position.afterAll (c :: cs.take length)
        ⟨kind, .between position stop⟩ :: tokensFrom (position.after c) length cs

/-- The tokens of a text, the end of the text being the last. -/
def tokenize (source : String) : List Token :=
  tokensFrom .start 0 source.toList

end DataExpr
