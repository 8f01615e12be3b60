import DataExpr.Decimal.Digits
import DataExpr.Pattern.Regex

/-!
# The notation of regular expressions

Reads the text of a regular expression: literals, escapes, bracketed sets with
set operations, groups, alternatives, repetitions and inline flags.  There is no
look-around and there are no back-references; texts that use them, like all other
malformed ones, are refused.

Flags given in a group hold up to its end.  Of the flags only those that change
what is matched are kept; greediness never does.
-/

namespace DataExpr.Pattern

/-- The switches under which a part of an expression is read. -/
structure Switches where
  /-- Letters match in either case. -/
  caseless : Bool := false
  /-- `^` and `$` match at every line. -/
  multiLine : Bool := false
  /-- The dot matches line ends. -/
  dotAll : Bool := false
  /-- Classes reach beyond ASCII. -/
  unicode : Bool := true
  /-- White space and comments in the expression mean nothing. -/
  verbose : Bool := false
  deriving DecidableEq, Repr

/-- What is left of an expression's text, and the group names seen so far. -/
structure Input where
  /-- Text still to be read. -/
  rest : List Char
  /-- Names of groups. -/
  names : List String

/-- A reader of the front of an expression, or a refusal. -/
abbrev Reader := StateT Input Option

namespace Reader

/-- Refuses the expression. -/
def refuse {α : Type} : Reader α := fun _ => none

/-- The character that comes next, if any. -/
def peek? : Reader (Option Char) := do return (← get).rest.head?

/-- The characters still to be read. -/
def rest : Reader (List Char) := do return (← get).rest

/-- Puts the reading position somewhere else. -/
def setRest (cs : List Char) : Reader Unit := modify fun input => { input with rest := cs }

/-- Takes the next character. -/
def next : Reader Char := fun
  | ⟨c :: cs, names⟩ => some (c, ⟨cs, names⟩)
  | ⟨[], _⟩ => none

/-- Skips the given characters if they come next, and tells whether they did. -/
def eat (expected : String) : Reader Bool := do
  let cs ← rest
  let chars := expected.toList
  if chars.isPrefixOf cs then
    setRest (cs.drop chars.length)
    return true
  else
    return false

/-- Skips the given characters, which have to come next. -/
def expect (expected : String) : Reader Unit := do
  unless ← eat expected do refuse

/-- Takes characters as long as they satisfy a condition. -/
def takeWhile (p : Char → Bool) : Reader (List Char) := do
  let cs ← rest
  setRest (cs.dropWhile p)
  return cs.takeWhile p

/-! ## Escapes -/

/-- One element of an expression that an escape can give. -/
inductive Element where
  /-- A character. -/
  | literal (c : Char)
  /-- A class of characters. -/
  | charClass (set : CharSet)
  /-- A condition on the position. -/
  | condition (assertion : Assertion)

/-- The character with a code point, if there is one. -/
def charOfCode? (code : Nat) : Option Char :=
  if code.isValidChar then some (Char.ofNat code) else none

/-- A character given by `count` hexadecimal digits, or by any number of them in
braces. -/
def hexChar (count : Nat) : Reader Char := do
  let digits ←
    if ← eat "\x7b" then
      let digits ← takeWhile (· ≠ '}')
      expect "\x7d"
      pure digits
    else
      let cs ← rest
      setRest (cs.drop count)
      if (cs.take count).length < count then refuse else pure (cs.take count)
  match (Decimal.readRadix? 16 digits).bind charOfCode? with
  | some c => return c
  | none => refuse

/-- The punctuation that has a meaning in expressions. -/
def metaChars : List Char := "\\.+*?()|[]\x7b\x7d^$#&-~".toList

/-- Whether a backslash may stand before a character that stands for itself:
before all ASCII characters but letters, digits and angle brackets. -/
def isEscapable (c : Char) : Bool :=
  metaChars.contains c || (c.toNat < 0x80 && !c.isAlphanum && c ≠ '<' && c ≠ '>')

/-- A class named by a letter, which an upper-case letter negates. -/
def letterClass (switches : Switches) (letter : Char) : CharSet :=
  let ascii (name : String) := (CharSet.named? name).getD .none
  let positive : CharSet :=
    match letter.toLower with
    | 'd' => if switches.unicode then .digit else ascii "digit"
    | 's' => if switches.unicode then .blank else ascii "space"
    | _ => if switches.unicode then .word else ascii "word"
  positive.complIf letter.isUpper

/-- A class named by a property, such as `\p{Alphabetic}`. -/
def propertyClass (negated : Bool) : Reader CharSet := do
  let name ←
    if ← eat "\x7b" then
      let name ← takeWhile (· ≠ '}')
      expect "\x7d"
      pure name
    else
      let c ← next
      pure [c]
  let (negated, name) :=
    match name with
    | '^' :: name => (!negated, name)
    | name => (negated, name)
  match String.ofList ((name.filter Char.isAlphanum).map Char.toLower) with
  | "alphabetic" | "alpha" => return CharSet.complIf negated .alphabetic
  | "whitespace" | "space" => return CharSet.complIf negated .blank
  | "nd" | "decimalnumber" | "digit" => return CharSet.complIf negated .digit
  | "any" => return CharSet.complIf negated (.compl .none)
  | "ascii" => return CharSet.complIf negated (.range '\x00' '\x7f')
  | _ => refuse

/-- The boundaries that have a name in braces. -/
def boundary : Reader Assertion := do
  let start ← rest
  if ← eat "\x7b" then
    let name ← takeWhile fun c => c.isAlpha || c == '-'
    if name.isEmpty then
      setRest start
      return .wordBoundary
    expect "\x7d"
    match String.ofList name with
    | "start" => return .wordStart
    | "end" => return .wordEnd
    | "start-half" => return .wordStartHalf
    | "end-half" => return .wordEndHalf
    | _ => refuse
  else
    return .wordBoundary

/-- What stands after a backslash. -/
def escape (switches : Switches) : Reader Element := do
  let c ← next
  match c with
  | 'x' => return .literal (← hexChar 2)
  | 'u' => return .literal (← hexChar 4)
  | 'U' => return .literal (← hexChar 8)
  | 'p' => return .charClass (← propertyClass false)
  | 'P' => return .charClass (← propertyClass true)
  | 'd' | 's' | 'w' | 'D' | 'S' | 'W' => return .charClass (letterClass switches c)
  | 'a' => return .literal '\x07'
  | 'f' => return .literal '\x0c'
  | 't' => return .literal '\t'
  | 'n' => return .literal '\n'
  | 'r' => return .literal '\r'
  | 'v' => return .literal '\x0b'
  | 'A' => return .condition .textStart
  | 'z' => return .condition .textEnd
  | 'b' => return .condition (← boundary)
  | 'B' => return .condition .notWordBoundary
  | '<' => return .condition .wordStart
  | '>' => return .condition .wordEnd
  | c => if isEscapable c then return .literal c else refuse

/-! ## Bracketed sets -/

/-- An operation between two parts of a bracketed set. -/
inductive SetOperator where
  /-- `&&` -/
  | inter
  /-- `--` -/
  | diff
  /-- `~~` -/
  | symmetric
  deriving DecidableEq, Repr

/-- Applies an operation between two sets. -/
def SetOperator.apply (op : SetOperator) (a b : CharSet) : CharSet :=
  match op with
  | .inter => .inter a b
  | .diff => .diff a b
  | .symmetric => .union (.diff a b) (.diff b a)

/-- Joins what stood before an operator with what stands behind it. -/
def joinParts (switches : Switches) (before? : Option (SetOperator × CharSet))
    (current : CharSet) : CharSet :=
  let current := current.caselessIf switches.caseless
  match before? with
  | some (op, before) => op.apply before current
  | none => current

/-- One member of a set that is written as an escape or a plain character. -/
def member (switches : Switches) : Reader Element := do
  let c ← next
  if c = '\\' then escape switches else return .literal c

/-- A single member or a range.  Only characters can end a range. -/
def memberOrRange (switches : Switches) : Reader CharSet := do
  let first ← member switches
  let isRange :=
    match ← rest with
    | '-' :: ']' :: _ => false
    | '-' :: '-' :: _ => false
    | '-' :: _ => true
    | _ => false
  if isRange then
    expect "-"
    match first, ← member switches with
    | .literal low, .literal high => if low ≤ high then return .range low high else refuse
    | _, _ => refuse
  else
    match first with
    | .literal c => return .single c
    | .charClass set => return set
    | .condition _ => refuse

/-- A class name in brackets and colons; nothing is read if it is none. -/
def namedClass? : Reader (Option CharSet) := do
  let start ← rest
  if ← eat "[:" then
    let negated ← eat "^"
    let name ← takeWhile Char.isAlpha
    if ← eat ":]" then
      if let some set := CharSet.named? (String.ofList name) then
        return some (set.complIf negated)
  setRest start
  return none

/-- The dashes at the start of a set stand for themselves. -/
def leadingDashes : Nat → CharSet → Reader CharSet
  | 0, set => return set
  | fuel + 1, set => do
      if ← eat "-" then leadingDashes fuel (.union set (.single '-')) else return set

mutual

/-- A bracketed set, whose opening bracket has been read.  A closing bracket
that comes first stands for itself.  Every bracket and every member takes one
character, so twice the characters left and two are fuel enough. -/
def bracketed (switches : Switches) : Nat → Reader CharSet
  | 0 => refuse
  | fuel + 1 => do
      let negated ← eat "^"
      let dashes ← leadingDashes (← rest).length .none
      let atStart := match dashes with | .none => true | _ => false
      let first ←
        if atStart then
          (do if ← eat "]" then return CharSet.single ']' else return .none)
        else pure dashes
      let set ← members switches none first fuel
      return set.complIf negated

/-- The members of a set up to its closing bracket. -/
def members (switches : Switches) (before? : Option (SetOperator × CharSet))
    (current : CharSet) : Nat → Reader CharSet
  | 0 => refuse
  | fuel + 1 => do
      let operator (op : SetOperator) : Reader CharSet :=
        members switches (some (op, joinParts switches before? current)) .none fuel
      match ← rest with
      | [] => refuse
      | ']' :: cs =>
          setRest cs
          return joinParts switches before? current
      | '&' :: '&' :: cs => setRest cs; operator .inter
      | '-' :: '-' :: cs => setRest cs; operator .diff
      | '~' :: '~' :: cs => setRest cs; operator .symmetric
      | '[' :: cs =>
          match ← namedClass? with
          | some set => members switches before? (.union current set) fuel
          | none =>
              setRest cs
              let set ← bracketed switches fuel
              members switches before? (.union current set) fuel
      | _ =>
          let set ← memberOrRange switches
          members switches before? (.union current set) fuel

end

/-! ## Groups and repetitions -/

/-- Turns a switch on or off by its letter. -/
def setSwitch (switches : Switches) (on : Bool) (letter : Char) : Option Switches :=
  match letter with
  | 'i' => some { switches with caseless := on }
  | 'm' => some { switches with multiLine := on }
  | 's' => some { switches with dotAll := on }
  | 'u' => some { switches with unicode := on }
  | 'x' => some { switches with verbose := on }
  | 'U' => some switches
  | 'R' => some switches
  | _ => none

/-- Applies the letters of an inline flag group.  No letter stands twice, and a
minus sign stands at most once and not last. -/
def applySwitches : Switches → Bool → List Char → List Char → Option Switches
  | switches, on, _, [] => if on then some switches else none
  | switches, on, seen, letter :: letters =>
      if seen.contains letter then none
      else if letter = '-' then
        match letters with
        | [] => none
        | letters => applyOff switches (letter :: seen) letters
      else
        (setSwitch switches on letter).bind fun switches =>
          applySwitches switches on (letter :: seen) letters
where
  /-- The letters after the minus sign. -/
  applyOff : Switches → List Char → List Char → Option Switches
    | switches, _, [] => some switches
    | switches, seen, letter :: letters =>
        if seen.contains letter then none
        else
          (setSwitch switches false letter).bind fun switches =>
            applyOff switches (letter :: seen) letters

/-- Reads a group's name up to the closing angle bracket.  No two groups share a
name. -/
def groupName : Reader Unit := do
  let name ← takeWhile (· ≠ '>')
  expect ">"
  let isStart (c : Char) := c == '_' || Text.isAlphabetic c
  let isPart (c : Char) :=
    isStart c || c == '.' || c == '[' || c == ']' || Text.isDecimalDigit c
  let valid :=
    match name with
    | [] => false
    | c :: cs => isStart c && cs.all isPart
  let text := String.ofList name
  if !valid || (← get).names.contains text then refuse
  modify fun input => { input with names := text :: input.names }

/-- How a group opens: with a body read under some switches, or as a change of
the switches for what follows. -/
inductive Opening where
  /-- A group with a body. -/
  | body (switches : Switches)
  /-- New switches for the rest of the enclosing group. -/
  | change (switches : Switches)

/-- Reads what stands between an opening parenthesis and the group's body. -/
def groupOpening (switches : Switches) : Reader Opening := do
  if (← eat "?=") || (← eat "?!") || (← eat "?<=") || (← eat "?<!") then refuse
  if (← eat "?P<") || (← eat "?<") then
    groupName
    return .body switches
  if ← eat "?" then
    let letters ← takeWhile fun c => c ≠ ':' && c ≠ ')'
    match applySwitches switches true [] letters with
    | none => refuse
    | some changed =>
        if ← eat ":" then return .body changed
        expect ")"
        if letters.isEmpty then refuse
        return .change changed
  return .body switches

/-- A count in a repetition; white space around it is allowed. -/
def count? : Reader (Option Nat) := do
  let _ ← takeWhile Text.isBlank
  let digits ← takeWhile Char.isDigit
  let _ ← takeWhile Text.isBlank
  if digits.isEmpty then return none
  let n := Decimal.natOfDigits digits
  if Nat.pow 2 32 ≤ n then refuse
  return some n

/-- The counts of a repetition in braces, the opening brace already read. -/
def counts : Reader (Nat × Option Nat) := do
  let some least ← count? | refuse
  if ← eat "," then
    let most? ← count?
    expect "\x7d"
    if most?.any (· < least) then refuse
    return (least, most?)
  expect "\x7d"
  return (least, some least)

/-- The counts of a repetition operator, if one comes next.  A question mark
after it changes greediness only. -/
def repetition? : Reader (Option (Nat × Option Nat)) := do
  let read : Reader (Option (Nat × Option Nat)) := do
    if ← eat "?" then return some (0, some 1)
    if ← eat "*" then return some (0, none)
    if ← eat "+" then return some (1, none)
    if ← eat "\x7b" then return some (← counts)
    return none
  let found ← read
  if found.isSome then
    let _ ← eat "?"
  return found

/-- Skips what means nothing under the verbose switch: white space, and comments
from a number sign to the end of the line. -/
def skipVerbose : Nat → List Char → List Char
  | 0, cs => cs
  | fuel + 1, cs =>
      match cs.dropWhile Text.isBlank with
      | '#' :: cs => skipVerbose fuel (cs.dropWhile (· ≠ '\n'))
      | cs => cs

/-- One character, up to case if so switched. -/
def literal (switches : Switches) (c : Char) : Regex :=
  .chars ((CharSet.single c).caselessIf switches.caseless)

/-- An element that stands outside brackets. -/
def ofElement (switches : Switches) : Element → Regex
  | .literal c => literal switches c
  | .charClass set => .chars (set.caselessIf switches.caseless)
  | .condition assertion => .assertion assertion

/-- One alternative more. -/
def addAlternative (done? : Option Regex) (branch : Regex) : Regex :=
  match done? with
  | some done => .alt done branch
  | none => branch

/-- Puts an item behind those of its alternative. -/
def addItem (branch : Regex) (last? : Option Regex) : Regex :=
  match last? with
  | some last => .seq branch last
  | none => branch

/-- Reads alternatives up to a closing parenthesis or the end.  `done?` are the
alternatives before the current one, `branch` the items of the current one, and
`last?` the item that a repetition would apply to. -/
def alternatives (switches : Switches) (done? : Option Regex) (branch : Regex)
    (last? : Option Regex) : Nat → Reader Regex
  | 0 => refuse
  | fuel + 1 => do
      if switches.verbose then
        let cs ← rest
        setRest (skipVerbose cs.length cs)
      let item (regex : Regex) : Reader Regex :=
        alternatives switches done? (addItem branch last?) (some regex) fuel
      if let some (least, most?) ← repetition? then
        match last? with
        | none => refuse
        | some last => alternatives switches done? branch (some (.repeated last least most?)) fuel
      else
        match ← peek? with
        | none => return addAlternative done? (addItem branch last?)
        | some ')' => return addAlternative done? (addItem branch last?)
        | some '|' =>
            let _ ← next
            alternatives switches (some (addAlternative done? (addItem branch last?))) .empty none
              fuel
        | some '(' =>
            let _ ← next
            match ← groupOpening switches with
            | .change switches => alternatives switches done? (addItem branch last?) none fuel
            | .body inner =>
                let body ← alternatives inner none .empty none fuel
                expect ")"
                item body
        | some '[' =>
            let _ ← next
            let set ← bracketed switches (2 * (← rest).length + 2)
            item (.chars set)
        | some '\\' =>
            let _ ← next
            let element ← escape switches
            item (ofElement switches element)
        | some '.' =>
            let _ ← next
            item (.chars (.compl (if switches.dotAll then .none else .single '\n')))
        | some '^' =>
            let _ ← next
            item (.assertion (if switches.multiLine then .lineStart else .textStart))
        | some '$' =>
            let _ ← next
            item (.assertion (if switches.multiLine then .lineEnd else .textEnd))
        | some c =>
            let _ ← next
            item (literal switches c)

end Reader

/-- Reads a whole regular expression. -/
def Regex.read? (switches : Switches) (source : String) : Option Regex :=
  let cs := source.toList
  match Reader.alternatives switches none .empty none (2 * cs.length + 1) ⟨cs, []⟩ with
  | some (regex, ⟨[], _⟩) => some regex
  | _ => none

end DataExpr.Pattern
