/-!
# Characters and pieces of texts

What the readers of texts have in common.

* Characters with a property, given as tables of code point ranges, and white
  space as the first such property.
* Texts cut at separating characters, or at offsets counted in bytes of the UTF-8
  form.
* Texts measured and ordered by UTF-16 units.

The longer tables stand in the modules named for their property.
-/

namespace DataExpr.Text

/-! ## Character ranges -/

/-- Whether a character lies in one of the ranges, ends included. -/
def inRanges (ranges : List (Nat × Nat)) (c : Char) : Bool :=
  ranges.any fun (first, last) => first ≤ c.toNat && c.toNat ≤ last

/-! ## White space -/

/-- The characters with the Unicode property `White_Space`.  The no-break space is
one of them; the zero-width space and the byte order mark are not. -/
def blankRanges : List (Nat × Nat) := [
    (0x9, 0xd), (0x20, 0x20), (0x85, 0x85), (0xa0, 0xa0), (0x1680, 0x1680), (0x2000, 0x200a),
    (0x2028, 0x2029), (0x202f, 0x202f), (0x205f, 0x205f), (0x3000, 0x3000)]

/-- Whether a character is white space. -/
def isBlank (c : Char) : Bool :=
  inRanges blankRanges c

/-- Drops white space at the front. -/
def trimStart (cs : List Char) : List Char :=
  cs.dropWhile isBlank

/-- Drops white space at both ends. -/
def trim (cs : List Char) : List Char :=
  (trimStart (trimStart cs).reverse).reverse

/-! ## Separators

The separators are left out of the pieces, and putting them back gives the text
again. -/

/-- The pieces between all occurrences of a separator.  There is always at least
one piece. -/
def splitAll (separator : Char) : List Char → List (List Char)
  | [] => [[]]
  | c :: cs =>
      if c = separator then [] :: splitAll separator cs
      else
        match splitAll separator cs with
        | piece :: pieces => (c :: piece) :: pieces
        | [] => [[c]]

/-- The pieces before and behind the first occurrence of a separator.  Without one
the second piece is empty. -/
def cutAt (separator : Char) (cs : List Char) : List Char × List Char :=
  (cs.takeWhile (· ≠ separator), (cs.dropWhile (· ≠ separator)).tail)

/-! ## Byte offsets

An offset inside a character counts as one behind it. -/

/-- How many bytes the characters take. -/
def byteLength (cs : List Char) : Nat :=
  cs.foldl (fun length c => length + c.utf8Size) 0

/-- Splits characters at a byte offset. -/
def splitAtOffset : Nat → List Char → List Char × List Char
  | _, [] => ([], [])
  | offset, c :: cs =>
      if offset = 0 then ([], c :: cs)
      else
        let (before, behind) := splitAtOffset (offset - c.utf8Size) cs
        (c :: before, behind)

/-- The characters between two byte offsets. -/
def slice (start stop : Nat) (cs : List Char) : List Char :=
  (splitAtOffset (stop - start) (splitAtOffset start cs).2).1

/-- The whole line around a byte offset, without its line end. -/
def lineAt (offset : Nat) (cs : List Char) : List Char :=
  let (before, behind) := splitAtOffset offset cs
  (before.reverse.takeWhile (· ≠ '\n')).reverse ++ behind.takeWhile (· ≠ '\n')

/-! ## UTF-16 units

A character beyond the Basic Multilingual Plane takes two units, each of which is
half of a surrogate pair and no character by itself; the others take one. -/

/-- The units of one character. -/
def unitsOfChar (c : Char) : List Nat :=
  if c.toNat < 0x10000 then [c.toNat]
  else
    let offset := c.toNat - 0x10000
    [0xd800 + offset / 0x400, 0xdc00 + offset % 0x400]

/-- The units of a text. -/
def units (text : String) : List Nat :=
  text.toList.flatMap unitsOfChar

/-- The character a unit stands for on its own.  Half of a surrogate pair gives
the replacement character. -/
def charOfUnit (unit : Nat) : Char :=
  if 0xd800 ≤ unit ∧ unit ≤ 0xdfff then '\uFFFD' else Char.ofNat unit

/-- Orders two lists of units by their first difference; a list comes after its
own beginnings. -/
def compareUnits : List Nat → List Nat → Ordering
  | [], [] => .eq
  | [], _ :: _ => .lt
  | _ :: _, [] => .gt
  | u :: us, v :: vs => (compare u v).then (compareUnits us vs)

end DataExpr.Text
