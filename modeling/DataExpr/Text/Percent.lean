import DataExpr.Decimal.Digits

/-!
# Percent coding

Texts written with `%XX` for the bytes of their UTF-8 form.  Writing keeps ASCII
letters, digits and `-`, `_`, `.`, `~` as they are and escapes every other byte
with upper-case digits.

Reading is lenient about what stands around escapes: a percent sign that two
hexadecimal digits do not follow is kept, and so is every other byte.  It fails
only when the bytes that come out are no UTF-8.
-/

namespace DataExpr.Text.Percent

/-- Whether a byte is written as it is. -/
def isBare (byte : UInt8) : Bool :=
  let c := Char.ofNat byte.toNat
  byte < 0x80 && (c.isAlphanum || c == '-' || c == '_' || c == '.' || c == '~')

/-- One digit of an escape. -/
def hexDigit (n : Nat) : Char :=
  (Nat.digitChar n).toUpper

/-- A byte as it is written. -/
def encodeByte (byte : UInt8) : List Char :=
  if isBare byte then [Char.ofNat byte.toNat]
  else ['%', hexDigit (byte.toNat / 16), hexDigit (byte.toNat % 16)]

/-- The UTF-8 bytes of a text. -/
def bytes (text : String) : List UInt8 :=
  text.toUTF8.data.toList

/-- The text whose UTF-8 bytes these are. -/
def ofBytes? (bytes : List UInt8) : Option String :=
  String.fromUTF8? ⟨bytes.toArray⟩

/-- The text with every byte but the bare ones escaped. -/
def encode (text : String) : String :=
  String.ofList ((bytes text).flatMap encodeByte)

/-- The byte that two hexadecimal digits stand for. -/
def escaped? (high low : UInt8) : Option UInt8 :=
  let digit? (byte : UInt8) := Decimal.digitValue? 16 (Char.ofNat byte.toNat)
  match digit? high, digit? low with
  | some h, some l => some (UInt8.ofNat (16 * h + l))
  | _, _ => none

/-- The byte of the percent sign. -/
def percentSign : UInt8 := 0x25

/-- Puts a byte in place of every escape. -/
def decodeBytes : List UInt8 → List UInt8
  | [] => []
  | byte :: rest =>
      if byte = percentSign then
        match rest with
        | high :: low :: rest =>
            match escaped? high low with
            | some decoded => decoded :: decodeBytes rest
            | none => byte :: decodeBytes (high :: low :: rest)
        | rest => byte :: decodeBytes rest
      else
        byte :: decodeBytes rest

/-- The text with its escapes read, unless they do not make UTF-8. -/
def decode? (text : String) : Option String :=
  ofBytes? (decodeBytes (bytes text))

end DataExpr.Text.Percent
