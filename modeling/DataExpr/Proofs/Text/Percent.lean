import DataExpr.Text.Percent

/-!
# Percent coding is undone by reading

`Percent.Writes` says of a text that its escapes make another text wherever it
stands, so that what is written from several pieces is read piece by piece.  An
encoded text is such a text (`writes_encode`), and so is an ASCII character other
than the percent sign (`writes_ascii`).  Reading a whole one gives back what it was
made of (`Writes.decode?_eq`).

What an encoded text consists of is `isWritten` (`isWritten_of_mem_encode`).  No
separator of queries and paths is.
-/

namespace DataExpr.Text.Percent

/-! ## Bytes -/

theorem bytes_ofList (cs : List Char) :
    bytes (String.ofList cs) = cs.flatMap String.utf8EncodeChar := by
  rw [bytes, String.toUTF8_eq_toByteArray, String.toByteArray_ofList, List.utf8Encode,
    List.data_toByteArray]

theorem bytes_append (text other : String) : bytes (text ++ other) = bytes text ++ bytes other := by
  simp [bytes]

theorem ofBytes?_bytes (text : String) : ofBytes? (bytes text) = some text := by
  rw [ofBytes?, bytes, Array.toArray_toList, String.fromUTF8?]
  exact dif_pos text.isValidUTF8

/-- The byte of an ASCII character. -/
def asciiByte (c : Char) : UInt8 :=
  c.val.toUInt8

theorem utf8EncodeChar_of_ascii {c : Char} (h : c.toNat < 0x80) :
    String.utf8EncodeChar c = [asciiByte c] := by
  apply String.utf8EncodeChar_eq_singleton
  rw [Char.utf8Size, if_pos]
  exact UInt32.le_iff_toNat_le.2 (Nat.le_of_lt_succ h)

theorem bytes_ofList_of_ascii {cs : List Char} (h : ∀ c ∈ cs, c.toNat < 0x80) :
    bytes (String.ofList cs) = cs.map asciiByte := by
  rw [bytes_ofList]
  induction cs with
  | nil => rfl
  | cons c cs ih =>
    rw [List.forall_mem_cons] at h
    rw [List.flatMap_cons, utf8EncodeChar_of_ascii h.1, ih h.2]
    rfl

/-! ## Characters of encoded texts -/

/-- The characters that encoded texts are made of. -/
def isWritten (c : Char) : Bool :=
  c.isAlphanum || c == '-' || c == '_' || c == '.' || c == '~' || c == '%'

/-- What holds of all pairs of hexadecimal digits holds of all bytes. -/
theorem forall_byte {p : UInt8 → Prop}
    (h : ∀ high < 16, ∀ low < 16, p (UInt8.ofNat (16 * high + low))) (byte : UInt8) : p byte := by
  have hlt : byte.toNat < 256 := byte.toNat_lt
  have hbyte := h (byte.toNat / 16) (by omega) (byte.toNat % 16) (by omega)
  rwa [Nat.div_add_mod, UInt8.ofNat_toNat] at hbyte

theorem all_encodeByte (byte : UInt8) :
    (encodeByte byte).all (fun c => isWritten c && decide (c.toNat < 0x80)) = true :=
  forall_byte (p := fun byte =>
    (encodeByte byte).all (fun c => isWritten c && decide (c.toNat < 0x80)) = true)
    (by decide +kernel) byte

/-- Encoded texts are ASCII, and have only some of its characters. -/
theorem isWritten_encodeByte {byte : UInt8} {c : Char} (h : c ∈ encodeByte byte) :
    isWritten c = true ∧ c.toNat < 0x80 := by
  simpa using List.all_eq_true.1 (all_encodeByte byte) c h

theorem isWritten_of_mem_encode {text : String} {c : Char} (h : c ∈ (encode text).toList) :
    isWritten c = true := by
  rw [encode, String.toList_ofList, List.mem_flatMap] at h
  obtain ⟨byte, -, hc⟩ := h
  exact (isWritten_encodeByte hc).1

/-- An encoded text has none of the characters that it is not made of. -/
theorem not_mem_encode {text : String} {c : Char} (h : isWritten c = false) :
    c ∉ (encode text).toList := by
  intro hmem
  rw [isWritten_of_mem_encode hmem] at h
  exact absurd h (by decide)

/-! ## Reading -/

theorem decodeBytes_cons_of_ne {byte : UInt8} (h : byte ≠ percentSign) (rest : List UInt8) :
    decodeBytes (byte :: rest) = byte :: decodeBytes rest := by
  match rest with
  | [] | [_] | _ :: _ :: _ => simp [decodeBytes, h]

theorem decodeBytes_encodeByte (byte : UInt8) (rest : List UInt8) :
    decodeBytes ((encodeByte byte).map asciiByte ++ rest) = byte :: decodeBytes rest := by
  have hbare : ∀ byte, isBare byte = true →
      asciiByte (Char.ofNat byte.toNat) = byte ∧ byte ≠ percentSign :=
    forall_byte (by decide +kernel)
  have hescape : ∀ byte : UInt8, escaped? (asciiByte (hexDigit (byte.toNat / 16)))
      (asciiByte (hexDigit (byte.toNat % 16))) = some byte :=
    forall_byte (by decide +kernel)
  rw [encodeByte]
  split
  · rename_i h
    obtain ⟨hbyte, hne⟩ := hbare byte h
    rw [List.map_cons, List.map_nil, hbyte, List.cons_append, List.nil_append,
      decodeBytes_cons_of_ne hne]
  · have hpercent : asciiByte '%' = percentSign := rfl
    simp only [List.map_cons, List.map_nil, List.cons_append, List.nil_append, hpercent,
      decodeBytes, if_true, hescape byte]

theorem decodeBytes_encodeBytes (content rest : List UInt8) :
    decodeBytes ((content.flatMap encodeByte).map asciiByte ++ rest) =
      content ++ decodeBytes rest := by
  induction content with
  | nil => rfl
  | cons byte content ih =>
    rw [List.flatMap_cons, List.map_append, List.append_assoc, decodeBytes_encodeByte, ih,
      List.cons_append]

/-- Wherever the first text stands, it is read as the second. -/
def Writes (written text : String) : Prop :=
  ∀ rest, decodeBytes (bytes written ++ rest) = bytes text ++ decodeBytes rest

theorem writes_encode (text : String) : Writes (encode text) text := by
  intro rest
  rw [encode, bytes_ofList_of_ascii, decodeBytes_encodeBytes]
  intro c hc
  obtain ⟨byte, -, hbyte⟩ := List.mem_flatMap.1 hc
  exact (isWritten_encodeByte hbyte).2

theorem writes_ascii {c : Char} (hascii : c.toNat < 0x80) (hpercent : asciiByte c ≠ percentSign) :
    Writes (String.ofList [c]) (String.ofList [c]) := by
  intro rest
  rw [bytes_ofList_of_ascii (by simpa using hascii), List.map_cons, List.map_nil,
    List.cons_append, List.nil_append, decodeBytes_cons_of_ne hpercent, List.cons_append,
    List.nil_append]

theorem Writes.append {written text written' text' : String} (h : Writes written text)
    (h' : Writes written' text') : Writes (written ++ written') (text ++ text') := by
  intro rest
  rw [bytes_append, List.append_assoc, h, h', bytes_append, List.append_assoc]

theorem Writes.decode?_eq {written text : String} (h : Writes written text) :
    decode? written = some text := by
  have hbytes := h []
  rw [List.append_nil, decodeBytes, List.append_nil] at hbytes
  rw [decode?, hbytes, ofBytes?_bytes]

/-- Every text is read back from its encoded form. -/
theorem decode?_encode (text : String) : decode? (encode text) = some text :=
  (writes_encode text).decode?_eq

end DataExpr.Text.Percent
