import DataExpr.Proofs.Syntax.Scanners
import DataExpr.Proofs.Syntax.Tokens

/-!
# The grammar of numerals

`IsNumeral` says how unsigned numerals are written.  The reader of numerals accepts exactly
these (`isSome_ofChars?_iff`), and the scanner of numbers takes nothing else
(`isNumeral_take_numeralLength`) and all of each (`numeralLength_of_isNumeral`).

So what the scanner takes can always be read, and no token is a faulty number
(`badNumber_not_mem_kinds`).  A text without white space is one token and a number if it
is a numeral, and only then (`kindsFrom_eq_number_iff`).
-/

namespace DataExpr

namespace Decimal

/-- An exponent, or nothing in its place. -/
inductive IsExponent : List Char → Prop
  | nothing : IsExponent []
  /-- A letter, a sign or none, and digits. -/
  | scaled {letter : Char} {sign digits : List Char} (hletter : letter = 'e' ∨ letter = 'E')
      (hsign : sign ∈ [[], ['+'], ['-']]) (hne : digits ≠ [])
      (hdigits : ∀ c ∈ digits, c.isDigit = true) :
      IsExponent (letter :: (sign ++ digits))

/-- An unsigned numeral. -/
inductive IsNumeral : List Char → Prop
  /-- Digits. -/
  | whole {digits exponent : List Char} (hne : digits ≠ [])
      (hdigits : ∀ c ∈ digits, c.isDigit = true) (hexponent : IsExponent exponent) :
      IsNumeral (digits ++ exponent)
  /-- A point with digits before or behind it. -/
  | pointed {whole fraction exponent : List Char} (hne : whole ≠ [] ∨ fraction ≠ [])
      (hwhole : ∀ c ∈ whole, c.isDigit = true) (hfraction : ∀ c ∈ fraction, c.isDigit = true)
      (hexponent : IsExponent exponent) :
      IsNumeral (whole ++ '.' :: (fraction ++ exponent))

end Decimal

open Decimal

/-! ## Digits -/

theorem digitCount_append {digits rest : List Char} (hdigits : ∀ c ∈ digits, c.isDigit = true)
    (hrest : ∀ c ∈ rest.head?, c.isDigit = false) :
    digitCount (digits ++ rest) = digits.length := by
  rw [digitCount, takeWhile_run hdigits hrest]

theorem not_isDigit_of_mem_head?_point (cs : List Char) :
    ∀ c ∈ ('.' :: cs).head?, c.isDigit = false := by
  intro c hc
  obtain rfl : '.' = c := Option.some.inj hc
  rfl

/-! ## Exponents -/

theorem Decimal.IsExponent.head {cs : List Char} (h : IsExponent cs) :
    ∀ c ∈ cs.head?, c.isDigit = false ∧ c ≠ '.' := by
  cases h with
  | nothing => simp
  | scaled hletter =>
    rintro c ⟨⟩
    rcases hletter with rfl | rfl <;> decide

theorem take_signLength_mem (cs : List Char) : cs.take (signLength cs) ∈ [[], ['+'], ['-']] := by
  unfold signLength
  split <;> simp

theorem signLength_of_isDigit {cs : List Char} (h : ∀ c ∈ cs, c.isDigit = true) :
    signLength cs = 0 := by
  fun_cases signLength cs with
  | case1 => cases h '+' List.mem_cons_self
  | case2 => cases h '-' List.mem_cons_self
  | case3 => rfl

/-- Behind its letter an exponent has digits, with a sign before them or none. -/
theorem isExponent_cons_iff {letter : Char} {cs : List Char} :
    IsExponent (letter :: cs) ↔
      (letter = 'e' ∨ letter = 'E') ∧ cs.drop (signLength cs) ≠ [] ∧
        ∀ c ∈ cs.drop (signLength cs), c.isDigit = true := by
  constructor
  · intro h
    generalize hcs : letter :: cs = text at h
    cases h with
    | nothing => cases hcs
    | @scaled _ sign digits hletter hsign hne hdigits =>
      cases hcs
      have hbehind : (sign ++ digits).drop (signLength (sign ++ digits)) = digits := by
        simp only [List.mem_cons, List.not_mem_nil, or_false] at hsign
        rcases hsign with rfl | rfl | rfl
        · rw [List.nil_append, signLength_of_isDigit hdigits, List.drop_zero]
        · rfl
        · rfl
      rw [hbehind]
      exact ⟨hletter, hne, hdigits⟩
  · rintro ⟨hletter, hne, hdigits⟩
    rw [← List.take_append_drop (signLength cs) cs]
    exact .scaled hletter (take_signLength_mem cs) hne hdigits

/-- The reader of exponents accepts exactly these. -/
theorem isSome_exponentOfChars?_iff {cs : List Char} :
    (Numeral.exponentOfChars? cs).isSome = true ↔ IsExponent cs := by
  cases cs with
  | nil => exact ⟨fun _ => .nothing, fun _ => rfl⟩
  | cons letter cs =>
    rw [isExponent_cons_iff]
    by_cases hletter : letter = 'e' ∨ letter = 'E'
    · fun_cases signLength cs <;> simp_all [Numeral.exponentOfChars?]
    · simp [Numeral.exponentOfChars?, hletter]

/-- An exponent is taken whole. -/
theorem exponentLength_of_isExponent {cs : List Char} (h : IsExponent cs) :
    exponentLength cs = cs.length := by
  cases cs with
  | nil => rfl
  | cons letter cs =>
    obtain ⟨hletter, hne, hdigits⟩ := isExponent_cons_iff.1 h
    have hcount : exponentDigits cs = cs.length - signLength cs := by
      have hall := @digitCount_append (cs.drop (signLength cs)) [] hdigits (by simp)
      rwa [List.append_nil, List.length_drop] at hall
    have hpos := List.length_pos_iff.2 hne
    rw [List.length_drop] at hpos
    rw [exponentLength_cons, if_pos ⟨hletter, by omega⟩, List.length_cons]
    omega

/-- What is taken for an exponent is one. -/
theorem isExponent_take_exponentLength (cs : List Char) :
    IsExponent (cs.take (exponentLength cs)) := by
  cases cs with
  | nil => exact .nothing
  | cons letter cs =>
    rw [exponentLength_cons]
    split
    · rename_i hsome
      obtain ⟨digits, rest, hcs, hdigits, hrest⟩ := exists_run Char.isDigit (cs.drop (signLength cs))
      have hcount : exponentDigits cs = digits.length := by
        rw [exponentDigits, hcs, digitCount_append hdigits hrest]
      have htake : (letter :: cs).take (1 + signLength cs + exponentDigits cs) =
          letter :: (cs.take (signLength cs) ++ digits) := by
        rw [Nat.add_assoc, Nat.add_comm 1, List.take_succ_cons, List.take_add, hcs, hcount,
          List.take_left]
      rw [htake]
      refine .scaled hsome.1 (take_signLength_mem cs) ?_ hdigits
      exact List.length_pos_iff.1 (by omega)
    · exact .nothing

/-! ## Numerals -/

section

variable {whole fraction rest : List Char} (hwhole : ∀ c ∈ whole, c.isDigit = true)

include hwhole

theorem numeralLength_whole (hrest : ∀ c ∈ rest.head?, c.isDigit = false ∧ c ≠ '.') :
    numeralLength (whole ++ rest) = whole.length + exponentLength rest := by
  have hfraction := fractionLength_of_head fun hpoint => (hrest '.' hpoint).2 rfl
  rw [numeralLength_eq, digitCount_append hwhole fun c hc => (hrest c hc).1, List.drop_left,
    hfraction, Nat.add_zero, List.drop_left]

theorem isSome_ofChars?_whole (hrest : ∀ c ∈ rest.head?, c.isDigit = false ∧ c ≠ '.') :
    (Numeral.ofChars? (whole ++ rest)).isSome = true ↔ whole ≠ [] ∧ IsExponent rest := by
  have hdigit : ∀ c ∈ rest.head?, c.isDigit = false := fun c hc => (hrest c hc).1
  rw [← isSome_exponentOfChars?_iff]
  unfold Numeral.ofChars?
  dsimp only
  rw [takeWhile_run hwhole hdigit, dropWhile_run hwhole hdigit]
  split
  · exact absurd rfl (hrest '.' rfl).2
  · split <;> simp_all

theorem numeralLength_pointed (hfraction : ∀ c ∈ fraction, c.isDigit = true)
    (hrest : ∀ c ∈ rest.head?, c.isDigit = false) :
    numeralLength (whole ++ '.' :: (fraction ++ rest)) =
      whole.length + (fraction.length + 1) + exponentLength rest := by
  have hpoint := not_isDigit_of_mem_head?_point (fraction ++ rest)
  rw [numeralLength_eq, digitCount_append hwhole hpoint, List.drop_left, fractionLength,
    digitCount_append hfraction hrest, Nat.add_comm 1, ← List.drop_drop, List.drop_left,
    List.drop_succ_cons, List.drop_left]

theorem isSome_ofChars?_pointed (hfraction : ∀ c ∈ fraction, c.isDigit = true)
    (hrest : ∀ c ∈ rest.head?, c.isDigit = false) :
    (Numeral.ofChars? (whole ++ '.' :: (fraction ++ rest))).isSome = true ↔
      (whole ≠ [] ∨ fraction ≠ []) ∧ IsExponent rest := by
  have hpoint := not_isDigit_of_mem_head?_point (fraction ++ rest)
  rw [← isSome_exponentOfChars?_iff]
  unfold Numeral.ofChars?
  dsimp only
  rw [takeWhile_run hwhole hpoint, dropWhile_run hwhole hpoint]
  split
  · rename_i behind heq
    obtain rfl : fraction ++ rest = behind := List.tail_eq_of_cons_eq heq
    rw [takeWhile_run hfraction hrest, dropWhile_run hfraction hrest]
    split <;> simp_all [or_iff_not_imp_left]
  · rename_i hnone
    exact absurd rfl (hnone _)

end

/-- The digits at the front of a text, with a point among or beside them or without. -/
inductive StartsWithDigits : List Char → Prop
  | whole {whole rest : List Char} (hwhole : ∀ c ∈ whole, c.isDigit = true)
      (hrest : ∀ c ∈ rest.head?, c.isDigit = false ∧ c ≠ '.') :
      StartsWithDigits (whole ++ rest)
  | pointed {whole fraction rest : List Char} (hwhole : ∀ c ∈ whole, c.isDigit = true)
      (hfraction : ∀ c ∈ fraction, c.isDigit = true)
      (hrest : ∀ c ∈ rest.head?, c.isDigit = false) :
      StartsWithDigits (whole ++ '.' :: (fraction ++ rest))

/-- Every text can be taken apart in this way. -/
theorem startsWithDigits (cs : List Char) : StartsWithDigits cs := by
  obtain ⟨whole, rest, rfl, hwhole, hrest⟩ := exists_run Char.isDigit cs
  by_cases hpoint : rest.head? = some '.'
  · obtain ⟨tail, rfl⟩ : ∃ tail, rest = '.' :: tail := by
      cases rest <;> simp_all
    obtain ⟨fraction, rest, rfl, hfraction, hrest⟩ := exists_run Char.isDigit tail
    exact .pointed hwhole hfraction hrest
  · refine .whole hwhole fun c hc => ⟨hrest c hc, fun heq => hpoint ?_⟩
    rw [← heq]
    exact hc

/-- The reader of numerals accepts exactly these. -/
theorem isSome_ofChars?_iff {cs : List Char} :
    (Numeral.ofChars? cs).isSome = true ↔ IsNumeral cs := by
  constructor
  · intro h
    cases startsWithDigits cs with
    | whole hwhole hrest =>
      obtain ⟨hne, hexponent⟩ := (isSome_ofChars?_whole hwhole hrest).1 h
      exact .whole hne hwhole hexponent
    | pointed hwhole hfraction hrest =>
      obtain ⟨hne, hexponent⟩ := (isSome_ofChars?_pointed hwhole hfraction hrest).1 h
      exact .pointed hne hwhole hfraction hexponent
  · intro h
    cases h with
    | whole hne hdigits hexponent =>
      exact (isSome_ofChars?_whole hdigits hexponent.head).2 ⟨hne, hexponent⟩
    | pointed hne hwhole hfraction hexponent =>
      exact (isSome_ofChars?_pointed hwhole hfraction fun c hc => (hexponent.head c hc).1).2
        ⟨hne, hexponent⟩

/-- A numeral is taken whole. -/
theorem numeralLength_of_isNumeral {cs : List Char} (h : IsNumeral cs) :
    numeralLength cs = cs.length := by
  cases h with
  | whole _ hdigits hexponent =>
    rw [numeralLength_whole hdigits hexponent.head, exponentLength_of_isExponent hexponent,
      List.length_append]
  | pointed _ hwhole hfraction hexponent =>
    rw [numeralLength_pointed hwhole hfraction fun c hc => (hexponent.head c hc).1,
      exponentLength_of_isExponent hexponent]
    simp only [List.length_append, List.length_cons]
    omega

/-- A number starts with a digit, or with a point and a digit behind it. -/
def StartsNumber (cs : List Char) : Prop :=
  cs.head?.any Char.isDigit = true ∨ cs.head? = some '.' ∧ cs.tail.head?.any Char.isDigit = true

/-- What is taken for a number is a numeral. -/
theorem isNumeral_take_numeralLength {cs : List Char} (h : StartsNumber cs) :
    IsNumeral (cs.take (numeralLength cs)) := by
  cases startsWithDigits cs with
  | @whole whole rest hwhole hrest =>
    have hne : whole ≠ [] := by
      rintro rfl
      cases rest <;> simp_all [StartsNumber]
    rw [numeralLength_whole hwhole hrest, List.take_length_add_append]
    exact .whole hne hwhole (isExponent_take_exponentLength rest)
  | @pointed whole fraction rest hwhole hfraction hrest =>
    have hne : whole ≠ [] ∨ fraction ≠ [] := by
      rw [← not_and_or]
      rintro ⟨rfl, rfl⟩
      cases rest <;> simp_all [StartsNumber]
    rw [numeralLength_pointed hwhole hfraction hrest, Nat.add_assoc, List.take_length_add_append,
      Nat.add_right_comm, List.take_succ_cons, List.take_length_add_append]
    exact .pointed hne hwhole hfraction (isExponent_take_exponentLength rest)

theorem Decimal.IsNumeral.startsNumber {cs : List Char} (h : IsNumeral cs) : StartsNumber cs := by
  have hdigit {digits rest : List Char} (hne : digits ≠ [])
      (hdigits : ∀ c ∈ digits, c.isDigit = true) :
      (digits ++ rest).head?.any Char.isDigit = true := by
    cases digits with
    | nil => exact absurd rfl hne
    | cons c digits => exact hdigits c List.mem_cons_self
  cases h with
  | whole hne hdigits _ => exact .inl (hdigit hne hdigits)
  | @pointed whole fraction exponent hne hwhole hfraction _ =>
    cases whole with
    | nil => exact .inr ⟨rfl, hdigit (hne.resolve_left (by simp)) hfraction⟩
    | cons c whole => exact .inl (hwhole c List.mem_cons_self)

/-! ## Tokens -/

theorem scanToken_of_startsNumber {c : Char} {cs : List Char} (h : StartsNumber (c :: cs)) :
    scanToken c cs = scanNumber c cs := by
  rcases h with hdigit | ⟨hpoint, hdigit⟩
  · exact scanToken_digit hdigit cs
  · obtain rfl : c = '.' := Option.some.inj hpoint
    exact scanToken_point hdigit

/-- What a scanner may find that is no number, nor a faulty one. -/
inductive NoNumber : TokenKind → Prop where
  | sign (s : Sign) : NoNumber (.sign s)
  | string (text : String) : NoNumber (.string text)
  | name (text : String) : NoNumber (.name text)
  | keyword (word : Keyword) : NoNumber (.keyword word)
  | error {fault : LexicalFault} (h : fault ≠ .badNumber) : NoNumber (.error fault)

theorem scanBody_ne_badNumber (quote : Char) (cs : List Char) :
    (scanBody quote cs).1 ≠ .error .badNumber := by
  have hcons (c : Char) (taken : Nat) (rest : Except LexicalFault (List Char) × Nat)
      (h : rest.1 ≠ .error .badNumber) : (consString c taken rest).1 ≠ .error .badNumber := by
    obtain ⟨fault | body, length⟩ := rest
    · exact h
    · simp [consString, Except.map]
  fun_induction scanBody quote cs with
  | case5 _ _ _ _ _ _ _ _ _ ih => exact hcons _ _ _ ih
  | case8 _ _ _ _ _ ih => exact hcons _ _ _ ih
  | case10 _ _ _ _ _ ih => exact hcons _ _ _ ih
  | _ => simp

theorem scanString_noNumber (quote : Char) (cs : List Char) :
    NoNumber (scanString quote cs).1 := by
  have hbody := scanBody_ne_badNumber quote cs
  unfold scanString
  split
  · exact .string _
  · rename_i fault _ hscan
    rw [hscan] at hbody
    exact .error fun heq => hbody (congrArg _ heq)

theorem scanWord_noNumber (c : Char) (cs : List Char) : NoNumber (scanWord c cs).1 := by
  unfold scanWord wordKind
  dsimp only
  split <;> constructor

theorem scanWithEq_noNumber (bare withEq : Sign) (cs : List Char) :
    NoNumber (scanWithEq bare withEq cs).1 := by
  unfold scanWithEq
  split <;> constructor

theorem scanDoubled_noNumber (c : Char) (sign : Sign) (cs : List Char) :
    NoNumber (scanDoubled c sign cs).1 := by
  unfold scanDoubled
  split
  · exact .sign sign
  · exact .error (by simp)

/-- What does not start like a number is none. -/
theorem scanToken_noNumber {c : Char} {cs : List Char} (h : ¬StartsNumber (c :: cs)) :
    NoNumber (scanToken c cs).1 := by
  have hdigit : ¬c.isDigit = true := fun hc => h (.inl hc)
  fun_cases scanToken c cs with
  | case11 cs hpoint => exact absurd (.inr ⟨rfl, hpoint⟩) h
  | case13 => exact scanWithEq_noNumber _ _ _
  | case14 => exact scanWithEq_noNumber _ _ _
  | case20 => exact .error (by simp)
  | case21 => exact scanDoubled_noNumber _ _ _
  | case22 => exact scanDoubled_noNumber _ _ _
  | case23 => exact scanString_noNumber _ _
  | case24 => exact scanString_noNumber _ _
  | case25 => contradiction
  | case26 => exact scanWord_noNumber _ _
  | case27 => exact .error (by simp)
  | _ => constructor

/-- No number is faulty. -/
theorem scanToken_ne_badNumber (c : Char) (cs : List Char) :
    (scanToken c cs).1 ≠ .error .badNumber := by
  by_cases h : StartsNumber (c :: cs)
  · have hread := isSome_ofChars?_iff.2 (isNumeral_take_numeralLength h)
    rw [scanToken_of_startsNumber h]
    unfold scanNumber
    dsimp only
    split
    · simp
    · split
      · simp
      · rename_i hnone
        rw [hnone] at hread
        cases hread
  · intro hfault
    have hother := scanToken_noNumber h
    rw [hfault] at hother
    cases hother with
    | error hne => exact hne rfl

/-- The tokens of a text never report a number that is no numeral. -/
theorem badNumber_not_mem_kinds (source : String) : .error .badNumber ∉ kinds source := by
  unfold kinds tokenize
  fun_induction tokensFrom .start 0 source.toList with
  | case1 => simp
  | case2 _ _ _ _ ih => exact ih
  | case3 _ _ _ _ ih => exact ih
  | case4 position c cs hblank kind length hscan stop ih =>
    have hkind := scanToken_ne_badNumber c cs
    rw [hscan] at hkind
    rw [List.map_cons, List.mem_cons, not_or]
    exact ⟨hkind.symm, ih⟩

theorem kindsFrom_cons {c : Char} (hblank : Text.isBlank c = false) (cs : List Char) :
    kindsFrom (c :: cs) = (scanToken c cs).1 :: kindsFrom (cs.drop (scanToken c cs).2) := by
  have hlength : (cs.take (scanToken c cs).2).length = (scanToken c cs).2 :=
    List.length_take_of_le (scanToken_selfContained c cs).length_le
  have htoken := @kindsFrom_token c (cs.take (scanToken c cs).2)
    (cs.drop (scanToken c cs).2) (scanToken c cs).1 hblank
  rw [List.take_append_drop, hlength] at htoken
  exact htoken rfl

/-- Without white space there is a token in every text but the empty one. -/
theorem eq_nil_of_kindsFrom {cs : List Char} (hblank : ∀ c ∈ cs, Text.isBlank c = false)
    (h : kindsFrom cs = [.endOfInput]) : cs = [] := by
  cases cs with
  | nil => rfl
  | cons c cs =>
    rw [kindsFrom_cons (hblank c List.mem_cons_self)] at h
    exact absurd (List.head_eq_of_cons_eq h) (scanToken_found c cs).ne_endOfInput

theorem numeralLength_pos {cs : List Char} (h : StartsNumber cs) : 0 < numeralLength cs := by
  apply Nat.pos_of_ne_zero
  intro hzero
  have hnone := (isNumeral_take_numeralLength h).startsNumber
  rw [hzero] at hnone
  simp [StartsNumber] at hnone

/-- A number that is all of the text is read as the text is. -/
theorem scanNumber_of_length {c : Char} {cs : List Char}
    (h : numeralLength (c :: cs) = cs.length + 1) :
    scanNumber c cs =
      (match Numeral.ofChars? (c :: cs) with
        | some numeral => .number numeral.toFloat
        | none => .error .badNumber, cs.length) := by
  unfold scanNumber
  dsimp only
  rw [h, ← List.length_cons, List.drop_length, List.take_length, if_neg (by simp)]
  rfl

/-- A text without white space is one number if it is a numeral. -/
theorem kindsFrom_eq_number_iff {cs : List Char} (hblank : ∀ c ∈ cs, Text.isBlank c = false)
    {n : Float} :
    kindsFrom cs = [.number n, .endOfInput] ↔
      (Numeral.ofChars? cs).map Numeral.toFloat = some n := by
  cases cs with
  | nil => exact ⟨nofun, nofun⟩
  | cons c cs =>
    rw [kindsFrom_cons (hblank c List.mem_cons_self)]
    constructor
    · intro h
      obtain ⟨hkind, htail⟩ := List.cons_eq_cons.1 h
      have hrest : cs.drop (scanToken c cs).2 = [] := eq_nil_of_kindsFrom
        (fun d hd => hblank d (List.mem_cons_of_mem c (List.mem_of_mem_drop hd))) htail
      have hstarts : StartsNumber (c :: cs) := by
        by_contra hother
        have hnone := scanToken_noNumber hother
        rw [hkind] at hnone
        cases hnone
      rw [scanToken_of_startsNumber hstarts] at hkind hrest
      have hlength : numeralLength (c :: cs) = cs.length + 1 := by
        have hall : cs.length ≤ numeralLength (c :: cs) - 1 := List.drop_eq_nil_iff.1 hrest
        have hpos := numeralLength_pos hstarts
        have hle : numeralLength (c :: cs) ≤ cs.length + 1 := numeralLength_le (c :: cs)
        omega
      rw [scanNumber_of_length hlength] at hkind
      cases hread : Numeral.ofChars? (c :: cs) with
      | none => simp [hread] at hkind
      | some numeral => simpa [hread] using hkind
    · intro h
      obtain ⟨numeral, hread, rfl⟩ := Option.map_eq_some_iff.1 h
      have hnumeral : IsNumeral (c :: cs) := by
        rw [← isSome_ofChars?_iff, hread]
        rfl
      rw [scanToken_of_startsNumber hnumeral.startsNumber,
        scanNumber_of_length (numeralLength_of_isNumeral hnumeral), hread, List.drop_length]
      rfl

end DataExpr
