import DataExpr.Proofs.Decimal.Integers
import DataExpr.Proofs.Path.Notation
import DataExpr.Proofs.Syntax.Quoting

/-!
# The tokens of paths

The tokens of a path's text are those of its name and of its steps, one step after the
other (`kinds_write`).  A name ends where the next step starts, a number at its closing
bracket and a string at its closing quote, so each is read whatever follows.
-/

namespace DataExpr

open DataExpr.Text (isBlank)

/-! ## Tokens up to what follows -/

/-- A separator ends a name. -/
theorem not_isNamePart_of_isSeparator {c : Char} (h : Path.isSeparator c = true) :
    isNamePart c = false := by
  rw [Bool.eq_false_iff]
  intro hpart
  have hbare := Path.isBare_of_isNamePart hpart
  rw [Path.isBare, h, Bool.not_true, Bool.false_and] at hbare
  cases hbare

/-- Digits up to a closing bracket are a whole numeral. -/
theorem numeralLength_digits {digits : List Char} (h : ∀ c ∈ digits, c.isDigit = true)
    (rest : List Char) : numeralLength (digits ++ ']' :: rest) = digits.length := by
  have hwhole : digitCount (digits ++ ']' :: rest) = digits.length := by
    rw [digitCount, takeWhile_run h]
    rintro _ ⟨⟩
    decide
  have hfraction : fractionLength (']' :: rest) = 0 := rfl
  have hexponent : exponentLength (']' :: rest) = 0 := rfl
  rw [numeralLength_eq, hwhole, List.drop_left, hfraction, Nat.add_zero, List.drop_left,
    hexponent, Nat.add_zero]

theorem kindsFrom_position {n : Nat} (h : n < Decimal.exactLimit) (rest : List Char) :
    kindsFrom ((Nat.repr n).toList ++ ']' :: rest) =
      .number (Decimal.ofNat n) :: kindsFrom (']' :: rest) := by
  have hdigits : ∀ c ∈ Nat.toDigits 10 n, c.isDigit = true := fun c hc =>
    Nat.isDigit_of_mem_toDigits (by decide) (by decide) hc
  have hread := Decimal.ofChars?_toDigits n
  have hlength := numeralLength_digits hdigits rest
  have hfloat := Decimal.toFloat_toDigits h
  have hname : isNameStart ']' = false := by
    rw [isNameStart_of_ascii (by decide)]
    decide
  rw [Nat.toList_repr]
  generalize hchars : Nat.toDigits 10 n = digits at *
  cases digits with
  | nil => exact absurd hchars Nat.toDigits_ne_nil
  | cons c cs =>
    rw [List.forall_mem_cons] at hdigits
    rw [List.cons_append] at hlength ⊢
    apply kindsFrom_token (not_isBlank_of_isDigit hdigits.1)
    rw [scanToken_digit hdigits.1, scanNumber, hlength, ← List.cons_append, List.drop_left,
      List.take_left, hread, List.head?_cons, Option.any_some, hname,
      if_neg (by decide)]
    dsimp only
    rw [hfloat, List.length_cons, Nat.add_sub_cancel]

/-- A plain key stands for itself in quotes. -/
theorem kindsFrom_string {quote : Char} (hquote : Path.isQuote quote = true) {key : String}
    (h : IsPlainKey key) (rest : List Char) :
    kindsFrom (quote :: (key.toList ++ quote :: rest)) = .string key :: kindsFrom rest := by
  have hnot : quote ∉ key.toList := by
    intro hmem
    rw [h.isQuote_eq_false quote hmem] at hquote
    cases hquote
  simp only [Path.isQuote, Bool.or_eq_true, beq_iff_eq] at hquote
  have hkinds := kindsFrom_inQuotes hquote key rest
  rwa [inQuotes, flatMap_quotedChar_of_plain hnot h.notBackslash h.notLineEnd,
    String.toList_ofList, List.cons_append, List.append_assoc] at hkinds

/-! ## Steps -/

namespace Path

/-- The kinds of the tokens of a step. -/
def Step.tokens : Step → List TokenKind
  | .name text _ => [.sign .dot, wordKind text.toList]
  | .position i _ => [.sign .leftBracket, .number (Decimal.ofNat i), .sign .rightBracket]
  | .quoted _ key _ _ _ => [.sign .leftBracket, .string key, .sign .rightBracket]

theorem kindsFrom_step (step : Step) {rest : List Char}
    (hrest : ∀ c ∈ rest.head?, isSeparator c = true) :
    kindsFrom (step.chars ++ rest) = step.tokens ++ kindsFrom rest := by
  have hopen (cs : List Char) : kindsFrom ('[' :: cs) = .sign .leftBracket :: kindsFrom cs :=
    kindsFrom_sign (by decide) rfl
  have hclose (cs : List Char) : kindsFrom (']' :: cs) = .sign .rightBracket :: kindsFrom cs :=
    kindsFrom_sign (by decide) rfl
  cases step with
  | name text shaped =>
    have hdot : scanToken '.' (text.toList ++ rest) = (.sign .dot, 0) := by
      obtain ⟨c, cs, hchars, hstart, -⟩ := shaped.exists_chars
      rw [hchars]
      refine if_neg ?_
      show ¬c.isDigit = true
      rw [not_isDigit_of_isNameStart hstart]
      decide
    rw [Step.chars, List.cons_append, kindsFrom_sign (by decide) hdot,
      kindsFrom_word shaped fun d hd => not_isNamePart_of_isSeparator (hrest d hd)]
    rfl
  | position i exact =>
    rw [Step.chars, List.cons_append, hopen, List.append_assoc, List.cons_append,
      kindsFrom_position exact, List.nil_append, hclose]
    rfl
  | quoted quote key hquote plain =>
    rw [Step.chars, List.cons_append, hopen, List.cons_append, List.append_assoc,
      List.cons_append, kindsFrom_string hquote plain, List.cons_append, hclose]
    rfl

theorem kindsFrom_steps (steps : List Step) :
    kindsFrom (steps.flatMap Step.chars) = steps.flatMap Step.tokens ++ [.endOfInput] := by
  induction steps with
  | nil => rfl
  | cons step steps ih =>
    rw [List.flatMap_cons, kindsFrom_step step fun c => isSeparator_of_mem_head?, ih,
      List.flatMap_cons, List.append_assoc]

theorem kinds_write {head : String} (h : isIdentifier head = true) (steps : List Step) :
    kinds (write head steps) = .name head :: (steps.flatMap Step.tokens ++ [.endOfInput]) := by
  rw [kinds, tokenize, write, String.toList_ofList]
  show kindsFrom _ = _
  rw [kindsFrom_identifier h fun d hd =>
    not_isNamePart_of_isSeparator (isSeparator_of_mem_head? hd), kindsFrom_steps]

end Path

end DataExpr
