import DataExpr.Proofs.Syntax.Scanners
import DataExpr.Proofs.Syntax.Tokens

/-!
# Texts with given tokens

A token with a blank behind it is read back whatever follows (`IsSpelled`).  So every
sequence of signs, and of the name `a` for operands, is the tokens of a text,
`spelled`.
-/

namespace DataExpr

open DataExpr.Text (isBlank)

/-- The characters are a token of the kind, wherever a blank comes behind them. -/
structure IsSpelled (kind : TokenKind) (c : Char) (rest : List Char) : Prop where
  notBlank : isBlank c = false
  scan (after : List Char) : scanToken c (rest ++ ' ' :: after) = (kind, rest.length)

/-- Signs, and names that can be operands. -/
inductive Plain : TokenKind → Prop where
  | sign (sign : Sign) : Plain (.sign sign)
  | a : Plain (.name "a")

/-- How a plain token is written. -/
def TokenKind.plainText : TokenKind → String
  | .sign s => s.text
  | _ => "a"

theorem isSpelled_a : IsSpelled (.name "a") 'a' [] := by
  have hword : wordKind ['a'] = .name "a" := by decide +kernel
  refine ⟨rfl, fun after => ?_⟩
  rw [scanToken_nameStart rfl, scanWord]
  simp [not_isNamePart_of_isBlank ' ' (by decide), hword]

theorem Plain.isSpelled {kind : TokenKind} (h : Plain kind) :
    ∃ c rest, kind.plainText.toList = c :: rest ∧ IsSpelled kind c rest := by
  cases h with
  | sign sign => cases sign <;> exact ⟨_, _, rfl, rfl, fun _ => rfl⟩
  | a => exact ⟨_, _, rfl, isSpelled_a⟩

theorem IsSpelled.kindsFrom_eq {kind : TokenKind} {c : Char} {rest : List Char}
    (h : IsSpelled kind c rest) (after : List Char) :
    kindsFrom (c :: (rest ++ ' ' :: after)) = kind :: kindsFrom after := by
  rw [kindsFrom_token h.notBlank (h.scan after), kindsFrom_blank (by decide)]

/-- Plain tokens in characters, with a blank behind each. -/
def spelledChars : List TokenKind → List Char
  | [] => []
  | kind :: front => kind.plainText.toList ++ ' ' :: spelledChars front

/-- A text of plain tokens. -/
def spelled (front : List TokenKind) : String :=
  String.ofList (spelledChars front)

theorem kindsFrom_spelledChars {front : List TokenKind} (h : ∀ kind ∈ front, Plain kind) :
    kindsFrom (spelledChars front) = front ++ [.endOfInput] := by
  induction front with
  | nil => rfl
  | cons kind front ih =>
    obtain ⟨hkind, hfront⟩ := List.forall_mem_cons.1 h
    obtain ⟨c, rest, htext, hspelled⟩ := hkind.isSpelled
    rw [spelledChars, htext, List.cons_append, hspelled.kindsFrom_eq, ih hfront,
      List.cons_append]

/-- Plain tokens are read back. -/
theorem kinds_spelled {front : List TokenKind} (h : ∀ kind ∈ front, Plain kind) :
    kinds (spelled front) = front ++ [.endOfInput] := by
  rw [kinds, tokenize, spelled, String.toList_ofList]
  exact kindsFrom_spelledChars h

end DataExpr
