import DataExpr.Expr.Lexer

/-!
# The tokens of a text

What the tokens of every text have in common: the end of the text is the last of
them and none of the others (`kinds_eq_append`), and the names among them are
identifiers (`isIdentifier_of_mem_kinds`).  `kinds` forgets where they stand, so it goes
through a text token by token (`kindsFrom_token`).
-/

namespace DataExpr

/-- The kinds of the tokens of a text, the end of the text included. -/
def kinds (source : String) : List TokenKind :=
  (tokenize source).map Token.kind

/-! ## One token after another -/

/-- The characters of a token that has been read are passed over. -/
theorem tokensFrom_skip (position : Position) (taken cs : List Char) :
    tokensFrom position taken.length (taken ++ cs) = tokensFrom (position.afterAll taken) 0 cs := by
  induction taken generalizing position with
  | nil => rfl
  | cons c taken ih =>
    rw [List.length_cons, List.cons_append, tokensFrom]
    exact ih (position.after c)

theorem map_kind_tokensFrom (first second : Position) (skip : Nat) (cs : List Char) :
    (tokensFrom first skip cs).map Token.kind = (tokensFrom second skip cs).map Token.kind := by
  induction cs generalizing first second skip with
  | nil => cases skip <;> rfl
  | cons c cs ih =>
    cases skip with
    | succ skip => exact ih _ _ _
    | zero =>
      rw [tokensFrom, tokensFrom]
      split
      · exact ih _ _ _
      · exact congrArg (_ :: ·) (ih _ _ _)

/-- The kinds of the tokens of characters, wherever they stand. -/
def kindsFrom (cs : List Char) : List TokenKind :=
  (tokensFrom .start 0 cs).map Token.kind

theorem kindsFrom_blank {c : Char} (h : Text.isBlank c = true) (cs : List Char) :
    kindsFrom (c :: cs) = kindsFrom cs := by
  rw [kindsFrom, tokensFrom, if_pos h]
  exact map_kind_tokensFrom _ _ _ _

theorem kindsFrom_token {c : Char} {taken rest : List Char} {kind : TokenKind}
    (hblank : Text.isBlank c = false)
    (h : scanToken c (taken ++ rest) = (kind, taken.length)) :
    kindsFrom (c :: (taken ++ rest)) = kind :: kindsFrom rest := by
  rw [kindsFrom, tokensFrom, if_neg (by rw [hblank]; decide), h]
  dsimp only
  rw [tokensFrom_skip, List.map_cons]
  exact congrArg (kind :: ·) (map_kind_tokensFrom _ _ _ _)

theorem kindsFrom_sign {c : Char} {sign : Sign} (hblank : Text.isBlank c = false)
    {rest : List Char} (h : scanToken c rest = (.sign sign, 0)) :
    kindsFrom (c :: rest) = .sign sign :: kindsFrom rest :=
  @kindsFrom_token c [] rest _ hblank h

/-! ## What scanners find -/

/-- What a scanner may find: anything but the end of the text, and no name that is not an
identifier. -/
inductive Found : TokenKind → Prop where
  | sign (s : Sign) : Found (.sign s)
  | number (n : Float) : Found (.number n)
  | string (text : String) : Found (.string text)
  | name {text : String} (h : isIdentifier text = true) : Found (.name text)
  | keyword (word : Keyword) : Found (.keyword word)
  | error (fault : LexicalFault) : Found (.error fault)

theorem Found.ne_endOfInput {kind : TokenKind} (h : Found kind) : kind ≠ .endOfInput := by
  cases h <;> exact TokenKind.noConfusion

theorem scanString_found (quote : Char) (cs : List Char) : Found (scanString quote cs).1 := by
  unfold scanString
  split <;> constructor

theorem scanNumber_found (c : Char) (cs : List Char) : Found (scanNumber c cs).1 := by
  unfold scanNumber
  dsimp only
  split
  · exact .error _
  · split <;> constructor

theorem scanWord_found {c : Char} (h : isNameStart c = true) (cs : List Char) :
    Found (scanWord c cs).1 := by
  unfold scanWord wordKind
  dsimp only
  split
  · exact .keyword _
  · rename_i hkeyword
    apply Found.name
    rw [isIdentifier, String.toList_ofList]
    dsimp only
    rw [h, List.all_takeWhile, hkeyword]
    rfl

theorem scanToken_found (c : Char) (cs : List Char) : Found (scanToken c cs).1 := by
  unfold scanToken scanWithEq scanDoubled
  split
  all_goals first
    | exact scanString_found _ _
    | (split <;> first
        | exact scanNumber_found _ _
        | (split <;> first | exact scanWord_found ‹_› _ | constructor)
        | constructor)
    | constructor

/-! ## The end of the text -/

theorem tokensFrom_kinds_eq_append (position : Position) (skip : Nat) (cs : List Char) :
    ∃ front, (tokensFrom position skip cs).map Token.kind = front ++ [.endOfInput] ∧
      ∀ kind ∈ front, Found kind := by
  fun_induction tokensFrom position skip cs with
  | case1 => exact ⟨[], by simp⟩
  | case2 _ _ _ _ ih => exact ih
  | case3 _ _ _ _ ih => exact ih
  | case4 position c cs hblank kind length hscan stop ih =>
    obtain ⟨front, hkinds, hfront⟩ := ih
    refine ⟨kind :: front, by simp [hkinds], ?_⟩
    have hkind := scanToken_found c cs
    rw [hscan] at hkind
    exact List.forall_mem_cons.2 ⟨hkind, hfront⟩

/-- The end of a text is its last token, and all others are found by a scanner. -/
theorem kinds_eq_append_found (source : String) :
    ∃ front, kinds source = front ++ [.endOfInput] ∧ ∀ kind ∈ front, Found kind :=
  tokensFrom_kinds_eq_append _ _ _

/-- The end of a text is its last token and no other. -/
theorem kinds_eq_append (source : String) :
    ∃ front, kinds source = front ++ [.endOfInput] ∧ .endOfInput ∉ front := by
  obtain ⟨front, hkinds, hfront⟩ := kinds_eq_append_found source
  exact ⟨front, hkinds, fun hmem => (hfront _ hmem).ne_endOfInput rfl⟩

/-- The names among the tokens of a text are identifiers. -/
theorem isIdentifier_of_mem_kinds {source name : String} (h : .name name ∈ kinds source) :
    isIdentifier name = true := by
  obtain ⟨front, hkinds, hfront⟩ := kinds_eq_append_found source
  rw [hkinds, List.mem_append, List.mem_singleton] at h
  rcases h with hmem | hend
  · cases hfront _ hmem with
    | name h => exact h
  · cases hend

end DataExpr
