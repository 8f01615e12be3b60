import DataExpr.Proofs.Syntax.Quoting
import DataExpr.Proofs.Syntax.Tiling

/-!
# The grammar of string literals

A string literal is a body between two quotes of one kind.  The body is a row of items, each
standing for one character: a character for itself, or a backslash with what is escaped
(`BodyItem`, `Body`).  A text that starts with a quote starts with the token of such a literal if
there is one at its front, and with a fault otherwise (`firstToken_followsGrammar`).

Only the codes behind `\u` need a second look, so the grammar takes them as a parameter.  Four
hexadecimal digits are a code (`FourDigits`), but a plus sign is read in place of the first, too
(`SignedDigits`).  With both of them the grammar is exact (`ReadCode`); with the first alone
it is so where no literal is spelled with a plus sign in a code.
-/

namespace DataExpr

/-! ## Codes -/

/-- The number that a hexadecimal digit stands for. -/
inductive HexDigit : Char → Nat → Prop where
  | decimal {c : Char} (h : '0' ≤ c ∧ c ≤ '9') : HexDigit c (c.toNat - '0'.toNat)
  | lower {c : Char} (h : 'a' ≤ c ∧ c ≤ 'f') : HexDigit c (c.toNat - 'a'.toNat + 10)
  | upper {c : Char} (h : 'A' ≤ c ∧ c ≤ 'F') : HexDigit c (c.toNat - 'A'.toNat + 10)

/-- The number that four hexadecimal digits stand for. -/
inductive FourDigits : List Char → Nat → Prop where
  | mk {a b c d : Char} {i j k l : Nat} (ha : HexDigit a i) (hb : HexDigit b j)
      (hc : HexDigit c k) (hd : HexDigit d l) :
      FourDigits [a, b, c, d] (((i * 16 + j) * 16 + k) * 16 + l)

/-- The number that three hexadecimal digits behind a plus sign stand for. -/
inductive SignedDigits : List Char → Nat → Prop where
  | mk {b c d : Char} {j k l : Nat} (hb : HexDigit b j) (hc : HexDigit c k) (hd : HexDigit d l) :
      SignedDigits ['+', b, c, d] ((j * 16 + k) * 16 + l)

/-- The codes that are read behind `\u`. -/
def ReadCode (digits : List Char) (code : Nat) : Prop :=
  FourDigits digits code ∨ SignedDigits digits code

theorem toNat_le_of_le {a b : Char} (h : a ≤ b) : a.toNat ≤ b.toNat := h

theorem HexDigit.lt {c : Char} {n : Nat} (h : HexDigit c n) : n < 16 := by
  rcases h with h | h | h <;>
    have hhigh := toNat_le_of_le h.2 <;>
    simp only [Char.reduceToNat] at hhigh ⊢ <;>
    omega

/-- Hexadecimal digits that stand for less are the digits of a smaller base. -/
theorem digitValue?_eq_some_iff {base : Nat} {c : Char} {n : Nat} :
    Decimal.digitValue? base c = some n ↔ HexDigit c n ∧ n < base := by
  simp only [Decimal.digitValue?, Option.filter_eq_some_iff, decide_eq_true_eq]
  refine and_congr_left fun _ => ?_
  constructor
  · intro hdigit
    split at hdigit
    · obtain rfl := Option.some.inj hdigit
      exact .decimal ‹_›
    split at hdigit
    · obtain rfl := Option.some.inj hdigit
      exact .lower ‹_›
    split at hdigit
    · obtain rfl := Option.some.inj hdigit
      exact .upper ‹_›
    · cases hdigit
  · rintro (h | h | h)
    · exact if_pos h
    · rw [if_neg fun hdecimal => absurd (Char.le_trans h.1 hdecimal.2) (by decide), if_pos h]
    · rw [if_neg fun hdecimal => absurd (Char.le_trans h.1 hdecimal.2) (by decide),
        if_neg fun hlower => absurd (Char.le_trans hlower.1 h.2) (by decide), if_pos h]

theorem hexDigit_and_lt_iff {c : Char} {n : Nat} : HexDigit c n ∧ n < 16 ↔ HexDigit c n :=
  and_iff_left_of_imp HexDigit.lt

theorem not_hexDigit_plus (n : Nat) : ¬HexDigit '+' n := by
  rintro (h | h | h) <;> revert h <;> decide

theorem readRadixFrom?_cons_eq_some_iff {base high code : Nat} {c : Char} {cs : List Char} :
    Decimal.readRadixFrom? base high (c :: cs) = some code ↔
      ∃ n, (HexDigit c n ∧ n < base) ∧
        Decimal.readRadixFrom? base (high * base + n) cs = some code := by
  rw [Decimal.readRadixFrom?]
  simp only [← digitValue?_eq_some_iff]
  cases Decimal.digitValue? base c <;> simp

theorem readRadixFrom?_nil_eq_some_iff {base high code : Nat} :
    Decimal.readRadixFrom? base high [] = some code ↔ high = code :=
  Option.some_inj

/-- Behind `\u` are read the codes of the grammar. -/
theorem escapedCode?_eq_some_iff {a b c d : Char} {code : Nat} :
    escapedCode? [a, b, c, d] = some code ↔ ReadCode [a, b, c, d] code := by
  by_cases ha : a = '+'
  · subst ha
    show Decimal.readRadixFrom? 16 0 [b, c, d] = some code ↔ _
    simp only [readRadixFrom?_cons_eq_some_iff, readRadixFrom?_nil_eq_some_iff,
      hexDigit_and_lt_iff]
    constructor
    · rintro ⟨j, hb, k, hc, l, hd, rfl⟩
      rw [Nat.zero_mul, Nat.zero_add]
      exact .inr (.mk hb hc hd)
    · rintro (⟨ha, -, -, -⟩ | ⟨hb, hc, hd⟩)
      · exact absurd ha (not_hexDigit_plus _)
      · exact ⟨_, hb, _, hc, _, hd, by rw [Nat.zero_mul, Nat.zero_add]⟩
  · have hread : escapedCode? [a, b, c, d] = Decimal.readRadixFrom? 16 0 [a, b, c, d] := by
      simp [escapedCode?, ha, Decimal.readRadix?]
    simp only [hread, readRadixFrom?_cons_eq_some_iff, readRadixFrom?_nil_eq_some_iff,
      hexDigit_and_lt_iff]
    constructor
    · rintro ⟨i, hi, j, hb, k, hc, l, hd, rfl⟩
      rw [Nat.zero_mul, Nat.zero_add]
      exact .inl (.mk hi hb hc hd)
    · rintro (⟨hi, hb, hc, hd⟩ | ⟨-, -, -⟩)
      · exact ⟨_, hi, _, hb, _, hc, _, hd, by rw [Nat.zero_mul, Nat.zero_add]⟩
      · exact absurd rfl ha

theorem ReadCode.exists_digits {digits : List Char} {code : Nat} (h : ReadCode digits code) :
    (∃ a b c d, digits = [a, b, c, d]) ∧ code < 0x10000 := by
  rcases h with ⟨ha, hb, hc, hd⟩ | ⟨hb, hc, hd⟩
  · have := ha.lt
    have := hb.lt
    have := hc.lt
    have := hd.lt
    exact ⟨⟨_, _, _, _, rfl⟩, by omega⟩
  · have := hb.lt
    have := hc.lt
    have := hd.lt
    exact ⟨⟨_, _, _, _, rfl⟩, by omega⟩

/-! ## Bodies -/

section

variable (Code : List Char → Nat → Prop) (quote : Char)

/-- Characters of a literal that stand for one character. -/
inductive BodyItem : List Char → Char → Prop where
  | plain {c : Char} (hquote : c ≠ quote) (hbackslash : c ≠ '\\') (hline : c ≠ '\n') :
      BodyItem [c] c
  | lineEnd : BodyItem ['\\', 'n'] '\n'
  | carriageReturn : BodyItem ['\\', 'r'] '\r'
  | tab : BodyItem ['\\', 't'] '\t'
  | zero : BodyItem ['\\', '0'] '\x00'
  | escaped {c : Char} (h : c ∉ ['n', 'r', 't', '0', 'u']) : BodyItem ['\\', c] c
  | code {digits : List Char} {code : Nat} (hcode : Code digits code)
      (hsurrogate : ¬(0xD800 ≤ code ∧ code ≤ 0xDFFF)) :
      BodyItem ('\\' :: 'u' :: digits) (Char.ofNat code)

/-- The characters between the quotes of a literal and the text that they stand for. -/
inductive Body : List Char → List Char → Prop where
  | nil : Body [] []
  | cons {piece body text : List Char} {c : Char} (first : BodyItem Code quote piece c)
      (rest : Body body text) : Body (piece ++ body) (c :: text)

end

section

variable {Code : List Char → Nat → Prop} {quote : Char}

/-- A backslash and what stands behind it are an item, if that is no `u`. -/
theorem bodyItem_escapedChar {c : Char} (hu : c ≠ 'u') :
    BodyItem Code quote ['\\', c] (escapedChar c) := by
  unfold escapedChar
  split
  · exact .lineEnd
  · exact .carriageReturn
  · exact .tab
  · exact .zero
  · exact .escaped (by simp_all)

/-- What stands behind `\u` starts with a code. -/
theorem Body.exists_code {cs text : List Char} (h : Body Code quote ('\\' :: 'u' :: cs) text) :
    ∃ digits rest code, cs = digits ++ rest ∧ Code digits code := by
  generalize hchars : '\\' :: 'u' :: cs = chars at h
  cases h with
  | nil => cases hchars
  | cons first rest =>
    cases first with
    | plain _ hbackslash _ => exact absurd (List.cons.inj hchars).1.symm hbackslash
    | code hcode _ =>
      simp only [List.cons_append, List.cons.injEq, true_and] at hchars
      exact ⟨_, _, _, hchars, hcode⟩
    | escaped h =>
      simp only [List.cons_append, List.nil_append, List.cons.injEq, true_and] at hchars
      exact absurd (by simp [← hchars.1]) h
    | _ => simp at hchars

theorem Body.mono {Code' : List Char → Nat → Prop}
    (h : ∀ digits code, Code digits code → Code' digits code) {body text : List Char}
    (hbody : Body Code quote body text) : Body Code' quote body text := by
  induction hbody with
  | nil => exact .nil
  | cons first _ ih =>
    refine .cons ?_ ih
    cases first with
    | plain hquote hbackslash hline => exact .plain hquote hbackslash hline
    | code hcode hsurrogate => exact .code (h _ _ hcode) hsurrogate
    | escaped h => exact .escaped h
    | lineEnd => exact .lineEnd
    | carriageReturn => exact .carriageReturn
    | tab => exact .tab
    | zero => exact .zero

end

section

variable {quote : Char} (hquote : '\\' ≠ quote)

include hquote

/-- An item is read as what it stands for. -/
theorem BodyItem.scanBody_eq {piece : List Char} {c : Char} (h : BodyItem ReadCode quote piece c)
    (cs : List Char) :
    scanBody quote (piece ++ cs) = consString c piece.length (scanBody quote cs) := by
  cases h with
  | plain hquote hbackslash hline => exact scanBody_plain hquote hbackslash hline
  | lineEnd | carriageReturn | tab | zero => exact scanBody_escaped hquote (by decide)
  | escaped h =>
    simp only [List.mem_cons, List.not_mem_nil, or_false, not_or] at h
    obtain ⟨hn, hr, ht, hzero, hu⟩ := h
    have hself : escapedChar c = c := by simp [escapedChar]
    rw [List.cons_append, List.singleton_append, scanBody_escaped hquote hu, hself]
    rfl
  | @code digits code hcode hsurrogate =>
    obtain ⟨⟨a, b, c, d, rfl⟩, hlt⟩ := hcode.exists_digits
    have hvalid : code.isValidChar := by
      unfold Nat.isValidChar
      omega
    exact scanBody_code hquote (escapedCode?_eq_some_iff.2 hcode) hvalid

/-- A literal is read as what its body stands for, whatever stands behind it. -/
theorem Body.scanBody_eq {body text : List Char} (h : Body ReadCode quote body text)
    (behind : List Char) :
    scanBody quote (body ++ quote :: behind) = (.ok text, body.length + 1) := by
  induction h with
  | nil =>
    rw [List.nil_append, scanBody.eq_def]
    exact if_pos rfl
  | @cons piece body text c first _ ih =>
    rw [List.append_assoc, first.scanBody_eq hquote, ih, List.length_append]
    simp only [consString, Except.map, Prod.mk.injEq, true_and]
    omega

omit hquote in
/-- Whatever is read without a fault is the body of a literal up to its closing quote. -/
theorem exists_body_of_scanBody {cs text : List Char} {length : Nat}
    (h : scanBody quote cs = (.ok text, length)) :
    ∃ body behind, cs = body ++ quote :: behind ∧ Body ReadCode quote body text := by
  fun_induction scanBody quote cs generalizing text length with
  | case2 cs =>
    cases h
    exact ⟨[], cs, rfl, .nil⟩
  | case5 a b d e cs code hcode hvalid _ ih =>
    obtain ⟨text, length, hrest, rfl, -⟩ := consString_eq_ok h
    obtain ⟨body, behind, rfl, hbody⟩ := ih hrest
    have hsurrogate : ¬(0xD800 ≤ code ∧ code ≤ 0xDFFF) := by
      unfold Nat.isValidChar at hvalid
      omega
    exact ⟨_, behind, rfl, .cons (.code (escapedCode?_eq_some_iff.1 hcode) hsurrogate) hbody⟩
  | case8 escaped cs _ hu _ ih =>
    obtain ⟨text, length, hrest, rfl, -⟩ := consString_eq_ok h
    obtain ⟨body, behind, rfl, hbody⟩ := ih hrest
    exact ⟨_, behind, rfl, .cons (bodyItem_escapedChar hu) hbody⟩
  | case10 c cs hquote hbackslash hline ih =>
    obtain ⟨text, length, hrest, rfl, -⟩ := consString_eq_ok h
    obtain ⟨body, behind, rfl, hbody⟩ := ih hrest
    exact ⟨[c] ++ body, behind, rfl, .cons (.plain hquote hbackslash hline) hbody⟩
  | _ => cases h

theorem Body.scanString_eq {body text : List Char} (h : Body ReadCode quote body text)
    (behind : List Char) : scanString quote (body ++ quote :: behind) =
      (.string (String.ofList text), body.length + 1) := by
  rw [scanString, h.scanBody_eq hquote]

omit hquote in
theorem exists_body_of_scanString {cs : List Char} {text : String}
    (h : (scanString quote cs).1 = .string text) :
    ∃ body behind, cs = body ++ quote :: behind ∧ Body ReadCode quote body text.toList := by
  unfold scanString at h
  split at h
  · rename_i hscan
    cases h
    rw [String.toList_ofList]
    exact exists_body_of_scanBody hscan
  · cases h

/-- A text starts with one literal at most. -/
theorem Body.unique {body body' text text' behind behind' : List Char}
    (h : Body ReadCode quote body text) (h' : Body ReadCode quote body' text')
    (hsame : body ++ quote :: behind = body' ++ quote :: behind') : body = body' ∧ text = text' := by
  have hread := h.scanBody_eq hquote behind
  rw [hsame, h'.scanBody_eq hquote behind', Prod.mk.injEq, Except.ok.injEq] at hread
  obtain ⟨rfl, hlength⟩ := hread
  exact ⟨(List.append_inj hsame (Nat.succ.inj hlength.symm)).1, rfl⟩

end

/-! ## The first token -/

/-- A text that starts with a quote starts with the token of its spelling, if there is one in
the grammar: the token is a string exactly if the text starts with a literal, is what the body
stands for, and covers the literal.  Otherwise the token is a fault. -/
structure FollowsGrammar (Code : List Char → Nat → Prop) (quote : Char) (source : String)
    (token : Token) : Prop where
  string_iff (text : String) : token.kind = .string text ↔
    ∃ body behind, source.toList = quote :: (body ++ quote :: behind) ∧
      Body Code quote body text.toList
  standsIn {body behind text : List Char} :
    source.toList = quote :: (body ++ quote :: behind) → Body Code quote body text →
      token.StandsIn source [] (quote :: (body ++ [quote])) behind
  error : (∀ text, token.kind ≠ .string text) → ∃ fault, token.kind = .error fault

section

variable {quote : Char} (hquote : quote = '"' ∨ quote = '\'') {source : String}
  {cs : List Char} (hsource : source.toList = quote :: cs)

include hquote hsource

/-- The first token of a text in quotes is what the scanner of strings finds. -/
theorem tokenize_of_quote : ∃ others, tokenize source =
    ⟨(scanString quote cs).1,
      .between .start (.behind (quote :: cs.take (scanString quote cs).2))⟩ :: others := by
  have hblank : Text.isBlank quote = false := by
    rcases hquote with rfl | rfl <;> decide
  rw [tokenize, hsource, tokensFrom, if_neg (by rw [hblank]; decide), scanToken_quote hquote]
  exact ⟨_, rfl⟩

/-- With all codes that are read the grammar is exact. -/
theorem exists_followsGrammar_readCode : ∃ token others, tokenize source = token :: others ∧
    FollowsGrammar ReadCode quote source token := by
  have hbackslash : '\\' ≠ quote := by
    rcases hquote with rfl | rfl <;> decide
  obtain ⟨others, htokens⟩ := tokenize_of_quote hquote hsource
  refine ⟨_, others, htokens, ?_, ?_, ?_⟩
  · intro text
    constructor
    · intro hkind
      obtain ⟨body, behind, rfl, hbody⟩ := exists_body_of_scanString hkind
      exact ⟨body, behind, hsource, hbody⟩
    · rintro ⟨body, behind, hliteral, hbody⟩
      obtain rfl : cs = body ++ quote :: behind := by simpa [hsource] using hliteral
      rw [hbody.scanString_eq hbackslash, String.ofList_toList]
  · intro body behind text hliteral hbody
    obtain rfl : cs = body ++ quote :: behind := by simpa [hsource] using hliteral
    have htaken : (body ++ quote :: behind).take (body.length + 1) = body ++ [quote] := by
      rw [List.take_length_add_append]
      rfl
    rw [hbody.scanString_eq hbackslash, htaken]
    exact ⟨by simp [hsource], rfl, Span.stop_between_behind _ _, rfl, rfl⟩
  · rw [scanString]
    rcases scanBody quote cs with ⟨fault | text, length⟩
    · exact fun _ => ⟨fault, rfl⟩
    · exact fun hkind => absurd rfl (hkind (String.ofList text))

end

/-- With fewer codes it is exact for a text unless that starts with a literal that needs
another. -/
theorem FollowsGrammar.iff_body {Code : List Char → Nat → Prop} {quote : Char} {source : String}
    {token : Token} (hbackslash : '\\' ≠ quote) (h : FollowsGrammar ReadCode quote source token)
    (hcode : ∀ digits code, Code digits code → ReadCode digits code) :
    FollowsGrammar Code quote source token ↔
      ∀ body behind text, source.toList = quote :: (body ++ quote :: behind) →
        Body ReadCode quote body text → Body Code quote body text := by
  constructor
  · intro hfollows body behind text hsource hbody
    have hkind : token.kind = .string (String.ofList text) :=
      (h.string_iff _).2 ⟨body, behind, hsource, by rwa [String.toList_ofList]⟩
    obtain ⟨body', behind', hsource', hbody'⟩ := (hfollows.string_iff _).1 hkind
    rw [String.toList_ofList] at hbody'
    rw [hsource, List.cons.injEq] at hsource'
    obtain ⟨rfl, -⟩ := hbody.unique hbackslash (hbody'.mono hcode) hsource'.2
    exact hbody'
  · intro hall
    refine ⟨fun text => ?_, fun hsource hbody => h.standsIn hsource (hbody.mono hcode), h.error⟩
    rw [h.string_iff]
    constructor
    · rintro ⟨body, behind, hsource, hbody⟩
      exact ⟨body, behind, hsource, hall body behind _ hsource hbody⟩
    · rintro ⟨body, behind, hsource, hbody⟩
      exact ⟨body, behind, hsource, hbody.mono hcode⟩

/-- A text that starts with a quote starts with a string exactly if a literal of the grammar
stands there, and the string is what the literal's body stands for; the token covers the
literal from quote to quote.  Otherwise it is a fault.  This holds with the codes that are
read.  With codes of four digits alone it holds exactly if the body at the front of the text
has no code with a plus sign in it. -/
theorem firstToken_followsGrammar {quote : Char} (hquote : quote = '"' ∨ quote = '\'')
    {source : String} (hsource : source.toList.head? = some quote) :
    ∃ token others, tokenize source = token :: others ∧
      FollowsGrammar ReadCode quote source token ∧
      (FollowsGrammar FourDigits quote source token ↔
        ∀ body behind text, source.toList = quote :: (body ++ quote :: behind) →
          Body ReadCode quote body text → Body FourDigits quote body text) := by
  have hbackslash : '\\' ≠ quote := by
    rcases hquote with rfl | rfl <;> decide
  obtain ⟨cs, hcs⟩ := List.head?_eq_some_iff.1 hsource
  obtain ⟨token, others, htokens, hfollows⟩ := exists_followsGrammar_readCode hquote hcs
  exact ⟨token, others, htokens, hfollows,
    hfollows.iff_body hbackslash fun _ _ hcode => .inl hcode⟩

/-- A string with a code and an escaped quote in it, with something behind it. -/
def accentedString : String :=
  "'\\u00e9\\'x' + 1"

theorem body_accentedString : Body FourDigits '\'' "\\u00e9\\'x".toList ['é', '\'', 'x'] := by
  have hcode : FourDigits ['0', '0', 'e', '9'] 0xE9 :=
    .mk (.decimal (by decide)) (.decimal (by decide)) (.lower (by decide)) (.decimal (by decide))
  exact .cons (.code hcode (by decide)) (.cons (.escaped (by decide))
    (.cons (.plain (by decide) (by decide) (by decide)) .nil))

/-- The token ends at the second quote that is not escaped. -/
theorem firstToken_followsGrammar_accentedString :
    (('\'' = '"' ∨ '\'' = '\'') ∧ accentedString.toList.head? = some '\'') ∧
      ∃ token others, tokenize accentedString = token :: others ∧
        token.kind = .string "é'x" ∧
        token.StandsIn accentedString [] "'\\u00e9\\'x'".toList " + 1".toList ∧
        FollowsGrammar FourDigits '\'' accentedString token := by
  have hquote : '\'' = '"' ∨ '\'' = '\'' := .inr rfl
  have hhead : accentedString.toList.head? = some '\'' := by decide
  obtain ⟨token, others, htokens, hfollows, hdigits⟩ := firstToken_followsGrammar hquote hhead
  have hliteral : accentedString.toList =
      '\'' :: ("\\u00e9\\'x".toList ++ '\'' :: " + 1".toList) := by decide
  have hbody : Body ReadCode '\'' "\\u00e9\\'x".toList ['é', '\'', 'x'] :=
    body_accentedString.mono fun _ _ hcode => .inl hcode
  refine ⟨⟨hquote, hhead⟩, token, others, htokens, ?_, ?_, hdigits.2 ?_⟩
  · exact (hfollows.string_iff "é'x").2 ⟨_, _, hliteral, hbody⟩
  · exact hfollows.standsIn hliteral hbody
  · intro body behind text hother hread
    rw [hliteral, List.cons.injEq] at hother
    obtain ⟨rfl, rfl⟩ := hbody.unique (by decide) hread hother.2
    exact body_accentedString

/-- A string with a plus sign in place of the first digit of a code. -/
def signedCode : String :=
  "'\\u+041'"

theorem body_signedCode : Body ReadCode '\'' "\\u+041".toList ['A'] := by
  have hcode : ReadCode ['+', '0', '4', '1'] 0x41 :=
    .inr (.mk (.decimal (by decide)) (.decimal (by decide)) (.decimal (by decide)))
  exact .cons (.code hcode (by decide)) .nil

/-- A plus sign is no digit, but the text starts with a string. -/
theorem not_followsGrammar_fourDigits_signedCode :
    ∃ token others, tokenize signedCode = token :: others ∧ token.kind = .string "A" ∧
      ¬FollowsGrammar FourDigits '\'' signedCode token := by
  refine ⟨⟨.string "A", ⟨0, 8, 1, 1⟩⟩, [⟨.endOfInput, ⟨8, 8, 1, 9⟩⟩], by decide +kernel, rfl, ?_⟩
  intro hfollows
  obtain ⟨body, behind, hchars, hbody⟩ := (hfollows.string_iff "A").1 rfl
  have hliteral : signedCode.toList = '\'' :: ("\\u+041".toList ++ '\'' :: []) := by decide
  rw [hliteral, List.cons.injEq] at hchars
  have hread : Body ReadCode '\'' body "A".toList := hbody.mono fun _ _ hcode => .inl hcode
  obtain ⟨rfl, -⟩ := body_signedCode.unique (by decide) hread hchars.2
  obtain ⟨digits, rest, code, hdigits, hcode⟩ := hbody.exists_code
  cases hcode with
  | mk hplus =>
    obtain rfl := (List.cons.inj hdigits).1
    exact not_hexDigit_plus _ hplus

end DataExpr
