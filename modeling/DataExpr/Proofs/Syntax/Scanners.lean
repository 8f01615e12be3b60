import DataExpr.Expr.Lexer
import DataExpr.Proofs.Text.Runs

/-!
# What scanners take

A scanner takes no more characters than there are, and unless it finds a fault it finds the
same in the characters that it takes when other characters stand behind them, as long as these
start as before, with white space, or not at all (`SelfContained`).  So a token does not depend on
what stands behind it but for the next character, and is read again from its characters
alone.
-/

namespace DataExpr

open DataExpr.Text (isBlank)

/-- The characters start with white space or as the others do, if there are any. -/
def StartsLike (behind rest : List Char) : Prop :=
  ∀ c ∈ behind.head?, isBlank c = true ∨ rest.head? = some c

theorem startsLike_nil (rest : List Char) : StartsLike [] rest := by
  simp [StartsLike]

theorem startsLike_blank {c : Char} (h : isBlank c = true) (cs rest : List Char) :
    StartsLike (c :: cs) rest := by
  rintro _ ⟨⟩
  exact .inl h

theorem startsLike_refl (cs : List Char) : StartsLike cs cs :=
  fun _ hc => .inr hc

/-- What is wrong of white space and of the others' first character is wrong of the first. -/
theorem StartsLike.head_eq_false {behind rest : List Char} (h : StartsLike behind rest)
    {p : Char → Bool} (hblank : ∀ c, isBlank c = true → p c = false)
    (hrest : ∀ c ∈ rest.head?, p c = false) : ∀ c ∈ behind.head?, p c = false := by
  intro c hc
  rcases h c hc with hc | hhead
  · exact hblank c hc
  · exact hrest c hhead

theorem StartsLike.ne_cons {behind rest : List Char} (h : StartsLike behind rest) {c : Char}
    (hblank : isBlank c = false) (hrest : ∀ tail, rest ≠ c :: tail) :
    ∀ tail, behind ≠ c :: tail := by
  rintro tail rfl
  rcases h c rfl with hc | hhead
  · rw [hblank] at hc
    cases hc
  · cases rest with
    | nil => simp at hhead
    | cons d rest => exact hrest rest (by simpa using hhead)

theorem StartsLike.append_left {behind rest : List Char} (h : StartsLike behind rest)
    (cs : List Char) : StartsLike (cs ++ behind) (cs ++ rest) := by
  cases cs with
  | nil => exact h
  | cons c cs => exact fun _ hc => .inr hc

/-- Characters taken from the front start like all of them, with such behind them, too. -/
theorem StartsLike.take_append {behind cs : List Char} {length : Nat}
    (h : StartsLike behind (cs.drop length)) : StartsLike (cs.take length ++ behind) cs := by
  intro c hc
  cases length with
  | zero => exact h c hc
  | succ length =>
    cases cs with
    | nil => exact h c hc
    | cons d cs => exact .inr hc

/-- What is read at the front of the characters lies in them, and if it is no fault
then it is read from the characters taken, too, whatever starts like the rest behind them. -/
structure SelfContained (scan : List Char → TokenKind × Nat) (cs : List Char) : Prop where
  length_le : (scan cs).2 ≤ cs.length
  scan_take_append : (∀ fault, (scan cs).1 ≠ .error fault) →
    ∀ behind, StartsLike behind (cs.drop (scan cs).2) →
      scan (cs.take (scan cs).2 ++ behind) = scan cs

theorem SelfContained.of_eq {scan : List Char → TokenKind × Nat} {cs : List Char}
    {kind : TokenKind} {length : Nat} (h : scan cs = (kind, length))
    (hle : length ≤ cs.length)
    (htake : (∀ fault, kind ≠ .error fault) → ∀ behind, StartsLike behind (cs.drop length) →
      scan (cs.take length ++ behind) = (kind, length)) :
    SelfContained scan cs := by
  constructor
  · rw [h]
    exact hle
  · rw [h]
    exact htake

/-- Something that is read without a look at what stands behind it. -/
theorem SelfContained.of_append {scan : List Char → TokenKind × Nat} (taken : List Char)
    {kind : TokenKind} (h : ∀ behind, scan (taken ++ behind) = (kind, taken.length))
    (rest : List Char) : SelfContained scan (taken ++ rest) :=
  .of_eq (h rest) (by simp) fun _ behind _ => by rw [List.take_left, h]

/-- Something that is read only if the right character stands behind it. -/
theorem SelfContained.of_startsLike {scan : List Char → TokenKind × Nat} {rest : List Char}
    (taken : List Char) (kind : TokenKind)
    (h : ∀ behind, StartsLike behind rest → scan (taken ++ behind) = (kind, taken.length)) :
    SelfContained scan (taken ++ rest) :=
  .of_eq (h rest (startsLike_refl rest)) (by simp) fun _ behind hbehind => by
    rw [List.drop_left] at hbehind
    rw [List.take_left, h behind hbehind]

/-- A fault is not asked to be read again. -/
theorem SelfContained.of_fault {scan : List Char → TokenKind × Nat} {cs : List Char}
    {fault : LexicalFault} {length : Nat} (h : scan cs = (.error fault, length))
    (hle : length ≤ cs.length) : SelfContained scan cs :=
  .of_eq h hle fun hfault => absurd rfl (hfault fault)

/-! ## Runs of characters -/

/-- A run that no white space goes on with is the same with something else behind it. -/
theorem takeWhile_take_append {p : Char → Bool} (hblank : ∀ c, isBlank c = true → p c = false)
    {cs behind : List Char} {length : Nat} (h : (cs.takeWhile p).length ≤ length)
    (hbehind : StartsLike behind (cs.drop length)) :
    (cs.take length ++ behind).takeWhile p = cs.takeWhile p := by
  induction cs generalizing length with
  | nil =>
    rw [List.take_nil, List.takeWhile_nil]
    rw [List.drop_nil] at hbehind
    exact takeWhile_run (by simp) (hbehind.head_eq_false hblank (by simp))
  | cons c cs ih =>
    by_cases hc : p c = true
    · rw [List.takeWhile_cons_of_pos hc, List.length_cons] at h
      cases length with
      | zero => omega
      | succ length =>
        rw [List.take_succ_cons, List.cons_append, List.takeWhile_cons_of_pos hc,
          List.takeWhile_cons_of_pos hc, ih (by omega) hbehind]
    · cases length with
      | zero =>
        rw [List.takeWhile_cons_of_neg hc]
        have hhead : ∀ d ∈ (c :: cs).head?, p d = false := by simpa using hc
        exact takeWhile_run (by simp) (hbehind.head_eq_false hblank hhead)
      | succ length => simp [hc]

/-! ## Names -/

theorem toNat_of_isAlpha {c : Char} (h : c.isAlpha = true) :
    65 ≤ c.toNat ∧ c.toNat ≤ 90 ∨ 97 ≤ c.toNat ∧ c.toNat ≤ 122 := by
  have hletter : (decide (65 ≤ c.toNat ∧ c.toNat ≤ 90) ||
      decide (97 ≤ c.toNat) && decide (c.toNat ≤ 122)) = true := h
  simpa using hletter

/-- A name starts with an ASCII letter, `_`, `$`, or a letter of the table. -/
theorem toNat_of_isNameStart {c : Char} (h : isNameStart c = true) :
    ((65 ≤ c.toNat ∧ c.toNat ≤ 90 ∨ 97 ≤ c.toNat ∧ c.toNat ≤ 122) ∨
        c.toNat = 95 ∨ c.toNat = 36) ∨
      ∃ range ∈ Text.alphabeticRanges, range.1 ≤ c.toNat ∧ c.toNat ≤ range.2 := by
  simp only [isNameStart, Text.isAlphabetic, Bool.or_eq_true, beq_iff_eq] at h
  rcases h with ((hletter | htable) | rfl) | rfl
  · exact .inl (.inl (toNat_of_isAlpha hletter))
  · simp only [Text.inRanges, List.any_eq_true, Bool.and_eq_true, decide_eq_true_eq] at htable
    exact .inr htable
  · exact .inl (.inr (.inl rfl))
  · exact .inl (.inr (.inr rfl))

/-- Among the ASCII characters only letters, `_` and `$` start a name. -/
theorem isNameStart_of_ascii {c : Char} (h : c.toNat < 128) :
    isNameStart c = (c.isAlpha || c == '_' || c == '$') := by
  have htable : ∀ range ∈ Text.alphabeticRanges, 128 ≤ range.1 := by decide +kernel
  have houtside : Text.inRanges Text.alphabeticRanges c = false := by
    rw [Text.inRanges, List.any_eq_false]
    intro range hrange hc
    simp only [Bool.and_eq_true, decide_eq_true_eq] at hc
    have hbeyond := htable range hrange
    omega
  rw [isNameStart, Text.isAlphabetic, houtside, Bool.or_false]

/-- No digit starts a name. -/
theorem not_isDigit_of_isNameStart {c : Char} (h : isNameStart c = true) :
    c.isDigit = false := by
  rw [Bool.eq_false_iff]
  intro hdigit
  have hbounds := toNat_of_isDigit hdigit
  rw [isNameStart_of_ascii (by omega), Bool.or_eq_true, Bool.or_eq_true, beq_iff_eq,
    beq_iff_eq] at h
  rcases h with (halpha | rfl) | rfl
  · have hletter := toNat_of_isAlpha halpha
    omega
  · simp at hbounds
  · simp at hbounds

/-- No white space starts a name. -/
theorem not_isBlank_of_isNameStart {c : Char} (h : isNameStart c = true) : isBlank c = false := by
  have hascii : ∀ blank ∈ Text.blankRanges, blank.2 < 36 ∨ 122 < blank.1 := by decide +kernel
  have htable : ∀ blank ∈ Text.blankRanges, ∀ range ∈ Text.alphabeticRanges,
      blank.2 < range.1 ∨ range.2 < blank.1 := by decide +kernel
  apply isBlank_eq_false
  intro blank hblank
  rcases toNat_of_isNameStart h with hc | ⟨range, hrange, hc⟩
  · have hapart := hascii blank hblank
    omega
  · have hapart := htable blank hblank range hrange
    omega

theorem not_isDigit_of_isBlank (c : Char) (h : isBlank c = true) : c.isDigit = false := by
  rw [Bool.eq_false_iff]
  intro hdigit
  rw [not_isBlank_of_isDigit hdigit] at h
  cases h

theorem not_isNameStart_of_isBlank (c : Char) (h : isBlank c = true) : isNameStart c = false := by
  rw [Bool.eq_false_iff]
  intro hstart
  rw [not_isBlank_of_isNameStart hstart] at h
  cases h

theorem not_isNamePart_of_isBlank (c : Char) (h : isBlank c = true) : isNamePart c = false := by
  rw [isNamePart, not_isNameStart_of_isBlank c h, not_isDigit_of_isBlank c h, Bool.or_false]

theorem scanWord_selfContained (c : Char) (cs : List Char) :
    SelfContained (scanWord c) cs := by
  refine .of_eq rfl (List.takeWhile_prefix _).length_le fun _ behind hbehind => ?_
  rw [scanWord, takeWhile_take_append not_isNamePart_of_isBlank (Nat.le_refl _) hbehind]

/-! ## Numbers -/

theorem digitCount_le (cs : List Char) : digitCount cs ≤ cs.length :=
  (List.takeWhile_prefix _).length_le

theorem digitCount_take_append {cs behind : List Char} {length : Nat} (h : digitCount cs ≤ length)
    (hbehind : StartsLike behind (cs.drop length)) :
    digitCount (cs.take length ++ behind) = digitCount cs := by
  rw [digitCount, takeWhile_take_append not_isDigit_of_isBlank h hbehind, digitCount]

theorem fractionLength_le (cs : List Char) : fractionLength cs ≤ cs.length := by
  fun_cases fractionLength cs with
  | case1 cs =>
    have := digitCount_le cs
    simp only [List.length_cons]
    omega
  | case2 => exact Nat.zero_le _

theorem fractionLength_of_head {cs : List Char} (h : cs.head? ≠ some '.') :
    fractionLength cs = 0 := by
  unfold fractionLength
  split
  · exact absurd rfl h
  · rfl

theorem fractionLength_take_append {cs behind : List Char} {length : Nat}
    (h : fractionLength cs ≤ length) (hbehind : StartsLike behind (cs.drop length)) :
    fractionLength (cs.take length ++ behind) = fractionLength cs := by
  by_cases hpoint : cs.head? = some '.'
  · obtain ⟨cs, rfl⟩ : ∃ rest, cs = '.' :: rest := by
      cases cs <;> simp_all
    rw [fractionLength] at h
    obtain ⟨length, rfl⟩ : ∃ less, length = less + 1 := ⟨length - 1, by omega⟩
    have hdigits : digitCount cs ≤ length := by omega
    rw [List.take_succ_cons, List.cons_append, fractionLength, fractionLength,
      digitCount_take_append hdigits hbehind]
  · rw [fractionLength_of_head hpoint]
    apply fractionLength_of_head
    intro hc
    rcases hbehind.take_append '.' hc with hblank | hhead
    · exact absurd hblank (by decide)
    · exact hpoint hhead

/-- How many characters the sign of an exponent takes. -/
def signLength : List Char → Nat
  | '+' :: _ | '-' :: _ => 1
  | _ => 0

/-- How many digits an exponent has behind its letter. -/
def exponentDigits (cs : List Char) : Nat :=
  digitCount (cs.drop (signLength cs))

theorem exponentLength_cons (e : Char) (cs : List Char) :
    exponentLength (e :: cs) =
      if (e = 'e' ∨ e = 'E') ∧ exponentDigits cs ≠ 0 then 1 + signLength cs + exponentDigits cs
      else 0 := by
  have hunfold : exponentLength (e :: cs) =
      if e = 'e' ∨ e = 'E' then
        if exponentDigits cs = 0 then 0 else 1 + signLength cs + exponentDigits cs
      else 0 := rfl
  rw [hunfold]
  grind

theorem signLength_add_exponentDigits_le (cs : List Char) :
    signLength cs + exponentDigits cs ≤ cs.length := by
  have hsign : signLength cs ≤ cs.length := by
    unfold signLength
    split <;> simp
  have hdigits := digitCount_le (cs.drop (signLength cs))
  rw [List.length_drop] at hdigits
  unfold exponentDigits
  omega

theorem exponentDigits_take_append {cs behind : List Char} (h : exponentDigits cs ≠ 0)
    (hbehind : StartsLike behind (cs.drop (signLength cs + exponentDigits cs))) :
    signLength (cs.take (signLength cs + exponentDigits cs) ++ behind) = signLength cs ∧
      exponentDigits (cs.take (signLength cs + exponentDigits cs) ++ behind) =
        exponentDigits cs := by
  have hle := signLength_add_exponentDigits_le cs
  have hsign : signLength (cs.take (signLength cs + exponentDigits cs) ++ behind) =
      signLength cs := by
    obtain ⟨c, rest, rfl⟩ : ∃ c rest, cs = c :: rest := by
      cases cs with
      | nil => exact absurd rfl h
      | cons c rest => exact ⟨c, rest, rfl⟩
    obtain ⟨length, hlength⟩ : ∃ less, signLength (c :: rest) + exponentDigits (c :: rest) =
      less + 1 := ⟨_, (Nat.succ_pred (by omega)).symm⟩
    rw [hlength, List.take_succ_cons]
    unfold signLength
    split <;> simp_all
  refine ⟨hsign, ?_⟩
  rw [exponentDigits, hsign, List.drop_append_of_le_length, List.drop_take, Nat.add_sub_cancel_left]
  · exact digitCount_take_append (Nat.le_refl _) (by rwa [List.drop_drop])
  · rw [List.length_take_of_le hle]
    omega

theorem exponentLength_le (cs : List Char) : exponentLength cs ≤ cs.length := by
  cases cs with
  | nil => exact Nat.le_refl 0
  | cons e cs =>
    have hle := signLength_add_exponentDigits_le cs
    rw [exponentLength_cons, List.length_cons]
    split <;> omega

/-- What starts no name starts no exponent. -/
theorem exponentLength_of_head {cs : List Char} (h : ∀ c ∈ cs.head?, isNameStart c = false) :
    exponentLength cs = 0 := by
  cases cs with
  | nil => rfl
  | cons e cs =>
    have he : ¬(e = 'e' ∨ e = 'E') := by
      have hstart : isNameStart 'e' = true ∧ isNameStart 'E' = true := ⟨rfl, rfl⟩
      rintro (rfl | rfl)
      · simp [hstart.1] at h
      · simp [hstart.2] at h
    rw [exponentLength_cons, if_neg fun hletter => he hletter.1]

theorem exponentLength_take_append {cs behind : List Char}
    (hbehind : StartsLike behind (cs.drop (exponentLength cs)))
    (hname : ∀ c ∈ (cs.drop (exponentLength cs)).head?, isNameStart c = false) :
    exponentLength (cs.take (exponentLength cs) ++ behind) = exponentLength cs := by
  by_cases hzero : exponentLength cs = 0
  · rw [hzero] at hbehind hname ⊢
    exact exponentLength_of_head (hbehind.head_eq_false not_isNameStart_of_isBlank hname)
  cases cs with
  | nil => exact absurd rfl hzero
  | cons e cs =>
    have hsome : (e = 'e' ∨ e = 'E') ∧ exponentDigits cs ≠ 0 := by
      rw [exponentLength_cons] at hzero
      exact Decidable.of_not_not fun hnone => hzero (if_neg hnone)
    have hlength : exponentLength (e :: cs) = signLength cs + exponentDigits cs + 1 := by
      rw [exponentLength_cons, if_pos hsome]
      omega
    rw [hlength, List.drop_succ_cons] at hbehind
    obtain ⟨hsign, hdigits⟩ := exponentDigits_take_append hsome.2 hbehind
    rw [hlength, List.take_succ_cons, List.cons_append, exponentLength_cons, hsign, hdigits,
      if_pos hsome]
    omega

theorem numeralLength_eq (cs : List Char) :
    numeralLength cs = digitCount cs + fractionLength (cs.drop (digitCount cs)) +
      exponentLength (cs.drop (digitCount cs + fractionLength (cs.drop (digitCount cs)))) :=
  rfl

theorem numeralLength_le (cs : List Char) : numeralLength cs ≤ cs.length := by
  have hwhole := digitCount_le cs
  have hfraction := fractionLength_le (cs.drop (digitCount cs))
  have hexponent := exponentLength_le
    (cs.drop (digitCount cs + fractionLength (cs.drop (digitCount cs))))
  rw [List.length_drop] at hfraction hexponent
  rw [numeralLength_eq]
  omega

/-- A numeral with no name behind it is as long with something else behind it. -/
theorem numeralLength_take_append {cs behind : List Char}
    (hbehind : StartsLike behind (cs.drop (numeralLength cs)))
    (hname : ∀ c ∈ (cs.drop (numeralLength cs)).head?, isNameStart c = false) :
    numeralLength (cs.take (numeralLength cs) ++ behind) = numeralLength cs := by
  have hlength := numeralLength_eq cs
  have hle := numeralLength_le cs
  have hdrop {count : Nat} (hcount : count ≤ numeralLength cs) :
      (cs.take (numeralLength cs) ++ behind).drop count =
        (cs.drop count).take (numeralLength cs - count) ++ behind := by
    rw [List.drop_append_of_le_length, List.drop_take]
    rwa [List.length_take_of_le hle]
  have hwhole : digitCount (cs.take (numeralLength cs) ++ behind) = digitCount cs :=
    digitCount_take_append (by omega) hbehind
  have hfraction : fractionLength ((cs.take (numeralLength cs) ++ behind).drop (digitCount cs)) =
      fractionLength (cs.drop (digitCount cs)) := by
    rw [hdrop (by omega)]
    refine fractionLength_take_append (by omega) ?_
    rw [List.drop_drop, Nat.add_sub_cancel' (by omega)]
    exact hbehind
  have hexponent : exponentLength ((cs.take (numeralLength cs) ++ behind).drop
      (digitCount cs + fractionLength (cs.drop (digitCount cs)))) =
        exponentLength (cs.drop (digitCount cs + fractionLength (cs.drop (digitCount cs)))) := by
    rw [hdrop (by omega), show numeralLength cs - (digitCount cs +
      fractionLength (cs.drop (digitCount cs))) = _ from Nat.sub_eq_of_eq_add' hlength]
    apply exponentLength_take_append
    · rwa [List.drop_drop, ← hlength]
    · rwa [List.drop_drop, ← hlength]
  rw [numeralLength_eq (cs.take _ ++ behind), hwhole, hfraction, hexponent, ← hlength]

theorem digitCount_pos {c : Char} (h : c.isDigit = true) (cs : List Char) :
    0 < digitCount (c :: cs) := by
  rw [digitCount, List.takeWhile_cons_of_pos h, List.length_cons]
  omega

theorem numeralLength_pos_of_digit {c : Char} (h : c.isDigit = true) (cs : List Char) :
    0 < numeralLength (c :: cs) := by
  have hwhole := digitCount_pos h cs
  rw [numeralLength_eq]
  omega

/-- A numeral that starts with a point has a digit behind it. -/
theorem one_lt_numeralLength_of_point {cs : List Char} (h : cs.head?.any Char.isDigit = true) :
    1 < numeralLength ('.' :: cs) := by
  have hfraction : fractionLength (('.' :: cs).drop (digitCount ('.' :: cs))) =
      1 + digitCount cs := rfl
  cases cs with
  | nil => cases h
  | cons c cs =>
    have hdigits := digitCount_pos (c := c) h cs
    rw [numeralLength_eq]
    omega

theorem scanNumber_selfContained {c : Char} {cs : List Char} (h : 0 < numeralLength (c :: cs)) :
    SelfContained (scanNumber c) cs := by
  have hle : numeralLength (c :: cs) ≤ cs.length + 1 := numeralLength_le (c :: cs)
  obtain ⟨length, hlength⟩ := Nat.exists_eq_add_one.2 h
  refine .of_eq rfl (by omega) fun hfault behind hbehind => ?_
  have hnone : ¬((c :: cs).drop (numeralLength (c :: cs))).head?.any isNameStart = true := by
    intro hname
    rw [if_pos hname] at hfault
    exact hfault _ rfl
  have hname : ∀ d ∈ ((c :: cs).drop (numeralLength (c :: cs))).head?, isNameStart d = false := by
    intro d hd
    rw [Option.mem_def.1 hd] at hnone
    exact Bool.eq_false_iff.2 hnone
  have hstarts : StartsLike behind ((c :: cs).drop (numeralLength (c :: cs))) := by
    rw [hlength, Nat.add_sub_cancel] at hbehind
    rw [hlength]
    exact hbehind
  have hcons : c :: (cs.take (numeralLength (c :: cs) - 1) ++ behind) =
      (c :: cs).take (numeralLength (c :: cs)) ++ behind := by
    rw [hlength, List.take_succ_cons, Nat.add_sub_cancel, List.cons_append]
  have htaken : ((c :: cs).take (numeralLength (c :: cs))).length = numeralLength (c :: cs) :=
    List.length_take_of_le hle
  have hafter : ¬behind.head?.any isNameStart = true := by
    have hhead := hstarts.head_eq_false not_isNameStart_of_isBlank hname
    cases behind with
    | nil => simp
    | cons d behind => simpa using hhead d rfl
  unfold scanNumber
  dsimp only
  rw [hcons, numeralLength_take_append hstarts hname, if_neg hnone, List.drop_left' htaken,
    List.take_left' htaken, if_neg hafter]

/-! ## Strings -/

theorem consString_eq_ok {c : Char} {taken length : Nat} {body : List Char}
    {rest : Except LexicalFault (List Char) × Nat}
    (h : consString c taken rest = (.ok body, length)) :
    ∃ body' length', rest = (.ok body', length') ∧ body = c :: body' ∧
      length = length' + taken := by
  rcases rest with ⟨_ | body', length'⟩
  · simp [consString, Except.map] at h
  · simp only [consString, Except.map, Prod.mk.injEq, Except.ok.injEq] at h
    exact ⟨body', length', rfl, h.1.symm, h.2.symm⟩

theorem scanBody_code {quote a b d e : Char} {cs : List Char} {code : Nat}
    (hquote : '\\' ≠ quote) (hcode : escapedCode? [a, b, d, e] = some code)
    (hvalid : code.isValidChar) :
    scanBody quote ('\\' :: 'u' :: a :: b :: d :: e :: cs) =
      consString (Char.ofNat code) 6 (scanBody quote cs) := by
  rw [scanBody, if_neg hquote, if_pos rfl]
  simp only [hcode, if_pos hvalid]

theorem scanBody_escaped {quote escaped : Char} {cs : List Char} (hquote : '\\' ≠ quote)
    (hu : escaped ≠ 'u') :
    scanBody quote ('\\' :: escaped :: cs) =
      consString (escapedChar escaped) 2 (scanBody quote cs) := by
  rw [scanBody, if_neg hquote, if_pos rfl]
  · exact fun _ _ _ _ _ h => absurd h hu
  · exact hu

theorem scanBody_plain {quote c : Char} {cs : List Char} (hquote : c ≠ quote)
    (hbackslash : c ≠ '\\') (hline : c ≠ '\n') :
    scanBody quote (c :: cs) = consString c 1 (scanBody quote cs) := by
  rw [scanBody.eq_def]
  dsimp only
  rw [if_neg hquote, if_neg hbackslash, if_neg hline]

theorem scanBody_length_le (quote : Char) (cs : List Char) :
    (scanBody quote cs).2 ≤ cs.length := by
  fun_induction scanBody quote cs <;> simp_all [consString]

/-- A string is the same whatever stands behind its closing quote. -/
theorem scanBody_take_append {quote : Char} {cs body : List Char} {length : Nat}
    (h : scanBody quote cs = (.ok body, length)) (behind : List Char) :
    scanBody quote (cs.take length ++ behind) = (.ok body, length) := by
  fun_induction scanBody quote cs generalizing body length with
  | case2 cs =>
    cases h
    rw [List.take_succ_cons, List.cons_append, scanBody.eq_def]
    exact if_pos rfl
  | case5 a b d e cs code hcode hvalid hquote ih =>
    obtain ⟨body, length, hrest, rfl, rfl⟩ := consString_eq_ok h
    simp only [List.take_succ_cons, List.cons_append]
    rw [scanBody_code hquote hcode hvalid, ih hrest]
    rfl
  | case8 escaped cs _ hu hquote ih =>
    obtain ⟨body, length, hrest, rfl, rfl⟩ := consString_eq_ok h
    simp only [List.take_succ_cons, List.cons_append]
    rw [scanBody_escaped hquote hu, ih hrest]
    rfl
  | case10 c cs hquote hbackslash hline ih =>
    obtain ⟨body, length, hrest, rfl, rfl⟩ := consString_eq_ok h
    rw [List.take_succ_cons, List.cons_append, scanBody_plain hquote hbackslash hline, ih hrest]
    rfl
  | _ => cases h

theorem scanString_selfContained (quote : Char) (cs : List Char) :
    SelfContained (scanString quote) cs := by
  have hle := scanBody_length_le quote cs
  rcases hscan : scanBody quote cs with ⟨fault | body, length⟩
  · rw [hscan] at hle
    have hstring : scanString quote cs = (.error fault, length) := by
      rw [scanString, hscan]
    exact .of_fault hstring hle
  · rw [hscan] at hle
    have hstring : scanString quote cs = (.string (String.ofList body), length) := by
      rw [scanString, hscan]
    refine .of_eq hstring hle fun _ behind _ => ?_
    rw [scanString, scanBody_take_append hscan]

/-! ## Tokens -/

theorem scanWithEq_selfContained (bare withEq : Sign) (cs : List Char) :
    SelfContained (scanWithEq bare withEq) cs := by
  fun_cases scanWithEq bare withEq cs with
  | case1 cs => exact .of_append ['='] (fun _ => rfl) cs
  | case2 cs h =>
    exact .of_startsLike [] (.sign bare) fun behind hbehind =>
      scanWithEq.eq_2 bare withEq behind (hbehind.ne_cons (by decide) h)

theorem scanDoubled_selfContained (c : Char) (sign : Sign) (cs : List Char) :
    SelfContained (scanDoubled c sign) cs := by
  by_cases hc : cs.head? = some c
  · obtain ⟨cs, rfl⟩ : ∃ rest, cs = c :: rest := by
      cases cs <;> simp_all
    exact .of_append [c] (fun _ => if_pos rfl) cs
  · exact .of_fault (if_neg hc) (Nat.zero_le _)

/-- The characters with which a sign or a string starts. -/
def openers : List Char :=
  ['(', ')', '[', ']', ',', '+', '-', '*', '/', '%', '.', '<', '>', '!', '=', '&', '|', '"', '\'']

theorem scanToken_of_not_mem {c : Char} (h : c ∉ openers) (cs : List Char) :
    scanToken c cs =
      if c.isDigit then scanNumber c cs
      else if isNameStart c then scanWord c cs
      else (.error (.unexpected c), 0) := by
  unfold scanToken
  split
  all_goals first | (exfalso; revert h; decide) | rfl

theorem scanToken_digit {c : Char} (h : c.isDigit = true) (cs : List Char) :
    scanToken c cs = scanNumber c cs := by
  have hopeners : ∀ opener ∈ openers, opener.isDigit = false := by simp [openers]
  have hc : c ∉ openers := fun hmem => by simp [hopeners c hmem] at h
  rw [scanToken_of_not_mem hc, if_pos h]

theorem scanToken_nameStart {c : Char} (h : isNameStart c = true) (cs : List Char) :
    scanToken c cs = scanWord c cs := by
  have hopeners : ∀ opener ∈ openers, isNameStart opener = false := by
    simp [openers, isNameStart_of_ascii]
  have hc : c ∉ openers := fun hmem => by simp [hopeners c hmem] at h
  rw [scanToken_of_not_mem hc, not_isDigit_of_isNameStart h, if_pos h]
  rfl

/-- A point with a digit behind it starts a number. -/
theorem scanToken_point {cs : List Char} (h : cs.head?.any Char.isDigit = true) :
    scanToken '.' cs = scanNumber '.' cs :=
  if_pos h

theorem scanToken_selfContained (c : Char) (cs : List Char) :
    SelfContained (scanToken c) cs := by
  by_cases hdigit : c.isDigit = true
  · rw [funext (scanToken_digit hdigit)]
    exact scanNumber_selfContained (numeralLength_pos_of_digit hdigit cs)
  by_cases hname : isNameStart c = true
  · rw [funext (scanToken_nameStart hname)]
    exact scanWord_selfContained c cs
  -- What is left are the signs, the strings and the characters that start no token.
  fun_cases scanToken c cs with
  | case11 cs hpoint =>
    have hlength := one_lt_numeralLength_of_point hpoint
    have hnumber : SelfContained (scanNumber '.') cs := scanNumber_selfContained (by omega)
    obtain ⟨length, htaken⟩ : ∃ less, (scanNumber '.' cs).2 = less + 1 :=
      Nat.exists_eq_add_one.2 (Nat.sub_pos_of_lt hlength)
    constructor
    · rw [scanToken_point hpoint]
      exact hnumber.length_le
    · rw [scanToken_point hpoint]
      intro hfault behind hbehind
      have hhead : (cs.take (scanNumber '.' cs).2 ++ behind).head?.any Char.isDigit = true := by
        cases cs with
        | nil => cases hpoint
        | cons d cs =>
          rw [htaken, List.take_succ_cons]
          exact hpoint
      rw [scanToken_point hhead]
      exact hnumber.scan_take_append hfault behind hbehind
  | case12 cs hpoint =>
    refine .of_startsLike [] (.sign .dot) fun behind hbehind => if_neg ?_
    have hhead : ∀ d ∈ cs.head?, Char.isDigit d = false := by
      intro d hd
      rw [Option.mem_def.1 hd] at hpoint
      exact Bool.eq_false_iff.2 hpoint
    have hdigit := hbehind.head_eq_false not_isDigit_of_isBlank hhead
    cases behind with
    | nil => simp
    | cons d behind => simpa using hdigit d rfl
  | case13 => exact scanWithEq_selfContained _ _ _
  | case14 => exact scanWithEq_selfContained _ _ _
  | case15 cs => exact .of_append ['=', '='] (fun _ => rfl) cs
  | case16 cs h =>
    refine .of_startsLike ['='] (.sign .notEq) fun behind hbehind => ?_
    have hnext := hbehind.ne_cons (by decide) h
    simp [scanToken]
  | case17 cs h h' =>
    refine .of_startsLike [] (.sign .bang) fun behind hbehind => ?_
    have hnext := hbehind.ne_cons (by decide) h'
    simp [scanToken, hnext]
  | case18 cs => exact .of_append ['=', '='] (fun _ => rfl) cs
  | case19 cs h =>
    refine .of_startsLike ['='] (.sign .eqEq) fun behind hbehind => ?_
    have hnext := hbehind.ne_cons (by decide) h
    simp [scanToken]
  | case20 cs =>
    have hscan : scanToken '=' cs = (.error .assignment, 0) := by simp [scanToken, *]
    exact .of_fault hscan (Nat.zero_le _)
  | case21 => exact scanDoubled_selfContained _ _ _
  | case22 => exact scanDoubled_selfContained _ _ _
  | case23 => exact scanString_selfContained _ _
  | case24 => exact scanString_selfContained _ _
  | case25 => contradiction
  | case26 => contradiction
  | case27 c cs =>
    have hscan : scanToken c cs = (.error (.unexpected c), 0) := by simp [scanToken, *]
    exact .of_fault hscan (Nat.zero_le _)
  | _ => exact .of_append [] (fun _ => rfl) _

end DataExpr
