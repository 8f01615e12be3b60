import DataExpr.Proofs.Syntax.Scanners
import DataExpr.Proofs.Syntax.Tokens
import DataExpr.Proofs.Text.Offset
import Mathlib.Data.List.Induction

/-!
# Tokens lose nothing of a text

Every character of a text that is not white space lies in exactly one token, and every
token knows where it stands (`tokenize_lossless`).

`Tiles` says this of characters behind others: the tokens are laid in them one behind
another, with white space between them.  It has one rule for each step of the lexer, so
a run of the lexer gives it (`tiles_tokensFrom`), and the order of the spans, the
characters outside them and the place of each are read off it.
-/

namespace DataExpr

open DataExpr.Text (isBlank byteLength)

/-! ## Places -/

/-- The place behind characters at the front of a text. -/
def Position.behind (before : List Char) : Position :=
  Position.start.afterAll before

namespace Position

theorem behind_append (before cs : List Char) :
    behind (before ++ cs) = (behind before).afterAll cs :=
  List.foldl_append

theorem behind_concat (before : List Char) (c : Char) :
    behind (before ++ [c]) = (behind before).after c :=
  behind_append before [c]

theorem offset_behind (before : List Char) : (behind before).offset = byteLength before := by
  induction before using List.reverseRecOn with
  | nil => rfl
  | append_singleton before c ih =>
    rw [behind_concat, Text.byteLength_append, ← ih, after]
    split <;> simp [byteLength]

theorem line_behind (before : List Char) :
    (behind before).line = 1 + before.count '\n' := by
  induction before using List.reverseRecOn with
  | nil => rfl
  | append_singleton before c ih =>
    rw [behind_concat, List.count_append, after]
    by_cases hc : c = '\n'
    · rw [if_pos hc, hc, List.count_singleton_self]
      dsimp only
      omega
    · rw [if_neg hc, ih]
      simp [hc]

theorem column_behind (before : List Char) :
    (behind before).column = 1 + (before.reverse.takeWhile (· ≠ '\n')).length := by
  induction before using List.reverseRecOn with
  | nil => rfl
  | append_singleton before c ih =>
    rw [behind_concat, List.reverse_append, List.reverse_singleton, List.singleton_append, after]
    by_cases hc : c = '\n'
    · rw [if_pos hc, List.takeWhile_cons_of_neg (by simp [hc])]
      rfl
    · rw [if_neg hc, List.takeWhile_cons_of_pos (by simp [hc]), List.length_cons]
      dsimp only
      omega

end Position

theorem Span.start_between_behind (before : List Char) (last : Position) :
    (Span.between (.behind before) last).start = byteLength before :=
  Position.offset_behind before

theorem Span.stop_between_behind (first : Position) (before : List Char) :
    (Span.between first (.behind before)).stop = byteLength before :=
  Position.offset_behind before

/-! ## Tokens laid in a text -/

/-- The tokens are laid in the characters behind `before`. -/
inductive Tiles : List Char → List Char → List Token → Prop where
  | done (before : List Char) :
      Tiles before [] [⟨.endOfInput, .between (.behind before) (.behind before)⟩]
  | blank {before cs : List Char} {c : Char} {tokens : List Token} (hblank : isBlank c = true)
      (rest : Tiles (before ++ [c]) cs tokens) : Tiles before (c :: cs) tokens
  | token {before piece cs : List Char} {kind : TokenKind} {tokens : List Token}
      (hpiece : piece ≠ []) (hkind : kind ≠ .endOfInput)
      (hread : (∀ fault, kind ≠ .error fault) → ∀ behind, StartsLike behind cs →
        kindsFrom (piece ++ behind) = kind :: kindsFrom behind)
      (rest : Tiles (before ++ piece) cs tokens) :
      Tiles before (piece ++ cs)
        (⟨kind, .between (.behind before) (.behind (before ++ piece))⟩ :: tokens)

/-- The characters of a token are the same token with something else behind them that starts
like the rest. -/
theorem kindsFrom_scanToken {c : Char} {cs : List Char} (hblank : ¬isBlank c = true)
    (hfault : ∀ fault, (scanToken c cs).1 ≠ .error fault) {behind : List Char}
    (hbehind : StartsLike behind (cs.drop (scanToken c cs).2)) :
    kindsFrom (c :: (cs.take (scanToken c cs).2 ++ behind)) =
      (scanToken c cs).1 :: kindsFrom behind := by
  have hscan := scanToken_selfContained c cs
  have hlength : (cs.take (scanToken c cs).2).length = (scanToken c cs).2 :=
    List.length_take_of_le hscan.length_le
  apply kindsFrom_token (Bool.eq_false_iff.2 hblank)
  rw [hscan.scan_take_append hfault behind hbehind, hlength]

/-- What is left behind the characters of a token that has been read is tiled. -/
theorem tiles_tokensFrom (skip : Nat) (before cs : List Char) (h : skip ≤ cs.length) :
    Tiles (before ++ cs.take skip) (cs.drop skip) (tokensFrom (.behind before) skip cs) := by
  induction cs generalizing skip before with
  | nil =>
    rw [List.take_nil, List.drop_nil, List.append_nil, tokensFrom]
    exact .done before
  | cons c cs ih =>
    cases skip with
    | succ skip =>
      have hrest := ih skip (before ++ [c]) (Nat.le_of_succ_le_succ h)
      rw [List.append_assoc, Position.behind_concat] at hrest
      exact hrest
    | zero =>
      rw [List.take_zero, List.drop_zero, List.append_nil, tokensFrom]
      by_cases hblank : isBlank c = true
      · have hrest := ih 0 (before ++ [c]) (Nat.zero_le _)
        rw [List.take_zero, List.drop_zero, List.append_nil, Position.behind_concat] at hrest
        rw [if_pos hblank]
        exact .blank hblank hrest
      · have hrest := ih _ (before ++ [c]) (scanToken_selfContained c cs).length_le
        rw [List.append_assoc, Position.behind_concat] at hrest
        have htoken := Tiles.token (List.cons_ne_nil c (cs.take (scanToken c cs).2))
          (scanToken_found c cs).ne_endOfInput
          (fun hfault _ hbehind => kindsFrom_scanToken hblank hfault hbehind) hrest
        rw [List.cons_append, List.take_append_drop, Position.behind_append] at htoken
        rw [if_neg hblank]
        exact htoken

theorem tiles_tokenize (source : String) : Tiles [] source.toList (tokenize source) :=
  tiles_tokensFrom 0 [] source.toList (Nat.zero_le _)

/-- The piece of a text between `before` and `behind` is the token's, and read alone it is the
same token, if that is no fault. -/
structure Token.Covers (token : Token) (before piece behind : List Char) : Prop where
  span : token.span = .between (.behind before) (.behind (before ++ piece))
  piece_eq_nil_iff : piece = [] ↔ token.kind = .endOfInput
  behind_eq_nil : token.kind = .endOfInput → behind = []
  alone : token.kind ≠ .endOfInput → (∀ fault, token.kind ≠ .error fault) →
    kindsFrom piece = [token.kind, .endOfInput]

namespace Tiles

variable {before cs : List Char} {tokens : List Token}

theorem byteLength_le_start (h : Tiles before cs tokens) :
    ∀ token ∈ tokens, byteLength before ≤ token.span.start := by
  induction h with
  | done before =>
    intro token htoken
    rw [List.mem_singleton.1 htoken]
    exact Nat.le_of_eq (Span.start_between_behind before _).symm
  | @blank before cs c tokens _ _ ih =>
    intro token htoken
    have hstart := ih token htoken
    rw [Text.byteLength_append] at hstart
    omega
  | @token before piece cs kind tokens _ _ _ _ ih =>
    rw [List.forall_mem_cons]
    constructor
    · exact Nat.le_of_eq (Span.start_between_behind before _).symm
    · intro token htoken
      have hstart := ih token htoken
      rw [Text.byteLength_append] at hstart
      omega

theorem pairwise (h : Tiles before cs tokens) :
    tokens.Pairwise fun earlier later => earlier.span.stop ≤ later.span.start := by
  induction h with
  | done => exact List.pairwise_singleton _ _
  | blank _ _ ih => exact ih
  | token _ _ _ rest ih =>
    rw [List.pairwise_cons]
    constructor
    · intro later hlater
      rw [Span.stop_between_behind]
      exact rest.byteLength_le_start later hlater
    · exact ih

/-- A character in no token is white space. -/
theorem isBlank_or_covered (h : Tiles before cs tokens) {front behind : List Char} {c : Char}
    (hcs : cs = front ++ c :: behind) :
    isBlank c = true ∨ ∃ token ∈ tokens, token.span.start ≤ byteLength (before ++ front) ∧
      byteLength (before ++ front) < token.span.stop := by
  induction h generalizing front behind with
  | done => simp at hcs
  | @blank before cs blank tokens hblank _ ih =>
    cases front with
    | nil =>
      cases hcs
      exact .inl hblank
    | cons first front =>
      cases hcs
      have hrest := ih rfl
      rw [List.append_assoc] at hrest
      exact hrest
  | @token before piece cs kind tokens _ _ _ _ ih =>
    rcases List.append_eq_append_iff.1 hcs with ⟨between, rfl, hrest⟩ | ⟨within, rfl, hrest⟩
    · rcases ih hrest with hblank | ⟨token, htoken, hcovered⟩
      · exact .inl hblank
      · rw [List.append_assoc] at hcovered
        exact .inr ⟨token, List.mem_cons_of_mem _ htoken, hcovered⟩
    · cases within with
      | nil =>
        rcases ih (show cs = [] ++ c :: behind from hrest.symm) with
          hblank | ⟨token, htoken, hcovered⟩
        · exact .inl hblank
        · rw [List.append_nil, List.append_nil] at hcovered
          exact .inr ⟨token, List.mem_cons_of_mem _ htoken, hcovered⟩
      | cons first within =>
        refine .inr ⟨_, List.mem_cons_self, ?_⟩
        have hsize := first.utf8Size_pos
        rw [Span.start_between_behind, Span.stop_between_behind]
        simp only [Text.byteLength_append, Text.byteLength_cons]
        omega

/-- A token covers a piece of the text.  What stands in front of it gives the tokens in front
of it, if none is a fault, when something else comes that starts like the piece. -/
theorem exists_piece (h : Tiles before cs tokens) {front after : List Token} {token : Token}
    (htokens : tokens = front ++ token :: after) :
    ∃ read piece behind, cs = read ++ (piece ++ behind) ∧
      token.Covers (before ++ read) piece behind ∧
      ((∀ earlier ∈ front, ∀ fault, earlier.kind ≠ .error fault) → ∀ tail,
        StartsLike tail (piece ++ behind) →
        kindsFrom (read ++ tail) = front.map Token.kind ++ kindsFrom tail) := by
  induction h generalizing front with
  | done before =>
    cases front with
    | nil =>
      obtain ⟨rfl, -⟩ : _ = token ∧ [] = after := by simpa using htokens
      refine ⟨[], [], [], rfl, ⟨by simp, by simp, by simp, by simp⟩, fun _ _ _ => rfl⟩
    | cons first front => simp at htokens
  | @blank before cs c tokens hblank _ ih =>
    obtain ⟨read, piece, behind, rfl, hcovers, hfront⟩ := ih htokens
    rw [List.append_assoc] at hcovers
    refine ⟨c :: read, piece, behind, rfl, hcovers, fun hfaults tail htail => ?_⟩
    rw [List.cons_append, kindsFrom_blank hblank, hfront hfaults tail htail]
  | @token before piece cs kind tokens hpiece hkind hread _ ih =>
    cases front with
    | nil =>
      obtain ⟨rfl, -⟩ : _ = token ∧ tokens = after := by simpa using htokens
      refine ⟨[], piece, cs, rfl, ⟨by simp, by simp [hpiece, hkind], by simp [hkind],
        fun _ hfault => ?_⟩, fun _ _ _ => rfl⟩
      have halone := hread hfault [] (startsLike_nil cs)
      rwa [List.append_nil] at halone
    | cons first front =>
      obtain ⟨rfl, hlater⟩ : _ = first ∧ tokens = front ++ token :: after := by
        simpa using htokens
      obtain ⟨read, covered, behind, rfl, hcovers, hfront⟩ := ih hlater
      rw [List.append_assoc] at hcovers
      refine ⟨piece ++ read, covered, behind, by simp, hcovers, fun hfaults tail htail => ?_⟩
      rw [List.forall_mem_cons] at hfaults
      rw [List.append_assoc, hread hfaults.1 _ (htail.append_left read),
        hfront hfaults.2 tail htail]
      rfl

end Tiles

/-! ## The tokens of a whole text -/

/-- The token stands in the text between `before` and `behind`, and `piece` is what it
covers there. -/
structure Token.StandsIn (token : Token) (source : String) (before piece behind : List Char) :
    Prop where
  chars : source.toList = before ++ piece ++ behind
  start : token.span.start = byteLength before
  stop : token.span.stop = byteLength (before ++ piece)
  line : token.span.line = 1 + before.count '\n'
  column : token.span.column = 1 + (before.reverse.takeWhile (· ≠ '\n')).length

theorem Token.StandsIn.cover_eq {token : Token} {source : String}
    {before piece behind : List Char} (h : token.StandsIn source before piece behind) :
    token.span.cover source = String.ofList piece := by
  rw [Span.cover, h.start, h.stop, h.chars, Text.slice_append]

/-- Neither count passes the number of characters and one more. -/
theorem Token.StandsIn.line_le_and_column_le {token : Token} {source : String}
    {before piece behind : List Char} (h : token.StandsIn source before piece behind) :
    token.span.line ≤ source.length + 1 ∧ token.span.column ≤ source.length + 1 := by
  have hlength : before.length ≤ source.length := by
    rw [← String.length_toList, h.chars, List.append_assoc, List.length_append]
    omega
  have hlines : before.count '\n' ≤ before.length := List.count_le_length
  have hcolumns : (before.reverse.takeWhile (· ≠ '\n')).length ≤ before.reverse.length :=
    (List.takeWhile_prefix _).length_le
  rw [List.length_reverse] at hcolumns
  rw [h.line, h.column]
  omega

/-- Each token of a text stands where its span says.  What stands in front of it gives the
tokens in front of it, if none is a fault, when something else comes that starts like it. -/
theorem exists_standsIn {source : String} {front after : List Token} {token : Token}
    (htokens : tokenize source = front ++ token :: after) :
    ∃ before piece behind, token.StandsIn source before piece behind ∧
      token.Covers before piece behind ∧
      ((∀ earlier ∈ front, ∀ fault, earlier.kind ≠ .error fault) → ∀ tail,
        StartsLike tail (piece ++ behind) →
        kindsFrom (before ++ tail) = front.map Token.kind ++ kindsFrom tail) := by
  obtain ⟨before, piece, behind, hchars, hcovers, hfront⟩ :=
    (tiles_tokenize source).exists_piece htokens
  rw [List.nil_append] at hcovers
  refine ⟨before, piece, behind, ?_, hcovers, hfront⟩
  constructor
  · rw [hchars, List.append_assoc]
  · rw [hcovers.span, Span.start_between_behind]
  · rw [hcovers.span, Span.stop_between_behind]
  · rw [hcovers.span]
    exact Position.line_behind before
  · rw [hcovers.span]
    exact Position.column_behind before

/-- The tokens of a text lose nothing of it.  The end of the text is the last and no
other, and the spans are in order and do not overlap.  A character in none of them is
white space.  Each token stands where its span says, with line and column counted from
the line ends before it; no token but the end covers nothing, and the end stands at the
end.  A token that is no fault is read again from what it covers alone. -/
theorem tokenize_lossless (source : String) :
    (∃ front, kinds source = front ++ [.endOfInput] ∧ .endOfInput ∉ front) ∧
    ((tokenize source).Pairwise fun earlier later => earlier.span.stop ≤ later.span.start) ∧
    (∀ before c behind, source.toList = before ++ c :: behind →
      isBlank c = true ∨ ∃ token ∈ tokenize source,
        token.span.start ≤ byteLength before ∧ byteLength before < token.span.stop) ∧
    ∀ token ∈ tokenize source,
      (∃ before piece behind, token.StandsIn source before piece behind ∧
        (piece = [] ↔ token.kind = .endOfInput) ∧ (token.kind = .endOfInput → behind = [])) ∧
      (token.span.line ≤ source.length + 1 ∧ token.span.column ≤ source.length + 1) ∧
      (token.kind ≠ .endOfInput → (∀ fault, token.kind ≠ .error fault) →
        kinds (token.span.cover source) = [token.kind, .endOfInput]) := by
  have htiles := tiles_tokenize source
  refine ⟨kinds_eq_append source, htiles.pairwise, ?_, ?_⟩
  · intro before c behind hsource
    exact htiles.isBlank_or_covered hsource
  · intro token htoken
    obtain ⟨front, after, htokens⟩ := List.append_of_mem htoken
    obtain ⟨before, piece, behind, hstands, hcovers, -⟩ := exists_standsIn htokens
    rw [hstands.cover_eq, kinds, tokenize, String.toList_ofList]
    exact ⟨⟨before, piece, behind, hstands, hcovers.piece_eq_nil_iff, hcovers.behind_eq_nil⟩,
      hstands.line_le_and_column_le, hcovers.alone⟩

end DataExpr
