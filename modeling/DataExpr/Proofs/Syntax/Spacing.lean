import DataExpr.Proofs.Syntax.Compile
import DataExpr.Proofs.Syntax.Tiling

/-!
# Spacing does not change meaning

A text is its tokens with white space in front of each, the end of the text being the last
of them (`Tiles.exists_gaps`).  Other white space in the same places leaves the kinds of the
tokens as they are, unless two tokens that are no faults come to touch
(`Tiles.kindsFrom_spaced`).  And texts with the same kinds of tokens are read as the same
tree, or refused with the same message (`sameReading_of_kinds`).

The first part follows the tokens as they are laid in the text.  A token is read again from
its characters with anything behind them that starts with white space, so each gap is
skipped and each token found in turn.
-/

namespace DataExpr

open DataExpr.Text (isBlank)
open Parse

/-! ## Reading kinds of tokens -/

/-- What kinds of tokens are read as: a tree without places, or a fault. -/
def readKinds (kinds : List TokenKind) : Except SyntaxFault Expr :=
  if current (bare kinds) = .endOfInput then .error .nothing
  else
    match expr 0 (deeperAt maxNesting 0) (bare kinds) with
    | .error failure => .error failure.fault
    | .ok (tree, rest) =>
        if current rest = .endOfInput then .ok tree else .error (.unexpected (current rest))

/-- What was read, without places. -/
def withoutPlaces : Except SyntaxFailure Expr → Except SyntaxFault Expr
  | .ok tree => .ok tree.unplaced
  | .error failure => .error failure.fault

theorem current_tokenize (source : String) :
    current (bare (kinds source)) = current (tokenize source) := by
  rw [← unplacedTokens_tokenize, current_unplacedTokens]

/-- But for places, reading a text is reading the kinds of its tokens. -/
theorem withoutPlaces_next (source : String) :
    withoutPlaces (State.ofSource source).next.1 = readKinds (kinds source) := by
  simp only [State.ofSource, State.next, Nat.sub_zero]
  rw [readKinds, current_tokenize, expr_kinds]
  by_cases hend : current (tokenize source) = .endOfInput
  · simp only [hend, if_true]
    rfl
  simp only [hend, if_false]
  rcases (parsersAt maxNesting 0).expr (tokenize source) with failure | ⟨tree, rest⟩
  · rfl
  simp only [unplacedOutcome, current_unplacedTokens]
  split <;> rfl

/-- The texts are read as the same tree, but for the places of its nodes, or are refused
with the same message. -/
inductive SameReading (first second : String) : Prop where
  | tree {tree tree' : Expr} (hfirst : Expr.parse first = .ok tree)
      (hsecond : Expr.parse second = .ok tree') (htree : tree.unplaced = tree'.unplaced)
  | refusal {span span' : Span} {message : String}
      (hfirst : Expr.parse first = .error (errorAt first span message))
      (hsecond : Expr.parse second = .error (errorAt second span' message))

/-- Texts with the same kinds of tokens are read alike. -/
theorem sameReading_of_kinds {first second : String} (h : kinds first = kinds second) :
    SameReading first second := by
  have hread : withoutPlaces (State.ofSource first).next.1 =
      withoutPlaces (State.ofSource second).next.1 := by
    rw [withoutPlaces_next, withoutPlaces_next, h]
  have hfirst := parse_eq first
  have hsecond := parse_eq second
  cases hnext : (State.ofSource first).next.1 with
  | ok tree =>
    cases hnext' : (State.ofSource second).next.1 with
    | ok tree' =>
      rw [hnext] at hread hfirst
      rw [hnext'] at hread hsecond
      exact .tree hfirst hsecond (Except.ok.inj hread)
    | error failure =>
      rw [hnext, hnext'] at hread
      cases hread
  | error failure =>
    cases hnext' : (State.ofSource second).next.1 with
    | ok tree =>
      rw [hnext, hnext'] at hread
      cases hread
    | error failure' =>
      rw [hnext] at hread hfirst
      rw [hnext'] at hread hsecond
      have hfault : failure.fault = failure'.fault := Except.error.inj hread
      dsimp only [toError] at hfirst hsecond
      rw [← hfault] at hsecond
      exact .refusal hfirst hsecond

/-! ## Gaps between tokens -/

/-- The text is white space. -/
def IsSpace (text : String) : Prop :=
  ∀ c ∈ text.toList, isBlank c = true

/-- The texts of the tokens in order, that of the end of the text, which is empty, being the
last. -/
def tokenTexts (source : String) : List String :=
  (tokenize source).map fun token => token.span.cover source

/-- Texts one behind another, each with its gap in front. -/
def spaced (gaps texts : List String) : String :=
  String.join (List.zipWith (· ++ ·) gaps texts)

theorem spaced_cons (gap text : String) (gaps texts : List String) :
    spaced (gap :: gaps) (text :: texts) = gap ++ text ++ spaced gaps texts :=
  String.join_cons

theorem kindsFrom_space {space : List Char} (h : ∀ c ∈ space, isBlank c = true)
    (cs : List Char) : kindsFrom (space ++ cs) = kindsFrom cs := by
  induction space with
  | nil => rfl
  | cons c space ih =>
    rw [List.forall_mem_cons] at h
    rw [List.cons_append, kindsFrom_blank h.1, ih h.2]

/-- A gap starts like anything if it is not empty. -/
theorem IsSpace.startsLike {gap : String} (h : IsSpace gap) (hne : gap ≠ "") (text : String)
    (rest : List Char) : StartsLike (gap ++ text).toList rest := by
  have hchars : gap.toList ≠ [] := fun hnil => hne (String.toList_eq_nil_iff.1 hnil)
  rw [String.toList_append]
  unfold IsSpace at h
  cases hgap : gap.toList with
  | nil => exact absurd hgap hchars
  | cons c cs =>
    rw [hgap, List.forall_mem_cons] at h
    exact startsLike_blank h.1 _ _

theorem Span.cover_between_behind {source : String} {before piece behind : List Char}
    (h : source.toList = before ++ (piece ++ behind)) :
    (Span.between (.behind before) (.behind (before ++ piece))).cover source =
      String.ofList piece := by
  rw [cover, start_between_behind, stop_between_behind, h, ← List.append_assoc,
    Text.slice_append]

theorem Span.cover_between_self {source : String} {before cs : List Char}
    (h : source.toList = before ++ cs) :
    (Span.between (.behind before) (.behind before)).cover source = "" := by
  have hcover := cover_between_behind (show source.toList = before ++ ([] ++ cs) from h)
  rwa [List.append_nil] at hcover

namespace Tiles

variable {source : String} {before cs : List Char} {tokens : List Token}

theorem length_pos (h : Tiles before cs tokens) : 0 < tokens.length := by
  induction h with
  | done => exact Nat.zero_lt_one
  | blank _ _ ih => exact ih
  | token => exact Nat.succ_pos _

/-- The characters are those of the tokens, with white space in front of each. -/
theorem exists_gaps (h : Tiles before cs tokens) (hsource : source.toList = before ++ cs) :
    ∃ gaps, gaps.length = tokens.length ∧ (∀ gap ∈ gaps, IsSpace gap) ∧
      (spaced gaps (tokens.map fun token => token.span.cover source)).toList = cs := by
  induction h with
  | done before =>
    have hcover := Span.cover_between_self hsource
    refine ⟨[""], rfl, by simp [IsSpace], ?_⟩
    rw [List.map_singleton, spaced_cons, hcover]
    rfl
  | @blank before cs c tokens hblank rest ih =>
    rw [← List.append_cons] at ih
    obtain ⟨gaps, hlength, hspace, hcs⟩ := ih hsource
    obtain ⟨token, tokens, rfl⟩ := List.exists_cons_of_length_pos rest.length_pos
    obtain ⟨gap, gaps, rfl⟩ := List.exists_cons_of_length_eq_add_one hlength
    rw [List.forall_mem_cons] at hspace
    refine ⟨(String.singleton c ++ gap) :: gaps, hlength, ?_, ?_⟩
    · rw [List.forall_mem_cons]
      refine ⟨?_, hspace.2⟩
      unfold IsSpace
      rw [String.toList_append, String.toList_singleton, List.singleton_append,
        List.forall_mem_cons]
      exact ⟨hblank, hspace.1⟩
    · rw [List.map_cons, spaced_cons] at hcs ⊢
      rw [String.append_assoc, String.append_assoc, String.toList_append,
        String.toList_singleton, ← String.append_assoc, hcs]
      rfl
  | @token before piece cs kind tokens hpiece hkind hread rest ih =>
    rw [List.append_assoc] at ih
    obtain ⟨gaps, hlength, hspace, hcs⟩ := ih hsource
    have hcover := Span.cover_between_behind hsource
    refine ⟨"" :: gaps, congrArg Nat.succ hlength, ?_, ?_⟩
    · rw [List.forall_mem_cons]
      exact ⟨by simp [IsSpace], hspace⟩
    · rw [List.map_cons, spaced_cons, hcover, String.toList_append, hcs]
      simp

/-- What is spaced starts like anything, if the first gap is not empty or the only one. -/
theorem startsLike_spaced (h : Tiles before cs tokens) (hsource : source.toList = before ++ cs)
    {gap : String} {gaps : List String} (hlength : (gap :: gaps).length = tokens.length)
    (hspace : IsSpace gap) (hgap : gaps ≠ [] → gap ≠ "") (rest : List Char) :
    StartsLike (spaced (gap :: gaps)
      (tokens.map fun token => token.span.cover source)).toList rest := by
  induction h with
  | done before =>
    rw [List.map_singleton, spaced_cons, String.append_assoc, Span.cover_between_self hsource]
    by_cases hempty : gap = ""
    · obtain rfl : gaps = [] := List.length_eq_zero_iff.1 (Nat.succ.inj hlength)
      rw [hempty]
      exact startsLike_nil rest
    · exact hspace.startsLike hempty _ _
  | @blank before cs c tokens hblank tail ih =>
    rw [← List.append_cons] at ih
    exact ih hsource hlength
  | token hpiece hkind hread tail ih =>
    have hgaps : 0 < gaps.length := by
      rw [Nat.succ.inj hlength]
      exact tail.length_pos
    rw [List.map_cons, spaced_cons, String.append_assoc]
    exact hspace.startsLike (hgap (List.ne_nil_of_length_pos hgaps)) _ _

/-- With other gaps the tokens stay the same, if none is a fault and no two touch. -/
theorem kindsFrom_spaced (h : Tiles before cs tokens) (hsource : source.toList = before ++ cs)
    (hfaults : ∀ token ∈ tokens, ∀ fault, token.kind ≠ .error fault) {gap : String}
    {gaps : List String} (hlength : (gap :: gaps).length = tokens.length) (hgap : IsSpace gap)
    (hspace : ∀ other ∈ gaps, IsSpace other) (hinner : ∀ other ∈ gaps.dropLast, other ≠ "") :
    kindsFrom (spaced (gap :: gaps)
      (tokens.map fun token => token.span.cover source)).toList = tokens.map Token.kind := by
  induction h generalizing gap gaps with
  | done before =>
    obtain rfl : gaps = [] := List.length_eq_zero_iff.1 (Nat.succ.inj hlength)
    rw [List.map_singleton, spaced_cons, Span.cover_between_self hsource, String.append_assoc,
      String.toList_append, kindsFrom_space hgap]
    rfl
  | @blank before cs c tokens hblank rest ih =>
    rw [← List.append_cons] at ih
    exact ih hsource hfaults hlength hgap hspace hinner
  | @token before piece cs kind tokens hpiece hkind hread rest ih =>
    rw [List.append_assoc] at ih
    rw [List.forall_mem_cons] at hfaults
    have hlength' : gaps.length = tokens.length := Nat.succ.inj hlength
    obtain ⟨token, others, rfl⟩ := List.exists_cons_of_length_pos rest.length_pos
    obtain ⟨next, gaps, rfl⟩ := List.exists_cons_of_length_eq_add_one hlength'
    rw [List.forall_mem_cons] at hspace
    have hinner' : gaps ≠ [] → next ≠ "" ∧ ∀ other ∈ gaps.dropLast, other ≠ "" := by
      intro hne
      rwa [List.dropLast_cons_of_ne_nil hne, List.forall_mem_cons] at hinner
    have hstarts := rest.startsLike_spaced (by rwa [List.append_assoc]) hlength' hspace.1
      (fun hne => (hinner' hne).1) cs
    have hrest := ih hsource hfaults.2 hlength' hspace.1 hspace.2 fun other hmem =>
      (hinner' (List.ne_nil_of_mem (List.dropLast_subset gaps hmem))).2 other hmem
    rw [List.map_cons, spaced_cons, Span.cover_between_behind hsource, String.append_assoc,
      String.toList_append, kindsFrom_space hgap, String.toList_append,
      String.toList_ofList, hread hfaults.1 _ hstarts, hrest]
    rfl

end Tiles

/-! ## Spacing of a whole text -/

/-- Spacing does not change meaning.  Texts whose tokens have the same kinds are read as the
same tree, or refused with the same message.  A text is its tokens with white space in
front of each; and if no token is a fault then any other white space in the same places,
which is not empty between two tokens, gives tokens of the same kinds. -/
theorem respacing_keeps_meaning :
    (∀ first second, kinds first = kinds second → SameReading first second) ∧
    ∀ source,
      (∃ gaps, gaps.length = (tokenTexts source).length ∧ (∀ gap ∈ gaps, IsSpace gap) ∧
        spaced gaps (tokenTexts source) = source) ∧
      ((∀ fault, .error fault ∉ kinds source) →
        ∀ gap gaps, (gap :: gaps).length = (tokenTexts source).length → IsSpace gap →
          (∀ other ∈ gaps, IsSpace other) → (∀ other ∈ gaps.dropLast, other ≠ "") →
            kinds (spaced (gap :: gaps) (tokenTexts source)) = kinds source) := by
  have htexts (source : String) : (tokenTexts source).length = (tokenize source).length :=
    List.length_map _
  refine ⟨fun _ _ => sameReading_of_kinds, fun source => ⟨?_, ?_⟩⟩
  · obtain ⟨gaps, hlength, hspace, hchars⟩ := (tiles_tokenize source).exists_gaps rfl
    exact ⟨gaps, by rw [htexts, hlength], hspace, String.toList_injective hchars⟩
  · intro hfaults gap gaps hlength hgap hspace hinner
    rw [htexts] at hlength
    refine (tiles_tokenize source).kindsFrom_spaced rfl ?_ hlength hgap hspace hinner
    intro token hmem fault hfault
    apply hfaults fault
    rw [← hfault]
    exact List.mem_map_of_mem hmem

end DataExpr
