import DataExpr.Proofs.Syntax.Levels

/-!
# What the parser reads is a phrase

Whenever the parser gives a tree, the tokens that it passed are a phrase of that
tree, and the phrase's nesting is at most the number of levels that were left
(`sound`).

`Yields` says this of one outcome.  The proof is an induction on the levels left,
and `Sound` is what the induction carries.  The rest of a chain is read behind a
phrase that is there already, so the statements about `chainRest` and `postfixRest`
take that phrase and count its steps: a chain that has made `n` steps has used up `n`
levels.
-/

namespace DataExpr.Parse

/-- A token that is not the last can be passed. -/
theorem Ended.exists_cons {kinds : List TokenKind} (h : Ended kinds)
    (hcurrent : current (bare kinds) ≠ .endOfInput) :
    ∃ kind rest, kinds = kind :: rest ∧ Ended rest ∧ advance (bare kinds) = bare rest := by
  match kinds with
  | [] => simp [Ended] at h
  | [kind] =>
    have hkind : kind = .endOfInput := by simpa [Ended] using h
    exact absurd hkind hcurrent
  | kind :: next :: rest => exact ⟨kind, next :: rest, rfl, by simpa [Ended] using h, rfl⟩

/-- A sign is not the last token. -/
theorem Ended.exists_of_sign {kinds : List TokenKind} (h : Ended kinds) {sign : Sign}
    (hsign : current (bare kinds) = .sign sign) :
    ∃ rest, kinds = .sign sign :: rest ∧ Ended rest ∧ advance (bare kinds) = bare rest := by
  obtain ⟨kind, rest, rfl, hrest, hadvance⟩ := h.exists_cons (by simp [hsign])
  obtain rfl : kind = .sign sign := hsign
  exact ⟨rest, rfl, hrest, hadvance⟩

theorem advance_bare_cons {kind : TokenKind} {rest : List TokenKind} (h : Ended rest) :
    advance (bare (kind :: rest)) = bare rest := by
  cases rest with
  | nil => simp [Ended] at h
  | cons _ _ => rfl

/-- A sign that had to come was there. -/
theorem expect_eq_ok {depth : Nat} {sign : Sign} {kinds : List TokenKind} {rest : List Token}
    (hended : Ended kinds) (h : expect depth sign (bare kinds) = .ok rest) :
    ∃ after, kinds = .sign sign :: after ∧ rest = bare after ∧ Ended after := by
  unfold expect at h
  split at h
  · rename_i hsign
    obtain ⟨after, hkinds, hafter, hadvance⟩ := hended.exists_of_sign hsign
    exact ⟨after, hkinds, by rw [← Except.ok.inj h, hadvance], hafter⟩
  · simp at h

/-- If something was read, it was a phrase at the front of the kinds, with less
nesting than the bound. -/
def Yields (category : Category) (kinds : List TokenKind) (bound : Nat)
    (outcome : Except SyntaxFailure (Expr × List Token)) : Prop :=
  ∀ tree rest, outcome = .ok (tree, rest) →
    ∃ (phrase : Phrase category tree) (after : List TokenKind),
      kinds = phrase.tokens ++ after ∧ rest = bare after ∧ Ended after ∧ phrase.nesting < bound

theorem Yields.mono {category : Category} {kinds kinds' : List TokenKind} {bound bound' : Nat}
    {outcome : Except SyntaxFailure (Expr × List Token)} (h : Yields category kinds bound outcome)
    (hkinds : kinds = kinds') (hbound : bound = bound') :
    Yields category kinds' bound' outcome :=
  hkinds ▸ hbound ▸ h

/-! ## Levels behind a step

A chain goes on behind a step with one level less.  The phrase with the step is nested within the
levels that are left then, counted from the start of the chain, and those are as many as before. -/

section

variable {tree : Expr} {less : Nat}

theorem nesting_member_lt {first : Phrase .stepped tree}
    (hfirst : first.nesting < less + 1 + first.steps + 1) {property : String} (kind : TokenKind)
    (hkind : NamesProperty kind property) :
    (first.member kind hkind).nesting < less + (first.member kind hkind).steps + 1 ∧
      less + (first.member kind hkind).steps + 1 = less + 1 + first.steps + 1 := by
  simp only [Phrase.nesting, Phrase.steps]
  omega

theorem nesting_index_lt {first : Phrase .stepped tree}
    (hfirst : first.nesting < less + 1 + first.steps + 1) {inner : Expr}
    {key : Phrase .expression inner} (hkey : key.nesting < less) :
    (first.index key).nesting < less + (first.index key).steps + 1 ∧
      less + (first.index key).steps + 1 = less + 1 + first.steps + 1 := by
  simp only [Phrase.nesting, Phrase.steps]
  omega

theorem nesting_call_lt {text : String} {first : Phrase .stepped (.name text {})}
    (hfirst : first.nesting < less + 1 + first.steps + 1) {trees : List Expr}
    {list : Arguments trees} (hlist : list.nesting ≤ less) :
    (first.call list).nesting < less + (first.call list).steps + 1 ∧
      less + (first.call list).steps + 1 = less + 1 + first.steps + 1 := by
  simp only [Phrase.nesting, Phrase.steps]
  omega

theorem nesting_join_lt {tier : Tier} {first : Phrase (.chain tier) tree}
    (hfirst : first.nesting < less + 1 + first.steps + 1) {sign : Sign} {connective : Connective}
    (hsign : tier.operator? sign = some connective) {right : Expr}
    {last : Phrase tier.operand right} (hlast : last.nesting < less + 1) :
    (first.join sign hsign last).nesting < less + (first.join sign hsign last).steps + 1 ∧
      less + (first.join sign hsign last).steps + 1 = less + 1 + first.steps + 1 := by
  simp only [Phrase.nesting, Phrase.steps]
  omega

end

/-- What holds of the parsers with so many levels left. -/
structure Sound (left depth : Nat) : Prop where
  expr : ∀ kinds, Ended kinds →
    Yields .expression kinds left (expr depth (deeperAt left depth) (bare kinds))
  parserOf : ∀ category kinds, Ended kinds →
    Yields category kinds (left + 1) (parserOf category left depth (bare kinds))
  chainRest : ∀ {tier : Tier} {tree : Expr} (first : Phrase (.chain tier) tree) kinds,
    Ended kinds → first.nesting < left + first.steps + 1 →
    Yields (.chain tier) (first.tokens ++ kinds) (left + first.steps + 1)
      (chainRest depth (deeperAt left depth) tier.level tier.operand.levels tree (bare kinds))
  postfixRest : ∀ {tree : Expr} (first : Phrase .stepped tree) kinds,
    Ended kinds → first.nesting < left + first.steps + 1 →
    Yields .stepped (first.tokens ++ kinds) (left + first.steps + 1)
      (postfixRest depth (deeperAt left depth) tree (bare kinds))

section

variable {left depth : Nat} (hdeeper : ∀ less, left = less + 1 → Sound less (depth + 1))

include hdeeper

theorem expr_yields {kinds : List TokenKind} (hended : Ended kinds) :
    Yields .expression kinds left (expr depth (deeperAt left depth) (bare kinds)) := by
  intro tree rest h
  rw [expr_eq_enter] at h
  obtain ⟨less, rfl, hread⟩ := exists_of_enter_eq_ok h
  rw [parsersAt_chain] at hread
  exact (hdeeper less rfl).parserOf .expression kinds hended tree rest hread

theorem primary_yields {kinds : List TokenKind} (hended : Ended kinds) :
    Yields .primary kinds (left + 1) (primary depth (deeperAt left depth) (bare kinds)) := by
  intro tree rest h
  simp only [primary, currentSpan_bare] at h
  split at h
  · rename_i atom hatom
    simp only [Except.ok.injEq, Prod.mk.injEq] at h
    obtain ⟨rfl, rfl⟩ := h
    have hkind := (atom?_eq_some_iff _ _).1 hatom
    obtain ⟨kind, after, rfl, hafter, hadvance⟩ :=
      hended.exists_cons (by rintro heq; rw [heq] at hkind; cases hkind)
    exact ⟨.atom kind hkind, after, rfl, hadvance, hafter, by simp [Phrase.nesting]⟩
  · split at h
    · rename_i hparen
      obtain ⟨after, rfl, hafter, hadvance⟩ := hended.exists_of_sign hparen
      rw [hadvance] at h
      split at h
      · simp at h
      · rename_i inner tokens hexpr
        obtain ⟨phrase, behind, rfl, rfl, hbehind, hnesting⟩ :=
          expr_yields hdeeper hafter _ _ hexpr
        rcases hexpect : expect depth .rightParen (bare behind) with failure | last
        · simp [hexpect, Except.map] at h
        obtain ⟨last, rfl, rfl, hlast⟩ := expect_eq_ok hbehind hexpect
        simp only [hexpect, Except.map, Except.ok.injEq, Prod.mk.injEq] at h
        obtain ⟨rfl, rfl⟩ := h
        refine ⟨.group phrase, last, by simp [Phrase.tokens], rfl, hlast, ?_⟩
        rw [Phrase.nesting]
        omega
    · simp [fail] at h

end

/-! ## Postfix steps -/

section

variable {less depth : Nat} (hsound : Sound less (depth + 1)) {tree : Expr}
  (first : Phrase .stepped tree) {after : List TokenKind} (hended : Ended after)
  (hfirst : first.nesting < less + 1 + first.steps + 1)

include hsound hended hfirst

theorem memberStep_yields :
    Yields .stepped (first.tokens ++ .sign .dot :: after) (less + 1 + first.steps + 1)
      (memberStep depth tree (parsersAt less (depth + 1)) (bare (.sign .dot :: after))) := by
  intro result rest h
  simp only [memberStep, advance_bare_cons hended, currentSpan_bare, first.span_eq, to_empty] at h
  split at h
  · rename_i property hproperty
    have hkind := (propertyName?_eq_some_iff _ _).1 hproperty
    obtain ⟨kind, behind, rfl, hbehind, hadvance⟩ :=
      hended.exists_cons (by rintro heq; rw [heq] at hkind; cases hkind)
    have hkind : NamesProperty kind property := hkind
    rw [hadvance, parsersAt_postfixRest] at h
    obtain ⟨hnext, hbound⟩ := nesting_member_lt hfirst kind hkind
    exact (hsound.postfixRest (first.member kind hkind) behind hbehind hnext).mono
      (by simp [Phrase.tokens]) hbound _ _ h
  · simp [fail] at h

theorem indexStep_yields :
    Yields .stepped (first.tokens ++ .sign .leftBracket :: after) (less + 1 + first.steps + 1)
      (indexStep depth tree (parsersAt less (depth + 1)) (bare (.sign .leftBracket :: after))) := by
  intro result rest h
  simp only [indexStep, advance_bare_cons hended, first.span_eq] at h
  split at h
  · simp at h
  rename_i key tokens hkey
  rw [parsersAt_expr] at hkey
  obtain ⟨inner, behind, rfl, rfl, hbehind, hinner⟩ := hsound.expr after hended key tokens hkey
  split at h
  · simp at h
  rename_i closed hexpect
  obtain ⟨last, rfl, rfl, hlast⟩ := expect_eq_ok hbehind hexpect
  rw [currentSpan_bare, to_empty, parsersAt_postfixRest] at h
  obtain ⟨hnext, hbound⟩ := nesting_index_lt hfirst hinner
  exact (hsound.postfixRest (first.index inner) last hlast hnext).mono
    (by simp [Phrase.tokens]) hbound _ _ h

end

/-- If arguments were read, they were arguments of the grammar up to the closing
parenthesis. -/
theorem arguments_eq_ok {less depth fuel : Nat} (hsound : Sound less depth)
    {kinds : List TokenKind} (hended : Ended kinds) {trees : List Expr} {rest : List Token}
    (h : arguments depth (expr depth (deeperAt less depth)) fuel (bare kinds) =
      .ok (trees, rest)) :
    ∃ (list : Arguments trees) (after : List TokenKind), kinds = list.tokens ++ after ∧
      rest = bare after ∧ Ended after ∧ list.nesting ≤ less := by
  induction fuel generalizing kinds trees rest with
  | zero => simp [arguments, fail] at h
  | succ fuel ih =>
    rw [arguments] at h
    split at h
    · simp only [Except.ok.injEq, Prod.mk.injEq] at h
      obtain ⟨rfl, rfl⟩ := h
      exact ⟨.nothing, kinds, by simp [Arguments.tokens], rfl, hended, by simp [Arguments.nesting]⟩
    split at h
    · simp at h
    rename_i first tokens hfirst
    obtain ⟨phrase, behind, rfl, rfl, hbehind, hnesting⟩ :=
      hsound.expr kinds hended first tokens hfirst
    split at h
    · rename_i hcomma
      obtain ⟨next, rfl, hnext, hadvance⟩ := hbehind.exists_of_sign hcomma
      rw [hadvance] at h
      rcases hothers : arguments depth (expr depth (deeperAt less depth)) fuel (bare next)
        with failure | ⟨others, last⟩
      · simp [hothers, Except.map] at h
      obtain ⟨list, after, rfl, rfl, hafter, hlist⟩ := ih hnext hothers
      simp only [hothers, Except.map, Except.ok.injEq, Prod.mk.injEq] at h
      obtain ⟨rfl, rfl⟩ := h
      refine ⟨.more phrase list, after, by simp [Arguments.tokens], rfl, hafter, ?_⟩
      rw [Arguments.nesting]
      omega
    split at h
    · simp only [Except.ok.injEq, Prod.mk.injEq] at h
      obtain ⟨rfl, rfl⟩ := h
      refine ⟨.last phrase, behind, by simp [Arguments.tokens], rfl, hbehind, ?_⟩
      rw [Arguments.nesting]
      omega
    · simp [fail] at h

theorem callStep_yields {less depth : Nat} (hsound : Sound less (depth + 1)) {tree : Expr}
    (first : Phrase .stepped tree) {after : List TokenKind} (hended : Ended after)
    (hfirst : first.nesting < less + 1 + first.steps + 1) :
    Yields .stepped (first.tokens ++ .sign .leftParen :: after) (less + 1 + first.steps + 1)
      (callStep depth tree (parsersAt less (depth + 1)) (bare (.sign .leftParen :: after))) := by
  intro result rest h
  unfold callStep at h
  split at h
  · rename_i text start
    obtain rfl : start = {} := first.span_eq
    simp only [advance_bare_cons hended, parsersAt_expr] at h
    split at h
    · simp at h
    rename_i trees tokens hvalues
    obtain ⟨list, behind, rfl, rfl, hbehind, hlist⟩ := arguments_eq_ok hsound hended hvalues
    split at h
    · simp at h
    rename_i closed hexpect
    obtain ⟨last, rfl, rfl, hlast⟩ := expect_eq_ok hbehind hexpect
    rw [currentSpan_bare, to_empty, parsersAt_postfixRest] at h
    obtain ⟨hnext, hbound⟩ := nesting_call_lt hfirst hlist
    exact (hsound.postfixRest (first.call list) last hlast hnext).mono
      (by simp [Phrase.tokens]) hbound _ _ h
  · simp [fail] at h

/-! ## Chains -/

section

variable {left depth : Nat} (hdeeper : ∀ less, left = less + 1 → Sound less (depth + 1))

include hdeeper

theorem postfixRest_yields {tree : Expr} (first : Phrase .stepped tree) {kinds : List TokenKind}
    (hended : Ended kinds) (hfirst : first.nesting < left + first.steps + 1) :
    Yields .stepped (first.tokens ++ kinds) (left + first.steps + 1)
      (postfixRest depth (deeperAt left depth) tree (bare kinds)) := by
  intro result rest h
  unfold postfixRest at h
  split at h
  · rename_i hsign
    obtain ⟨less, rfl, hread⟩ := exists_of_enter_eq_ok h
    obtain ⟨after, rfl, hafter, -⟩ := hended.exists_of_sign hsign
    exact memberStep_yields (hdeeper less rfl) first hafter hfirst result rest hread
  · rename_i hsign
    obtain ⟨less, rfl, hread⟩ := exists_of_enter_eq_ok h
    obtain ⟨after, rfl, hafter, -⟩ := hended.exists_of_sign hsign
    exact indexStep_yields (hdeeper less rfl) first hafter hfirst result rest hread
  · rename_i hsign
    obtain ⟨less, rfl, hread⟩ := exists_of_enter_eq_ok h
    obtain ⟨after, rfl, hafter, -⟩ := hended.exists_of_sign hsign
    exact callStep_yields (hdeeper less rfl) first hafter hfirst result rest hread
  · simp only [Except.ok.injEq, Prod.mk.injEq] at h
    obtain ⟨rfl, rfl⟩ := h
    exact ⟨first, kinds, rfl, rfl, hended, hfirst⟩

theorem postfixChain_yields {kinds : List TokenKind} (hended : Ended kinds) :
    Yields .stepped kinds (left + 1) (postfixChain depth (deeperAt left depth) (bare kinds)) := by
  intro result rest h
  unfold postfixChain at h
  split at h
  · simp at h
  rename_i tree tokens hprimary
  obtain ⟨phrase, after, rfl, rfl, hafter, hnesting⟩ :=
    primary_yields hdeeper hended tree tokens hprimary
  refine (postfixRest_yields hdeeper (.start phrase) hafter ?_).mono ?_ ?_ _ _ h
  · simpa [Phrase.nesting, Phrase.steps] using hnesting
  · simp [Phrase.tokens]
  · simp [Phrase.steps]

theorem unary_yields {kinds : List TokenKind} (hended : Ended kinds) :
    Yields .signed kinds (left + 1) (unary depth (deeperAt left depth) (bare kinds)) := by
  intro result rest h
  unfold unary at h
  split at h
  · obtain ⟨phrase, after, rfl, rfl, hafter, hnesting⟩ :=
      postfixChain_yields hdeeper hended result rest h
    exact ⟨.unsigned phrase, after, by simp [Phrase.tokens], rfl, hafter,
      by simpa [Phrase.nesting] using hnesting⟩
  · rename_i op hop
    obtain ⟨sign, hcurrent, hsign⟩ := (unaryOp?_eq_some_iff _ _).1 hop
    obtain ⟨after, rfl, hafter, hadvance⟩ := hended.exists_of_sign hcurrent
    rw [hadvance] at h
    split at h
    · simp at h
    rename_i operand tokens henter
    obtain ⟨less, rfl, hread⟩ := exists_of_enter_eq_ok henter
    rw [parsersAt_unary] at hread
    obtain ⟨phrase, behind, rfl, rfl, hbehind, hnesting⟩ :=
      (hdeeper less rfl).parserOf .signed after hafter operand tokens hread
    simp only [currentSpan_bare, phrase.span_eq, to_empty, Except.ok.injEq, Prod.mk.injEq] at h
    obtain ⟨rfl, rfl⟩ := h
    refine ⟨.apply sign hsign phrase, behind, by simp [Phrase.tokens], rfl, hbehind, ?_⟩
    rw [Phrase.nesting]
    omega

theorem chainRest_yields {tier : Tier} {tree : Expr} (first : Phrase (.chain tier) tree)
    {kinds : List TokenKind} (hended : Ended kinds)
    (hfirst : first.nesting < left + first.steps + 1) :
    Yields (.chain tier) (first.tokens ++ kinds) (left + first.steps + 1)
      (chainRest depth (deeperAt left depth) tier.level tier.operand.levels tree
        (bare kinds)) := by
  intro result rest h
  unfold chainRest at h
  split at h
  · simp only [Except.ok.injEq, Prod.mk.injEq] at h
    obtain ⟨rfl, rfl⟩ := h
    exact ⟨first, kinds, rfl, rfl, hended, hfirst⟩
  · rename_i connective hconnective
    obtain ⟨sign, hcurrent, hsign⟩ := Tier.exists_sign_of_connective? hconnective
    obtain ⟨after, rfl, hafter, hadvance⟩ := hended.exists_of_sign hcurrent
    obtain ⟨less, rfl, hread⟩ := exists_of_enter_eq_ok h
    have hsound := hdeeper less rfl
    simp only [hadvance, parsersAt_chain, parsersAt_chainRest] at hread
    split at hread
    · simp at hread
    rename_i right tokens hright
    rw [← parserOf_operand] at hright
    obtain ⟨last, behind, rfl, rfl, hbehind, hlast⟩ :=
      hsound.parserOf tier.operand after hafter right tokens hright
    rw [Connective.join_eq_node _ first.span_eq last.span_eq] at hread
    obtain ⟨hnext, hbound⟩ := nesting_join_lt hfirst hsign hlast
    exact (hsound.chainRest (first.join sign hsign last) behind hbehind hnext).mono
      (by simp [Phrase.tokens]) hbound _ _ hread

theorem chain_yields (tier : Tier) (kinds : List TokenKind) (hended : Ended kinds) :
    Yields (.chain tier) kinds (left + 1) (parserOf (.chain tier) left depth (bare kinds)) := by
  refine Category.chain_induction
    (motive := fun category =>
      Yields category kinds (left + 1) (parserOf category left depth (bare kinds)))
    (unary_yields hdeeper hended) (fun tier hoperand => ?_) tier
  intro result rest h
  rw [parserOf_chain] at h
  split at h
  · simp at h
  rename_i tree tokens hfirst
  obtain ⟨phrase, after, rfl, rfl, hafter, hnesting⟩ := hoperand tree tokens hfirst
  refine (chainRest_yields hdeeper (.operand phrase) hafter ?_).mono ?_ ?_ _ _ h
  · simpa [Phrase.nesting, Phrase.steps] using hnesting
  · simp [Phrase.tokens]
  · simp [Phrase.steps]

theorem sound_of_deeper : Sound left depth where
  expr _ hended := expr_yields hdeeper hended
  parserOf
    | .chain tier, kinds, hended => chain_yields hdeeper tier kinds hended
    | .signed, _, hended => unary_yields hdeeper hended
    | .stepped, _, hended => postfixChain_yields hdeeper hended
    | .primary, _, hended => primary_yields hdeeper hended
  chainRest first _ hended hfirst := chainRest_yields hdeeper first hended hfirst
  postfixRest first _ hended hfirst := postfixRest_yields hdeeper first hended hfirst

end

/-- Whatever the parsers read is a phrase, at every number of levels left. -/
theorem sound (left depth : Nat) : Sound left depth := by
  induction left generalizing depth with
  | zero => exact sound_of_deeper fun less h => by omega
  | succ left ih =>
    refine sound_of_deeper fun less h => ?_
    obtain rfl : left = less := by omega
    exact ih (depth + 1)

end DataExpr.Parse
