import DataExpr.Proofs.Syntax.Soundness
import DataExpr.Proofs.Syntax.Spelling

/-!
# What is read before a fault can be completed

Wherever the parser fails for another reason than nesting, plain tokens can be put behind
the tokens that it passed so that they are a phrase, and one that is not nested too deeply
(`stopped`).

`Viable` says this of kinds, and `Stops` of one outcome.  The completion is found where the
parser fails: a name where an operand or a property is missing, the sign itself where a sign
is missing, and nothing where only something too much has come.  Each parser around closes
what it has opened.  The proof is an induction on the levels left, as for what the parser
reads, and uses that for the parts behind which it fails.
-/

namespace DataExpr.Parse

/-- Plain tokens behind the kinds complete them to a phrase with less nesting than the
bound. -/
def Viable (category : Category) (front : List TokenKind) (bound : Nat) : Prop :=
  ∃ (tree : Expr) (phrase : Phrase category tree) (closing : List TokenKind),
    phrase.tokens = front ++ closing ∧ (∀ kind ∈ closing, Plain kind) ∧ phrase.nesting < bound

/-- If reading failed, and not for nesting, then what stands before the token at fault is
viable. -/
def Stops (category : Category) (kinds : List TokenKind) (bound : Nat)
    (outcome : Except SyntaxFailure (Expr × List Token)) : Prop :=
  ∀ failure, outcome = .error failure → failure.fault ≠ .tooDeep →
    ∃ front after, kinds = front ++ after ∧ failure.rest = bare after ∧
      Viable category front bound

theorem Stops.mono {category : Category} {kinds kinds' : List TokenKind} {bound bound' : Nat}
    {outcome : Except SyntaxFailure (Expr × List Token)} (h : Stops category kinds bound outcome)
    (hkinds : kinds = kinds') (hbound : bound = bound') : Stops category kinds' bound' outcome :=
  hkinds ▸ hbound ▸ h

/-- A phrase is viable as it is. -/
theorem viable_of_phrase {category : Category} {tree : Expr} (phrase : Phrase category tree)
    {bound : Nat} (h : phrase.nesting < bound) : Viable category phrase.tokens bound :=
  ⟨tree, phrase, [], by simp, by simp, h⟩

/-- Where nothing was read, a name is a phrase. -/
theorem viable_nil (bound : Nat) : Viable .primary [] (bound + 1) :=
  ⟨_, .atom _ (.name "a"), [.name "a"], by simp [Phrase.tokens], by simp [Plain.a],
    by simp [Phrase.nesting]⟩

/-- If phrases of one category are made into phrases of another, with tokens around them,
then viable kinds are. -/
theorem Viable.wrap {category outer : Category} {front : List TokenKind} {bound bound' : Nat}
    (h : Viable category front bound) (opening ending : List TokenKind)
    (hending : ∀ kind ∈ ending, Plain kind)
    (hwrap : ∀ {tree : Expr} (phrase : Phrase category tree), phrase.nesting < bound →
      ∃ (tree' : Expr) (phrase' : Phrase outer tree'),
        phrase'.tokens = opening ++ phrase.tokens ++ ending ∧ phrase'.nesting < bound') :
    Viable outer (opening ++ front) bound' := by
  obtain ⟨tree, phrase, closing, htokens, hclosing, hnesting⟩ := h
  obtain ⟨tree', phrase', htokens', hnesting'⟩ := hwrap phrase hnesting
  refine ⟨tree', phrase', closing ++ ending, ?_, ?_, hnesting'⟩
  · rw [htokens', htokens]
    simp
  · intro kind hkind
    rcases List.mem_append.1 hkind with hkind | hkind
    · exact hclosing kind hkind
    · exact hending kind hkind

theorem Viable.start {front : List TokenKind} {bound : Nat} (h : Viable .primary front bound) :
    Viable .stepped front bound :=
  h.wrap [] [] (by simp) fun phrase hnesting =>
    ⟨_, .start phrase, by simp [Phrase.tokens], hnesting⟩

theorem Viable.unsigned {front : List TokenKind} {bound : Nat} (h : Viable .stepped front bound) :
    Viable .signed front bound :=
  h.wrap [] [] (by simp) fun phrase hnesting =>
    ⟨_, .unsigned phrase, by simp [Phrase.tokens], hnesting⟩

theorem Viable.operand {tier : Tier} {front : List TokenKind} {bound : Nat}
    (h : Viable tier.operand front bound) : Viable (.chain tier) front bound :=
  h.wrap [] [] (by simp) fun phrase hnesting =>
    ⟨_, .operand phrase, by simp [Phrase.tokens], hnesting⟩

/-- Where nothing was read, a name is an expression. -/
theorem viable_expression_nil (bound : Nat) : Viable .expression [] (bound + 1) :=
  Category.chain_induction (motive := fun category => Viable category [] (bound + 1))
    (viable_nil bound).start.unsigned (fun _ h => h.operand) .disjunction

/-- A failure for another reason than nesting is one of the deeper level. -/
theorem exists_of_enter_eq_error {α : Type} {left depth : Nat} {body : Parsers → Parser α}
    {tokens : List Token} {failure : SyntaxFailure}
    (h : enter depth (deeperAt left depth) body tokens = .error failure)
    (hfault : failure.fault ≠ .tooDeep) :
    ∃ less, left = less + 1 ∧ body (parsersAt less (depth + 1)) tokens = .error failure := by
  cases left with
  | zero =>
    rw [enter_deeperAt_zero] at h
    obtain rfl := Except.error.inj h
    exact absurd rfl hfault
  | succ less => exact ⟨less, rfl, h⟩

/-- A sign that had to come was not there. -/
theorem rest_of_expect_eq_error {depth : Nat} {sign : Sign} {tokens : List Token}
    {failure : SyntaxFailure} (h : expect depth sign tokens = .error failure) :
    failure.rest = tokens := by
  unfold expect at h
  split at h
  · simp at h
  · rw [← Except.error.inj h]

/-- What holds of the failures of the parsers with so many levels left. -/
structure Stopped (left depth : Nat) : Prop where
  expr : ∀ kinds, Ended kinds →
    Stops .expression kinds left (expr depth (deeperAt left depth) (bare kinds))
  parserOf : ∀ category kinds, Ended kinds →
    Stops category kinds (left + 1) (parserOf category left depth (bare kinds))
  chainRest : ∀ {tier : Tier} {tree : Expr} (first : Phrase (.chain tier) tree) kinds,
    Ended kinds → first.nesting < left + first.steps + 1 →
    Stops (.chain tier) (first.tokens ++ kinds) (left + first.steps + 1)
      (chainRest depth (deeperAt left depth) tier.level tier.operand.levels tree (bare kinds))
  postfixRest : ∀ {tree : Expr} (first : Phrase .stepped tree) kinds,
    Ended kinds → first.nesting < left + first.steps + 1 →
    Stops .stepped (first.tokens ++ kinds) (left + first.steps + 1)
      (postfixRest depth (deeperAt left depth) tree (bare kinds))

section

variable {left depth : Nat} (hdeeper : ∀ less, left = less + 1 → Stopped less (depth + 1))

include hdeeper

theorem expr_stops {kinds : List TokenKind} (hended : Ended kinds) :
    Stops .expression kinds left (expr depth (deeperAt left depth) (bare kinds)) := by
  intro failure h hfault
  rw [expr_eq_enter] at h
  obtain ⟨less, rfl, hread⟩ := exists_of_enter_eq_error h hfault
  rw [parsersAt_chain] at hread
  exact (hdeeper less rfl).parserOf .expression kinds hended failure hread hfault

theorem primary_stops {kinds : List TokenKind} (hended : Ended kinds) :
    Stops .primary kinds (left + 1) (primary depth (deeperAt left depth) (bare kinds)) := by
  intro failure h hfault
  simp only [primary, currentSpan_bare] at h
  split at h
  · simp at h
  split at h
  · rename_i hparen
    obtain ⟨after, rfl, hafter, hadvance⟩ := hended.exists_of_sign hparen
    rw [hadvance] at h
    split at h
    · rename_i inner hexpr
      obtain rfl := Except.error.inj h
      obtain ⟨front, behind, rfl, hrest, hviable⟩ := expr_stops hdeeper hafter inner hexpr hfault
      refine ⟨.sign .leftParen :: front, behind, rfl, hrest,
        hviable.wrap [.sign .leftParen] [.sign .rightParen] (by simp [Plain.sign])
          fun phrase hnesting => ⟨_, .group phrase, by simp [Phrase.tokens], ?_⟩⟩
      rw [Phrase.nesting]
      omega
    · rename_i tree tokens hexpr
      obtain ⟨phrase, behind, rfl, rfl, hbehind, hnesting⟩ :=
        (sound left depth).expr after hafter tree tokens hexpr
      rcases hexpect : expect depth .rightParen (bare behind) with missing | last
      · simp only [hexpect, Except.map, Except.error.injEq] at h
        subst h
        refine ⟨.sign .leftParen :: phrase.tokens, behind, rfl, rest_of_expect_eq_error hexpect,
          _, .group phrase, [.sign .rightParen], by simp [Phrase.tokens], by simp [Plain.sign], ?_⟩
        rw [Phrase.nesting]
        omega
      · simp [hexpect, Except.map] at h
  · simp only [fail, Except.error.injEq] at h
    subst h
    exact ⟨[], kinds, rfl, rfl, viable_nil left⟩

end

/-! ## Postfix steps -/

section

variable {less depth : Nat} (hstopped : Stopped less (depth + 1)) {tree : Expr}
  (first : Phrase .stepped tree) {after : List TokenKind} (hended : Ended after)
  (hfirst : first.nesting < less + 1 + first.steps + 1)

include hstopped hended hfirst

theorem memberStep_stops :
    Stops .stepped (first.tokens ++ .sign .dot :: after) (less + 1 + first.steps + 1)
      (memberStep depth tree (parsersAt less (depth + 1)) (bare (.sign .dot :: after))) := by
  intro failure h hfault
  simp only [memberStep, advance_bare_cons hended, currentSpan_bare, first.span_eq, to_empty] at h
  split at h
  · rename_i property hproperty
    have hkind := (propertyName?_eq_some_iff _ _).1 hproperty
    obtain ⟨kind, behind, rfl, hbehind, hadvance⟩ :=
      hended.exists_cons (by rintro heq; rw [heq] at hkind; cases hkind)
    have hkind : NamesProperty kind property := hkind
    rw [hadvance, parsersAt_postfixRest] at h
    obtain ⟨hnext, hbound⟩ := nesting_member_lt hfirst kind hkind
    exact (hstopped.postfixRest (first.member kind hkind) behind hbehind hnext).mono
      (by simp [Phrase.tokens]) hbound failure h hfault
  · simp only [fail, Except.error.injEq] at h
    subst h
    refine ⟨first.tokens ++ [.sign .dot], after, by simp, rfl, _,
      first.member _ (.name "a"), [.name "a"], by simp [Phrase.tokens], by simp [Plain.a], ?_⟩
    obtain ⟨hnext, hbound⟩ := nesting_member_lt hfirst _ (.name "a")
    rwa [hbound] at hnext

theorem indexStep_stops :
    Stops .stepped (first.tokens ++ .sign .leftBracket :: after) (less + 1 + first.steps + 1)
      (indexStep depth tree (parsersAt less (depth + 1)) (bare (.sign .leftBracket :: after))) := by
  have hnesting {inner : Expr} (key : Phrase .expression inner) (hkey : key.nesting < less) :
      (first.index key).nesting < less + 1 + first.steps + 1 := by
    obtain ⟨hnext, hbound⟩ := nesting_index_lt hfirst hkey
    rwa [hbound] at hnext
  intro failure h hfault
  simp only [indexStep, advance_bare_cons hended, first.span_eq] at h
  split at h
  · rename_i inner hkey
    obtain rfl := Except.error.inj h
    rw [parsersAt_expr] at hkey
    obtain ⟨front, behind, rfl, hrest, hviable⟩ := hstopped.expr after hended inner hkey hfault
    refine ⟨first.tokens ++ [.sign .leftBracket] ++ front, behind, by simp, hrest,
      hviable.wrap _ [.sign .rightBracket] (by simp [Plain.sign])
        fun key hkey => ⟨_, first.index key, by simp [Phrase.tokens], hnesting key hkey⟩⟩
  rename_i key tokens hkey
  rw [parsersAt_expr] at hkey
  obtain ⟨inner, behind, rfl, rfl, hbehind, hinner⟩ :=
    (sound less (depth + 1)).expr after hended key tokens hkey
  split at h
  · rename_i missing hexpect
    obtain rfl := Except.error.inj h
    exact ⟨first.tokens ++ .sign .leftBracket :: inner.tokens, behind, by simp,
      rest_of_expect_eq_error hexpect, _, first.index inner, [.sign .rightBracket],
      by simp [Phrase.tokens], by simp [Plain.sign], hnesting inner hinner⟩
  rename_i closed hexpect
  obtain ⟨last, rfl, rfl, hlast⟩ := expect_eq_ok hbehind hexpect
  rw [currentSpan_bare, to_empty, parsersAt_postfixRest] at h
  obtain ⟨hnext, hbound⟩ := nesting_index_lt hfirst hinner
  exact (hstopped.postfixRest (first.index inner) last hlast hnext).mono
    (by simp [Phrase.tokens]) hbound failure h hfault

end

/-- If arguments could not be read, and not for nesting, then what stands before the token at
fault is the front of arguments. -/
theorem arguments_eq_error {less depth fuel : Nat} (hstopped : Stopped less depth)
    {kinds : List TokenKind} (hended : Ended kinds) {failure : SyntaxFailure}
    (h : arguments depth (expr depth (deeperAt less depth)) fuel (bare kinds) = .error failure)
    (hfault : failure.fault ≠ .tooDeep) :
    ∃ front after, kinds = front ++ after ∧ failure.rest = bare after ∧
      ∃ (trees : List Expr) (list : Arguments trees) (closing : List TokenKind),
        list.tokens = front ++ closing ∧ (∀ kind ∈ closing, Plain kind) ∧ list.nesting ≤ less := by
  induction fuel generalizing kinds with
  | zero =>
    simp only [arguments, fail, Except.error.injEq] at h
    subst h
    exact ⟨[], kinds, rfl, rfl, _, .nothing, [], by simp [Arguments.tokens], by simp,
      by simp [Arguments.nesting]⟩
  | succ fuel ih =>
    rw [arguments] at h
    split at h
    · simp at h
    split at h
    · rename_i inner hfirst
      obtain rfl := Except.error.inj h
      obtain ⟨front, after, rfl, hrest, tree, phrase, closing, htokens, hclosing, hnesting⟩ :=
        hstopped.expr kinds hended inner hfirst hfault
      refine ⟨front, after, rfl, hrest, _, .last phrase, closing,
        by simp [Arguments.tokens, htokens], hclosing, ?_⟩
      rw [Arguments.nesting]
      omega
    rename_i first tokens hfirst
    obtain ⟨phrase, behind, rfl, rfl, hbehind, hnesting⟩ :=
      (sound less depth).expr kinds hended first tokens hfirst
    split at h
    · rename_i hcomma
      obtain ⟨next, rfl, hnext, hadvance⟩ := hbehind.exists_of_sign hcomma
      rw [hadvance] at h
      rcases hothers : arguments depth (expr depth (deeperAt less depth)) fuel (bare next)
        with inner | ⟨others, last⟩
      · simp only [hothers, Except.map, Except.error.injEq] at h
        subst h
        obtain ⟨front, after, rfl, hrest, trees, list, closing, htokens, hclosing, hlist⟩ :=
          ih hnext hothers
        refine ⟨phrase.tokens ++ .sign .comma :: front, after, by simp, hrest, _,
          .more phrase list, closing, by simp [Arguments.tokens, htokens], hclosing, ?_⟩
        rw [Arguments.nesting]
        omega
      · simp [hothers, Except.map] at h
    split at h
    · simp at h
    · simp only [fail, Except.error.injEq] at h
      subst h
      refine ⟨phrase.tokens, behind, rfl, rfl, _, .last phrase, [], by simp [Arguments.tokens],
        by simp, ?_⟩
      rw [Arguments.nesting]
      omega

theorem callStep_stops {less depth : Nat} (hstopped : Stopped less (depth + 1)) {tree : Expr}
    (first : Phrase .stepped tree) {after : List TokenKind} (hended : Ended after)
    (hfirst : first.nesting < less + 1 + first.steps + 1) :
    Stops .stepped (first.tokens ++ .sign .leftParen :: after) (less + 1 + first.steps + 1)
      (callStep depth tree (parsersAt less (depth + 1)) (bare (.sign .leftParen :: after))) := by
  intro failure h hfault
  unfold callStep at h
  split at h
  · rename_i text start
    obtain rfl : start = {} := first.span_eq
    have hnesting {trees : List Expr} (list : Arguments trees) (hlist : list.nesting ≤ less) :
        (first.call list).nesting < less + 1 + first.steps + 1 := by
      obtain ⟨hnext, hbound⟩ := nesting_call_lt hfirst hlist
      rwa [hbound] at hnext
    simp only [advance_bare_cons hended, parsersAt_expr] at h
    split at h
    · rename_i inner hvalues
      obtain rfl := Except.error.inj h
      obtain ⟨front, behind, rfl, hrest, trees, list, closing, htokens, hclosing, hlist⟩ :=
        arguments_eq_error hstopped hended hvalues hfault
      refine ⟨first.tokens ++ .sign .leftParen :: front, behind, by simp, hrest, _,
        first.call list, closing ++ [.sign .rightParen], by simp [Phrase.tokens, htokens], ?_,
        hnesting list hlist⟩
      intro kind hkind
      rcases List.mem_append.1 hkind with hkind | hkind
      · exact hclosing kind hkind
      · rw [List.mem_singleton.1 hkind]
        exact .sign _
    rename_i trees tokens hvalues
    obtain ⟨list, behind, rfl, rfl, hbehind, hlist⟩ :=
      arguments_eq_ok (sound less (depth + 1)) hended hvalues
    split at h
    · rename_i missing hexpect
      obtain rfl := Except.error.inj h
      exact ⟨first.tokens ++ .sign .leftParen :: list.tokens, behind, by simp,
        rest_of_expect_eq_error hexpect, _, first.call list, [.sign .rightParen],
        by simp [Phrase.tokens], by simp [Plain.sign], hnesting list hlist⟩
    rename_i closed hexpect
    obtain ⟨last, rfl, rfl, hlast⟩ := expect_eq_ok hbehind hexpect
    rw [currentSpan_bare, to_empty, parsersAt_postfixRest] at h
    obtain ⟨hnext, hbound⟩ := nesting_call_lt hfirst hlist
    exact (hstopped.postfixRest (first.call list) last hlast hnext).mono
      (by simp [Phrase.tokens]) hbound failure h hfault
  · -- Only the opening parenthesis is too much: what was called stands as it is.
    simp only [fail, Except.error.injEq] at h
    subst h
    exact ⟨first.tokens, .sign .leftParen :: after, rfl, rfl, viable_of_phrase first hfirst⟩

/-! ## Chains -/

section

variable {left depth : Nat} (hdeeper : ∀ less, left = less + 1 → Stopped less (depth + 1))

include hdeeper

theorem postfixRest_stops {tree : Expr} (first : Phrase .stepped tree) {kinds : List TokenKind}
    (hended : Ended kinds) (hfirst : first.nesting < left + first.steps + 1) :
    Stops .stepped (first.tokens ++ kinds) (left + first.steps + 1)
      (postfixRest depth (deeperAt left depth) tree (bare kinds)) := by
  intro failure h hfault
  unfold postfixRest at h
  split at h
  · rename_i hsign
    obtain ⟨less, rfl, hread⟩ := exists_of_enter_eq_error h hfault
    obtain ⟨after, rfl, hafter, -⟩ := hended.exists_of_sign hsign
    exact memberStep_stops (hdeeper less rfl) first hafter hfirst failure hread hfault
  · rename_i hsign
    obtain ⟨less, rfl, hread⟩ := exists_of_enter_eq_error h hfault
    obtain ⟨after, rfl, hafter, -⟩ := hended.exists_of_sign hsign
    exact indexStep_stops (hdeeper less rfl) first hafter hfirst failure hread hfault
  · rename_i hsign
    obtain ⟨less, rfl, hread⟩ := exists_of_enter_eq_error h hfault
    obtain ⟨after, rfl, hafter, -⟩ := hended.exists_of_sign hsign
    exact callStep_stops (hdeeper less rfl) first hafter hfirst failure hread hfault
  · simp at h

theorem postfixChain_stops {kinds : List TokenKind} (hended : Ended kinds) :
    Stops .stepped kinds (left + 1) (postfixChain depth (deeperAt left depth) (bare kinds)) := by
  intro failure h hfault
  unfold postfixChain at h
  split at h
  · rename_i inner hprimary
    obtain rfl := Except.error.inj h
    obtain ⟨front, after, rfl, hrest, hviable⟩ :=
      primary_stops hdeeper hended inner hprimary hfault
    exact ⟨front, after, rfl, hrest, hviable.start⟩
  rename_i tree tokens hprimary
  obtain ⟨phrase, after, rfl, rfl, hafter, hnesting⟩ :=
    (sound left depth).parserOf .primary kinds hended tree tokens hprimary
  refine (postfixRest_stops hdeeper (.start phrase) hafter ?_).mono ?_ ?_ failure h hfault
  · simpa [Phrase.nesting, Phrase.steps] using hnesting
  · simp [Phrase.tokens]
  · simp [Phrase.steps]

theorem unary_stops {kinds : List TokenKind} (hended : Ended kinds) :
    Stops .signed kinds (left + 1) (unary depth (deeperAt left depth) (bare kinds)) := by
  intro failure h hfault
  unfold unary at h
  split at h
  · obtain ⟨front, after, rfl, hrest, hviable⟩ := postfixChain_stops hdeeper hended failure h hfault
    exact ⟨front, after, rfl, hrest, hviable.unsigned⟩
  rename_i op hop
  obtain ⟨sign, hcurrent, hsign⟩ := (unaryOp?_eq_some_iff _ _).1 hop
  obtain ⟨after, rfl, hafter, hadvance⟩ := hended.exists_of_sign hcurrent
  rw [hadvance] at h
  split at h
  · rename_i inner henter
    obtain rfl := Except.error.inj h
    obtain ⟨less, rfl, hread⟩ := exists_of_enter_eq_error henter hfault
    rw [parsersAt_unary] at hread
    obtain ⟨front, behind, rfl, hrest, hviable⟩ :=
      (hdeeper less rfl).parserOf .signed after hafter inner hread hfault
    refine ⟨.sign sign :: front, behind, rfl, hrest,
      hviable.wrap [.sign sign] [] (by simp)
        fun phrase hnesting => ⟨_, .apply sign hsign phrase, by simp [Phrase.tokens], ?_⟩⟩
    rw [Phrase.nesting]
    omega
  · simp at h

theorem chainRest_stops {tier : Tier} {tree : Expr} (first : Phrase (.chain tier) tree)
    {kinds : List TokenKind} (hended : Ended kinds)
    (hfirst : first.nesting < left + first.steps + 1) :
    Stops (.chain tier) (first.tokens ++ kinds) (left + first.steps + 1)
      (chainRest depth (deeperAt left depth) tier.level tier.operand.levels tree
        (bare kinds)) := by
  intro failure h hfault
  unfold chainRest at h
  split at h
  · simp at h
  rename_i connective hconnective
  obtain ⟨sign, hcurrent, hsign⟩ := Tier.exists_sign_of_connective? hconnective
  obtain ⟨after, rfl, hafter, hadvance⟩ := hended.exists_of_sign hcurrent
  obtain ⟨less, rfl, hread⟩ := exists_of_enter_eq_error h hfault
  have hstopped := hdeeper less rfl
  simp only [hadvance, parsersAt_chain, parsersAt_chainRest] at hread
  split at hread
  · rename_i inner hright
    obtain rfl := Except.error.inj hread
    rw [← parserOf_operand] at hright
    obtain ⟨front, behind, rfl, hrest, hviable⟩ :=
      hstopped.parserOf tier.operand after hafter inner hright hfault
    refine ⟨first.tokens ++ [.sign sign] ++ front, behind, by simp, hrest,
      hviable.wrap _ [] (by simp)
        fun last hlast => ⟨_, first.join sign hsign last, by simp [Phrase.tokens], ?_⟩⟩
    obtain ⟨hnext, hbound⟩ := nesting_join_lt hfirst hsign hlast
    rwa [hbound] at hnext
  rename_i right tokens hright
  rw [← parserOf_operand] at hright
  obtain ⟨last, behind, rfl, rfl, hbehind, hlast⟩ :=
    (sound less (depth + 1)).parserOf tier.operand after hafter right tokens hright
  rw [Connective.join_eq_node _ first.span_eq last.span_eq] at hread
  obtain ⟨hnext, hbound⟩ := nesting_join_lt hfirst hsign hlast
  exact (hstopped.chainRest (first.join sign hsign last) behind hbehind hnext).mono
    (by simp [Phrase.tokens]) hbound failure hread hfault

theorem chain_stops (tier : Tier) (kinds : List TokenKind) (hended : Ended kinds) :
    Stops (.chain tier) kinds (left + 1) (parserOf (.chain tier) left depth (bare kinds)) := by
  refine Category.chain_induction
    (motive := fun category =>
      Stops category kinds (left + 1) (parserOf category left depth (bare kinds)))
    (unary_stops hdeeper hended) (fun tier hoperand => ?_) tier
  intro failure h hfault
  rw [parserOf_chain] at h
  split at h
  · rename_i inner hfirst
    obtain rfl := Except.error.inj h
    obtain ⟨front, after, rfl, hrest, hviable⟩ := hoperand inner hfirst hfault
    exact ⟨front, after, rfl, hrest, hviable.operand⟩
  rename_i tree tokens hfirst
  obtain ⟨phrase, after, rfl, rfl, hafter, hnesting⟩ :=
    (sound left depth).parserOf tier.operand kinds hended tree tokens hfirst
  refine (chainRest_stops hdeeper (.operand phrase) hafter ?_).mono ?_ ?_ failure h hfault
  · simpa [Phrase.nesting, Phrase.steps] using hnesting
  · simp [Phrase.tokens]
  · simp [Phrase.steps]

theorem stopped_of_deeper : Stopped left depth where
  expr _ hended := expr_stops hdeeper hended
  parserOf
    | .chain tier, kinds, hended => chain_stops hdeeper tier kinds hended
    | .signed, _, hended => unary_stops hdeeper hended
    | .stepped, _, hended => postfixChain_stops hdeeper hended
    | .primary, _, hended => primary_stops hdeeper hended
  chainRest first _ hended hfirst := chainRest_stops hdeeper first hended hfirst
  postfixRest first _ hended hfirst := postfixRest_stops hdeeper first hended hfirst

end

/-- Whatever the parsers pass before a fault can be completed, at every number of levels
left. -/
theorem stopped (left depth : Nat) : Stopped left depth := by
  induction left generalizing depth with
  | zero => exact stopped_of_deeper fun less h => by omega
  | succ left ih =>
    refine stopped_of_deeper fun less h => ?_
    obtain rfl : left = less := by omega
    exact ih (depth + 1)

end DataExpr.Parse
