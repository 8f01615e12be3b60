import DataExpr.Proofs.Syntax.Levels

/-!
# Phrases are read

The parser reads every phrase, provided that what comes behind does not belong to it.
With as many levels left as the phrase is nested it gives the phrase's tree; with
fewer it fails because expressions are nested too deeply, and for no other reason.

A chain is read operand by operand, while a phrase of a chain holds the last operand
outside and the rest within.  So the induction on phrases does not ask for the end
of a chain: after a phrase the parser stands at `resume`, with the phrase's steps
taken from the levels left, and may go on (`Phrase.isRead`).  Only `IsRead.parserOf_eq`
says that it stops, and only there the next token matters: it must not be one that
`goesOn` with the category.
-/

namespace DataExpr

open Parse

/-! ## What comes behind a phrase -/

/-- Whether a token starts a postfix step. -/
def opensStep : TokenKind → Bool
  | .sign .dot | .sign .leftBracket | .sign .leftParen => true
  | _ => false

namespace Category

/-- Whether a token behind a phrase of the category belongs to it. -/
def goesOn : Category → TokenKind → Bool
  | .chain tier, kind => tier.levels.any (·.connective? kind |>.isSome) || opensStep kind
  | .signed, kind | .stepped, kind => opensStep kind
  | .primary, _ => false

/-- What phrases of the category consist of. -/
def inner : Category → Category
  | .chain tier => tier.operand
  | .signed => .stepped
  | .stepped | .primary => .primary

theorem goesOn_chain (tier : Tier) (kind : TokenKind) :
    (Category.chain tier).goesOn kind =
      ((tier.level.connective? kind).isSome || tier.operand.goesOn kind) := by
  rw [goesOn, tier.levels_eq_cons, List.any_cons, Bool.or_assoc]
  cases tier <;> rfl

theorem goesOn_inner {category : Category} {kind : TokenKind}
    (h : category.goesOn kind = false) : category.inner.goesOn kind = false := by
  cases category with
  | chain tier =>
    rw [goesOn_chain, Bool.or_eq_false_iff] at h
    exact h.2
  | signed => exact h
  | stepped => rfl
  | primary => rfl

/-- No operator of a tier belongs to an operand of it. -/
theorem goesOn_operand {tier : Tier} {sign : Sign} {connective : Connective}
    (h : tier.operator? sign = some connective) : tier.operand.goesOn (.sign sign) = false := by
  cases tier <;> cases sign <;> first | rfl | simp [Tier.operator?] at h

end Category

/-! ## Reading a phrase -/

namespace Parse

/-- Expressions are nested too deeply. -/
def TooDeep {α : Type} (outcome : Except SyntaxFailure α) : Prop :=
  ∃ failure, outcome = .error failure ∧ failure.fault = .tooDeep

/-- The parser behind a phrase of a category, which may make the phrase longer. -/
def resume (category : Category) (left depth : Nat) (tree : Expr) : Parser Expr :=
  match category with
  | .chain tier => chainRest depth (deeperAt left depth) tier.level tier.operand.levels tree
  | .stepped => postfixRest depth (deeperAt left depth) tree
  | .signed | .primary => fun tokens => .ok (tree, tokens)

/-- Behind a phrase the parser stops at a token that does not belong to it. -/
theorem resume_eq_ok {category : Category} {next : TokenKind} (left depth : Nat) (tree : Expr)
    (after : List TokenKind) (h : category.goesOn next = false) :
    resume category left depth tree (bare (next :: after)) = .ok (tree, bare (next :: after)) := by
  cases category with
  | chain tier =>
    rw [Category.goesOn_chain, Bool.or_eq_false_iff] at h
    have hnone : tier.level.connective? next = none := by simpa using h.1
    simp [resume, chainRest, current, hnone]
  | stepped =>
    simp only [resume, postfixRest, current, bare_cons]
    split <;> first | rfl | simp_all [Category.goesOn, opensStep]
  | signed => rfl
  | primary => rfl

/-- How kinds are read as a tree of a category: with enough levels the parser
stands behind them, and with fewer they are nested too deeply. -/
def IsRead (category : Category) (tree : Expr) (kinds : List TokenKind) (steps nesting : Nat) :
    Prop :=
  ∀ (left depth : Nat) (next : TokenKind) (after : List TokenKind),
    category.inner.goesOn next = false →
    (nesting ≤ left →
      parserOf category left depth (bare (kinds ++ next :: after)) =
        resume category (left - steps) (depth + steps) tree (bare (next :: after))) ∧
    (left < nesting → TooDeep (parserOf category left depth (bare (kinds ++ next :: after))))

/-- Where a phrase ends, it is read as a whole. -/
theorem IsRead.parserOf_eq {category : Category} {tree : Expr} {kinds : List TokenKind}
    {steps nesting : Nat} (h : IsRead category tree kinds steps nesting) (left depth : Nat)
    {next : TokenKind} (after : List TokenKind) (hnext : category.goesOn next = false) :
    (nesting ≤ left →
      parserOf category left depth (bare (kinds ++ next :: after)) =
        .ok (tree, bare (next :: after))) ∧
    (left < nesting → TooDeep (parserOf category left depth (bare (kinds ++ next :: after)))) := by
  obtain ⟨hfits, hdeep⟩ := h left depth next after (Category.goesOn_inner hnext)
  refine ⟨fun hle => ?_, hdeep⟩
  rw [hfits hle, resume_eq_ok _ _ _ _ hnext]

/-- Passing a token that is not the last. -/
theorem advance_bare_append (kind next : TokenKind) (kinds after : List TokenKind) :
    advance (bare (kind :: (kinds ++ next :: after))) = bare (kinds ++ next :: after) := by
  cases kinds <;> rfl

/-! ## One lemma for each way of making a phrase -/

section Chains

variable {tier : Tier} {tree right : Expr} {kinds kinds' : List TokenKind}
  {steps steps' nesting nesting' : Nat}

theorem IsRead.operand (h : IsRead tier.operand tree kinds steps nesting) :
    IsRead (.chain tier) tree kinds 0 nesting := by
  intro left depth next after hnext
  obtain ⟨hfits, hdeep⟩ := h.parserOf_eq left depth after hnext
  refine ⟨fun hle => ?_, fun hlt => ?_⟩
  · rw [parserOf_chain, hfits hle]
    rfl
  · obtain ⟨failure, hfailure, hfault⟩ := hdeep hlt
    exact ⟨failure, by rw [parserOf_chain, hfailure], hfault⟩

/-- Without a level left, an operator makes a chain too deep. -/
theorem tooDeep_chainRest {kind : TokenKind} {connective : Connective} {level : Level}
    (h : level.connective? kind = some connective) (depth : Nat) (tighter : List Level)
    (tree : Expr) (after : List TokenKind) :
    TooDeep (chainRest depth (deeperAt 0 depth) level tighter tree (bare (kind :: after))) := by
  simp only [chainRest, bare_cons, current, h]
  exact ⟨_, rfl, rfl⟩

/-- With a level left, an operator and its operand make a chain longer. -/
theorem chainRest_eq {kind next : TokenKind} {connective : Connective}
    (h : tier.level.connective? kind = some connective) (less depth : Nat) (tree : Expr)
    (kinds after : List TokenKind) :
    chainRest depth (deeperAt (less + 1) depth) tier.level tier.operand.levels tree
        (bare (kind :: (kinds ++ next :: after))) =
      match parserOf tier.operand less (depth + 1) (bare (kinds ++ next :: after)) with
      | .error failure => .error failure
      | .ok (right, rest) =>
        chainRest (depth + 1) (deeperAt less (depth + 1)) tier.level tier.operand.levels
          (connective.join tree right) rest := by
  have hcurrent : current (bare (kind :: (kinds ++ next :: after))) = kind := rfl
  rw [chainRest, hcurrent, h, advance_bare_append, parserOf_operand, ← parsersAt_chain,
    ← parsersAt_chainRest]
  exact enter_deeperAt_succ _ _ _ _

theorem IsRead.join {sign : Sign} {connective : Connective}
    (hfirst : IsRead (.chain tier) tree kinds steps nesting)
    (hsign : tier.operator? sign = some connective)
    (hlast : IsRead tier.operand right kinds' steps' nesting')
    (htree : tree.span = {}) (hright : right.span = {}) :
    IsRead (.chain tier) (connective.node tree right) (kinds ++ .sign sign :: kinds')
      (steps + 1) (max nesting (steps + 1 + nesting')) := by
  intro left depth next after hnext
  have hoperator : tier.level.connective? (.sign sign) = some connective := by
    rw [Tier.level_connective?, hsign]
  obtain ⟨hfits, hdeep⟩ :=
    hfirst left depth (.sign sign) (kinds' ++ next :: after) (Category.goesOn_operand hsign)
  simp only [List.append_assoc, List.cons_append]
  refine ⟨fun hle => ?_, fun hlt => ?_⟩
  · obtain ⟨less, hless⟩ : ∃ less, left - steps = less + 1 := ⟨left - steps - 1, by omega⟩
    obtain ⟨hoperand, -⟩ := hlast.parserOf_eq less (depth + steps + 1) after hnext
    rw [hfits (by omega), hless, resume, chainRest_eq hoperator, hoperand (by omega)]
    simp only [Connective.join_eq_node connective htree hright]
    rw [show left - (steps + 1) = less by omega]
    rfl
  · by_cases hle : nesting ≤ left
    · rw [hfits hle]
      rcases hless : left - steps with _ | less
      · exact tooDeep_chainRest hoperator _ _ _ _
      · obtain ⟨-, hoperand⟩ := hlast.parserOf_eq less (depth + steps + 1) after hnext
        obtain ⟨failure, hfailure, hfault⟩ := hoperand (by omega)
        rw [resume, chainRest_eq hoperator, hfailure]
        exact ⟨failure, rfl, hfault⟩
    · exact hdeep (by omega)

end Chains

section Operands

variable {tree inner : Expr} {kinds kinds' : List TokenKind} {steps steps' nesting nesting' : Nat}

/-- A token that may begin a stepped phrase is no operator in front of one. -/
theorem unaryOp?_eq_none {kind : TokenKind} (h : Category.stepped.mayStart kind = true) :
    unaryOp? kind = none := by
  rcases hop : unaryOp? kind with _ | op
  · rfl
  obtain ⟨sign, rfl, hsign⟩ := (unaryOp?_eq_some_iff kind op).1 hop
  cases hsign <;> simp [Category.mayStart] at h

theorem IsRead.unsigned (h : IsRead .stepped tree kinds steps nesting)
    (hstart : ∃ kind rest, kinds = kind :: rest ∧ Category.stepped.mayStart kind = true) :
    IsRead .signed tree kinds 0 nesting := by
  obtain ⟨kind, rest, rfl, hkind⟩ := hstart
  intro left depth next after hnext
  have hparser : parserOf .signed left depth (bare (kind :: rest ++ next :: after)) =
      parserOf .stepped left depth (bare (kind :: rest ++ next :: after)) := by
    have hcurrent : current (bare (kind :: rest ++ next :: after)) = kind := rfl
    rw [parserOf, unary, hcurrent, unaryOp?_eq_none hkind]
    rfl
  rw [hparser]
  exact h.parserOf_eq left depth after hnext

theorem IsRead.apply {sign : Sign} {op : UnaryOp} (hsign : SignedBy sign op)
    (h : IsRead .signed tree kinds steps nesting) (htree : tree.span = {}) :
    IsRead .signed (.unary op tree {}) (.sign sign :: kinds) 0 (1 + nesting) := by
  intro left depth next after hnext
  have hop : unaryOp? (.sign sign) = some op := (unaryOp?_eq_some_iff _ _).2 ⟨sign, rfl, hsign⟩
  have hcurrent : current (bare (.sign sign :: (kinds ++ next :: after))) = .sign sign := rfl
  rw [List.cons_append, parserOf, unary, hcurrent, hop, advance_bare_append]
  rcases left with _ | less
  · exact ⟨fun hle => by omega, fun _ => ⟨_, rfl, rfl⟩⟩
  simp only [enter_deeperAt_succ, parsersAt_unary, currentSpan_bare]
  obtain ⟨hfits, hdeep⟩ := h.parserOf_eq less (depth + 1) after hnext
  rw [parserOf] at hfits hdeep
  refine ⟨fun hle => ?_, fun hlt => ?_⟩
  · rw [hfits (by omega)]
    simp only [htree, to_empty]
    rfl
  · obtain ⟨failure, hfailure, hfault⟩ := hdeep (by omega)
    exact ⟨failure, by rw [hfailure], hfault⟩

theorem IsRead.start (h : IsRead .primary tree kinds steps nesting) :
    IsRead .stepped tree kinds 0 nesting := by
  intro left depth next after _
  obtain ⟨hfits, hdeep⟩ := h.parserOf_eq left depth after rfl
  rw [parserOf] at hfits hdeep
  rw [parserOf, postfixChain]
  refine ⟨fun hle => ?_, fun hlt => ?_⟩
  · rw [hfits hle]
    rfl
  · obtain ⟨failure, hfailure, hfault⟩ := hdeep hlt
    exact ⟨failure, by rw [hfailure], hfault⟩

theorem IsRead.atom {kind : TokenKind} (h : Atom kind tree) : IsRead .primary tree [kind] 0 0 := by
  intro left depth next after _
  refine ⟨fun _ => ?_, fun hlt => by omega⟩
  have hatom : atom? kind {} = some tree := (atom?_eq_some_iff kind tree).2 h
  have hcurrent : current (bare ([kind] ++ next :: after)) = kind := rfl
  rw [parserOf, primary, hcurrent, currentSpan_bare, hatom]
  rfl

/-- A whole expression is read one level deeper. -/
theorem IsRead.expr_eq (h : IsRead .expression tree kinds steps nesting) (left depth : Nat)
    (next : TokenKind) (after : List TokenKind) (hnext : Category.expression.goesOn next = false) :
    (1 + nesting ≤ left →
      expr depth (deeperAt left depth) (bare (kinds ++ next :: after)) =
        .ok (tree, bare (next :: after))) ∧
    (left < 1 + nesting →
      TooDeep (expr depth (deeperAt left depth) (bare (kinds ++ next :: after)))) := by
  rcases left with _ | less
  · exact ⟨fun hle => by omega, fun _ => ⟨_, rfl, rfl⟩⟩
  obtain ⟨hfits, hdeep⟩ := h.parserOf_eq less (depth + 1) after hnext
  rw [expr_eq_enter, enter_deeperAt_succ, parsersAt_chain]
  exact ⟨fun hle => hfits (by omega), fun hlt => hdeep (by omega)⟩

theorem expect_bare (depth : Nat) (sign : Sign) (next : TokenKind) (after : List TokenKind) :
    expect depth sign (bare (.sign sign :: next :: after)) = .ok (bare (next :: after)) := by
  simp [expect, current, advance]

theorem IsRead.group (h : IsRead .expression tree kinds steps nesting) :
    IsRead .primary tree (.sign .leftParen :: (kinds ++ [.sign .rightParen])) 0 (1 + nesting) := by
  intro left depth next after _
  obtain ⟨hfits, hdeep⟩ := h.expr_eq left depth (.sign .rightParen) (next :: after) rfl
  have hcurrent : current (bare (.sign .leftParen ::
      (kinds ++ .sign .rightParen :: next :: after))) = .sign .leftParen := rfl
  have hnone : atom? (.sign .leftParen) {} = none := rfl
  simp only [List.cons_append, List.append_assoc, List.nil_append]
  rw [parserOf, primary, hcurrent, currentSpan_bare, hnone]
  simp only [advance_bare_append, if_true]
  refine ⟨fun hle => ?_, fun hlt => ?_⟩
  · rw [hfits hle]
    simp only [expect_bare]
    rfl
  · obtain ⟨failure, hfailure, hfault⟩ := hdeep hlt
    exact ⟨failure, by rw [hfailure], hfault⟩

end Operands

section Steps

variable {tree inner new : Expr} {trees : List Expr} {kinds kinds' : List TokenKind}
  {steps steps' nesting nesting' : Nat}

/-- A step makes a stepped phrase longer.  What the step itself takes of the levels
is `need`. -/
theorem IsRead.step (opener : Sign) (need : Nat) (hopener : opensStep (.sign opener) = true)
    (hobject : IsRead .stepped tree kinds steps nesting)
    (hstep : ∀ less depth next after,
      (need ≤ less →
        postfixRest depth (deeperAt (less + 1) depth) tree
            (bare (.sign opener :: (kinds' ++ next :: after))) =
          postfixRest (depth + 1) (deeperAt less (depth + 1)) new (bare (next :: after))) ∧
      (less < need →
        TooDeep (postfixRest depth (deeperAt (less + 1) depth) tree
          (bare (.sign opener :: (kinds' ++ next :: after)))))) :
    IsRead .stepped new (kinds ++ .sign opener :: kinds') (steps + 1)
      (max nesting (steps + 1 + need)) := by
  intro left depth next after _
  obtain ⟨hfits, hdeep⟩ := hobject left depth (.sign opener) (kinds' ++ next :: after) rfl
  simp only [List.append_assoc, List.cons_append]
  refine ⟨fun hle => ?_, fun hlt => ?_⟩
  · obtain ⟨less, hless⟩ : ∃ less, left - steps = less + 1 := ⟨left - steps - 1, by omega⟩
    rw [hfits (by omega), hless, resume, (hstep less _ next after).1 (by omega)]
    rw [show left - (steps + 1) = less by omega]
    rfl
  · by_cases hle : nesting ≤ left
    · rw [hfits hle]
      rcases hless : left - steps with _ | less
      · cases opener <;> first | exact ⟨_, rfl, rfl⟩ | simp [opensStep] at hopener
      · exact (hstep less _ next after).2 (by omega)
    · exact hdeep (by omega)

theorem IsRead.member {kind : TokenKind} {property : String}
    (hobject : IsRead .stepped tree kinds steps nesting) (hkind : NamesProperty kind property)
    (htree : tree.span = {}) :
    IsRead .stepped (.member tree property {}) (kinds ++ [.sign .dot, kind]) (steps + 1)
      (max nesting (steps + 1)) := by
  refine hobject.step .dot 0 rfl fun less depth next after => ?_
  refine ⟨fun _ => ?_, fun hlt => by omega⟩
  have hproperty : kind.propertyName? = some property := (propertyName?_eq_some_iff _ _).2 hkind
  have hcurrent : current (bare (.sign .dot :: ([kind] ++ next :: after))) = .sign .dot := rfl
  have hname : current (bare ([kind] ++ next :: after)) = kind := rfl
  rw [postfixRest, hcurrent]
  simp only [enter_deeperAt_succ, memberStep, advance_bare_append, hname, hproperty,
    currentSpan_bare, htree, to_empty, parsersAt_postfixRest]
  rfl

theorem IsRead.index (hobject : IsRead .stepped tree kinds steps nesting)
    (hkey : IsRead .expression inner kinds' steps' nesting') (htree : tree.span = {}) :
    IsRead .stepped (.index tree inner {})
      (kinds ++ .sign .leftBracket :: (kinds' ++ [.sign .rightBracket])) (steps + 1)
      (max nesting (steps + 1 + (1 + nesting'))) := by
  refine hobject.step .leftBracket _ rfl fun less depth next after => ?_
  obtain ⟨hfits, hdeep⟩ :=
    hkey.expr_eq less (depth + 1) (.sign .rightBracket) (next :: after) rfl
  simp only [List.append_assoc, List.cons_append, List.nil_append]
  have hcurrent : current (bare (.sign .leftBracket ::
      (kinds' ++ .sign .rightBracket :: next :: after))) = .sign .leftBracket := rfl
  rw [postfixRest, hcurrent]
  simp only [enter_deeperAt_succ, indexStep, advance_bare_append, parsersAt_expr]
  refine ⟨fun hle => ?_, fun hlt => ?_⟩
  · rw [hfits hle]
    simp only [expect_bare, currentSpan_bare, htree, to_empty, parsersAt_postfixRest]
  · obtain ⟨failure, hfailure, hfault⟩ := hdeep hlt
    exact ⟨failure, by rw [hfailure], hfault⟩

/-- How kinds are read as arguments, up to a closing parenthesis. -/
def AreRead (trees : List Expr) (kinds : List TokenKind) (nesting : Nat) : Prop :=
  ∀ (left depth fuel : Nat) (after : List TokenKind), kinds.length < fuel →
    (nesting ≤ left →
      arguments depth (expr depth (deeperAt left depth)) fuel
          (bare (kinds ++ .sign .rightParen :: after)) =
        .ok (trees, bare (.sign .rightParen :: after))) ∧
    (left < nesting →
      TooDeep (arguments depth (expr depth (deeperAt left depth)) fuel
        (bare (kinds ++ .sign .rightParen :: after))))

theorem AreRead.nothing : AreRead [] [] 0 := by
  intro left depth fuel after hfuel
  obtain ⟨fuel, rfl⟩ : ∃ less, fuel = less + 1 := ⟨fuel - 1, by omega⟩
  exact ⟨fun _ => by simp [arguments, current], fun hlt => by omega⟩

/-- Where an expression starts, the arguments go on. -/
theorem arguments_succ {depth fuel : Nat} {argument : Parser Expr} {after : List TokenKind}
    (hstart : ∃ kind rest, kinds = kind :: rest ∧ Category.expression.mayStart kind = true) :
    arguments depth argument (fuel + 1) (bare (kinds ++ after)) =
      match argument (bare (kinds ++ after)) with
      | .error failure => .error failure
      | .ok (first, tokens) =>
        if current tokens = .sign .comma then
          (arguments depth argument fuel (advance tokens)).map fun (others, rest) =>
            (first :: others, rest)
        else if current tokens = .sign .rightParen then .ok ([first], tokens)
        else fail depth (.unexpected (current tokens)) tokens := by
  obtain ⟨kind, rest, rfl, hkind⟩ := hstart
  have hne : current (bare (kind :: rest ++ after)) ≠ .sign .rightParen := by
    show kind ≠ .sign .rightParen
    rintro rfl
    simp [Category.mayStart] at hkind
  rw [arguments]
  exact if_neg hne

theorem AreRead.last (h : IsRead .expression tree kinds steps nesting)
    (hstart : ∃ kind rest, kinds = kind :: rest ∧ Category.expression.mayStart kind = true) :
    AreRead [tree] kinds (1 + nesting) := by
  intro left depth fuel after hfuel
  obtain ⟨fuel, rfl⟩ : ∃ less, fuel = less + 1 := ⟨fuel - 1, by omega⟩
  obtain ⟨hfits, hdeep⟩ := h.expr_eq left depth (.sign .rightParen) after rfl
  rw [arguments_succ hstart]
  refine ⟨fun hle => ?_, fun hlt => ?_⟩
  · rw [hfits hle]
    simp [current]
  · obtain ⟨failure, hfailure, hfault⟩ := hdeep hlt
    exact ⟨failure, by rw [hfailure], hfault⟩

theorem AreRead.more (h : IsRead .expression tree kinds steps nesting)
    (hstart : ∃ kind rest, kinds = kind :: rest ∧ Category.expression.mayStart kind = true)
    (hothers : AreRead trees kinds' nesting') :
    AreRead (tree :: trees) (kinds ++ .sign .comma :: kinds') (max (1 + nesting) nesting') := by
  intro left depth fuel after hfuel
  simp only [List.length_append, List.length_cons] at hfuel
  obtain ⟨fuel, rfl⟩ : ∃ less, fuel = less + 1 := ⟨fuel - 1, by omega⟩
  obtain ⟨hfits, hdeep⟩ :=
    h.expr_eq left depth (.sign .comma) (kinds' ++ .sign .rightParen :: after) rfl
  obtain ⟨hfits', hdeep'⟩ := hothers left depth fuel after (by omega)
  have hcomma : current (bare (.sign .comma :: (kinds' ++ .sign .rightParen :: after))) =
      .sign .comma := rfl
  rw [List.append_assoc, List.cons_append, arguments_succ hstart]
  refine ⟨fun hle => ?_, fun hlt => ?_⟩
  · rw [hfits (by omega)]
    simp only [hcomma, if_true, advance_bare_append]
    rw [hfits' (by omega)]
    rfl
  · by_cases hle : 1 + nesting ≤ left
    · obtain ⟨failure, hfailure, hfault⟩ := hdeep' (by omega)
      rw [hfits hle]
      simp only [hcomma, if_true, advance_bare_append]
      rw [hfailure]
      exact ⟨failure, rfl, hfault⟩
    · obtain ⟨failure, hfailure, hfault⟩ := hdeep (by omega)
      exact ⟨failure, by rw [hfailure], hfault⟩

theorem IsRead.call {text : String}
    (hcallee : IsRead .stepped (.name text {}) kinds steps nesting)
    (harguments : AreRead trees kinds' nesting') :
    IsRead .stepped (.call text trees {})
      (kinds ++ .sign .leftParen :: (kinds' ++ [.sign .rightParen])) (steps + 1)
      (max nesting (steps + 1 + nesting')) := by
  refine hcallee.step .leftParen _ rfl fun less depth next after => ?_
  simp only [List.append_assoc, List.cons_append, List.nil_append]
  have hcurrent : current (bare (.sign .leftParen ::
      (kinds' ++ .sign .rightParen :: next :: after))) = .sign .leftParen := rfl
  rw [postfixRest, hcurrent]
  simp only [enter_deeperAt_succ, callStep, advance_bare_append, parsersAt_expr]
  obtain ⟨hfits, hdeep⟩ :=
    harguments less (depth + 1) (bare (kinds' ++ .sign .rightParen :: next :: after)).length
      (next :: after) (by simp [bare])
  refine ⟨fun hle => ?_, fun hlt => ?_⟩
  · rw [hfits hle]
    simp only [expect_bare, currentSpan_bare, to_empty, parsersAt_postfixRest]
  · obtain ⟨failure, hfailure, hfault⟩ := hdeep hlt
    exact ⟨failure, by rw [hfailure], hfault⟩

end Steps

end Parse

/-! ## All phrases -/

mutual

/-- Every phrase is read, with as many levels as it is nested and with no fewer. -/
theorem Phrase.isRead {category : Category} {tree : Expr} (phrase : Phrase category tree) :
    IsRead category tree phrase.tokens phrase.steps phrase.nesting := by
  match phrase with
  | .operand only => exact only.isRead.operand
  | .join first sign hsign last =>
    exact first.isRead.join hsign last.isRead first.span_eq last.span_eq
  | .apply sign hsign body => exact body.isRead.apply hsign body.span_eq
  | .unsigned body => exact body.isRead.unsigned body.exists_first
  | .start body => exact body.isRead.start
  | .member object kind hkind => exact object.isRead.member hkind object.span_eq
  | .index object key => exact object.isRead.index key.isRead object.span_eq
  | .call callee arguments => exact callee.isRead.call arguments.areRead
  | .atom kind hkind => exact IsRead.atom hkind
  | .group inner => exact inner.isRead.group

/-- All arguments are read, with as many levels as they are nested and with no
fewer. -/
theorem Arguments.areRead {trees : List Expr} (list : Arguments trees) :
    AreRead trees list.tokens list.nesting := by
  match list with
  | .nothing => exact AreRead.nothing
  | .last argument => exact AreRead.last argument.isRead argument.exists_first
  | .more argument others =>
    exact AreRead.more argument.isRead argument.exists_first others.areRead

end

end DataExpr
