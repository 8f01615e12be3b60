import DataExpr.Expr.Parser

/-!
# Counting the open levels in place

The parsers are told how many levels of nesting are open around them, so no parser that succeeds
can have changed the number.  Here the number is a counter that all of them share with the
tokens left (`Counting`): it goes up with every step in, a chain puts it back to what it was
at its start, a prefix operator takes one away behind its operand, and a failure leaves it as it
stands.  Both ways are the same (`parse_run`): the counter is back where it was behind everything
that is read, and a failure finds it where the parsers say, at no less than before.

There is one lemma for each part of the parser, and `Counters.Follow` carries the deeper levels.
-/

namespace DataExpr.Parse

/-- A parser that keeps the tokens left and the number of open levels, also where it fails. -/
abbrev Counting := EStateM SyntaxFault State

/-! ## The parser with a counter -/

namespace Counting

/-- The kind of the token that comes next. -/
def kind : Counting TokenKind :=
  return current (← get).tokens

/-- Where the token that comes next stands. -/
def span : Counting Span :=
  return currentSpan (← get).tokens

/-- Passes the next token. -/
def advance : Counting Unit :=
  modify fun state => { state with tokens := Parse.advance state.tokens }

@[simp] theorem run_kind (state : State) :
    kind.run state = .ok (current state.tokens) state := rfl

@[simp] theorem run_span (state : State) :
    span.run state = .ok (currentSpan state.tokens) state := rfl

@[simp] theorem run_advance (depth : Nat) (tokens : List Token) :
    advance.run ⟨depth, tokens⟩ = .ok () ⟨depth, Parse.advance tokens⟩ := rfl

/-- Passes a sign that has to come next. -/
def expect (sign : Sign) : Counting Unit := do
  if (← kind) = .sign sign then advance
  else throw (.missingSign sign (← kind))

theorem run_expect (sign : Sign) (depth : Nat) (tokens : List Token) :
    (expect sign).run ⟨depth, tokens⟩ =
      if current tokens = .sign sign then .ok () ⟨depth, Parse.advance tokens⟩
      else .error (.missingSign sign (current tokens)) ⟨depth, tokens⟩ := by
  simp only [expect, EStateM.run_bind, run_kind]
  split <;> rfl

/-- Opens one more level.  The counter stays up if that is one too many. -/
def enter : Counting Unit := do
  modify fun state => { state with depth := state.depth + 1 }
  if maxNesting < (← get).depth then throw .tooDeep

/-- Puts the counter back to what it was, behind a body that succeeds. -/
def restoring (body : Counting Expr) : Counting Expr := do
  let base := (← get).depth
  let tree ← body
  modify fun state => { state with depth := base }
  return tree

/-- Opens a level for a body, and takes it away again if the body succeeds. -/
def oneDeeper (body : Counting Expr) : Counting Expr := do
  enter
  let tree ← body
  modify fun state => { state with depth := state.depth - 1 }
  return tree

end Counting

/-- The parsers that a chain or an inner expression goes on with. -/
structure Counters where
  /-- An operand of the tightest level. -/
  unary : Counting Expr
  /-- An operand of the level above the given ones. -/
  chain : List Level → Counting Expr
  /-- The rest of a chain of one level, whose operands are of the tighter ones. -/
  chainLoop : Level → List Level → Expr → Counting Expr
  /-- A whole expression. -/
  expr : Counting Expr
  /-- The rest of a chain of postfix steps. -/
  postfixLoop : Expr → Counting Expr

namespace Counting

section

variable (deeper : Counters)

/-- A whole expression. -/
def expr : Counting Expr :=
  restoring do
    enter
    deeper.chain levels

/-- Expressions with commas between them, up to a closing parenthesis. -/
def arguments (argument : Counting Expr) : Nat → Counting (List Expr)
  | 0 => do throw (.unexpected (← kind))
  | fuel + 1 => do
      if (← kind) = .sign .rightParen then return []
      else
        let first ← argument
        if (← kind) = .sign .comma then
          advance
          let others ← arguments argument fuel
          return first :: others
        else if (← kind) = .sign .rightParen then return [first]
        else throw (.unexpected (← kind))

/-- A single token, or an expression in parentheses. -/
def primary : Counting Expr := do
  match atom? (← kind) (← span) with
  | some atom =>
      advance
      return atom
  | none =>
      if (← kind) = .sign .leftParen then
        advance
        let inner ← expr deeper
        expect .rightParen
        return inner
      else throw (.unexpected (← kind))

/-- The step `.name` behind an expression, and what follows it. -/
def memberStep (object : Expr) : Counting Expr := do
  advance
  match (← kind).propertyName? with
  | some property =>
      let span := object.span.to (← span)
      advance
      deeper.postfixLoop (.member object property span)
  | none => throw (.missingProperty (← kind))

/-- The step `[key]` behind an expression, and what follows it. -/
def indexStep (object : Expr) : Counting Expr := do
  advance
  let key ← deeper.expr
  let span := object.span.to (← span)
  expect .rightBracket
  deeper.postfixLoop (.index object key span)

/-- The step `(arguments)` behind an expression, and what follows it. -/
def callStep (callee : Expr) : Counting Expr := do
  match callee with
  | .name text start =>
      advance
      let values ← arguments deeper.expr (← get).tokens.length
      let span := start.to (← span)
      expect .rightParen
      deeper.postfixLoop (.call text values span)
  | _ => throw .calleeNotName

/-- The postfix steps behind an expression. -/
def postfixLoop (left : Expr) : Counting Expr := do
  match ← kind with
  | .sign .dot => do enter; memberStep deeper left
  | .sign .leftBracket => do enter; indexStep deeper left
  | .sign .leftParen => do enter; callStep deeper left
  | _ => return left

/-- A primary expression and the postfix steps behind it. -/
def postfixChain : Counting Expr :=
  restoring do
    let first ← primary deeper
    postfixLoop deeper first

/-- Prefix operators and what they apply to. -/
def unary : Counting Expr := do
  match unaryOp? (← kind) with
  | none => postfixChain deeper
  | some op =>
      let start ← span
      advance
      let operand ← oneDeeper deeper.unary
      return .unary op operand (start.to operand.span)

/-- The rest of a chain of operators of one level. -/
def chainLoop (level : Level) (tighter : List Level) (left : Expr) : Counting Expr := do
  match level.connective? (← kind) with
  | none => return left
  | some connective =>
      advance
      enter
      let right ← deeper.chain tighter
      deeper.chainLoop level tighter (connective.join left right)

/-- A chain of operators of the first of some levels, whose operands are of the others. -/
def chain : List Level → Counting Expr
  | [] => unary deeper
  | level :: tighter =>
      restoring do
        let first ← chain tighter
        chainLoop deeper level tighter first

end

end Counting

/-- The parsers that may take so many steps in.  Where no step is left the counter is past the
limit already. -/
def countersWithin : Nat → Counters
  | 0 => ⟨throw .tooDeep, fun _ => throw .tooDeep, fun _ _ _ => throw .tooDeep, throw .tooDeep,
      fun _ => throw .tooDeep⟩
  | steps + 1 =>
      let deeper := countersWithin steps
      { unary := Counting.unary deeper
        chain := Counting.chain deeper
        chainLoop := Counting.chainLoop deeper
        expr := Counting.expr deeper
        postfixLoop := Counting.postfixLoop deeper }

/-- Parses all tokens left as one expression. -/
def Counting.parse : Counting Expr := do
  if (← kind) = .endOfInput then throw .nothing
  else
    let tree ← (countersWithin (maxNesting + 1)).expr
    if (← kind) = .endOfInput then return tree
    else throw (.unexpected (← kind))

/-! ## Outcomes side by side -/

/-- The outcome of a parser that is told the number of open levels, and that of one that counts
them.  If they succeed then the counter ends at certain numbers, and a failure leaves it where the
first says, at no less than a certain number. -/
inductive Matches {α : Type} (depth : Nat) (Ends : Nat → Prop) :
    Except SyntaxFailure (α × List Token) → EStateM.Result SyntaxFault State α → Prop where
  | ok {result : α} {rest : List Token} {last : Nat} (h : Ends last) :
      Matches depth Ends (.ok (result, rest)) (.ok result ⟨last, rest⟩)
  | error {failure : SyntaxFailure} (h : depth ≤ failure.depth) :
      Matches depth Ends (.error failure) (.error failure.fault ⟨failure.depth, failure.rest⟩)

/-- From a number of open levels on, one parser counts what the other is told. -/
def Follows {α : Type} (depth : Nat) (Ends : Nat → Prop) (counting : Counting α)
    (parser : Parser α) : Prop :=
  ∀ tokens, Matches depth Ends (parser tokens) (counting.run ⟨depth, tokens⟩)

/-- And all that succeeds leaves the counter where it was. -/
def Keeps {α : Type} (depth : Nat) (counting : Counting α) (parser : Parser α) : Prop :=
  Follows depth (· = depth) counting parser

/-- All of these parsers count what the others are told. -/
structure Counters.Follow (counters : Counters) (depth : Nat) (parsers : Parsers) : Prop where
  unary : Keeps depth counters.unary parsers.unary
  chain : ∀ tighter, Keeps depth (counters.chain tighter) (parsers.chain tighter)
  chainLoop : ∀ level tighter left, Follows depth (fun _ => True)
    (counters.chainLoop level tighter left) (parsers.chainRest level tighter left)
  expr : Keeps depth counters.expr parsers.expr
  postfixLoop : ∀ left, Follows depth (fun _ => True) (counters.postfixLoop left)
    (parsers.postfixRest left)

/-- What is one level deeper: either there is a level left, or the limit is reached. -/
inductive Counters.Below (depth : Nat) (deeper : Counters) : Option Parsers → Prop where
  | level {parsers : Parsers} (hdepth : depth < maxNesting)
      (hfollow : deeper.Follow (depth + 1) parsers) : Counters.Below depth deeper (some parsers)
  | limit (hdepth : maxNesting ≤ depth) : Counters.Below depth deeper none

section

variable {α : Type} {depth : Nat} {Ends : Nat → Prop}

/-- A failure one level in leaves the counter no lower than it was outside. -/
theorem Matches.outward {outcome : Except SyntaxFailure (α × List Token)}
    {result : EStateM.Result SyntaxFault State α} (h : Matches (depth + 1) Ends outcome result) :
    Matches depth Ends outcome result := by
  cases h with
  | ok h => exact .ok h
  | error h => exact .error (Nat.le_of_succ_le h)

/-- A failure at the next token leaves the counter where it is. -/
theorem Matches.fail (fault : SyntaxFault) (tokens : List Token) :
    Matches depth Ends (fail depth fault tokens : Except SyntaxFailure (α × List Token))
      (.error fault ⟨depth, tokens⟩) :=
  .error (Nat.le_refl depth)

theorem Keeps.loosen {counting : Counting α} {parser : Parser α} (h : Keeps depth counting parser) :
    Follows depth (fun _ => True) counting parser := by
  intro tokens
  have hmatches := h tokens
  generalize parser tokens = outcome at hmatches ⊢
  generalize counting.run ⟨depth, tokens⟩ = result at hmatches ⊢
  cases hmatches with
  | ok _ => exact .ok trivial
  | error h => exact .error h

/-- One parser behind another. -/
theorem Keeps.behind {first : Parser Expr} {counting : Counting Expr} {next : Expr → Parser α}
    {rest : Expr → Counting α} (hfirst : Keeps depth counting first)
    (hnext : ∀ result, Follows depth Ends (rest result) (next result)) :
    Follows depth Ends (counting >>= rest) fun tokens => match first tokens with
      | .error failure => .error failure
      | .ok (result, tokens) => next result tokens := by
  intro tokens
  have h := hfirst tokens
  dsimp only
  rw [EStateM.run_bind]
  generalize first tokens = outcome at h ⊢
  generalize counting.run ⟨depth, tokens⟩ = result at h ⊢
  cases h with
  | ok hlast =>
    subst hlast
    exact hnext _ _
  | error hdepth => exact .error hdepth

theorem Follows.behind_advance {counting : Counting α} {parser : Parser α}
    (h : Follows depth Ends counting parser) :
    Follows depth Ends (Counting.advance >>= fun _ => counting)
      fun tokens => parser (advance tokens) :=
  fun tokens => h (advance tokens)

/-- A sign that has to come is passed by both or missed by both, and its place is known behind. -/
theorem Follows.behind_sign (sign : Sign) {counting : Span → Counting α} {next : Span → Parser α}
    (h : ∀ place, Follows depth Ends (counting place) (next place)) :
    Follows depth Ends
      (Counting.span >>= fun place => Counting.expect sign >>= fun _ => counting place)
      fun tokens => match expect depth sign tokens with
        | .error failure => .error failure
        | .ok rest => next (currentSpan tokens) rest := by
  intro tokens
  simp only [EStateM.run_bind, Counting.run_span, Counting.run_expect, expect]
  by_cases hsign : current tokens = .sign sign
  · simp only [if_pos hsign]
    exact h (currentSpan tokens) (advance tokens)
  · simp only [if_neg hsign]
    exact .fail _ tokens

/-- Passing a sign keeps the counter. -/
theorem keeps_close (depth : Nat) (sign : Sign) (tree : Expr) :
    Keeps depth (Counting.expect sign >>= fun _ => pure tree)
      fun tokens => (expect depth sign tokens).map fun rest => (tree, rest) := by
  intro tokens
  by_cases hsign : current tokens = .sign sign
  · simp only [Counting.run_expect, expect, if_pos hsign, EStateM.run_bind]
    exact .ok rfl
  · simp only [Counting.run_expect, expect, if_neg hsign, EStateM.run_bind]
    exact .fail _ tokens

/-- A chain that puts the counter back keeps it. -/
theorem Follows.restoring {counting : Counting Expr} {parser : Parser Expr}
    (h : Follows depth Ends counting parser) : Keeps depth (Counting.restoring counting) parser := by
  intro tokens
  have hbody := h tokens
  simp only [Counting.restoring, EStateM.run_bind, EStateM.run_get]
  generalize parser tokens = outcome at hbody ⊢
  generalize counting.run ⟨depth, tokens⟩ = result at hbody ⊢
  cases hbody with
  | ok _ => exact .ok rfl
  | error hdepth => exact .error hdepth

/-- A step in opens a level, or fails above the limit. -/
theorem Follows.behind_enter {deeper : Counters} {deeper? : Option Parsers}
    (hdeeper : deeper.Below depth deeper?) {counting : Counting α} {body : Parsers → Parser α}
    (hbody : ∀ parsers, deeper.Follow (depth + 1) parsers →
      Follows (depth + 1) Ends counting (body parsers)) :
    Follows depth Ends (Counting.enter >>= fun _ => counting) (Parse.enter depth deeper? body) := by
  intro tokens
  rw [EStateM.run_bind]
  cases hdeeper with
  | level hdepth hfollow =>
    have hrun : Counting.enter.run ⟨depth, tokens⟩ = .ok () ⟨depth + 1, tokens⟩ := by
      simp [Counting.enter, Nat.not_lt.2 (Nat.succ_le_of_lt hdepth)]
    rw [hrun]
    exact (hbody _ hfollow tokens).outward
  | limit hdepth =>
    have hrun : Counting.enter.run ⟨depth, tokens⟩ = .error .tooDeep ⟨depth + 1, tokens⟩ := by
      simp [Counting.enter, Nat.lt_succ_of_le hdepth]
    rw [hrun]
    exact (Matches.fail .tooDeep tokens).outward

/-- A level that is opened for a parser that keeps the counter can be taken away behind it. -/
theorem Keeps.oneDeeper {deeper : Counters} {deeper? : Option Parsers}
    (hdeeper : deeper.Below depth deeper?) {counting : Counting Expr}
    {body : Parsers → Parser Expr}
    (hbody : ∀ parsers, deeper.Follow (depth + 1) parsers →
      Keeps (depth + 1) counting (body parsers)) :
    Keeps depth (Counting.oneDeeper counting) (enter depth deeper? body) := by
  refine Follows.behind_enter hdeeper fun parsers hfollow tokens => ?_
  have hmatches := hbody parsers hfollow tokens
  rw [EStateM.run_bind]
  generalize body parsers tokens = outcome at hmatches ⊢
  generalize counting.run ⟨depth + 1, tokens⟩ = result at hmatches ⊢
  cases hmatches with
  | ok hlast =>
    subst hlast
    exact .ok rfl
  | error hdepth => exact .error hdepth

end

/-! ## Parsers at one depth -/

section

variable {depth : Nat} {deeper : Counters} {deeper? : Option Parsers}

theorem expr_keeps (hdeeper : deeper.Below depth deeper?) :
    Keeps depth (Counting.expr deeper) (expr depth deeper?) :=
  (Follows.behind_enter hdeeper fun _ h => (h.chain levels).loosen).restoring

theorem arguments_keeps {counting : Counting Expr} {argument : Parser Expr}
    (hargument : Keeps depth counting argument) (fuel : Nat) :
    Keeps depth (Counting.arguments counting fuel) (arguments depth argument fuel) := by
  intro tokens
  induction fuel generalizing tokens with
  | zero => exact .fail _ tokens
  | succ fuel ih =>
    simp only [Counting.arguments, arguments, EStateM.run_bind, Counting.run_kind]
    by_cases hclose : current tokens = .sign .rightParen
    · simp only [if_pos hclose]
      exact .ok rfl
    have hfirst := hargument tokens
    simp only [if_neg hclose, EStateM.run_bind]
    generalize argument tokens = outcome at hfirst ⊢
    generalize counting.run ⟨depth, tokens⟩ = result at hfirst ⊢
    cases hfirst with
    | error hdepth => exact .error hdepth
    | @ok first rest last hlast =>
      subst hlast
      simp only [Counting.run_kind]
      by_cases hcomma : current rest = .sign .comma
      · have hothers := ih (advance rest)
        simp only [if_pos hcomma, EStateM.run_bind, Counting.run_advance]
        generalize arguments last argument fuel (advance rest) = outcome at hothers ⊢
        generalize (Counting.arguments counting fuel).run ⟨last, advance rest⟩ = result
          at hothers ⊢
        cases hothers with
        | error hdepth => exact .error hdepth
        | ok hlast => exact .ok hlast
      simp only [if_neg hcomma, EStateM.run_bind, Counting.run_kind]
      by_cases hend : current rest = .sign .rightParen
      · simp only [if_pos hend]
        exact .ok rfl
      · simp only [if_neg hend]
        exact .fail _ rest

theorem primary_keeps (hdeeper : deeper.Below depth deeper?) :
    Keeps depth (Counting.primary deeper) (primary depth deeper?) := by
  intro tokens
  simp only [Counting.primary, primary, EStateM.run_bind, Counting.run_kind, Counting.run_span]
  cases atom? (current tokens) (currentSpan tokens) with
  | some atom => exact .ok rfl
  | none =>
    simp only [EStateM.run_bind, Counting.run_kind]
    by_cases hopen : current tokens = .sign .leftParen
    · simp only [if_pos hopen]
      exact (Keeps.behind (expr_keeps hdeeper) (keeps_close depth .rightParen)).behind_advance
        tokens
    · simp only [if_neg hopen]
      exact .fail _ tokens

section

variable {parsers : Parsers} (hfollow : deeper.Follow (depth + 1) parsers)

include hfollow

theorem memberStep_follows (object : Expr) :
    Follows (depth + 1) (fun _ => True) (Counting.memberStep deeper object)
      (memberStep depth object parsers) := by
  intro tokens
  simp only [Counting.memberStep, memberStep, EStateM.run_bind, Counting.run_advance,
    Counting.run_kind]
  cases (current (advance tokens)).propertyName? with
  | some property => exact hfollow.postfixLoop _ _
  | none => exact .fail _ _

theorem indexStep_follows (object : Expr) :
    Follows (depth + 1) (fun _ => True) (Counting.indexStep deeper object)
      (indexStep depth object parsers) :=
  (hfollow.expr.behind fun _ =>
    .behind_sign .rightBracket fun _ => hfollow.postfixLoop _).behind_advance

theorem callStep_follows (callee : Expr) :
    Follows (depth + 1) (fun _ => True) (Counting.callStep deeper callee)
      (callStep depth callee parsers) := by
  intro tokens
  cases callee with
  | name text start =>
    have harguments := arguments_keeps hfollow.expr (advance tokens).length (advance tokens)
    simp only [Counting.callStep, callStep, EStateM.run_bind, Counting.run_advance, EStateM.run_get]
    generalize arguments (depth + 1) parsers.expr _ (advance tokens) = outcome at harguments ⊢
    generalize (Counting.arguments deeper.expr _).run _ = result at harguments ⊢
    cases harguments with
    | error hdepth => exact .error hdepth
    | @ok values rest _ hlast =>
      subst hlast
      have hrest (place : Span) := hfollow.postfixLoop (.call text values (start.to place))
      exact Follows.behind_sign .rightParen hrest rest
  | _ => exact .fail _ tokens

end

theorem postfixLoop_follows (hdeeper : deeper.Below depth deeper?) (left : Expr) :
    Follows depth (fun _ => True) (Counting.postfixLoop deeper left)
      (postfixRest depth deeper? left) := by
  intro tokens
  simp only [Counting.postfixLoop, postfixRest, EStateM.run_bind, Counting.run_kind]
  cases current tokens with
  | sign sign =>
    cases sign with
    | dot => exact Follows.behind_enter hdeeper (fun _ h => memberStep_follows h left) tokens
    | leftBracket => exact Follows.behind_enter hdeeper (fun _ h => indexStep_follows h left) tokens
    | leftParen => exact Follows.behind_enter hdeeper (fun _ h => callStep_follows h left) tokens
    | _ => exact .ok trivial
  | _ => exact .ok trivial

theorem postfixChain_keeps (hdeeper : deeper.Below depth deeper?) :
    Keeps depth (Counting.postfixChain deeper) (postfixChain depth deeper?) :=
  ((primary_keeps hdeeper).behind (postfixLoop_follows hdeeper)).restoring

theorem unary_keeps (hdeeper : deeper.Below depth deeper?) :
    Keeps depth (Counting.unary deeper) (unary depth deeper?) := by
  intro tokens
  simp only [Counting.unary, unary, EStateM.run_bind, Counting.run_kind]
  cases unaryOp? (current tokens) with
  | none => exact postfixChain_keeps hdeeper tokens
  | some op =>
    have hoperand : Keeps depth (Counting.oneDeeper deeper.unary) (enter depth deeper? (·.unary)) :=
      .oneDeeper hdeeper fun _ h => h.unary
    have hresult (operand : Expr) : Keeps depth
        (pure (Expr.unary op operand ((currentSpan tokens).to operand.span)))
        fun rest => .ok (Expr.unary op operand ((currentSpan tokens).to operand.span), rest) :=
      fun _ => .ok rfl
    exact (hoperand.behind hresult).behind_advance tokens

theorem chainLoop_follows (hdeeper : deeper.Below depth deeper?) (level : Level)
    (tighter : List Level) (left : Expr) :
    Follows depth (fun _ => True) (Counting.chainLoop deeper level tighter left)
      (chainRest depth deeper? level tighter left) := by
  intro tokens
  simp only [Counting.chainLoop, chainRest, EStateM.run_bind, Counting.run_kind]
  cases level.connective? (current tokens) with
  | none => exact .ok trivial
  | some connective =>
    refine (Follows.behind_enter hdeeper fun parsers hfollow => ?_).behind_advance tokens
    exact (hfollow.chain tighter).behind fun _ => hfollow.chainLoop level tighter _

theorem chain_keeps (hdeeper : deeper.Below depth deeper?) (tighter : List Level) :
    Keeps depth (Counting.chain deeper tighter) (chain depth deeper? tighter) := by
  induction tighter with
  | nil => exact unary_keeps hdeeper
  | cons level tighter ih =>
    exact (ih.behind (chainLoop_follows hdeeper level tighter)).restoring

end

theorem follow_parsersAbove {depth : Nat} {steps : Nat} {deeper? : Option Parsers}
    (hdeeper : (countersWithin steps).Below depth deeper?) :
    (countersWithin (steps + 1)).Follow depth (parsersAbove depth deeper?) where
  unary := unary_keeps hdeeper
  chain := chain_keeps hdeeper
  chainLoop := chainLoop_follows hdeeper
  expr := expr_keeps hdeeper
  postfixLoop := postfixLoop_follows hdeeper

/-- With enough steps, the parsers that count are those that are told the number. -/
theorem countersWithin_follow (steps depth : Nat) (h : maxNesting ≤ depth + steps) :
    (countersWithin (steps + 1)).Follow depth (parsersAt (maxNesting - depth) depth) := by
  induction steps generalizing depth with
  | zero =>
    have hleft : maxNesting - depth = 0 := by omega
    rw [hleft]
    exact follow_parsersAbove (.limit h)
  | succ steps ih =>
    cases hleft : maxNesting - depth with
    | zero => exact follow_parsersAbove (.limit (by omega))
    | succ left =>
      have hfollow := ih (depth + 1) (by omega)
      rw [show maxNesting - (depth + 1) = left by omega] at hfollow
      exact follow_parsersAbove (.level (by omega) hfollow)

/-! ## Whole texts -/

/-- What a parser that keeps the count in place gives for an outcome and the state behind it. -/
def resultOf : Except SyntaxFailure Expr × State → EStateM.Result SyntaxFault State Expr
  | (.ok tree, state) => .ok tree state
  | (.error failure, state) => .error failure.fault state

/-- Counting in place gives the same outcome and the same state behind it. -/
theorem parse_run (state : State) : Counting.parse.run state = resultOf state.next := by
  simp only [Counting.parse, State.next, EStateM.run_bind, Counting.run_kind]
  by_cases hnothing : current state.tokens = .endOfInput
  · simp only [if_pos hnothing]
    rfl
  have hexpr := (countersWithin_follow maxNesting state.depth (Nat.le_add_left _ _)).expr
    state.tokens
  simp only [if_neg hnothing, EStateM.run_bind]
  generalize (parsersAt (maxNesting - state.depth) state.depth).expr state.tokens = outcome
    at hexpr ⊢
  generalize (countersWithin (maxNesting + 1)).expr.run ⟨state.depth, state.tokens⟩ = result
    at hexpr ⊢
  cases hexpr with
  | error hdepth => rfl
  | @ok tree rest last hlast =>
    subst hlast
    simp only [Counting.run_kind]
    by_cases hend : current rest = .endOfInput
    · simp only [if_pos hend]
      rfl
    · simp only [if_neg hend]
      rfl

/-- No call leaves fewer levels open than it found. -/
theorem State.depth_le_next_depth (state : State) : state.depth ≤ state.next.2.depth := by
  unfold State.next
  split
  · exact Nat.le_refl _
  have hexpr := (countersWithin_follow maxNesting state.depth (Nat.le_add_left _ _)).expr
    state.tokens
  generalize (parsersAt (maxNesting - state.depth) state.depth).expr state.tokens = outcome
    at hexpr ⊢
  generalize (countersWithin (maxNesting + 1)).expr.run ⟨state.depth, state.tokens⟩ = result
    at hexpr
  cases hexpr with
  | error hdepth => exact hdepth
  | ok _ =>
    dsimp only
    split <;> exact Nat.le_refl _

end DataExpr.Parse
