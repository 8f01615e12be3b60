import DataExpr.Proofs.Syntax.Counter
import DataExpr.Proofs.Syntax.Coupling

/-!
# Parsing on after a failure

A failed call leaves levels of nesting open and the token at fault in place, and the next call
starts from there.  All that the open levels can do to it is to make it fail as nested too deeply
(`parser_reuse`): short of that it gives what it would give with no level open, and what is too
deep with none open is too deep with any.

With fewer levels left a parser gives what it gives with more, unless it runs out of them
(`Curtails`).  The run with fewer levels and the one with more have all tokens and trees in common
(`levelsShort`), so this is a case of what holds of two runs of the parser.
-/

namespace DataExpr

namespace Parse

/-- An outcome with fewer levels left beside one with more: it is the same but for the number of
open levels, or there were too few. -/
inductive Curtails {α : Type} :
    Except SyntaxFailure (α × List Token) → Except SyntaxFailure (α × List Token) → Prop where
  | ok (result : α × List Token) : Curtails (.ok result) (.ok result)
  | error (fault : SyntaxFault) (fewer more : Nat) (rest : List Token) :
      Curtails (.error ⟨fault, fewer, rest⟩) (.error ⟨fault, more, rest⟩)
  | tooDeep (depth : Nat) (rest : List Token) (outcome : Except SyntaxFailure (α × List Token)) :
      Curtails (.error ⟨.tooDeep, depth, rest⟩) outcome

/-- One parser gives what another gives, unless it runs out of levels. -/
def Curbs {α : Type} (fewer more : Parser α) : Prop :=
  ∀ tokens, Curtails (fewer tokens) (more tokens)

/-- All of these parsers do. -/
structure Parsers.Curb (fewer more : Parsers) : Prop where
  expr : Curbs fewer.expr more.expr
  unary : Curbs fewer.unary more.unary
  chain : ∀ tighter, Curbs (fewer.chain tighter) (more.chain tighter)
  chainRest : ∀ level tighter left,
    Curbs (fewer.chainRest level tighter left) (more.chainRest level tighter left)
  postfixRest : ∀ left, Curbs (fewer.postfixRest left) (more.postfixRest left)

/-- The runs have the same tokens and trees, and the first may have too few levels. -/
def levelsShort : Coupling where
  Depths _ _ := True
  Tokens tokens tokens' := tokens = tokens'
  Trees tree tree' := tree = tree'
  Failures failure failure' := failure.fault = failure'.fault ∧ failure.rest = failure'.rest
  last := []
  FewerLevels := True
  depths_succ _ := trivial
  outline_eq h := by rw [h]
  ends h := .inl (by rw [h])
  tokens_advance h _ := .inl (by rw [h])
  failures_fail _ h _ := ⟨by rw [h], h⟩
  sameNaming h := by rw [h, SameNaming]
  trees_atom h hatom hatom' := by
    rw [h, hatom'] at hatom
    exact (Option.some.inj hatom).symm
  trees_member h htree hproperty hproperty' := by
    rw [h, hproperty'] at hproperty
    rw [h, htree, Option.some.inj hproperty]
  trees_index h htree hkey := by rw [h, htree, hkey]
  trees_call h hname hvalues := by
    rw [List.forall₂_eq_eq_eq] at hvalues
    obtain ⟨rfl, rfl⟩ := Expr.name.inj hname
    rw [h, hvalues]
  trees_unary h htree _ := by rw [h, htree]
  trees_join hleft hright _ := by rw [hleft, hright]

theorem curtails_of_outcomes {outcome outcome' : Except SyntaxFailure (Expr × List Token)}
    (h : levelsShort.Outcomes levelsShort.Trees outcome outcome') : Curtails outcome outcome' := by
  cases h with
  | @ok result _ rest _ hresult hrest =>
    obtain rfl : result = _ := hresult
    obtain rfl : rest = _ := hrest
    exact .ok _
  | @error failure failure' h =>
    obtain ⟨fault, fewer, rest⟩ := failure
    obtain ⟨fault', more, rest'⟩ := failure'
    obtain ⟨rfl, rfl⟩ : fault = fault' ∧ rest = rest' := h
    exact .error fault fewer more rest
  | beyond h => exact absurd List.nil_suffix h.passed
  | @excused failure h =>
    obtain ⟨fault, depth, rest⟩ := failure
    rcases h with h | ⟨-, htooDeep⟩
    · exact absurd List.nil_suffix h.passed
    · obtain rfl : fault = .tooDeep := htooDeep
      exact .tooDeep depth rest _

/-- Fewer levels left curb the parsers, at any depths. -/
theorem parsersAt_curb {fewer more : Nat} (h : fewer ≤ more) (depth depth' : Nat) :
    (parsersAt fewer depth).Curb (parsersAt more depth') := by
  have hlink : levelsShort.Link (parsersAt fewer depth) (parsersAt more depth') :=
    levelsShort.link_parsersAt trivial (.inr ⟨h, trivial⟩)
  exact {
    expr := fun _ => curtails_of_outcomes (hlink.expr _ _ rfl)
    unary := fun _ => curtails_of_outcomes (hlink.unary _ _ rfl)
    chain := fun tighter _ => curtails_of_outcomes (hlink.chain tighter _ _ rfl)
    chainRest := fun level tighter _ _ =>
      curtails_of_outcomes (hlink.chainRest level tighter rfl _ _ rfl)
    postfixRest := fun _ _ => curtails_of_outcomes (hlink.postfixRest rfl _ _ rfl) }

/-! ## Calls -/

namespace State

/-- What a call gives, as the tokens are of a text. -/
def call (state : State) (source : String) : Except Error Expr :=
  state.next.1.mapError (toError · source)

/-- The state after some calls. -/
def after (state : State) : Nat → State
  | 0 => state
  | calls + 1 => state.next.2.after calls

/-- The same tokens left, and no level open. -/
def shallow (state : State) : State :=
  { state with depth := 0 }

end State

/-- The outcome is an error in the text, with a certain message. -/
def Complains (message : String) (outcome : Except Error Expr) : Prop :=
  ∃ line column sourceLine,
    outcome = .error { cause := .malformed message line column sourceLine }

namespace State

theorem next_of_endOfInput {state : State} (h : current state.tokens = .endOfInput) :
    state.next = (.error ⟨.nothing, state.depth, state.tokens⟩, state) :=
  if_pos h

theorem after_of_endOfInput {state : State} (h : current state.tokens = .endOfInput)
    (calls : Nat) : state.after calls = state := by
  induction calls with
  | zero => rfl
  | succ calls ih => rw [after, next_of_endOfInput h, ih]

/-- Whatever is read ends the text, with the levels open that were open before. -/
theorem next_of_ok {state : State} {tree : Expr} (h : state.next.1 = .ok tree) :
    state.next.2.depth = state.depth ∧ current state.next.2.tokens = .endOfInput := by
  by_cases hnothing : current state.tokens = .endOfInput
  · rw [next_of_endOfInput hnothing] at h
    cases h
  rcases hexpr : (parsersAt (maxNesting - state.depth) state.depth).expr state.tokens with
    failure | ⟨read, rest⟩
  · simp [next, hnothing, hexpr] at h
  · by_cases hend : current rest = .endOfInput
    · simp [next, hnothing, hexpr, hend]
    · simp [next, hnothing, hexpr, hend] at h

/-- Levels that are open cannot be closed by calls. -/
theorem depth_le_after (state : State) (calls : Nat) :
    state.depth ≤ (state.after calls).depth := by
  induction calls generalizing state with
  | zero => exact Nat.le_refl _
  | succ calls ih => exact Nat.le_trans state.depth_le_next_depth (ih state.next.2)

/-- A call is too deep, or gives what it gives with no level open. -/
theorem call_shallow (state : State) (source : String) :
    Complains "expression nested too deeply" (state.call source) ∨
      state.call source = state.shallow.call source ∧
        state.next.2.tokens = state.shallow.next.2.tokens := by
  have hcurb := (parsersAt_curb (Nat.sub_le_sub_left (Nat.zero_le state.depth) maxNesting)
    state.depth 0).expr state.tokens
  unfold call next shallow
  dsimp only
  by_cases hnothing : current state.tokens = .endOfInput
  · rw [if_pos hnothing, if_pos hnothing]
    exact .inr ⟨rfl, rfl⟩
  rw [if_neg hnothing, if_neg hnothing]
  generalize (parsersAt (maxNesting - state.depth) state.depth).expr state.tokens = outcome
    at hcurb ⊢
  generalize (parsersAt (maxNesting - 0) 0).expr state.tokens = outcome' at hcurb ⊢
  cases hcurb with
  | ok result =>
    dsimp only
    by_cases hend : current result.2 = .endOfInput
    · rw [if_pos hend, if_pos hend]
      exact .inr ⟨rfl, rfl⟩
    · rw [if_neg hend, if_neg hend]
      exact .inr ⟨rfl, rfl⟩
  | error fault fewer more rest => exact .inr ⟨rfl, rfl⟩
  | tooDeep depth rest outcome => exact .inl ⟨_, _, _, rfl⟩

/-- How a call goes on from what the calls before have left. -/
structure Reusable (source : String) (state : State) : Prop where
  /-- A counter that is kept in place, and put back by hand, counts the same. -/
  counted : Counting.parse.run state = resultOf state.next
  /-- What is read leaves the levels as they were, and nothing for later calls. -/
  kept : ∀ tree, state.call source = .ok tree → state.next.2.depth = state.depth ∧
    ∀ calls, Complains "expected an expression" ((state.next.2.after calls).call source)
  /-- A failure closes no level, and no more calls do. -/
  raised : ∀ error, state.call source = .error error → state.depth ≤ state.next.2.depth ∧
    ∀ calls, state.next.2.depth ≤ (state.next.2.after calls).depth
  /-- Short of being too deep, the open levels change nothing. -/
  unchanged : ¬Complains "expression nested too deeply" (state.call source) →
    state.call source = state.shallow.call source ∧
      state.next.2.tokens = state.shallow.next.2.tokens
  /-- What is too deep with no level open is too deep. -/
  deep : Complains "expression nested too deeply" (state.shallow.call source) →
    Complains "expression nested too deeply" (state.call source)

theorem reusable (source : String) (state : State) : state.Reusable source where
  counted := parse_run state
  kept tree htree := by
    have hnext : state.next.1 = .ok tree := by
      unfold call at htree
      cases hnext : state.next.1 with
      | ok other =>
        rw [hnext] at htree
        obtain rfl := Except.ok.inj htree
        rfl
      | error failure =>
        rw [hnext] at htree
        cases htree
    obtain ⟨hdepth, hend⟩ := next_of_ok hnext
    refine ⟨hdepth, fun calls => ?_⟩
    rw [after_of_endOfInput hend, call, next_of_endOfInput hend]
    exact ⟨_, _, _, rfl⟩
  raised _ _ := ⟨state.depth_le_next_depth, state.next.2.depth_le_after⟩
  unchanged := (state.call_shallow source).resolve_left
  deep htooDeep := by
    rcases state.call_shallow source with h | ⟨hcall, -⟩
    · exact h
    · rwa [hcall]

end State

end Parse

/-- Reusing a parser is governed only by the levels that were left open.  After any number of
calls on a text, a call that reads an expression leaves the number of open levels as it found it
and every later one finds nothing; a call that fails leaves no fewer open; and unless a call is
nested too deeply it gives the same and stops at the same token as with no level open. -/
theorem parser_reuse (source : String) (calls : Nat) :
    ((Parse.State.ofSource source).after calls).Reusable source :=
  Parse.State.reusable source _

/-- Every call on a text that no expression starts with leaves one more level open. -/
example : ((Parse.State.ofSource "*").after 3).depth = 3 := by
  decide +kernel

end DataExpr
