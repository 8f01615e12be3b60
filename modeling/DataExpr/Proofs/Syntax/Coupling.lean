import DataExpr.Proofs.Syntax.Remainder
import Mathlib.Data.List.Forall2

/-!
# Two runs of the parser

What the parser does next depends on the sorts of the tokens that come, and on whether what
stands in front of a parenthesis is a name.  So two runs go the same way as long as they come
to tokens of the same sorts.

A `Coupling` says what two runs have in common: the tokens left, the trees read, and how they
fail.  Its laws are about what the parser does with tokens and trees: it passes a token, makes
a node, or fails.  Then all the parsers keep it (`Coupling.link_parsersAt`).  The first run may
also get to where the two are not compared any more, beyond certain tokens or for want of levels;
what the second does then does not matter.

There is one lemma for each part of the parser, and `Coupling.Link` carries the deeper levels.
-/

namespace DataExpr

/-- The kind of a token without what the number, the string, the name or the fault is. -/
def TokenKind.outline : TokenKind → TokenKind
  | .number _ => .number 0
  | .string _ => .string ""
  | .name _ => .name ""
  | .error _ => .error .assignment
  | kind => kind

/-- Whether the expression is a name. -/
def Expr.isName : Expr → Bool
  | .name _ _ => true
  | _ => false

namespace TokenKind

variable {kind kind' : TokenKind}

theorem outline_eq_sign_iff {sign : Sign} : kind.outline = .sign sign ↔ kind = .sign sign := by
  cases kind <;> simp [outline]

theorem outline_eq_endOfInput_iff : kind.outline = .endOfInput ↔ kind = .endOfInput := by
  cases kind <;> simp [outline]

/-- Kinds of one outline are the same sign, if they are signs. -/
theorem eq_sign_iff_of_outline (h : kind.outline = kind'.outline) (sign : Sign) :
    kind = .sign sign ↔ kind' = .sign sign := by
  rw [← outline_eq_sign_iff, h, outline_eq_sign_iff]

theorem isSome_propertyName?_outline (kind : TokenKind) :
    kind.outline.propertyName?.isSome = kind.propertyName?.isSome := by
  cases kind <;> rfl

end TokenKind

namespace Parse

section

variable {kind kind' : TokenKind} (h : kind.outline = kind'.outline)

include h

theorem connective?_eq_of_outline (level : Level) :
    level.connective? kind = level.connective? kind' := by
  have houtline (kind : TokenKind) : level.connective? kind.outline = level.connective? kind := by
    cases kind <;> rfl
  rw [← houtline, h, houtline]

theorem unaryOp?_eq_of_outline : unaryOp? kind = unaryOp? kind' := by
  have houtline (kind : TokenKind) : unaryOp? kind.outline = unaryOp? kind := by
    cases kind <;> rfl
  rw [← houtline, h, houtline]

/-- Of kinds of one outline either both name a property or neither does. -/
theorem propertyName?_of_outline :
    kind.propertyName? = none ∧ kind'.propertyName? = none ∨
      ∃ property property', kind.propertyName? = some property ∧
        kind'.propertyName? = some property' := by
  have hsome := TokenKind.isSome_propertyName?_outline kind
  rw [h, TokenKind.isSome_propertyName?_outline] at hsome
  generalize kind.propertyName? = result at hsome ⊢
  generalize kind'.propertyName? = result' at hsome ⊢
  rcases result with _ | property <;> rcases result' with _ | property'
  · exact .inl ⟨rfl, rfl⟩
  · simp at hsome
  · simp at hsome
  · exact .inr ⟨property, property', rfl, rfl⟩

end

/-- Both are names or neither is. -/
def SameNaming (tree tree' : Expr) : Prop :=
  tree.isName = tree'.isName

theorem map_isName_atom?_outline (kind : TokenKind) (span : Span) :
    (atom? kind.outline {}).map Expr.isName = (atom? kind span).map Expr.isName := by
  cases kind with
  | keyword word => cases word <;> rfl
  | _ => rfl

/-- Of kinds of one outline either both are expressions by themselves or neither is. -/
theorem atom?_of_outline {kind kind' : TokenKind} (h : kind.outline = kind'.outline)
    (span span' : Span) :
    atom? kind span = none ∧ atom? kind' span' = none ∨
      ∃ atom atom', atom? kind span = some atom ∧ atom? kind' span' = some atom' ∧
        SameNaming atom atom' := by
  have hnames : (atom? kind span).map Expr.isName = (atom? kind' span').map Expr.isName := by
    rw [← map_isName_atom?_outline kind, h, map_isName_atom?_outline]
  generalize atom? kind span = result at hnames ⊢
  generalize atom? kind' span' = result' at hnames ⊢
  rcases result with _ | atom <;> rcases result' with _ | atom'
  · exact .inl ⟨rfl, rfl⟩
  · simp at hnames
  · simp at hnames
  · exact .inr ⟨atom, atom', rfl, rfl, Option.some.inj hnames⟩

/-! ## Couplings -/

/-- What two runs of the parser have in common for as long as they are compared. -/
structure Coupling where
  /-- How many levels are open. -/
  Depths : Nat → Nat → Prop
  /-- The tokens left. -/
  Tokens : List Token → List Token → Prop
  /-- The trees read. -/
  Trees : Expr → Expr → Prop
  /-- How the runs fail. -/
  Failures : SyntaxFailure → SyntaxFailure → Prop
  /-- The tokens that the first run has to leave, or else is not compared any more. -/
  last : List Token
  /-- Whether the first run may have fewer levels left, and is not compared without any. -/
  FewerLevels : Prop
  /-- Both runs go one level deeper. -/
  depths_succ {depth depth' : Nat} (h : Depths depth depth') : Depths (depth + 1) (depth' + 1)
  /-- The tokens that come next are of the same sort. -/
  outline_eq {tokens tokens' : List Token} (h : Tokens tokens tokens') :
    (current tokens).outline = (current tokens').outline
  /-- Neither run can want for fuel that the other has. -/
  ends {tokens tokens' : List Token} (h : Tokens tokens tokens') :
    tokens.length = tokens'.length ∨ EndsText tokens ∧ EndsText tokens'
  /-- Both runs pass a token, or the first gets to where they are not compared any more. -/
  tokens_advance {tokens tokens' : List Token} (h : Tokens tokens tokens')
    (hcurrent : current tokens ≠ .endOfInput) :
    Tokens (advance tokens) (advance tokens') ∨ ¬last <:+ advance tokens
  /-- Both runs fail at the next token. -/
  failures_fail {depth depth' : Nat} {tokens tokens' : List Token} (hdepth : Depths depth depth')
    (h : Tokens tokens tokens') (fault : TokenKind → SyntaxFault) :
    Failures ⟨fault (current tokens), depth, tokens⟩ ⟨fault (current tokens'), depth', tokens'⟩
  /-- Both trees can be called or neither can. -/
  sameNaming {tree tree' : Expr} (h : Trees tree tree') : SameNaming tree tree'
  /-- Both runs make a node, here of a single token. -/
  trees_atom {tokens tokens' : List Token} {tree tree' : Expr} (h : Tokens tokens tokens')
    (hatom : atom? (current tokens) (currentSpan tokens) = some tree)
    (hatom' : atom? (current tokens') (currentSpan tokens') = some tree') : Trees tree tree'
  trees_member {tokens tokens' : List Token} {tree tree' : Expr} {property property' : String}
    (h : Tokens tokens tokens') (htree : Trees tree tree')
    (hproperty : (current tokens).propertyName? = some property)
    (hproperty' : (current tokens').propertyName? = some property') :
    Trees (.member tree property (tree.span.to (currentSpan tokens)))
      (.member tree' property' (tree'.span.to (currentSpan tokens')))
  trees_index {tokens tokens' : List Token} {tree tree' key key' : Expr} (h : Tokens tokens tokens')
    (htree : Trees tree tree') (hkey : Trees key key') :
    Trees (.index tree key (tree.span.to (currentSpan tokens)))
      (.index tree' key' (tree'.span.to (currentSpan tokens')))
  trees_call {tokens tokens' : List Token} {text text' : String} {start start' : Span}
    {values values' : List Expr} (h : Tokens tokens tokens')
    (hname : Trees (.name text start) (.name text' start'))
    (hvalues : List.Forall₂ Trees values values') :
    Trees (.call text values (start.to (currentSpan tokens)))
      (.call text' values' (start'.to (currentSpan tokens')))
  trees_unary {tokens tokens' : List Token} {tree tree' : Expr} (h : Tokens tokens tokens')
    (htree : Trees tree tree') (op : UnaryOp) :
    Trees (.unary op tree ((currentSpan tokens).to tree.span))
      (.unary op tree' ((currentSpan tokens').to tree'.span))
  trees_join {left left' right right' : Expr} (hleft : Trees left left')
    (hright : Trees right right') (connective : Connective) :
    Trees (connective.join left right) (connective.join left' right')

namespace Coupling

section

variable (coupling : Coupling) {α : Type}

/-- The first run has not left the tokens that it has to. -/
structure Beyond (rest : List Token) : Prop where
  ne_nil : rest ≠ []
  passed : ¬coupling.last <:+ rest

/-- The first run fails in a way that is not compared. -/
def Excused (failure : SyntaxFailure) : Prop :=
  coupling.Beyond failure.rest ∨ coupling.FewerLevels ∧ failure.fault = .tooDeep

/-- The outcomes of two runs: they have in common what they leave and how they fail, as far as
they are compared. -/
inductive Outcomes (related : α → α → Prop) :
    Except SyntaxFailure (α × List Token) → Except SyntaxFailure (α × List Token) → Prop where
  | ok {result result' : α} {rest rest' : List Token} (hresult : related result result')
      (hrest : coupling.Tokens rest rest') :
      Outcomes related (.ok (result, rest)) (.ok (result', rest'))
  | error {failure failure' : SyntaxFailure} (h : coupling.Failures failure failure') :
      Outcomes related (.error failure) (.error failure')
  | beyond {result : α} {rest : List Token} (h : coupling.Beyond rest)
      (outcome : Except SyntaxFailure (α × List Token)) :
      Outcomes related (.ok (result, rest)) outcome
  | excused {failure : SyntaxFailure} (h : coupling.Excused failure)
      (outcome : Except SyntaxFailure (α × List Token)) : Outcomes related (.error failure) outcome

/-- The parsers keep the coupling, and their results are related. -/
def Links (related : α → α → Prop) (parser parser' : Parser α) : Prop :=
  ∀ tokens tokens', coupling.Tokens tokens tokens' →
    coupling.Outcomes related (parser tokens) (parser' tokens')

/-- All of these parsers keep the coupling. -/
structure Link (parsers parsers' : Parsers) : Prop where
  leave : parsers.Leave
  leave' : parsers'.Leave
  expr : coupling.Links coupling.Trees parsers.expr parsers'.expr
  unary : coupling.Links coupling.Trees parsers.unary parsers'.unary
  chain : ∀ tighter,
    coupling.Links coupling.Trees (parsers.chain tighter) (parsers'.chain tighter)
  chainRest : ∀ level tighter {left left'}, coupling.Trees left left' →
    coupling.Links coupling.Trees (parsers.chainRest level tighter left)
      (parsers'.chainRest level tighter left')
  postfixRest : ∀ {left left'}, coupling.Trees left left' →
    coupling.Links coupling.Trees (parsers.postfixRest left) (parsers'.postfixRest left')

/-- What is one level deeper: some parsers for both runs, none for both, or none for the first,
if that may have fewer levels. -/
inductive LinkBelow : Option Parsers → Option Parsers → Prop where
  | some {deeper deeper' : Parsers} (h : coupling.Link deeper deeper') :
      LinkBelow (some deeper) (some deeper')
  | none : LinkBelow none none
  | fewer {deeper? : Option Parsers} (h : coupling.FewerLevels)
      (hleaves : ∀ deeper ∈ deeper?, deeper.Leave) : LinkBelow none deeper?

namespace LinkBelow

variable {coupling : Coupling} {deeper? deeper'? : Option Parsers}

theorem leave (h : coupling.LinkBelow deeper? deeper'?) : ∀ deeper ∈ deeper?, deeper.Leave := by
  cases h with
  | some h =>
    rintro _ ⟨⟩
    exact h.leave
  | none => simp
  | fewer => simp

theorem leave' (h : coupling.LinkBelow deeper? deeper'?) : ∀ deeper ∈ deeper'?, deeper.Leave := by
  cases h with
  | some h =>
    rintro _ ⟨⟩
    exact h.leave'
  | none => simp
  | fewer _ hleaves => exact hleaves

end LinkBelow

end

/-! ## One parser behind another -/

section

variable {coupling : Coupling} {α : Type} {related : α → α → Prop} {depth depth' : Nat}
  {tokens tokens' : List Token}

theorem outcomes_fail (hdepth : coupling.Depths depth depth') (h : coupling.Tokens tokens tokens')
    (fault : TokenKind → SyntaxFault) :
    coupling.Outcomes related (fail depth (fault (current tokens)) tokens)
      (fail depth' (fault (current tokens')) tokens') :=
  .error (coupling.failures_fail hdepth h fault)

/-- Both runs pass a token, or the first gets beyond. -/
theorem tokens_advance_or_beyond (h : coupling.Tokens tokens tokens')
    (hcurrent : current tokens ≠ .endOfInput) :
    coupling.Tokens (advance tokens) (advance tokens') ∨ coupling.Beyond (advance tokens) :=
  (coupling.tokens_advance h hcurrent).imp_right fun hpassed =>
    ⟨(Remains.advance (ne_nil_of_current_ne hcurrent)).ne_nil, hpassed⟩

/-- From beyond the first run does not get back, and is not compared. -/
theorem Outcomes.of_beyond {outcome : Except SyntaxFailure (α × List Token)}
    (h : coupling.Beyond tokens) (hrest : Remains (remainder outcome) tokens)
    (outcome' : Except SyntaxFailure (α × List Token)) :
    coupling.Outcomes related outcome outcome' := by
  have hbeyond : coupling.Beyond (remainder outcome) :=
    ⟨hrest.ne_nil, fun hlast => h.passed (hlast.trans hrest.suffix)⟩
  rcases outcome with failure | ⟨result, rest⟩
  · exact .excused (.inl hbeyond) _
  · exact .beyond hbeyond _

theorem Links.behind_advance {parser parser' : Parser α}
    (h : coupling.Links related parser parser') (hleaves : Leaves parser)
    (htokens : coupling.Tokens tokens tokens') (hcurrent : current tokens ≠ .endOfInput) :
    coupling.Outcomes related (parser (advance tokens)) (parser' (advance tokens')) := by
  rcases tokens_advance_or_beyond htokens hcurrent with hnext | hbeyond
  · exact h _ _ hnext
  · exact .of_beyond hbeyond (hleaves _ hbeyond.ne_nil) _

theorem Links.behind {first first' : Parser Expr} {next next' : Expr → Parser α}
    (hfirst : coupling.Links coupling.Trees first first')
    (hnext : ∀ {result result'}, coupling.Trees result result' →
      coupling.Links related (next result) (next' result'))
    (hleaves : ∀ result, Leaves (next result)) :
    coupling.Links related
      (fun tokens => match first tokens with
        | .error failure => .error failure
        | .ok (result, rest) => next result rest)
      (fun tokens => match first' tokens with
        | .error failure => .error failure
        | .ok (result, rest) => next' result rest) := by
  intro tokens tokens' htokens
  have h := hfirst tokens tokens' htokens
  dsimp only
  generalize first tokens = outcome at h ⊢
  generalize first' tokens' = outcome' at h ⊢
  cases h with
  | ok hresult hrest => exact hnext hresult _ _ hrest
  | error h => exact .error h
  | beyond h => exact .of_beyond h (hleaves _ _ h.ne_nil) _
  | excused h => exact .excused h _

theorem links_behind_sign (hdepth : coupling.Depths depth depth') (sign : Sign)
    {next next' : List Token → Parser α}
    (hnext : ∀ {tokens tokens'}, coupling.Tokens tokens tokens' →
      coupling.Links related (next tokens) (next' tokens'))
    (hleaves : ∀ tokens, Leaves (next tokens)) :
    coupling.Links related
      (fun tokens => match expect depth sign tokens with
        | .error failure => .error failure
        | .ok rest => next tokens rest)
      (fun tokens => match expect depth' sign tokens with
        | .error failure => .error failure
        | .ok rest => next' tokens rest) := by
  intro tokens tokens' htokens
  have hsame := TokenKind.eq_sign_iff_of_outline (coupling.outline_eq htokens) sign
  by_cases hsign : current tokens = .sign sign
  · simp only [expect, if_pos hsign, if_pos (hsame.1 hsign)]
    exact (hnext htokens).behind_advance (hleaves tokens) htokens (by simp [hsign])
  · simp only [expect, if_neg hsign, if_neg fun h => hsign (hsame.2 h)]
    exact outcomes_fail hdepth htokens (.missingSign sign)

theorem links_close (hdepth : coupling.Depths depth depth') (sign : Sign) {result result' : α}
    (h : related result result') :
    coupling.Links related
      (fun tokens => (expect depth sign tokens).map fun rest => (result, rest))
      (fun tokens => (expect depth' sign tokens).map fun rest => (result', rest)) := by
  intro tokens tokens' htokens
  have hsame := TokenKind.eq_sign_iff_of_outline (coupling.outline_eq htokens) sign
  by_cases hsign : current tokens = .sign sign
  · simp only [expect, if_pos hsign, if_pos (hsame.1 hsign)]
    rcases tokens_advance_or_beyond htokens (by simp [hsign]) with hnext | hbeyond
    · exact .ok h hnext
    · exact .beyond hbeyond _
  · simp only [expect, if_neg hsign, if_neg fun h => hsign (hsame.2 h)]
    exact outcomes_fail hdepth htokens (.missingSign sign)

end

/-! ## Parsers at one depth -/

section

variable {coupling : Coupling} {depth depth' : Nat} (hdepth : coupling.Depths depth depth')

include hdepth

/-! ### Arguments -/

theorem links_arguments {argument argument' : Parser Expr}
    (hargument : coupling.Links coupling.Trees argument argument') (hleaves : Leaves argument)
    (fuel : Nat) :
    coupling.Links (List.Forall₂ coupling.Trees) (arguments depth argument fuel)
      (arguments depth' argument' fuel) := by
  induction fuel with
  | zero => exact fun tokens tokens' htokens => outcomes_fail hdepth htokens .unexpected
  | succ fuel ih =>
    intro tokens tokens' htokens
    have hsame := TokenKind.eq_sign_iff_of_outline (coupling.outline_eq htokens) .rightParen
    rw [arguments, arguments]
    by_cases hclose : current tokens = .sign .rightParen
    · rw [if_pos hclose, if_pos (hsame.1 hclose)]
      exact .ok .nil htokens
    rw [if_neg hclose, if_neg fun h => hclose (hsame.2 h)]
    refine hargument.behind (fun {first first'} hfirst rest rest' hrest => ?_)
      (moreArguments_leaves (arguments_leaves hleaves fuel)) tokens tokens' htokens
    have hsame := TokenKind.eq_sign_iff_of_outline (coupling.outline_eq hrest)
    by_cases hcomma : current rest = .sign .comma
    · have hothers := ih.behind_advance (arguments_leaves hleaves fuel) hrest (by simp [hcomma])
      rw [if_pos hcomma, if_pos ((hsame _).1 hcomma)]
      generalize arguments depth argument fuel (advance rest) = outcome at hothers ⊢
      generalize arguments depth' argument' fuel (advance rest') = outcome' at hothers ⊢
      cases hothers with
      | ok hvalues hrest => exact .ok (.cons hfirst hvalues) hrest
      | error h => exact .error h
      | beyond h => exact .beyond h _
      | excused h => exact .excused h _
    rw [if_neg hcomma, if_neg fun h => hcomma ((hsame _).2 h)]
    by_cases hend : current rest = .sign .rightParen
    · rw [if_pos hend, if_pos ((hsame _).1 hend)]
      exact .ok (.cons hfirst .nil) hrest
    · rw [if_neg hend, if_neg fun h => hend ((hsame _).2 h)]
      exact outcomes_fail hdepth hrest .unexpected

/-- The runs may start with different fuel, because neither ends for want of it. -/
theorem outcomes_arguments {argument argument' : Parser Expr}
    (hargument : coupling.Links coupling.Trees argument argument') (hleaves : Leaves argument)
    (hleaves' : Leaves argument') {tokens tokens' : List Token}
    (htokens : coupling.Tokens tokens tokens') :
    coupling.Outcomes (List.Forall₂ coupling.Trees)
      (arguments depth argument tokens.length tokens)
      (arguments depth' argument' tokens'.length tokens') := by
  have hlinks := links_arguments hdepth hargument hleaves
  rcases coupling.ends htokens with hlength | ⟨hends, hends'⟩
  · rw [hlength]
    exact hlinks _ _ _ htokens
  · have hleft := Nat.le_max_left tokens.length tokens'.length
    have hright := Nat.le_max_right tokens.length tokens'.length
    rw [arguments_eq_of_length_le hleaves hends (Nat.le_refl _) hleft,
      arguments_eq_of_length_le hleaves' hends' (Nat.le_refl _) hright]
    exact hlinks _ _ _ htokens

/-! ### Postfix steps -/

section

variable {deeper deeper' : Parsers} (hdeeper : coupling.Link deeper deeper')
  {object object' : Expr} (hobject : coupling.Trees object object') {tokens tokens' : List Token}
  (htokens : coupling.Tokens tokens tokens') (hcurrent : current tokens ≠ .endOfInput)

include hdeeper hobject htokens hcurrent

theorem outcomes_memberStep :
    coupling.Outcomes coupling.Trees (memberStep depth object deeper tokens)
      (memberStep depth' object' deeper' tokens') := by
  obtain hdot | hbeyond := tokens_advance_or_beyond htokens hcurrent
  · unfold memberStep
    dsimp only
    rcases propertyName?_of_outline (coupling.outline_eq hdot) with
      ⟨hnone, hnone'⟩ | ⟨property, property', hproperty, hproperty'⟩
    · simp only [hnone, hnone']
      exact outcomes_fail (coupling.depths_succ hdepth) hdot .missingProperty
    · simp only [hproperty, hproperty']
      have hname : current (advance tokens) ≠ .endOfInput := by
        intro h
        simp [h, TokenKind.propertyName?] at hproperty
      have hsteps :=
        hdeeper.postfixRest (coupling.trees_member hdot hobject hproperty hproperty')
      exact hsteps.behind_advance (hdeeper.leave.postfixRest _) hdot hname
  · exact .of_beyond hbeyond
      (memberStep_remains hdeeper.leave (ne_nil_of_current_ne hcurrent) object) _

theorem outcomes_indexStep :
    coupling.Outcomes coupling.Trees (indexStep depth object deeper tokens)
      (indexStep depth' object' deeper' tokens') := by
  obtain hopen | hbeyond := tokens_advance_or_beyond htokens hcurrent
  · have hkey := hdeeper.expr.behind
      (fun hkey => links_behind_sign (coupling.depths_succ hdepth) .rightBracket
        (fun hclose => hdeeper.postfixRest (coupling.trees_index hclose hobject hkey))
        fun _ => hdeeper.leave.postfixRest _)
      fun _ => .behind_sign (depth + 1) .rightBracket fun _ => hdeeper.leave.postfixRest _
    exact hkey _ _ hopen
  · exact .of_beyond hbeyond
      (indexStep_remains hdeeper.leave (ne_nil_of_current_ne hcurrent) object) _

/-- Only names are called, and both runs call a name or neither does. -/
theorem outcomes_callStep :
    coupling.Outcomes coupling.Trees (callStep depth object deeper tokens)
      (callStep depth' object' deeper' tokens') := by
  have hname := coupling.sameNaming hobject
  cases object with
  | name text start =>
    cases object' with
    | name text' start' =>
      obtain hopen | hbeyond := tokens_advance_or_beyond htokens hcurrent
      · have hvalues := outcomes_arguments (coupling.depths_succ hdepth) hdeeper.expr
          hdeeper.leave.expr hdeeper.leave'.expr hopen
        unfold callStep
        dsimp only
        generalize arguments (depth + 1) deeper.expr _ (advance tokens) = outcome at hvalues ⊢
        generalize arguments (depth' + 1) deeper'.expr _ (advance tokens') = outcome' at hvalues ⊢
        cases hvalues with
        | ok hvalues hrest =>
          exact links_behind_sign (coupling.depths_succ hdepth) .rightParen
            (fun hclose => hdeeper.postfixRest (coupling.trees_call hclose hobject hvalues))
            (fun _ => hdeeper.leave.postfixRest _) _ _ hrest
        | error h => exact .error h
        | beyond h =>
          exact .of_beyond h (Leaves.behind_sign (depth + 1) .rightParen
            (fun _ => hdeeper.leave.postfixRest _) _ h.ne_nil) _
        | excused h => exact .excused h _
      · exact .of_beyond hbeyond
          (callStep_remains hdeeper.leave (ne_nil_of_current_ne hcurrent) text start) _
    | _ => cases hname
  | _ =>
    cases object' with
    | name text' start' => cases hname
    | _ => exact outcomes_fail (coupling.depths_succ hdepth) htokens fun _ => .calleeNotName

end

end

/-! ### Chains -/

section

variable {coupling : Coupling} {depth depth' : Nat} {deeper? deeper'? : Option Parsers}
  (hdepth : coupling.Depths depth depth') (hdeeper : coupling.LinkBelow deeper? deeper'?)

include hdepth hdeeper

/-- Going deeper keeps the coupling if the deeper parsers do. -/
theorem outcomes_enter {body body' : Parsers → Parser Expr} {tokens tokens' : List Token}
    (htokens : coupling.Tokens tokens tokens')
    (hbody : ∀ {deeper deeper'}, coupling.Link deeper deeper' →
      coupling.Outcomes coupling.Trees (body deeper tokens) (body' deeper' tokens')) :
    coupling.Outcomes coupling.Trees (enter depth deeper? body tokens)
      (enter depth' deeper'? body' tokens') := by
  cases hdeeper with
  | some h => exact hbody h
  | none => exact outcomes_fail (coupling.depths_succ hdepth) htokens fun _ => .tooDeep
  | fewer h => exact .excused (.inr ⟨h, rfl⟩) _

theorem links_expr : coupling.Links coupling.Trees (expr depth deeper?) (expr depth' deeper'?) :=
  fun tokens tokens' htokens => outcomes_enter hdepth hdeeper htokens
    fun h => h.chain levels tokens tokens' htokens

theorem links_primary :
    coupling.Links coupling.Trees (primary depth deeper?) (primary depth' deeper'?) := by
  intro tokens tokens' htokens
  have houtline := coupling.outline_eq htokens
  unfold primary
  rcases atom?_of_outline houtline (currentSpan tokens) (currentSpan tokens') with
    ⟨hnone, hnone'⟩ | ⟨atom, atom', hatom, hatom', -⟩
  · simp only [hnone, hnone']
    have hsame := TokenKind.eq_sign_iff_of_outline houtline .leftParen
    by_cases hparen : current tokens = .sign .leftParen
    · rw [if_pos hparen, if_pos (hsame.1 hparen)]
      have hgroup := (links_expr hdepth hdeeper).behind (links_close hdepth .rightParen)
        (leaves_close depth .rightParen)
      have hinner : Leaves (expr depth deeper?) := expr_leaves hdeeper.leave
      exact hgroup.behind_advance (hinner.behind (leaves_close depth .rightParen)) htokens
        (by simp [hparen])
    · rw [if_neg hparen, if_neg fun h => hparen (hsame.2 h)]
      exact outcomes_fail hdepth htokens .unexpected
  · simp only [hatom, hatom']
    have hcurrent : current tokens ≠ .endOfInput := by
      intro h
      simp [h, atom?] at hatom
    rcases tokens_advance_or_beyond htokens hcurrent with hnext | hbeyond
    · exact .ok (coupling.trees_atom htokens hatom hatom') hnext
    · exact .beyond hbeyond _

theorem links_postfixRest {left left' : Expr} (hleft : coupling.Trees left left') :
    coupling.Links coupling.Trees (postfixRest depth deeper? left)
      (postfixRest depth' deeper'? left') := by
  intro tokens tokens' htokens
  have hsame := TokenKind.eq_sign_iff_of_outline (coupling.outline_eq htokens)
  unfold postfixRest
  split
  · rename_i hsign
    rw [(hsame .dot).1 hsign]
    exact outcomes_enter hdepth hdeeper htokens
      fun h => outcomes_memberStep hdepth h hleft htokens (by simp [hsign])
  · rename_i hsign
    rw [(hsame .leftBracket).1 hsign]
    exact outcomes_enter hdepth hdeeper htokens
      fun h => outcomes_indexStep hdepth h hleft htokens (by simp [hsign])
  · rename_i hsign
    rw [(hsame .leftParen).1 hsign]
    exact outcomes_enter hdepth hdeeper htokens
      fun h => outcomes_callStep hdepth h hleft htokens (by simp [hsign])
  · rename_i hdot hbracket hparen
    split
    · exact absurd ((hsame .dot).2 ‹_›) hdot
    · exact absurd ((hsame .leftBracket).2 ‹_›) hbracket
    · exact absurd ((hsame .leftParen).2 ‹_›) hparen
    · exact .ok hleft htokens

theorem links_postfixChain :
    coupling.Links coupling.Trees (postfixChain depth deeper?) (postfixChain depth' deeper'?) :=
  (links_primary hdepth hdeeper).behind (links_postfixRest hdepth hdeeper)
    (postfixRest_leaves hdeeper.leave)

theorem links_unary :
    coupling.Links coupling.Trees (unary depth deeper?) (unary depth' deeper'?) := by
  intro tokens tokens' htokens
  unfold unary
  rw [← unaryOp?_eq_of_outline (coupling.outline_eq htokens)]
  split
  · exact links_postfixChain hdepth hdeeper tokens tokens' htokens
  · rename_i op hop
    have hcurrent : current tokens ≠ .endOfInput := by
      intro h
      simp [h, unaryOp?] at hop
    have hoperand : coupling.Links coupling.Trees (enter depth deeper? (·.unary))
        (enter depth' deeper'? (·.unary)) :=
      fun _ _ h => outcomes_enter hdepth hdeeper h fun hlink => hlink.unary _ _ h
    have hleaves : Leaves (enter depth deeper? (·.unary)) :=
      enter_leaves hdeeper.leave fun _ h => h.unary
    have hresult (operand : Expr) : Leaves fun rest =>
        .ok (Expr.unary op operand ((currentSpan tokens).to operand.span), rest) :=
      fun rest h => .refl h
    have hsigned := hoperand.behind (fun h _ _ hrest =>
      .ok (coupling.trees_unary htokens h op) hrest) hresult
    exact hsigned.behind_advance (hleaves.behind hresult) htokens hcurrent

theorem links_chainRest (level : Level) (tighter : List Level) {left left' : Expr}
    (hleft : coupling.Trees left left') :
    coupling.Links coupling.Trees (chainRest depth deeper? level tighter left)
      (chainRest depth' deeper'? level tighter left') := by
  intro tokens tokens' htokens
  unfold chainRest
  rw [← connective?_eq_of_outline (coupling.outline_eq htokens)]
  split
  · exact .ok hleft htokens
  · rename_i connective hconnective
    have hcurrent : current tokens ≠ .endOfInput := by
      intro h
      simp [h, Level.connective?] at hconnective
    have hleaves (deeper : Parsers) (h : deeper.Leave) := (h.chain tighter).behind
      fun right => h.chainRest level tighter (connective.join left right)
    refine Links.behind_advance (fun tokens tokens' htokens => ?_)
      (enter_leaves hdeeper.leave hleaves) htokens hcurrent
    refine outcomes_enter hdepth hdeeper htokens fun h => ?_
    exact (h.chain tighter).behind
      (fun hright => h.chainRest level tighter (coupling.trees_join hleft hright connective))
      (fun _ => h.leave.chainRest level tighter _) tokens tokens' htokens

theorem links_chain (tighter : List Level) :
    coupling.Links coupling.Trees (chain depth deeper? tighter)
      (chain depth' deeper'? tighter) := by
  induction tighter with
  | nil => exact links_unary hdepth hdeeper
  | cons level tighter ih =>
    exact ih.behind (links_chainRest hdepth hdeeper level tighter)
      (chainRest_leaves hdeeper.leave level tighter)

theorem link_parsersAbove :
    coupling.Link (parsersAbove depth deeper?) (parsersAbove depth' deeper'?) where
  leave := parsersAbove_leave hdeeper.leave
  leave' := parsersAbove_leave hdeeper.leave'
  expr := links_expr hdepth hdeeper
  unary := links_unary hdepth hdeeper
  chain := links_chain hdepth hdeeper
  chainRest level tighter _ _ := links_chainRest hdepth hdeeper level tighter
  postfixRest := links_postfixRest hdepth hdeeper

end

/-- The parsers keep the coupling with as many levels left, and with fewer for the first run if
it may have fewer. -/
theorem link_parsersAt (coupling : Coupling) {left left' depth depth' : Nat}
    (hdepth : coupling.Depths depth depth')
    (hleft : left = left' ∨ left ≤ left' ∧ coupling.FewerLevels) :
    coupling.Link (parsersAt left depth) (parsersAt left' depth') := by
  induction left generalizing left' depth depth' with
  | zero =>
    cases left' with
    | zero => exact link_parsersAbove hdepth .none
    | succ less' =>
      obtain ⟨-, hfewer⟩ := hleft.resolve_left (by omega)
      refine link_parsersAbove hdepth (.fewer hfewer fun deeper h => ?_)
      obtain rfl := Option.some.inj h
      exact parsersAt_leave less' (depth' + 1)
  | succ less ih =>
    obtain ⟨less', rfl⟩ : ∃ less', left' = less' + 1 := ⟨left' - 1, by omega⟩
    have hless := hleft.imp Nat.succ.inj (And.imp_left Nat.le_of_succ_le_succ)
    exact link_parsersAbove hdepth (.some (ih (coupling.depths_succ hdepth) hless))

end Coupling

end Parse

end DataExpr
