import DataExpr.Proofs.Syntax.Compile
import DataExpr.Proofs.Syntax.Nodes
import DataExpr.Proofs.Syntax.Places

/-!
# Spans nest

Every node of an accepted text's tree covers a piece of the text from the start of a token to
the end of one, and the parts of a node cover pieces inside its own that come one behind another
(`parse_spans_nest`).

A tree lies on a row of tokens (`LaidOn`): its span goes from the first of them to the last, and
its parts lie on rows inside, in order.  Parentheses belong to no tree, so the row of a tree may
be a part of what was read for it (`Laid`).  There is one lemma for each kind of node that says
what it lies on, and one for each part of the parser that says that it reads such trees
(`parsersAt_lay`).  All else follows from the order of the tokens in the text.
-/

namespace DataExpr

open DataExpr.Text (byteLength)
open Parse

/-! ## Rows of tokens -/

namespace Expr

/-- Whether the expression is one that a single token makes. -/
def isAtom : Expr → Bool
  | .literal .. | .undefined _ | .name .. | .this _ => true
  | _ => false

/-- The tree lies on the row of tokens, and its parts on rows inside it, one behind another. -/
inductive LaidOn : List Token → Expr → Prop where
  | node {row : List Token} {tree : Expr} {first last : Token}
      {pieces : List (List Token × Expr)} (hfirst : row.head? = some first)
      (hlast : row.getLast? = some last) (hspan : tree.span = first.span.to last.span)
      (hatom : tree.isAtom = true → row = [first] ∧ atom? first.kind first.span = some tree)
      (hparts : tree.parts = pieces.map Prod.snd)
      (hrows : (pieces.map Prod.fst).flatten.Sublist row)
      (hpieces : ∀ piece ∈ pieces, LaidOn piece.1 piece.2) : LaidOn row tree

/-- The tree lies on some of the tokens, with parentheses around them. -/
def Laid (tokens : List Token) (tree : Expr) : Prop :=
  ∃ before row behind, tokens = before ++ row ++ behind ∧ tree.LaidOn row

end Expr

/-- The trees lie on rows of the tokens, one behind another. -/
def Expr.LaidAll (tokens : List Token) (trees : List Expr) : Prop :=
  ∃ pieces : List (List Token × Expr), trees = pieces.map Prod.snd ∧
    (pieces.map Prod.fst).flatten.Sublist tokens ∧ ∀ piece ∈ pieces, LaidOn piece.1 piece.2

@[simp] theorem Span.to_to (first middle last : Span) :
    (first.to middle).to last = first.to last := rfl

@[simp] theorem Span.to_to_right (first middle last : Span) :
    first.to (middle.to last) = first.to last := rfl

namespace Parse.Connective

variable (connective : Connective) (left right : Expr)

theorem span_join : (connective.join left right).span = left.span.to right.span := by
  cases connective <;> rfl

theorem parts_join : (connective.join left right).parts = [left, right] := by
  cases connective <;> rfl

theorem isAtom_join : (connective.join left right).isAtom = false := by
  cases connective <;> rfl

end Parse.Connective

namespace Expr

variable {tokens others row more : List Token} {tree other node : Expr} {trees : List Expr}

theorem LaidOn.exists_ends (h : LaidOn row tree) :
    ∃ first last, row.head? = some first ∧ row.getLast? = some last ∧
      tree.span = first.span.to last.span := by
  cases h with
  | node hfirst hlast hspan => exact ⟨_, _, hfirst, hlast, hspan⟩

theorem LaidAll.sublist (h : LaidAll tokens trees) (hsub : tokens.Sublist others) :
    LaidAll others trees := by
  obtain ⟨pieces, htrees, hrows, hpieces⟩ := h
  exact ⟨pieces, htrees, hrows.trans hsub, hpieces⟩

theorem laidAll_nil (tokens : List Token) : LaidAll tokens [] :=
  ⟨[], rfl, List.nil_sublist _, by simp⟩

theorem LaidOn.cons (h : LaidOn row tree) (hall : LaidAll tokens trees) :
    LaidAll (row ++ tokens) (tree :: trees) := by
  obtain ⟨pieces, rfl, hrows, hpieces⟩ := hall
  refine ⟨(row, tree) :: pieces, rfl, ?_, ?_⟩
  · rw [List.map_cons, List.flatten_cons]
    exact hrows.append_left row
  · rw [List.forall_mem_cons]
    exact ⟨h, hpieces⟩

theorem LaidOn.singleton (h : LaidOn row tree) : LaidAll row [tree] := by
  have hall := h.cons (laidAll_nil [])
  rwa [List.append_nil] at hall

theorem Laid.cons (h : Laid tokens tree) (hall : LaidAll others trees) :
    LaidAll (tokens ++ others) (tree :: trees) := by
  obtain ⟨before, row, behind, rfl, hrow⟩ := h
  refine (hrow.cons hall).sublist ?_
  rw [List.append_assoc, List.append_assoc]
  exact ((List.sublist_append_right behind others).append_left row).trans
    (List.sublist_append_right before _)

/-! ## Nodes -/

theorem LaidAll.laidOn_of_span (hall : LaidAll row node.parts) {first last : Token}
    (hfirst : row.head? = some first) (hlast : row.getLast? = some last)
    (hspan : node.span = first.span.to last.span) (hatom : node.isAtom = false) :
    LaidOn row node := by
  obtain ⟨pieces, hparts, hrows, hpieces⟩ := hall
  exact .node hfirst hlast hspan (by simp [hatom]) hparts hrows hpieces

theorem atom?_spec {kind : TokenKind} {span : Span} (h : atom? kind span = some tree) :
    tree.span = span ∧ tree.parts = [] := by
  unfold atom? at h
  split at h <;> cases h <;> exact ⟨rfl, rfl⟩

theorem laid_atom {token : Token} (h : atom? token.kind token.span = some tree) :
    Laid [token] tree := by
  obtain ⟨hspan, hparts⟩ := atom?_spec h
  have hnone : tree.parts = ([] : List (List Token × Expr)).map Prod.snd := hparts
  exact ⟨[], [token], [], rfl, .node rfl rfl hspan (fun _ => ⟨rfl, h⟩) hnone
    (List.nil_sublist _) (by simp)⟩

theorem Laid.behind (h : Laid tokens tree) (more : List Token) : Laid (tokens ++ more) tree := by
  obtain ⟨before, row, behind, rfl, hrow⟩ := h
  exact ⟨before, row, behind ++ more, by simp, hrow⟩

/-- Parentheses add nothing to what a tree covers. -/
theorem Laid.group (h : Laid tokens tree) (opening closing : Token) :
    Laid (opening :: (tokens ++ [closing])) tree := by
  obtain ⟨before, row, behind, rfl, hrow⟩ := h
  exact ⟨opening :: before, row, behind ++ [closing], by simp, hrow⟩

/-- A node goes from the start of the tree in front to the last of the tokens behind that. -/
theorem Laid.extend (h : Laid tokens tree) (last : Token) (hlast : more.getLast? = some last)
    (hspan : node.span = tree.span.to last.span) (hatom : node.isAtom = false)
    (hparts : ∀ row, LaidOn row tree → ∀ behind, LaidAll (row ++ (behind ++ more)) node.parts) :
    Laid (tokens ++ more) node := by
  obtain ⟨before, row, behind, rfl, hrow⟩ := h
  obtain ⟨first, middle, hfirst, -, hends⟩ := hrow.exists_ends
  have hhead : (row ++ (behind ++ more)).head? = some first := by simp [hfirst]
  have hend : (row ++ (behind ++ more)).getLast? = some last := by
    simp [List.getLast?_append, hlast]
  refine ⟨before, row ++ (behind ++ more), [], by simp,
    (hparts row hrow behind).laidOn_of_span hhead hend ?_ hatom⟩
  rw [hspan, hends, Span.to_to]

theorem Laid.member (h : Laid tokens tree) (property : String) (dot name : Token) :
    Laid (tokens ++ [dot, name]) (.member tree property (tree.span.to name.span)) := by
  refine h.extend name rfl rfl rfl fun row hrow behind => ?_
  exact hrow.cons (laidAll_nil _)

theorem Laid.index (h : Laid tokens tree) (hkey : Laid others other) (opening closing : Token) :
    Laid (tokens ++ opening :: (others ++ [closing]))
      (.index tree other (tree.span.to closing.span)) := by
  refine h.extend closing ?_ rfl rfl fun row hrow behind => ?_
  · rw [← List.cons_append, List.getLast?_concat]
  · refine hrow.cons ((hkey.cons (laidAll_nil [])).sublist ?_)
    exact List.IsInfix.sublist ⟨behind ++ [opening], [closing], by simp⟩

theorem Laid.call {text : String} {start : Span} (h : Laid tokens (.name text start))
    (hall : LaidAll others trees) (opening closing : Token) :
    Laid (tokens ++ opening :: (others ++ [closing]))
      (.call text trees (start.to closing.span)) := by
  refine h.extend closing ?_ rfl rfl fun row _ behind => hall.sublist ?_
  · rw [← List.cons_append, List.getLast?_concat]
  · exact List.IsInfix.sublist ⟨row ++ (behind ++ [opening]), [closing], by simp⟩

theorem Laid.join (hleft : Laid tokens tree) (hright : Laid others other)
    (connective : Connective) (sign : Token) :
    Laid (tokens ++ sign :: others) (connective.join tree other) := by
  obtain ⟨before, row, behind, rfl, hrow⟩ := hright
  obtain ⟨first, last, -, hlast, hends⟩ := hrow.exists_ends
  have hspan : (connective.join tree other).span = tree.span.to last.span := by
    rw [connective.span_join, hends, Span.to_to_right]
  have hend : (sign :: (before ++ row)).getLast? = some last := by
    simp [List.getLast?_cons, List.getLast?_append, hlast]
  have hjoined := hleft.extend last hend hspan (connective.isAtom_join tree other) ?_
  · have hall := hjoined.behind behind
    simpa using hall
  · intro left hleft between
    rw [connective.parts_join]
    refine hleft.cons (hrow.singleton.sublist ?_)
    exact List.IsInfix.sublist ⟨between ++ sign :: before, [], by simp⟩

theorem Laid.apply (h : Laid tokens tree) (op : UnaryOp) (sign : Token) :
    Laid (sign :: tokens) (.unary op tree (sign.span.to tree.span)) := by
  obtain ⟨before, row, behind, rfl, hrow⟩ := h
  obtain ⟨first, last, -, hlast, hends⟩ := hrow.exists_ends
  have hend : (sign :: (before ++ row)).getLast? = some last := by
    simp [List.getLast?_cons, List.getLast?_append, hlast]
  refine ⟨[], sign :: (before ++ row), behind, by simp, LaidAll.laidOn_of_span ?_ rfl hend ?_ rfl⟩
  · exact hrow.singleton.sublist (List.IsInfix.sublist ⟨sign :: before, [], by simp⟩)
  · show sign.span.to tree.span = _
    rw [hends, Span.to_to_right]

end Expr

/-! ## What parsers read -/

namespace Parse

open DataExpr.Expr (Laid LaidAll)

/-- What an outcome gives was read from the tokens in front of those that it leaves. -/
def Reads {α : Type} (p : List Token → α → Prop) (tokens : List Token)
    (outcome : Except SyntaxFailure (α × List Token)) : Prop :=
  ∀ result rest, outcome = .ok (result, rest) →
    ∃ read, tokens = read ++ rest ∧ EndsText rest ∧ p read result

/-- Whatever the parser gives it has read from the tokens that it passes. -/
def Lays {α : Type} (p : List Token → α → Prop) (parser : Parser α) : Prop :=
  ∀ tokens, EndsText tokens → Reads p tokens (parser tokens)

section

variable {α β : Type} {p : List Token → α → Prop} {q : List Token → β → Prop}
  {tokens : List Token}

theorem reads_error (failure : SyntaxFailure) : Reads p tokens (.error failure) := by
  rintro _ _ ⟨⟩

theorem reads_ok {result : α} (h : EndsText tokens) (hp : p [] result) :
    Reads p tokens (.ok (result, tokens)) := by
  rintro _ _ ⟨⟩
  exact ⟨[], rfl, h, hp⟩

/-- What is read behind other tokens is read from all of them. -/
theorem Reads.append {front : List Token} {outcome : Except SyntaxFailure (α × List Token)}
    (h : Reads (fun read => p (front ++ read)) tokens outcome) :
    Reads p (front ++ tokens) outcome := by
  intro result rest houtcome
  obtain ⟨read, rfl, hrest, hp⟩ := h result rest houtcome
  exact ⟨front ++ read, (List.append_assoc _ _ _).symm, hrest, hp⟩

/-- One parser behind another. -/
theorem Lays.behind {first : Parser Expr} {f : Expr → Parser β} (hfirst : Lays Laid first)
    (hf : ∀ read tree, Laid read tree → Lays (fun more => q (read ++ more)) (f tree)) :
    Lays q fun tokens => match first tokens with
      | .error failure => .error failure
      | .ok (result, rest) => f result rest := by
  intro tokens h
  have hread := hfirst tokens h
  dsimp only
  generalize first tokens = outcome at hread ⊢
  rcases outcome with failure | ⟨result, rest⟩
  · exact reads_error failure
  · obtain ⟨read, rfl, hrest, hp⟩ := hread result rest rfl
    exact (hf read result hp rest hrest).append

/-- A parser behind a token that is not the last. -/
theorem Reads.behind_advance {parser : Parser α} (h : EndsText tokens)
    (hcurrent : current tokens ≠ .endOfInput)
    (hparser : ∀ token, currentSpan tokens = token.span →
      Lays (fun read => p (token :: read)) parser) :
    Reads p tokens (parser (advance tokens)) := by
  obtain ⟨token, rest, rfl, hrest, hadvance⟩ := h.exists_cons hcurrent
  rw [hadvance]
  have hread : Reads p ([token] ++ rest) (parser rest) := .append (hparser token rfl rest hrest)
  exact hread

/-- A parser behind a sign that has to come. -/
theorem Lays.behind_sign (depth : Nat) (sign : Sign) {f : List Token → Parser α}
    (hf : ∀ tokens token, currentSpan tokens = token.span →
      Lays (fun read => p (token :: read)) (f tokens)) :
    Lays p fun tokens => match expect depth sign tokens with
      | .error failure => .error failure
      | .ok rest => f tokens rest := by
  intro tokens h
  by_cases hsign : current tokens = .sign sign
  · simp only [expect, if_pos hsign]
    exact .behind_advance h (by simp [hsign]) (hf tokens)
  · simp only [expect, if_neg hsign]
    exact reads_error _

/-- Passing the sign alone. -/
theorem lays_close (depth : Nat) (sign : Sign) {result : α} (h : ∀ closing, p [closing] result) :
    Lays p fun tokens => (expect depth sign tokens).map fun rest => (result, rest) := by
  intro tokens hended
  by_cases hsign : current tokens = .sign sign
  · obtain ⟨token, rest, rfl, hrest, hadvance⟩ := hended.exists_cons (by simp [hsign])
    simp only [expect, if_pos hsign, hadvance]
    rintro _ _ ⟨⟩
    exact ⟨[token], rfl, hrest, h token⟩
  · simp only [expect, if_neg hsign]
    exact reads_error _

theorem Lays.map {f : α → β} {parser : Parser α} (h : Lays p parser)
    (hf : ∀ read result, p read result → q read (f result)) :
    Lays q fun tokens => (parser tokens).map fun (result, rest) => (f result, rest) := by
  intro tokens hended
  have hread := h tokens hended
  dsimp only
  generalize parser tokens = outcome at hread ⊢
  rcases outcome with failure | ⟨result, rest⟩
  · exact reads_error failure
  · rintro _ _ ⟨⟩
    obtain ⟨read, htokens, hrest, hp⟩ := hread result rest rfl
    exact ⟨read, htokens, hrest, hf read result hp⟩

end

/-! ## Parsers at one depth -/

/-- All of these parsers read the trees that they give from the tokens that they pass. -/
structure Parsers.Lay (parsers : Parsers) : Prop where
  expr : Lays Laid parsers.expr
  unary : Lays Laid parsers.unary
  chain : ∀ tighter, Lays Laid (parsers.chain tighter)
  chainRest : ∀ level tighter {front left}, Laid front left →
    Lays (fun read => Laid (front ++ read)) (parsers.chainRest level tighter left)
  postfixRest : ∀ {front left}, Laid front left →
    Lays (fun read => Laid (front ++ read)) (parsers.postfixRest left)

section

variable {depth : Nat} {deeper? : Option Parsers}

/-- Going deeper reads what the deeper parsers read. -/
theorem enter_reads {α : Type} {p : List Token → α → Prop} {body : Parsers → Parser α}
    {tokens : List Token} (hdeeper : ∀ deeper ∈ deeper?, deeper.Lay)
    (hbody : ∀ deeper, deeper.Lay → Reads p tokens (body deeper tokens)) :
    Reads p tokens (enter depth deeper? body tokens) := by
  cases deeper? with
  | none => exact reads_error _
  | some deeper => exact hbody deeper (hdeeper deeper rfl)

theorem expr_lays (hdeeper : ∀ deeper ∈ deeper?, deeper.Lay) : Lays Laid (expr depth deeper?) :=
  fun tokens h => enter_reads hdeeper fun _ hd => hd.chain levels tokens h

theorem arguments_lays {argument : Parser Expr} (hargument : Lays Laid argument) (fuel : Nat) :
    Lays LaidAll (arguments depth argument fuel) := by
  induction fuel with
  | zero => exact fun _ _ => reads_error _
  | succ fuel ih =>
    intro tokens h
    rw [arguments]
    split
    · exact reads_ok h (Expr.laidAll_nil [])
    have hargument := hargument tokens h
    generalize argument tokens = outcome at hargument ⊢
    rcases outcome with failure | ⟨first, rest⟩
    · exact reads_error failure
    obtain ⟨read, rfl, hrest, hfirst⟩ := hargument first rest rfl
    apply Reads.append
    dsimp only
    split
    · rename_i hcomma
      refine .behind_advance hrest (by simp [hcomma]) fun comma _ =>
        ih.map fun more others hothers => ?_
      exact hfirst.cons (hothers.sublist (List.sublist_cons_self comma more))
    split
    · exact reads_ok hrest (hfirst.cons (Expr.laidAll_nil []))
    · exact reads_error _

theorem primary_lays (hdeeper : ∀ deeper ∈ deeper?, deeper.Lay) :
    Lays Laid (primary depth deeper?) := by
  intro tokens h
  unfold primary
  split
  · rename_i atom hatom
    have hcurrent : current tokens ≠ .endOfInput := by
      intro heq
      simp [heq, atom?] at hatom
    obtain ⟨token, rest, rfl, hrest, hadvance⟩ := h.exists_cons hcurrent
    rw [hadvance]
    rintro _ _ ⟨⟩
    exact ⟨[token], rfl, hrest, Expr.laid_atom hatom⟩
  · split
    · rename_i hparen
      have hinner : Lays Laid (expr depth deeper?) := expr_lays hdeeper
      have hgroup (opening : Token) := hinner.behind (q := fun read => Laid (opening :: read))
        fun read inner hinner => lays_close depth .rightParen
          fun closing => hinner.group opening closing
      exact Reads.behind_advance h (by simp [hparen]) fun opening _ => hgroup opening
    · exact reads_error _

/-! ### Postfix steps -/

section

variable {deeper : Parsers} (hdeeper : deeper.Lay) {front tokens : List Token} {object : Expr}
  (hobject : Laid front object) (h : EndsText tokens) (hcurrent : current tokens ≠ .endOfInput)

include hdeeper hobject h hcurrent

theorem memberStep_reads :
    Reads (fun read => Laid (front ++ read)) tokens (memberStep depth object deeper tokens) := by
  unfold memberStep
  dsimp only
  split
  · rename_i property hproperty
    obtain ⟨dot, tokens, rfl, htokens, hadvance⟩ := h.exists_cons hcurrent
    rw [hadvance] at hproperty ⊢
    have hname : current tokens ≠ .endOfInput := by
      intro heq
      simp [heq, TokenKind.propertyName?] at hproperty
    obtain ⟨name, rest, rfl, hrest, hbehind⟩ := htokens.exists_cons hname
    rw [hbehind]
    have hsteps := hdeeper.postfixRest (hobject.member property dot name) rest hrest
    simp only [List.append_assoc] at hsteps
    exact Reads.append (p := fun read => Laid (front ++ read)) hsteps
  · exact reads_error _

theorem indexStep_reads :
    Reads (fun read => Laid (front ++ read)) tokens (indexStep depth object deeper tokens) := by
  have hclosed (opening : Token) (read : List Token) (key : Expr) (hkey : Laid read key) :=
    Lays.behind_sign (p := fun more => Laid (front ++ opening :: (read ++ more))) (depth + 1)
      .rightBracket (f := fun tokens =>
        deeper.postfixRest (.index object key (object.span.to (currentSpan tokens))))
      fun tokens closing hspan => by
        rw [hspan]
        have hsteps := hdeeper.postfixRest (hobject.index hkey opening closing)
        simpa only [List.append_assoc, List.cons_append, List.nil_append] using hsteps
  have hindex (opening : Token) := hdeeper.expr.behind
    (q := fun read => Laid (front ++ opening :: read)) (hclosed opening)
  exact Reads.behind_advance (p := fun read => Laid (front ++ read)) h hcurrent
    fun opening _ => hindex opening

theorem callStep_reads :
    Reads (fun read => Laid (front ++ read)) tokens (callStep depth object deeper tokens) := by
  cases object with
  | name text start =>
    obtain ⟨opening, tokens, rfl, htokens, hadvance⟩ := h.exists_cons hcurrent
    unfold callStep
    dsimp only
    rw [hadvance]
    have harguments : Lays LaidAll (arguments (depth + 1) deeper.expr tokens.length) :=
      arguments_lays hdeeper.expr _
    have hread := harguments tokens htokens
    generalize arguments (depth + 1) deeper.expr tokens.length tokens = outcome at hread ⊢
    rcases outcome with failure | ⟨values, rest⟩
    · exact reads_error failure
    obtain ⟨read, rfl, hrest, hvalues⟩ := hread values rest rfl
    rw [← List.cons_append]
    apply Reads.append
    refine Lays.behind_sign (p := fun more => Laid (front ++ (opening :: read ++ more)))
      (depth + 1) .rightParen (f := fun tokens =>
        deeper.postfixRest (.call text values (start.to (currentSpan tokens))))
      (fun tokens closing hspan => ?_) rest hrest
    rw [hspan]
    have hsteps := hdeeper.postfixRest (hobject.call hvalues opening closing)
    simpa only [List.append_assoc, List.cons_append, List.nil_append] using hsteps
  | _ => exact reads_error _

end

theorem postfixRest_lays (hdeeper : ∀ deeper ∈ deeper?, deeper.Lay) {front : List Token}
    {left : Expr} (hleft : Laid front left) :
    Lays (fun read => Laid (front ++ read)) (postfixRest depth deeper? left) := by
  intro tokens h
  unfold postfixRest
  split
  · exact enter_reads hdeeper fun _ hd => memberStep_reads hd hleft h (by simp [*])
  · exact enter_reads hdeeper fun _ hd => indexStep_reads hd hleft h (by simp [*])
  · exact enter_reads hdeeper fun _ hd => callStep_reads hd hleft h (by simp [*])
  · refine reads_ok h ?_
    rwa [List.append_nil]

theorem postfixChain_lays (hdeeper : ∀ deeper ∈ deeper?, deeper.Lay) :
    Lays Laid (postfixChain depth deeper?) := by
  have hprimary : Lays Laid (primary depth deeper?) := primary_lays hdeeper
  exact hprimary.behind fun _ _ hfirst => postfixRest_lays hdeeper hfirst

theorem unary_lays (hdeeper : ∀ deeper ∈ deeper?, deeper.Lay) :
    Lays Laid (unary depth deeper?) := by
  intro tokens h
  unfold unary
  split
  · exact postfixChain_lays hdeeper tokens h
  · rename_i op hop
    have hoperand : Lays Laid (enter depth deeper? (·.unary)) :=
      fun tokens h => enter_reads hdeeper fun _ hd => hd.unary tokens h
    have hcurrent : current tokens ≠ .endOfInput := by
      intro heq
      simp [heq, unaryOp?] at hop
    have hsigned (sign : Token) (hspan : currentSpan tokens = sign.span) := hoperand.behind
      (q := fun read => Laid (sign :: read))
      (f := fun operand rest =>
        .ok (.unary op operand ((currentSpan tokens).to operand.span), rest))
      fun read operand hread rest hrest => reads_ok hrest (by
        rw [List.append_nil, hspan]
        exact hread.apply op sign)
    exact Reads.behind_advance h hcurrent hsigned

theorem chainRest_lays (hdeeper : ∀ deeper ∈ deeper?, deeper.Lay) (level : Level)
    (tighter : List Level) {front : List Token} {left : Expr} (hleft : Laid front left) :
    Lays (fun read => Laid (front ++ read)) (chainRest depth deeper? level tighter left) := by
  intro tokens h
  unfold chainRest
  split
  · refine reads_ok h ?_
    rwa [List.append_nil]
  · rename_i connective hconnective
    have hcurrent : current tokens ≠ .endOfInput := by
      intro heq
      simp [heq, Level.connective?] at hconnective
    have hrest (sign : Token) (deeper : Parsers) (hd : deeper.Lay) :=
      (hd.chain tighter).behind (q := fun read => Laid (front ++ sign :: read))
        fun read right hright => by
          have hnext := hd.chainRest level tighter (hleft.join hright connective sign)
          simpa only [List.append_assoc, List.cons_append] using hnext
    exact Reads.behind_advance (p := fun read => Laid (front ++ read)) h hcurrent
      fun sign _ tokens h => enter_reads hdeeper fun deeper hd => hrest sign deeper hd tokens h

theorem chain_lays (hdeeper : ∀ deeper ∈ deeper?, deeper.Lay) (tighter : List Level) :
    Lays Laid (chain depth deeper? tighter) := by
  induction tighter with
  | nil => exact unary_lays hdeeper
  | cons level tighter ih =>
    exact ih.behind fun _ _ hfirst => chainRest_lays hdeeper level tighter hfirst

theorem parsersAbove_lay (hdeeper : ∀ deeper ∈ deeper?, deeper.Lay) :
    (parsersAbove depth deeper?).Lay where
  expr := expr_lays hdeeper
  unary := unary_lays hdeeper
  chain := chain_lays hdeeper
  chainRest level tighter _ _ := chainRest_lays hdeeper level tighter
  postfixRest := postfixRest_lays hdeeper

end

/-- At every number of levels left the parsers read their trees from the tokens passed. -/
theorem parsersAt_lay (left depth : Nat) : (parsersAt left depth).Lay := by
  induction left generalizing depth with
  | zero => exact parsersAbove_lay fun _ h => by simp at h
  | succ left ih =>
    refine parsersAbove_lay fun deeper h => ?_
    obtain rfl := Option.some.inj h
    exact ih (depth + 1)

end Parse

/-! ## Pieces of the text -/

/-- The tokens cover something each, and one behind another. -/
structure InOrder (row : List Token) : Prop where
  nonempty : ∀ token ∈ row, token.span.start < token.span.stop
  apart : row.Pairwise fun earlier later => earlier.span.stop ≤ later.span.start

namespace InOrder

variable {row inner : List Token} {first last token : Token}

theorem sublist (h : InOrder row) (hsub : inner.Sublist row) : InOrder inner where
  nonempty token htoken := h.nonempty token (hsub.subset htoken)
  apart := h.apart.sublist hsub

theorem start_le (h : InOrder row) (hfirst : row.head? = some first) (htoken : token ∈ row) :
    first.span.start ≤ token.span.start := by
  obtain ⟨rest, rfl⟩ := List.head?_eq_some_iff.1 hfirst
  rcases List.mem_cons.1 htoken with rfl | hrest
  · exact Nat.le_refl _
  · have hapart := (List.pairwise_cons.1 h.apart).1 token hrest
    have hfirst := h.nonempty first List.mem_cons_self
    omega

theorem le_stop (h : InOrder row) (hlast : row.getLast? = some last) (htoken : token ∈ row) :
    token.span.stop ≤ last.span.stop := by
  obtain ⟨front, rfl⟩ := List.getLast?_eq_some_iff.1 hlast
  rcases List.mem_append.1 htoken with hfront | hmem
  · have hapart := (List.pairwise_append.1 h.apart).2.2 token hfront last List.mem_cons_self
    have hlast := h.nonempty last (List.mem_append_right _ List.mem_cons_self)
    omega
  · exact Nat.le_of_eq (by rw [List.mem_singleton.1 hmem])

end InOrder

namespace Expr

variable {row : List Token} {tree node : Expr}

/-- Every node of a tree lies on tokens of the tree's row. -/
theorem LaidOn.contains (h : LaidOn row tree) (hnode : tree.Contains node) :
    ∃ inner, inner.Sublist row ∧ LaidOn inner node := by
  induction hnode generalizing row with
  | root => exact ⟨row, List.Sublist.refl row, h⟩
  | @inside tree part node hpart _ ih =>
    cases h with
    | @node _ _ _ _ pieces _ _ _ _ hparts hrows hpieces =>
      rw [hparts, List.mem_map] at hpart
      obtain ⟨piece, hpiece, rfl⟩ := hpart
      obtain ⟨inner, hinner, hlaid⟩ := ih (hpieces piece hpiece)
      refine ⟨inner, hinner.trans (List.Sublist.trans ?_ hrows), hlaid⟩
      exact List.sublist_flatten_of_mem (List.mem_map_of_mem hpiece)

/-- On tokens in order a tree covers what goes from the first to the last. -/
theorem LaidOn.exists_covers (h : LaidOn row tree) (hrow : InOrder row) :
    ∃ first ∈ row, ∃ last ∈ row, tree.span = first.span.to last.span ∧
      tree.span.start < tree.span.stop := by
  obtain ⟨first, last, hfirst, hlast, hspan⟩ := h.exists_ends
  have hmem : first ∈ row := List.mem_of_head? hfirst
  refine ⟨first, hmem, last, List.mem_of_getLast? hlast, hspan, ?_⟩
  rw [hspan]
  exact Nat.lt_of_lt_of_le (hrow.nonempty first hmem) (hrow.le_stop hlast hmem)

theorem LaidOn.inside (h : LaidOn row tree) (hrow : InOrder row) :
    ∀ part ∈ tree.parts,
      tree.span.start ≤ part.span.start ∧ part.span.stop ≤ tree.span.stop := by
  cases h with
  | node hfirst hlast hspan _ hparts hrows hpieces =>
    rw [hparts, List.forall_mem_map, hspan]
    intro piece hpiece
    obtain ⟨first, last, hfirst', hlast', hspan'⟩ := (hpieces piece hpiece).exists_ends
    have hsub : piece.1.Sublist row :=
      (List.sublist_flatten_of_mem (List.mem_map_of_mem hpiece)).trans hrows
    rw [hspan']
    exact ⟨hrow.start_le hfirst (hsub.subset (List.mem_of_head? hfirst')),
      hrow.le_stop hlast (hsub.subset (List.mem_of_getLast? hlast'))⟩

theorem LaidOn.apart (h : LaidOn row tree) (hrow : InOrder row) :
    tree.parts.Pairwise fun earlier later => earlier.span.stop ≤ later.span.start := by
  cases h with
  | node _ _ _ _ hparts hrows hpieces =>
    have hapart := (List.pairwise_flatten.1 (hrow.sublist hrows).apart).2
    rw [List.pairwise_map] at hapart
    rw [hparts, List.pairwise_map]
    refine hapart.imp_of_mem fun {earlier later} hearlier hlater hpairs => ?_
    obtain ⟨_, last, _, hlast, hspan⟩ := (hpieces earlier hearlier).exists_ends
    obtain ⟨first, _, hfirst, _, hspan'⟩ := (hpieces later hlater).exists_ends
    rw [hspan, hspan']
    exact hpairs last (List.mem_of_getLast? hlast) first (List.mem_of_head? hfirst)

/-- The tree of a single token is that token's. -/
theorem LaidOn.atom (h : LaidOn row tree) (hatom : tree.isAtom = true) :
    ∃ token ∈ row, token.span = tree.span ∧ Atom token.kind tree.unplaced := by
  cases h with
  | @node _ _ first _ _ _ _ _ htoken =>
    obtain ⟨rfl, hread⟩ := htoken hatom
    have hspan : tree.span = first.span := (atom?_spec hread).1
    refine ⟨first, List.mem_cons_self, hspan.symm, (atom?_eq_some_iff _ _).1 ?_⟩
    rw [atom?_empty _ first.span, hread]
    rfl

end Expr

/-! ## The spans of an accepted text -/

theorem Token.StandsIn.start_lt_stop {token : Token} {source : String}
    {before piece behind : List Char} (h : token.StandsIn source before piece behind)
    (hpiece : piece ≠ []) : token.span.start < token.span.stop := by
  obtain ⟨c, cs, rfl⟩ := List.exists_cons_of_ne_nil hpiece
  have hsize := c.utf8Size_pos
  rw [h.start, h.stop, Text.byteLength_append, Text.byteLength_cons]
  omega

/-- In front of other tokens of a text stands no end of it. -/
theorem ne_endOfInput_of_mem_front {source : String} {front rest : List Token}
    (h : tokenize source = front ++ rest) (hrest : rest ≠ []) :
    ∀ token ∈ front, token.kind ≠ .endOfInput := by
  obtain ⟨before, hkinds, hbefore⟩ := kinds_eq_append source
  have hmap : rest.map Token.kind ≠ [] := by simpa using hrest
  have hfront := congrArg List.dropLast hkinds
  rw [kinds, h, List.map_append, List.dropLast_append_of_ne_nil hmap, List.dropLast_concat]
    at hfront
  rintro token htoken hkind
  apply hbefore
  rw [← hfront, ← hkind]
  exact List.mem_append_left _ (List.mem_map_of_mem htoken)

/-- Tokens of a text in front of others are in order. -/
theorem inOrder_of_tokenize {source : String} {front rest : List Token}
    (h : tokenize source = front ++ rest) (hrest : rest ≠ []) : InOrder front := by
  constructor
  · intro token htoken
    have hkind := ne_endOfInput_of_mem_front h hrest token htoken
    obtain ⟨before, after, rfl⟩ := List.append_of_mem htoken
    rw [List.append_assoc, List.cons_append] at h
    obtain ⟨_, piece, _, hstands, hcovers, -⟩ := exists_standsIn h
    exact hstands.start_lt_stop fun hpiece => hkind (hcovers.piece_eq_nil_iff.1 hpiece)
  · have hpairwise := (tiles_tokenize source).pairwise
    rw [h, List.pairwise_append] at hpairwise
    exact hpairwise.1

/-- What a node covers in a text, and how the pieces that its parts cover lie in that. -/
structure Expr.NestsIn (node : Expr) (source : String) : Prop where
  /-- It goes from a token to a token, and is told to stand where the first does. -/
  ends : ∃ first ∈ tokenize source, ∃ last ∈ tokenize source,
    node.span.start = first.span.start ∧ node.span.line = first.span.line ∧
      node.span.column = first.span.column ∧ node.span.stop = last.span.stop
  /-- It is a piece of the text, and not empty. -/
  covers : ∃ before piece behind, source.toList = before ++ piece ++ behind ∧ piece ≠ [] ∧
    node.span.start = byteLength before ∧ node.span.stop = byteLength (before ++ piece)
  /-- Each part lies inside. -/
  inside : ∀ part ∈ node.parts,
    node.span.start ≤ part.span.start ∧ part.span.stop ≤ node.span.stop
  /-- The parts lie one behind another. -/
  apart : node.parts.Pairwise fun earlier later => earlier.span.stop ≤ later.span.start
  /-- A node of a single token covers that token, which is read again from the piece. -/
  reread : node.isAtom = true → ∃ token ∈ tokenize source, token.span = node.span ∧
    Atom token.kind node.unplaced ∧ kinds (node.span.cover source) = [token.kind, .endOfInput]

/-- Between two tokens of a text, the first starting before the second ends, is a piece of it. -/
theorem exists_piece_between {source : String} {first last : Token}
    (hfirst : first ∈ tokenize source) (hlast : last ∈ tokenize source)
    (hlt : first.span.start < last.span.stop) :
    ∃ before piece behind, source.toList = before ++ piece ++ behind ∧ piece ≠ [] ∧
      first.span.start = byteLength before ∧ last.span.stop = byteLength (before ++ piece) := by
  obtain ⟨_, _, htokens⟩ := List.append_of_mem hfirst
  obtain ⟨before, piece, behind, hstands, -⟩ := exists_standsIn htokens
  obtain ⟨_, _, htokens'⟩ := List.append_of_mem hlast
  obtain ⟨before', piece', behind', hstands', -⟩ := exists_standsIn htokens'
  rw [hstands.start, hstands'.stop] at hlt
  have hsplit := hstands.chars.symm.trans hstands'.chars
  rw [List.append_assoc] at hsplit
  rcases List.append_eq_append_iff.1 hsplit with ⟨covered, hcovered, hbehind⟩ | ⟨more, rfl, -⟩
  · refine ⟨before, covered, behind', ?_, ?_, hstands.start, ?_⟩
    · rw [← hcovered]
      exact hstands'.chars
    · rintro rfl
      rw [hcovered, List.append_nil] at hlt
      omega
    · rw [← hcovered]
      exact hstands'.stop
  · rw [Text.byteLength_append (before' ++ piece')] at hlt
    omega

/-- A token that is an expression by itself is read again from what it covers. -/
theorem kinds_cover_of_atom {source : String} {token : Token} {tree : Expr}
    (htoken : token ∈ tokenize source) (hatom : Atom token.kind tree) :
    kinds (token.span.cover source) = [token.kind, .endOfInput] := by
  obtain ⟨_, _, htokens⟩ := List.append_of_mem htoken
  obtain ⟨before, piece, behind, hstands, hcovers, -⟩ := exists_standsIn htokens
  rw [hstands.cover_eq, kinds, tokenize, String.toList_ofList]
  refine hcovers.alone ?_ ?_
  · intro hkind
    rw [hkind] at hatom
    cases hatom
  · intro fault hkind
    rw [hkind] at hatom
    cases hatom

/-- The spans of a tree nest.  Every node covers a piece of the text, not empty, from the start
of a token to the end of one, and has the line and column of the first; its parts cover pieces
of that, from left to right and apart from each other; and a literal, a name, `undefined` or
`this` covers the token that it was made from. -/
theorem parse_spans_nest {source : String} {tree node : Expr}
    (h : Expr.parse source = .ok tree) (hnode : tree.Contains node) : node.NestsIn source := by
  obtain ⟨-, rest, hread, -⟩ := (parse_eq_ok_iff source tree).1 h
  obtain ⟨read, htokens, hends, before, row, behind, rfl, hlaid⟩ :=
    (parsersAt_lay maxNesting 0).expr _ (ended_kinds source) _ _ hread
  obtain ⟨inner, hinner, hlaid⟩ := hlaid.contains hnode
  have hsub := hinner.trans (List.infix_append before row behind).sublist
  have hrow := (inOrder_of_tokenize htokens hends.ne_nil).sublist hsub
  have hmem : ∀ token ∈ inner, token ∈ tokenize source := by
    intro token htoken
    rw [htokens]
    exact List.mem_append_left _ (hsub.subset htoken)
  obtain ⟨first, hfirst, last, hlast, hspan, hlt⟩ := hlaid.exists_covers hrow
  refine ⟨⟨first, hmem first hfirst, last, hmem last hlast, ?_⟩, ?_, hlaid.inside hrow,
    hlaid.apart hrow, fun hatom => ?_⟩
  · rw [hspan]
    exact ⟨rfl, rfl, rfl, rfl⟩
  · rw [hspan] at hlt ⊢
    exact exists_piece_between (hmem first hfirst) (hmem last hlast) hlt
  · obtain ⟨token, htoken, hcovers, hkind⟩ := hlaid.atom hatom
    rw [← hcovers]
    exact ⟨token, hmem token htoken, rfl, hkind, kinds_cover_of_atom (hmem token htoken) hkind⟩

/-- The tree of a step on a group, whose first operand is written in two bytes: the sum ends with
the bracket that closes the group, and starts after the one that opens it. -/
def stepOnGroup : Expr :=
  .member
    (.binary .add (.name "é" ⟨1, 3, 1, 2⟩) (.call "f" [.name "b" ⟨8, 9, 1, 8⟩] ⟨6, 10, 1, 6⟩)
      ⟨1, 10, 1, 2⟩)
    "c" ⟨1, 13, 1, 2⟩

theorem tokenize_stepOnGroup : tokenize "(é + f(b)).c" =
    [⟨.sign .leftParen, ⟨0, 1, 1, 1⟩⟩, ⟨.name "é", ⟨1, 3, 1, 2⟩⟩, ⟨.sign .plus, ⟨4, 5, 1, 4⟩⟩,
      ⟨.name "f", ⟨6, 7, 1, 6⟩⟩, ⟨.sign .leftParen, ⟨7, 8, 1, 7⟩⟩, ⟨.name "b", ⟨8, 9, 1, 8⟩⟩,
      ⟨.sign .rightParen, ⟨9, 10, 1, 9⟩⟩, ⟨.sign .rightParen, ⟨10, 11, 1, 10⟩⟩,
      ⟨.sign .dot, ⟨11, 12, 1, 11⟩⟩, ⟨.name "c", ⟨12, 13, 1, 12⟩⟩,
      ⟨.endOfInput, ⟨13, 13, 1, 13⟩⟩] := by
  decide +kernel

theorem parse_stepOnGroup : Expr.parse "(é + f(b)).c" = .ok stepOnGroup := by
  rw [Expr.parse, State.ofSource, tokenize_stepOnGroup]
  rfl

theorem parse_spans_nest_stepOnGroup :
    Expr.parse "(é + f(b)).c" = .ok stepOnGroup ∧ stepOnGroup.Contains stepOnGroup ∧
      stepOnGroup.NestsIn "(é + f(b)).c" :=
  ⟨parse_stepOnGroup, .root _, parse_spans_nest parse_stepOnGroup (.root _)⟩

end DataExpr
